import TreeCatalog.Store.Create
import TreeCatalog.Search
import TreeCatalog.Clock
import TreeCatalog.Json.Value
import TreeCatalog.Document.Encode
/-! # JSON shapes of results

The objects the HTTP API answers with and the command line prints: catalog summaries, search
hits, creation results and their warnings. Times are RFC 3339 in UTC. A creation result names the
copies only when they were made, and its warnings only when there are some. -/

namespace TreeCatalog.Wire

open Json

/-- A warning: the path skipped and why. -/
def warning (w : Walk.Warning) : Value :=
  .object [("path", .string w.path), ("message", .string w.message)]

/-- A catalog summary. -/
def summary (s : Store.Summary) : Value :=
  .object [("path", .string s.path), ("name", .string s.name), ("title", .string s.title),
    ("size", Value.nat s.size), ("modified", .string (Clock.rfc3339 s.modified)),
    ("hasHtml", .bool s.hasHtml)]

/-- A search hit. -/
def hit (h : Search.Hit) : Value :=
  .object [("catalog", .string h.catalog), ("catalogFilePath", .string h.catalogFilePath),
    ("basename", .string h.basename), ("fullPath", .string h.fullPath),
    ("fullName", .string h.fullName), ("type", .string h.kind), ("size", Value.int h.size)]

/-- The result of creating a catalog. -/
def created (c : Store.Created) : Value :=
  .object ([("jsonPath", .string c.jsonPath), ("htmlPath", .string c.htmlPath),
    ("fileCount", Value.nat c.fileCount), ("totalSize", Value.int c.totalSize)] ++
    (match c.copies with
      | some (a, b) => [("copyJsonPath", .string a), ("copyHtmlPath", .string b)]
      | none => []) ++
    (if c.warnings.isEmpty then [] else [("warnings", .array (c.warnings.map warning))]))

/-- A catalog tree. -/
def entry (e : Entry) : Value := Document.entryValue e

end TreeCatalog.Wire
