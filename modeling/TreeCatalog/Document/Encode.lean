import TreeCatalog.Entry.Basic
import TreeCatalog.Json.Value
/-! # Writing catalog documents

A document is written as one compact object per entry with the keys `type`, `name`, `size` and,
when the entry has a child list, `contents` (an empty list is `[]`, an absent one is left out).
Strings escape what JSON requires and the two line separators, and nothing else: `<`, `>` and `&`
stay as they are. -/

namespace TreeCatalog.Document

open Json

mutual
/-- The JSON value of an entry. -/
def entryValue : Entry → Value
  | ⟨k, n, s, cs⟩ =>
    .object ([("type", .string k), ("name", .string n), ("size", Value.int s)] ++
      match cs with
      | none => []
      | some cs => [("contents", .array (entryValues cs))])

/-- The JSON values of a list of entries. -/
def entryValues : List Entry → List Value
  | [] => []
  | e :: es => entryValue e :: entryValues es
end

/-- The document text of a catalog tree. -/
def encode (root : Entry) : String := (entryValue root).text .plain

/-- The document text of a tree that may be missing; a missing root cannot be written. -/
def encode? : Option Entry → Except String String
  | some root => .ok (encode root)
  | none => .error "nil catalog root"

theorem entryValues_eq_map (es : List Entry) : entryValues es = es.map entryValue := by
  induction es with
  | nil => rfl
  | cons e es ih => simp [entryValues, ih]

end TreeCatalog.Document
