import TreeCatalog.Disk.Basic
import TreeCatalog.Fault
import TreeCatalog.Markup.Unescape
import TreeCatalog.Text.Utf8
/-! # Documents in a directory

A directory's documents are its entries whose names end in `.json` and that are not directories
(a link counts by what it is, not by what it points to), in name order. A document `x.json` has
its rendering beside it at `x.html`. A catalog summary gives a readable document's name (its file
name without `.json`), its title (the rendering's title when there is one, else the name), its
size and modification time, and whether a rendering exists. The title of a rendering is the text
between the first `<title>` and the first `</title>` after it (either in any letter case), with
character references resolved and blanks trimmed; an empty title counts as none. -/

namespace TreeCatalog.Store

open Disk

/-- The extension of documents. -/
def documentExt : String := ".json"

/-- The extension of renderings. -/
def renderedExt : String := ".html"

/-- A string without one occurrence of `suffix` at its end. -/
def dropSuffix (s suffix : String) : String :=
  if s.endsWith suffix then String.ofList (s.toList.take (s.length - suffix.length)) else s

/-- The name of a document: its file name without the document extension. -/
def stem (path : String) : String := dropSuffix (Path.base path) documentExt

/-- Where the rendering of a document lives: the path without the document extension, then the
rendering extension. -/
def renderedPathFor (path : String) : String := dropSuffix path documentExt ++ renderedExt

/-- The paths of the documents directly inside `dir`, in name order. -/
def listDocuments (d : Disk) (dir : OsPath) : Except Fault (List String) :=
  match d.readDir dir with
  | .error e => .error (.io .list dir.shown (.sys (.onPath "open" dir.shown e)))
  | .ok entries =>
    .ok (entries.filterMap fun (name, kind) =>
      if kind ≠ .dir ∧ name.endsWith documentExt then some (Path.join [dir.shown, name])
      else none)

/-- The fault of a file that cannot be read: missing is "not found". -/
def readFault (path : String) : ReadError → Fault
  | .opening .noEntry => .notFound path
  | .opening e => Fault.ofSys .read "open" path e
  | .reading e => Fault.ofSys .read "read" path e
  | .waits => .waits path

/-- How many bytes past a refused byte the syntax check of a document looks at: a character
takes at most four and an escape six. -/
def scanReach : Nat := 8

/-- Reads and decodes the document at `path`. A zero byte is refused wherever it stands in a
document, so zeros past the stored bytes of a file matter only up to `scanReach`. -/
def loadDocument (d : Disk) (path : OsPath) : Except Fault Document.Document :=
  match (d.readFileCut path scanReach).mapError (readFault path.shown) with
  | .error f => .error f
  | .ok bytes =>
    match Document.decode bytes with
    | .ok doc => .ok doc
    | .error p => .error (.parse path.shown p)

/-- Checks the rendering of a document exists and gives its path. -/
def resolveRenderedPath (d : Disk) (path : OsPath) : Except Fault String :=
  let html := path.lexical renderedPathFor
  match d.stat html with
  | .ok _ => .ok html.shown
  | .error .noEntry => .error (.notFound html.shown)
  | .error e => .error (Fault.ofSys .stat "stat" html.shown e)

/-- The text of a rendering; ill-formed UTF-8 bytes read as U+FFFD. -/
def readRendered (d : Disk) (path : OsPath) : Except Fault String :=
  ((d.readFile path).mapError (readFault path.shown)).map Text.Utf8.decode

/-- An ASCII byte in lower case. -/
def lowerByte (b : UInt8) : UInt8 := if 65 ≤ b ∧ b ≤ 90 then b + 32 else b

/-- Where `pattern` (lower-case ASCII) first occurs in `bs` ignoring ASCII case: the bytes
before it and the bytes after it. -/
def findCaseless (pattern : List UInt8) : List UInt8 → Option (List UInt8 × List UInt8)
  | [] => if pattern.isEmpty then some ([], []) else none
  | b :: bs =>
    if pattern.isPrefixOf ((b :: bs).take pattern.length |>.map lowerByte) then
      some ([], (b :: bs).drop pattern.length)
    else (findCaseless pattern bs).map fun (before, after) => (b :: before, after)

/-- The bytes of `<title>`. -/
def titleOpen : List UInt8 := "<title>".toUTF8.toList

/-- The bytes of `</title>`. -/
def titleClose : List UInt8 := "</title>".toUTF8.toList

/-- The raw text of the first title element of a page. -/
def titleBytes (page : List UInt8) : Option (List UInt8) :=
  match findCaseless titleOpen page with
  | none => none
  | some (_, after) => (findCaseless titleClose after).map Prod.fst

/-- The title of a page: references resolved, blanks trimmed, none when empty. -/
def pageTitle (page : List UInt8) : Option String :=
  match titleBytes page with
  | none => none
  | some raw =>
    let t := Text.trim (Markup.unescape (Text.Utf8.decode raw))
    if t = "" then none else some t

/-- The title of the rendering at `path`, if it can be read and has one; a rendering that is a
named pipe waits. Neither tag holds a zero byte, so the zeros past the stored bytes of a file
never take part in a match. -/
def readTitle (d : Disk) (path : String) : Except Fault (Option String) :=
  match d.readFileCut path 0 with
  | .ok bytes => .ok (pageTitle bytes)
  | .error .waits => .error (.waits path)
  | .error _ => .ok none

/-- A readable document of a directory. -/
structure Summary where
  path : String
  name : String
  title : String
  size : Nat
  modified : Int
  hasHtml : Bool
deriving Repr

/-- The summary of the document at `path`, or why it cannot be given. -/
def summarize (d : Disk) (path : String) : Except Fault Summary :=
  match d.stat path with
  | .error e => .error (Fault.ofSys .stat "stat" path e)
  | .ok info =>
    match loadDocument d path with
    | .error f => .error f
    | .ok _ =>
      let name := stem path
      let html := renderedPathFor path
      match d.stat html with
      | .ok _ =>
        (readTitle d html).map fun title =>
          ⟨path, name, title.getD name, info.size, info.mtime, true⟩
      | .error _ => .ok ⟨path, name, name, info.size, info.mtime, false⟩

/-- The summaries of the readable documents among `paths`, in order; the others are left out,
but a read that waits holds up the rest. -/
def summaries (d : Disk) : List String → Except Fault (List Summary)
  | [] => .ok []
  | p :: ps =>
    match summarize d p with
    | .ok s => (summaries d ps).map (s :: ·)
    | .error (.waits q) => .error (.waits q)
    | .error _ => summaries d ps

/-- The summaries of the readable documents of `dir`, in name order; others are left out. -/
def listCatalogs (d : Disk) (dir : OsPath) : Except Fault (List Summary) :=
  (listDocuments d dir).bind (summaries d)

theorem dropSuffix_of_not_endsWith (s suffix : String) (h : s.endsWith suffix = false) :
    dropSuffix s suffix = s := by
  simp [dropSuffix, h]

end TreeCatalog.Store
