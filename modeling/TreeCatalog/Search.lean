import TreeCatalog.Store.Documents
import TreeCatalog.Text.LowerCase
/-! # Finding entries by name

A search walks a document's tree in pre-order and reports every named entry whose lower-cased name
contains the term; an unnamed entry is never reported, though its children are still walked. A hit
carries the catalog's name and path, the entry's name, its last segment, the part before that
segment, its kind and its size. A search of a directory lower-cases the term, then searches each of
its readable documents in name order; unreadable ones are passed over. -/

namespace TreeCatalog.Search

/-- One matching entry. -/
structure Hit where
  catalog : String
  catalogFilePath : String
  basename : String
  fullPath : String
  fullName : String
  kind : String
  size : Int
deriving Repr

/-- Whether `needle` occurs in a character list as a run. -/
def occursIn (needle : List Char) : List Char → Bool
  | [] => needle.isEmpty
  | c :: cs => needle.isPrefixOf (c :: cs) || occursIn needle cs

/-- Whether `needle` occurs in `hay` as a run of characters. -/
def containsText (hay needle : String) : Bool := occursIn needle.toList hay.toList

/-- The part of a name before its last segment, not cleaned: trailing slashes are ignored, `.`
stands for no slash (and for the empty name), `/` for a slash at the front only or a name of
slashes. -/
def dirname (name : String) : String :=
  let trimmed := (name.toList.reverse.dropWhile (· = '/')).reverse
  if trimmed.isEmpty then (if name = "" then "." else "/") else
    match (trimmed.reverse.dropWhile (· ≠ '/')) with
    | [] => "."
    | _ :: before =>
      if before.isEmpty then "/" else String.ofList before.reverse

/-- The hit for an entry of a catalog; a name without a directory part has an empty one. -/
def hitOf (catalog path : String) (e : Entry) : Hit :=
  let dir := dirname e.name
  ⟨catalog, path, e.basename, if dir = "." then "" else dir, e.name, e.kind, e.size⟩

/-- The visit of one entry by a search for a term already in lower case: the hits so far, with
the entry's hit added when it is a named entry whose lower-cased name contains the term. Every
entry's children are visited. -/
def collect (catalog path term : String) (hits : List Hit) (e : Entry) : List Hit × Bool :=
  -- unnamed containers are descended into but never matched
  if e.isBareWrapper then (hits, true)
  else if e.name != "" && containsText (Text.toLower e.name) term then
    (hits ++ [hitOf catalog path e], true)
  else (hits, true)

/-- The hits of one document's tree for a term already in lower case. -/
def searchTree (root : Entry) (term catalog path : String) : List Hit :=
  root.walk (collect catalog path term) []

/-- The hits of every readable document of `dir` for `term`, documents in name order. -/
def searchDirectory (d : Disk.Disk) (term : String) (dir : Disk.OsPath) :
    Except Fault (List Hit) :=
  let needle := Text.toLower term
  (Store.listDocuments d dir).map fun paths =>
    paths.flatMap fun (p : String) =>
      match Store.loadDocument d p with
      | .ok doc => searchTree doc.root needle (Store.stem p) p
      | .error _ => []

theorem occursIn_nil (cs : List Char) : occursIn [] cs = true := by
  cases cs <;> simp [occursIn]

end TreeCatalog.Search
