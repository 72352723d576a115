import TreeCatalog.Path
/-! # Catalog entries

An entry is one node of a catalog tree: a kind (the text `file` or `directory`, or any other
text read from a document), a name, a size in bytes, and a child list that may be absent. An
absent list and an empty one are different values. The name is the only place path information
is kept: the root is `./photos`, a descendant `./photos/a/b`. -/

-- Sums start from the core zero, whatever other instances are in scope.
attribute [local instance (high)] Zero.ofOfNat0

namespace TreeCatalog

/-- One node of a catalog tree. -/
structure Entry where
  kind : String
  name : String
  size : Int
  children : Option (List Entry)
deriving Repr, Inhabited

namespace Entry

/-- The kind of a regular file. -/
def fileKind : String := "file"

/-- The kind of a directory. -/
def directoryKind : String := "directory"

/-- Whether the entry is a directory. -/
def isDir (e : Entry) : Bool := e.kind == directoryKind

/-- The child list, empty when absent. -/
def kids (e : Entry) : List Entry := e.children.getD []

/-- The last segment of the name: `.` for an empty name, `/` for slashes only. -/
def basename (e : Entry) : String := Path.base e.name

/-- An unnamed container that only carries children. -/
def isBareWrapper (e : Entry) : Bool := e.name == "" && e.children.isSome

/-- Files in the tree: a file counts one and its children are not looked at; any other kind
counts what its children count. -/
def countFiles : Entry → Nat
  | ⟨k, _, _, cs⟩ => if k == fileKind then 1 else match cs with
    | none => 0
    | some cs => (cs.map countFiles).sum

/-- Directories in the tree: a directory counts one plus what its children count; any other
kind counts nothing and its children are not looked at. -/
def countDirectories : Entry → Nat
  | ⟨k, _, _, cs⟩ => if k == directoryKind then 1 + (match cs with
    | none => 0
    | some cs => (cs.map countDirectories).sum) else 0

/-- Every entry of the tree in pre-order: the entry, then each child's subtree in order. -/
def preorder : Entry → List Entry
  | ⟨k, n, s, cs⟩ => ⟨k, n, s, cs⟩ :: match cs with
    | none => []
    | some cs => (cs.map preorder).flatten

mutual
/-- Visits a tree in pre-order, threading a state through the visits: `visit` sees an entry
before its children and says whether to go on into them. -/
def walk {σ : Type} (visit : σ → Entry → σ × Bool) (s : σ) : Entry → σ
  | ⟨k, n, sz, cs⟩ =>
    match visit s ⟨k, n, sz, cs⟩, cs with
    | (s', true), some cs => walkList visit s' cs
    | (s', _), _ => s'

/-- Visits each tree of a list in turn. -/
def walkList {σ : Type} (visit : σ → Entry → σ × Bool) (s : σ) : List Entry → σ
  | [] => s
  | c :: cs => walkList visit (walk visit s c) cs
end

/-- The name of a catalog root: `./` followed by the path from the root's parent directory to the
root, or `./` alone when there is no such step (the file-system root, `.`). -/
def rootName (absPath : String) : String :=
  match Path.rel (Path.dir absPath) absPath with
  | some r => if r = "." then "./" else "./" ++ r
  | none => "./"

/-- The name of `base` inside the directory named `parent`. -/
def childName (parent base : String) : String :=
  if parent = "./" then "./" ++ base else parent ++ "/" ++ base

theorem childName_root (base : String) : childName "./" base = "./" ++ base := by
  simp [childName]

theorem preorder_head (e : Entry) : e.preorder.head? = some e := by
  cases e with
  | mk k n s cs => unfold preorder; simp

end Entry

end TreeCatalog
