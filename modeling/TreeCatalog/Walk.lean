import TreeCatalog.Disk.Basic
import TreeCatalog.Entry.Basic
import TreeCatalog.Fault
/-! # Cataloguing a directory tree

The walk starts at a root path made absolute against the working directory and cleaned; the root
must exist (links followed) and be a regular file or a directory. Every regular file and directory
reached is counted and its name is reported as progress, in visiting order. A directory lists its
entries: names starting with `.` are passed over unseen; every other entry is looked at without
following links, and one that cannot be looked at, or is a link, is skipped with a warning. The
rest are visited directories first, then the others, each group in name order; an entry that is
neither file nor directory is skipped with a warning and not counted. A directory whose listing
fails is kept with no children and a warning. A directory's size is the sum of its children's,
added up in 64-bit arithmetic: a sum past `2^63 - 1` wraps around.
The warnings of one directory's entries come before those found while visiting them.

Failures of listing and looking at entries are given as the absolute paths at which they happen,
the way a test of this walk injects them. -/

-- Sums start from the core zero, whatever other instances are in scope.
attribute [local instance (high)] Zero.ofOfNat0

namespace TreeCatalog.Walk

open Disk

/-- Something skipped during the walk: its absolute path and why. -/
structure Warning where
  path : String
  message : String
deriving Repr, DecidableEq

/-- Absolute paths whose listing, or whose look without following links, fails with "permission
denied". -/
structure Faults where
  listing : List String := []
  lookup : List String := []
deriving Repr

/-- What a visit produced: the entry (none when skipped), the warnings and the progress names. -/
structure Visit where
  entry : Option Entry
  warnings : List Warning
  progress : List String
deriving Repr

/-- The children visited in a directory, with their warnings and progress names. -/
structure Visits where
  entries : List Entry
  warnings : List Warning
  progress : List String
deriving Repr

/-- Nothing visited. -/
def Visits.none : Visits := ⟨[], [], []⟩

/-- One visit followed by others. -/
def Visit.cons (v : Visit) (vs : Visits) : Visits :=
  ⟨v.entry.toList ++ vs.entries, v.warnings ++ vs.warnings, v.progress ++ vs.progress⟩

/-- The type text of a node that is neither a file nor a directory. -/
def modeText : Node → String
  | .fifo => "p---------"
  | .link _ => "L---------"
  | _ => "----------"

/-- Why an entry of a directory is not visited, if it is not: a warning, or nothing for a hidden
name. -/
def screen (faults : Faults) (path base : String) (n : Node) : Option (Option Warning) :=
  if base.startsWith "." then some none
  else if faults.lookup.contains path then
    some (some ⟨path, "lstat " ++ path ++ ": " ++ Errno.access.text⟩)
  else match n with
    | .link _ => some (some ⟨path, "symbolic link skipped"⟩)
    | _ => none

/-- Whether a node is a directory. -/
def isDirNode : Node → Bool
  | .dir _ => true
  | _ => false

/-- The warnings of screening a directory's entries, in name order. -/
def screenWarnings (faults : Faults) (fullPath : String) (es : List (String × Node)) :
    List Warning :=
  es.filterMap fun (base, n) => (screen faults (Path.join [fullPath, base]) base n).bind id

mutual
/-- Visits a node found at `fullPath` under the entry name `name`. -/
def visitNode (faults : Faults) (fullPath name : String) : Node → Visit
  | .file _ size _ => ⟨some ⟨Entry.fileKind, name, size, none⟩, [], [name]⟩
  | .dir es =>
    if faults.listing.contains fullPath then
      ⟨some ⟨Entry.directoryKind, name, 0, some []⟩,
        [⟨fullPath, "cannot read directory: open " ++ fullPath ++ ": " ++ Errno.access.text⟩],
        [name]⟩
    else
      let dirs := visitEntries faults fullPath name true es
      let others := visitEntries faults fullPath name false es
      let children := dirs.entries ++ others.entries
      ⟨some ⟨Entry.directoryKind, name, Text.wrap64 (children.map Entry.size).sum, some children⟩,
        screenWarnings faults fullPath es ++ dirs.warnings ++ others.warnings,
        name :: (dirs.progress ++ others.progress)⟩
  | n => ⟨none, [⟨fullPath, "unsupported file type " ++ modeText n⟩], []⟩

/-- Visits, in name order, the entries that pass screening and are directories (`dirs`) or are
not. -/
def visitEntries (faults : Faults) (fullPath name : String) (dirs : Bool) :
    List (String × Node) → Visits
  | [] => .none
  | (base, n) :: rest =>
    let path := Path.join [fullPath, base]
    if (screen faults path base n).isNone && isDirNode n == dirs then
      (visitNode faults path (Entry.childName name base) n).cons
        (visitEntries faults fullPath name dirs rest)
    else visitEntries faults fullPath name dirs rest
end

/-- A finished walk: the tree, the warnings and the progress names (one per counted entry). -/
structure Built where
  root : Entry
  warnings : List Warning
  progress : List String
deriving Repr

/-- How many entries were counted. -/
def Built.visited (b : Built) : Nat := b.progress.length

/-- Catalogues the tree at `rootPath`. -/
def build (d : Disk) (faults : Faults) (rootPath : String) : Except Fault Built :=
  let absPath := Path.abs d.cwd rootPath
  match d.lookup absPath true with
  | .error e => .error (.io .stat absPath (.sys (.onPath "stat" absPath e)))
  | .ok n =>
    let v := visitNode faults absPath (Entry.rootName absPath) n
    match v.entry with
    | some root => .ok ⟨root, v.warnings, v.progress⟩
    | none => .error (.io .stat absPath (.plain ("unsupported file type " ++ modeText n)))

theorem visitNode_file (faults : Faults) (fullPath name : String) (data : List UInt8)
    (size : Nat) (mtime : Int) :
    visitNode faults fullPath name (.file data size mtime) =
      ⟨some ⟨Entry.fileKind, name, size, none⟩, [], [name]⟩ := by
  simp [visitNode]

end TreeCatalog.Walk
