import TreeCatalog.Disk.Basic
/-! # Changing a disk

Creating, writing, renaming and removing files. A new name goes into its directory at its place in
name order. Creating follows a link in the last component unless the creation is exclusive, in
which case any existing name is refused with "file exists"; creating over a directory is refused
with "is a directory". Renaming refuses an existing directory as the new name with "file exists"
(unless the old name is itself missing, which is reported first) and otherwise replaces what the
new name held. A new name longer than 255 bytes is refused with "file name too long". Temporary
files are named `.tmp-` and a number, the first number not in use. -/

namespace TreeCatalog.Disk

/-- The entries with `name` set to `n`, or removed for `none`, keeping name order. -/
def setEntry (es : List (String × Node)) (name : String) (n : Option Node) :
    List (String × Node) :=
  let others := es.filter (·.1 ≠ name)
  match n with
  | none => others
  | some n => others.filter (·.1 < name) ++ [(name, n)] ++ others.filter (fun e => ¬ e.1 < name)

/-- The tree with the node at a physical path changed by `f` (`none` means absent). Paths that
do not lead through directories leave the tree as it is. -/
def Node.alter (f : Option Node → Option Node) : Node → List String → Node
  | n, [] => n
  | .dir es, [c] => .dir (setEntry es c (f (es.lookup c)))
  | .dir es, c :: cs =>
    match es.lookup c with
    | some child => .dir (setEntry es c (some (child.alter f cs)))
    | none => .dir es
  | n, _ => n

/-- The disk with the node at a physical path set (or removed). -/
def Disk.put (d : Disk) (phys : List String) (n : Option Node) : Disk :=
  { d with root := d.root.alter (fun _ => n) phys }

/-- The tree with `n` placed at a physical path, missing directories on the way created (a
non-directory on the way is replaced by one). -/
def Node.plant : Node → List String → Node → Node
  | _, [], n => n
  | .dir es, c :: cs, n =>
    let child := match es.lookup c with
      | some (.dir sub) => Node.dir sub
      | _ => .dir []
    .dir (setEntry es c (some (child.plant cs n)))
  | _, c :: cs, n => .dir [(c, (Node.dir []).plant cs n)]

/-- The disk with `n` placed at a physical path, creating the directories that lead to it. -/
def Disk.plant (d : Disk) (phys : List String) (n : Node) : Disk :=
  { d with root := d.root.plant phys n }

/-- The directory and the last name of a path: the directory resolved (links followed), the
name as written. -/
def Disk.parentOf (d : Disk) (p : String) : Except Errno (List String × String) :=
  let comps := components p
  match pathProblem p, comps.getLast? with
  | some e, _ => .error e
  | none, none => .error .isDir
  | none, some name =>
    if name = "." ∨ name = ".." then .error .isDir else
    match walk d.root true maxLinks (d.start p) comps.dropLast with
    | .error e => .error e
    | .ok dirPhys =>
      match d.root.at? dirPhys with
      | some (.dir _) => .ok (dirPhys, name)
      | _ => .error .notDir

/-- The text of a physical path. -/
def physText (phys : List String) : String := "/" ++ "/".intercalate phys

/-- What one attempt to open a path for writing found: the file (with the disk after creating
it, if it was new), or a dangling link whose target is to be created instead. -/
inductive Opened where
  | done (d : Disk) (phys : List String)
  | follow (dest : String)

/-- One attempt to open a path for writing, creating an empty file (stamped `now`) when the name
is free; an exclusive open refuses any existing name. -/
def Disk.openOnce (d : Disk) (p : String) (exclusive : Bool) (now : Int) : Except Errno Opened :=
  match d.parentOf p with
  | .error e => .error e
  | .ok (dirPhys, name) =>
    let phys := dirPhys ++ [name]
    match d.root.at? phys with
    | none =>
      if name.utf8ByteSize > maxNameBytes then .error .nameTooLong
      else .ok (.done (d.put phys (some (.file [] 0 now))) phys)
    | some (.dir _) => .error (if exclusive then .alreadyExists else .isDir)
    | some (.link target) =>
      if exclusive then .error .alreadyExists else
      match d.resolve p true with
      | .ok found =>
        match d.root.at? found with
        | some (.dir _) => .error .isDir
        | _ => .ok (.done d found)
      | .error .noEntry =>
        .ok (.follow (if Path.isAbs target then target else physText dirPhys ++ "/" ++ target))
      | .error e => .error e
    | some _ => if exclusive then .error .alreadyExists else .ok (.done d phys)

/-- Opens a path for writing, following at most `links` dangling links to the file they name.
The result is the disk and the physical path of the file. -/
def Disk.openCreate (d : Disk) (p : String) (exclusive : Bool) (now : Int) :
    Nat → Except Errno (Disk × List String)
  | 0 =>
    match d.openOnce p exclusive now with
    | .ok (.done d' phys) => .ok (d', phys)
    | .ok (.follow _) => .error .loop
    | .error e => .error e
  | k + 1 =>
    match d.openOnce p exclusive now with
    | .ok (.done d' phys) => .ok (d', phys)
    | .ok (.follow dest) => d.openCreate dest false now k
    | .error e => .error e

/-- The disk with the file at a physical path holding `bytes`, stamped `now`. -/
def Disk.setContents (d : Disk) (phys : List String) (bytes : List UInt8) (now : Int) : Disk :=
  d.put phys (some (.file bytes bytes.length now))

/-- Renames `old` to `new`. -/
def Disk.rename (d : Disk) (old new : String) : Except Errno Disk :=
  let newIsDir : Bool := match d.lstat new with
    | .ok i => i.kind == .dir
    | .error _ => false
  if newIsDir then
    match d.lstat old with
    | .error e => .error e
    | .ok _ => .error .alreadyExists
  else
    match d.parentOf old, d.parentOf new with
    | .error e, _ => .error e
    | _, .error e => .error e
    | .ok (od, on), .ok (nd, nn) =>
      match d.root.at? (od ++ [on]) with
      | none => .error (missing on)
      | some n =>
        if nn.utf8ByteSize > maxNameBytes then .error .nameTooLong
        else .ok ((d.put (od ++ [on]) none).put (nd ++ [nn]) (some n))

/-- The disk without the node at a physical path. -/
def Disk.remove (d : Disk) (phys : List String) : Disk := d.put phys none

/-- The name of the temporary file `dir/.tmp-N`; a directory ending in `/` takes no second one. -/
def tempName (dir : String) (n : Nat) : String :=
  (if dir.endsWith "/" then dir else dir ++ "/") ++ ".tmp-" ++ toString n

/-- Creates a new empty temporary file in `dir`, trying numbers from the disk's serial on while
they are taken (at most `tries` of them). The error names the path last tried. -/
def Disk.createTempFrom (d : Disk) (dir : String) (now : Int) :
    Nat → Nat → Except (String × Errno) (Disk × String × List String)
  | 0, n => .error (tempName dir n, .alreadyExists)
  | tries + 1, n =>
    let path := tempName dir n
    match d.openCreate path true now maxLinks with
    | .ok (d', phys) => .ok ({ d' with serial := n + 1 }, path, phys)
    | .error .alreadyExists => d.createTempFrom dir now tries (n + 1)
    | .error e => .error (path, e)

/-- Creates a new empty temporary file in `dir`: its disk, path as written, and physical path. -/
def Disk.createTemp (d : Disk) (dir : String) (now : Int) :
    Except (String × Errno) (Disk × String × List String) :=
  d.createTempFrom dir now 10000 d.serial

/-- One line of a listing: the path below the listed directory, the kind, the size of a file. -/
structure Listed where
  path : String
  kind : Kind
  size : Nat
deriving Repr

mutual
/-- Every node below a directory's entries in pre-order, paths prefixed by `pre`. -/
def listEntries (pre : String) : List (String × Node) → List Listed
  | [] => []
  | (name, n) :: rest => listNode (pre ++ name) n ++ listEntries pre rest

/-- A node and, for a directory, everything below it. -/
def listNode (path : String) : Node → List Listed
  | .dir es => ⟨path, .dir, 0⟩ :: listEntries (path ++ "/") es
  | n => [⟨path, n.info.kind, n.info.size⟩]
end

/-- Everything below the directory a path names, in pre-order and name order, without it. -/
def Disk.listing (d : Disk) (p : String) : List Listed :=
  match d.lookup p true with
  | .ok (.dir es) => listEntries "" es
  | _ => []

theorem tempName_of_plain (dir : String) (n : Nat) (h : dir.endsWith "/" = false) :
    tempName dir n = dir ++ "/" ++ ".tmp-" ++ toString n := by
  simp [tempName, h]

end TreeCatalog.Disk
