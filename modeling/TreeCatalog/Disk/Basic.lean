import TreeCatalog.Disk.OsPath
/-! # A disk in memory

A disk is a tree of nodes (regular files, directories, symbolic links, named pipes) under one root
directory, with a working directory that relative paths start from. Paths are resolved the way a
Unix kernel does it, one component at a time: `.` stays, `..` goes to the parent of where the walk
physically is (so after a link it is the target's parent), a link met before the last component is
always followed, the last one only when asked, and a path that ends in `/` must name a directory.
At most 40 links are followed in one resolution. Directory entries are kept sorted by name.

Before any lookup a path is refused whole when it holds a NUL byte ("invalid argument"), is empty
("no such file or directory") or is longer than 4095 bytes ("file name too long"); a name longer
than 255 bytes is found in no directory and is refused with "file name too long". Names on a disk
are text, so a component of a path given as bytes that is not UTF-8 is found nowhere either. -/

namespace TreeCatalog.Disk

/-- The error numbers file-system calls report here. -/
inductive Errno where
  | noEntry
  | notDir
  | isDir
  | loop
  | access
  | alreadyExists
  | invalid
  | nameTooLong
deriving Repr, DecidableEq

/-- The text of an error number. -/
def Errno.text : Errno → String
  | .noEntry => "no such file or directory"
  | .notDir => "not a directory"
  | .isDir => "is a directory"
  | .loop => "too many levels of symbolic links"
  | .access => "permission denied"
  | .alreadyExists => "file exists"
  | .invalid => "invalid argument"
  | .nameTooLong => "file name too long"

/-- The longest name of a directory entry, in bytes. -/
def maxNameBytes : Nat := 255

/-- The longest path a call takes, in bytes. -/
def maxPathBytes : Nat := 4095

/-- Why a path is refused before the disk is looked at: a NUL byte makes it no path at all, and
it must be neither empty nor longer than `maxPathBytes`. -/
def pathProblem (p : String) : Option Errno :=
  if p.contains '\x00' then some .invalid
  else if p = "" then some .noEntry
  else if p.utf8ByteSize > maxPathBytes then some .nameTooLong
  else none

/-- Why a path given as bytes is refused before the disk is looked at. -/
def bytesProblem (bs : List UInt8) : Option Errno :=
  if bs.contains 0 then some .invalid
  else if bs = [] then some .noEntry
  else if bs.length > maxPathBytes then some .nameTooLong
  else none

/-- The error of a name that no directory holds: too long to be held, or just absent. -/
def missing (name : String) : Errno :=
  if name.utf8ByteSize > maxNameBytes then .nameTooLong else .noEntry

/-- A node of the tree. A file holds its first bytes and its size; bytes past the stored ones
read as zeros. Times are nanoseconds since the epoch. -/
inductive Node where
  | file (data : List UInt8) (size : Nat) (mtime : Int)
  | dir (entries : List (String × Node))
  | link (target : String)
  | fifo
deriving Repr, Inhabited

/-- What a node is. -/
inductive Kind where
  | file
  | dir
  | link
  | fifo
deriving Repr, DecidableEq

/-- What `stat` tells about a node. -/
structure Info where
  kind : Kind
  size : Nat
  mtime : Int
deriving Repr, DecidableEq

/-- The time in seconds that a file keeps when stamped with `s`: file times are stored in 32 bits
of seconds, so an earlier or later time is kept as the nearest one that fits. -/
def storedSeconds (s : Int) : Int := max (-2147483648) (min s 2147483647)

theorem storedSeconds_of_range (s : Int) (h1 : -2147483648 ≤ s) (h2 : s ≤ 2147483647) :
    storedSeconds s = s := by
  unfold storedSeconds; omega

/-- The facts of a node. A directory reports the size of one block, a link the length of its
target. -/
def Node.info : Node → Info
  | .file _ size mtime => ⟨.file, size, mtime⟩
  | .dir _ => ⟨.dir, 4096, 0⟩
  | .link target => ⟨.link, target.utf8ByteSize, 0⟩
  | .fifo => ⟨.fifo, 0, 0⟩

/-- The bytes of a file: the stored ones cut to the size, then zeros up to it. -/
def contents (data : List UInt8) (size : Nat) : List UInt8 :=
  data.take size ++ List.replicate (size - data.length) 0

/-- The entries of a directory node. -/
def Node.entries? : Node → Option (List (String × Node))
  | .dir es => some es
  | _ => none

/-- The node at a physical path (components from the root, no `.`, `..` or links). -/
def Node.at? (n : Node) : List String → Option Node
  | [] => some n
  | c :: cs =>
    match n with
    | .dir es =>
      match es.lookup c with
      | some child => child.at? cs
      | none => none
    | _ => none

/-- The disk: its root directory and the working directory (an absolute, clean physical path). -/
structure Disk where
  root : Node
  cwd : String
  /-- The next number to try for a temporary file name. -/
  serial : Nat := 0
deriving Repr

/-- The components of a path as the kernel reads them; a trailing slash adds a `.`, so that the
last name must be a directory. -/
def components (p : String) : List String :=
  let cs := Path.parts p
  if p.endsWith "/" && !cs.isEmpty then cs ++ ["."] else cs

/-- The components of a path given as bytes, as a walk reads them. A component that is UTF-8 is
its text; one that is not is written as NULs, one per byte: a path with a NUL is refused before
any walk and no name holds one, so such a component is found nowhere and keeps its length. A
trailing slash adds a `.`. -/
def byteComponents (bs : List UInt8) : List String :=
  let cs := (byteParts bs).map fun c =>
    if Text.Utf8.valid c then Text.Utf8.decode c else String.ofList (List.replicate c.length '\x00')
  if bs.getLast? = some 47 && !cs.isEmpty then cs ++ ["."] else cs

/-- How many links one resolution may follow. -/
def maxLinks : Nat := 40

/-- Walks `comps` from the directory at physical path `here`; `links` is how many more links may
be followed. The result is the physical path reached. -/
def walk (root : Node) (followLast : Bool) (links : Nat) (here : List String) :
    List String → Except Errno (List String)
  | [] => .ok here
  | c :: rest =>
    if c = "." then walk root followLast links here rest
    else if c = ".." then walk root followLast links here.dropLast rest
    else
      match (root.at? here).bind Node.entries? with
      | none => .error .notDir
      | some es =>
        match es.lookup c with
        | none => .error (missing c)
        | some (.link target) =>
          if rest.isEmpty ∧ !followLast then .ok (here ++ [c])
          else
            match links with
            | 0 => .error .loop
            | k + 1 =>
              if target = "" then .error .noEntry
              else
                walk root followLast k (if Path.isAbs target then [] else here)
                  (components target ++ rest)
        | some (.dir _) => walk root followLast links (here ++ [c]) rest
        | some _ => if rest.isEmpty then .ok (here ++ [c]) else .error .notDir
termination_by comps => (links, comps.length)

/-- The components a path starts from: the root for an absolute path, else the working
directory. -/
def Disk.start (d : Disk) (p : String) : List String :=
  if Path.isAbs p then [] else Path.parts d.cwd

/-- Resolves a path to a physical path, following the last link when `follow` is set. -/
def Disk.resolve (d : Disk) (p : OsPath) (follow : Bool) : Except Errno (List String) :=
  match p with
  | .text s =>
    match pathProblem s with
    | some e => .error e
    | none => walk d.root follow maxLinks (d.start s) (components s)
  | .raw bs =>
    match bytesProblem bs with
    | some e => .error e
    | none =>
      walk d.root follow maxLinks (if bs.head? = some 47 then [] else Path.parts d.cwd)
        (byteComponents bs)

/-- The node a path names, following the last link when `follow` is set. -/
def Disk.lookup (d : Disk) (p : OsPath) (follow : Bool) : Except Errno Node :=
  match d.resolve p follow with
  | .error e => .error e
  | .ok phys =>
    match d.root.at? phys with
    | some n => .ok n
    | none => .error .noEntry

/-- The facts of the node a path names, links followed. -/
def Disk.stat (d : Disk) (p : OsPath) : Except Errno Info := (d.lookup p true).map Node.info

/-- The facts of the node a path names, a last link taken as it is. -/
def Disk.lstat (d : Disk) (p : OsPath) : Except Errno Info := (d.lookup p false).map Node.info

/-- The entries of the directory a path names, sorted by name, with their kinds. -/
def Disk.readDir (d : Disk) (p : OsPath) : Except Errno (List (String × Kind)) :=
  match d.lookup p true with
  | .error e => .error e
  | .ok (.dir es) => .ok (es.map fun (name, n) => (name, n.info.kind))
  | .ok _ => .error .notDir

/-- Why reading a file gave no bytes. -/
inductive ReadError where
  /-- Opening the file failed. -/
  | opening (e : Errno)
  /-- The file opened, but reading from it failed. -/
  | reading (e : Errno)
  /-- Opening the file waits for a writer: it is a named pipe, and no process writes to one
  here, so the read never returns. -/
  | waits
deriving Repr, DecidableEq

/-- The bytes of the file a path names. A directory opens but cannot be read; a named pipe
waits. -/
def Disk.readFile (d : Disk) (p : OsPath) : Except ReadError (List UInt8) :=
  match d.lookup p true with
  | .error e => .error (.opening e)
  | .ok (.file data size _) => .ok (contents data size)
  | .ok (.dir _) => .error (.reading .isDir)
  | .ok .fifo => .error .waits
  -- a path whose last link is followed never ends at a link
  | .ok (.link _) => .ok []

/-- The bytes of the file a path names, with the zeros past its stored bytes cut to at most
`zeros`: all a reader needs that refuses the first zero byte it meets and looks at most `zeros`
bytes on from there, without spelling out a large file that holds little. -/
def Disk.readFileCut (d : Disk) (p : OsPath) (zeros : Nat) : Except ReadError (List UInt8) :=
  match d.lookup p true with
  | .error e => .error (.opening e)
  | .ok (.file data size _) =>
    .ok (data.take size ++ List.replicate (min zeros (size - data.length)) 0)
  | .ok (.dir _) => .error (.reading .isDir)
  | .ok .fifo => .error .waits
  | .ok (.link _) => .ok []

theorem readFileCut_of_le (d : Disk) (p : OsPath) (zeros : Nat) (data : List UInt8)
    (size : Nat) (mtime : Int) (hf : d.lookup p true = .ok (.file data size mtime))
    (h : size - data.length ≤ zeros) : d.readFileCut p zeros = d.readFile p := by
  simp [Disk.readFileCut, Disk.readFile, hf, contents, Nat.min_eq_right h]

theorem walk_nil (root : Node) (followLast : Bool) (links : Nat) (here : List String) :
    walk root followLast links here [] = .ok here := by
  simp [walk]

end TreeCatalog.Disk
