import TreeCatalog.Disk.Basic
import TreeCatalog.Document.Decode
/-! # Faults

Why an operation of the catalog failed, as causes with their messages. A failed file-system call
names the call, its path (two for a rename) and the error number; input/output faults name the
operation of the catalog they stopped (`stat`, `list`, `read`, `write`, `copy`), its path and the
cause, possibly under context texts. A fault may itself stand under context texts, which its
message shows first and its classification looks through. -/

namespace TreeCatalog

open Disk

/-- A failed file-system call. -/
inductive SysError where
  | onPath (call : String) (path : String) (errno : Errno)
  | onPair (call : String) (src dst : String) (errno : Errno)
deriving Repr, DecidableEq

/-- The message of a failed call: the call, its path(s), the error text. -/
def SysError.message : SysError → String
  | .onPath c p e => c ++ " " ++ p ++ ": " ++ e.text
  | .onPair c a b e => c ++ " " ++ a ++ " " ++ b ++ ": " ++ e.text

/-- The error number of a failed call. -/
def SysError.errno : SysError → Errno
  | .onPath _ _ e => e
  | .onPair _ _ _ e => e

/-- What lies under an input/output fault. -/
inductive Cause where
  | sys (e : SysError)
  | plain (text : String)
  | within (context : String) (inner : Cause)
deriving Repr, DecidableEq

/-- The message of a cause; context texts come first, each followed by `": "`. -/
def Cause.message : Cause → String
  | .sys e => e.message
  | .plain t => t
  | .within c inner => c ++ ": " ++ inner.message

/-- Whether a cause is, under its contexts, a missing file. -/
def Cause.missing : Cause → Bool
  | .sys e => e.errno == .noEntry
  | .plain _ => false
  | .within _ inner => inner.missing

/-- The operations an input/output fault can stop. -/
inductive IoOp where
  | stat
  | list
  | read
  | write
  | copy
deriving Repr, DecidableEq

/-- The name of an operation. -/
def IoOp.name : IoOp → String
  | .stat => "stat"
  | .list => "list"
  | .read => "read"
  | .write => "write"
  | .copy => "copy"

/-- Why an operation of the catalog failed. -/
inductive Fault where
  /-- A document that could not be read, with its path (empty when read from memory). -/
  | parse (path : String) (problem : Document.Problem)
  | notFound (path : String)
  | io (op : IoOp) (path : String) (cause : Cause)
  | accessDenied
  | plain (text : String)
  | within (context : String) (inner : Fault)
  /-- No failure but a call that never returns: it waits for ever to read the named pipe at
  `path`, which no process writes to. -/
  | waits (path : String)
deriving Repr

/-- The message of a fault. -/
def Fault.message : Fault → String
  | .parse path p =>
    if path = "" then "invalid catalog document: " ++ p.message
    else "invalid catalog document " ++ path ++ ": " ++ p.message
  | .notFound p => "not found: " ++ p
  | .io op p c => op.name ++ " " ++ p ++ ": " ++ c.message
  | .accessDenied => "access denied: path not in allowed list"
  | .plain t => t
  | .within c inner => c ++ ": " ++ inner.message
  | .waits p => "open " ++ p ++ ": waiting for a writer"

/-- The fault under all context texts. -/
def Fault.core : Fault → Fault
  | .within _ inner => inner.core
  | f => f

/-- Whether a fault was raised by the copy step: the input/output fault under its contexts is a
copy. -/
def Fault.isCopyFailure (f : Fault) : Bool :=
  match f.core with
  | .io .copy _ _ => true
  | _ => false

/-- A failed call on one path as an input/output fault of `op` on the same path. -/
def Fault.ofSys (op : IoOp) (call path : String) (e : Errno) : Fault :=
  .io op path (.sys (.onPath call path e))

theorem core_within (c : String) (f : Fault) : (Fault.within c f).core = f.core := rfl

theorem Fault.isCopyFailure_within (c : String) (f : Fault) :
    (Fault.within c f).isCopyFailure = f.isCopyFailure := rfl

end TreeCatalog
