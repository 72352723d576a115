import TreeCatalog.Search
/-! # Searching documents in parallel

A search engine loads several documents at once. It lists the directory first (a listing that
fails is the answer), lower-cases the term, and hands the documents over one at a time, in listing
order, to a group of tasks that runs at most `workers` of them together: handing one over waits
while that many are running. A task gives up at once when the group's context is cancelled, and
then fails the group; otherwise it loads its document and stores what the document's search finds
in the document's own slot, and a document that cannot be loaded leaves its slot empty and is no
error. The first failure cancels the group. When every task has finished, a failed group fails the
search, and otherwise the slots are joined in document order.

Which task runs and finishes when is the scheduler's choice, so a run of the group is a list of
events, each the next hand-over, the end of one running task, or the cancellation of the caller's
context. A task reads the context once, before anything else, and then touches only its own slot
while the documents stay as they are, so each task is one event. -/

namespace TreeCatalog.Search

/-- What one document adds to a search for `needle`: the hits of its tree, or nothing when it
cannot be loaded. -/
def documentHits (d : Disk.Disk) (needle : String) (p : String) : Option (List Hit) :=
  match Store.loadDocument d p with
  | .ok doc => some (searchTree doc.root needle (Store.stem p) p)
  | .error _ => none

/-- A search engine: how many documents it loads at once, never fewer than one. -/
structure Engine where
  workers : Nat
  workers_pos : 0 < workers

/-- How many documents are loaded at once when no count is configured. -/
def defaultWorkers : Nat := 4

/-- An engine that loads `workers` documents at once; a count below one takes the default. -/
def Engine.new (workers : Int) : Engine :=
  if h : workers < 1 then ⟨defaultWorkers, by decide⟩ else ⟨workers.toNat, by omega⟩

/-- What the scheduler lets happen next. -/
inductive Event where
  /-- The next document is handed to the group. -/
  | launch
  /-- The running task of document `i` runs to its end. -/
  | finish (i : Nat)
  /-- The caller's context is cancelled. -/
  | cancel
deriving Repr, DecidableEq

/-- The error of a task that finds its context cancelled. -/
def canceled : Fault := .plain "context canceled"

/-- A group of search tasks under way. -/
structure Pool where
  /-- How many documents have been handed over, in order. -/
  launched : Nat
  /-- The documents whose tasks are running. -/
  running : List Nat
  /-- What each document's task stored, by the document's place; `none` until it stores. -/
  slots : List (Option (List Hit))
  /-- Whether the group's context is cancelled. -/
  cancelled : Bool
  /-- The first failure of a task. -/
  failure : Option Fault
deriving Repr

namespace Pool

/-- A group of `n` documents before anything is handed over. -/
def start (n : Nat) : Pool := ⟨0, [], List.replicate n none, false, none⟩

/-- One event in a group whose tasks store `tasks` (by document), running at most `workers` tasks
at once; none when the event cannot happen now. -/
def step (workers : Nat) (tasks : List (Option (List Hit))) (p : Pool) : Event → Option Pool
  | .launch =>
    if p.launched < tasks.length ∧ p.running.length < workers then
      some { p with launched := p.launched + 1, running := p.running ++ [p.launched] }
    else none
  | .finish i =>
    if i ∈ p.running then
      if p.cancelled then
        some { p with running := p.running.erase i, failure := p.failure <|> some canceled }
      else some { p with running := p.running.erase i, slots := p.slots.set i (tasks.getD i none) }
    else none
  | .cancel => some { p with cancelled := true }

/-- The events one after the other; none as soon as one cannot happen. -/
def run (workers : Nat) (tasks : List (Option (List Hit))) (p : Pool) : List Event → Option Pool
  | [] => some p
  | e :: es =>
    match p.step workers tasks e with
    | some q => q.run workers tasks es
    | none => none

/-- Whether all `n` documents are handed over and no task is running. -/
def done (n : Nat) (p : Pool) : Bool := p.launched == n && p.running.isEmpty

/-- The answer of a finished group: its first failure, or the slots joined in document order. -/
def answer (p : Pool) : Except Fault (List Hit) :=
  match p.failure with
  | some f => .error f
  | none => .ok (p.slots.flatMap fun s => s.getD [])

end Pool

/-- What the tasks of a search of `paths` for `needle` store. -/
def tasksOf (d : Disk.Disk) (needle : String) (paths : List String) : List (Option (List Hit)) :=
  paths.map (documentHits d needle)

/-- Whether the scheduler can let `events` happen in this order in a search of `dir` for `term`. -/
def Engine.schedulable (eng : Engine) (d : Disk.Disk) (term : String) (dir : Disk.OsPath)
    (events : List Event) : Bool :=
  match Store.listDocuments d dir with
  | .error _ => true
  | .ok paths =>
    let tasks := tasksOf d (Text.toLower term) paths
    ((Pool.start tasks.length).run eng.workers tasks events).isSome

/-- The answer of a search of `dir` for `term` whose tasks run as `events` say; none while the
events leave the group unfinished or ask for what cannot happen. A listing that fails is the
answer at once. -/
def Engine.search (eng : Engine) (d : Disk.Disk) (term : String) (dir : Disk.OsPath)
    (events : List Event) : Option (Except Fault (List Hit)) :=
  match Store.listDocuments d dir with
  | .error f => some (.error f)
  | .ok paths =>
    let tasks := tasksOf d (Text.toLower term) paths
    match (Pool.start tasks.length).run eng.workers tasks events with
    | some p => if p.done tasks.length then some p.answer else none
    | none => none

theorem Pool.run_nil (workers : Nat) (tasks : List (Option (List Hit))) (p : Pool) :
    p.run workers tasks [] = some p := rfl

end TreeCatalog.Search
