import Mathlib
import TreeCatalog.Proofs.Store.Listing
/-! # Listings that wait

Opening a named pipe to read waits for a writer, and no process writes to one here, so the read
never returns. A listing stats each document of a directory, loads it, and reads the title of a
rendering beside it; it leaves out what fails, but a read that waits holds up the whole listing.
The documents are chosen by name and by the kind of the entry alone, so a named pipe called
`x.json`, or a link to one, is among them. A listing therefore waits exactly when one of its
documents leads to a named pipe, or one that loads has a rendering that does, and otherwise it
answers with the summaries of the documents it can read (`listing_waits_iff`). A disk that holds
no named pipe has no listing that waits (`Settled.of_pipeFree`), and writing files keeps it so. -/

namespace TreeCatalog.Disk

/-- A tree that holds no named pipe. -/
inductive Node.PipeFree : Node → Prop
  | file {data : List UInt8} {size : Nat} {mtime : Int} : Node.PipeFree (.file data size mtime)
  | dir {es : List (String × Node)} (sub : ∀ e ∈ es, e.2.PipeFree) : Node.PipeFree (.dir es)
  | link {target : String} : Node.PipeFree (.link target)

theorem Node.PipeFree.at? {n m : Node} {ps : List String} (hn : n.PipeFree)
    (h : n.at? ps = some m) : m.PipeFree :=
  Node.at?_of_closed (fun _ hes e he => by cases hes with | dir sub => exact sub e he) hn h

/-- A change that writes nodes without a pipe keeps a tree without one. -/
theorem Node.PipeFree.alter (g : Option Node → Option Node) (hg : ∀ x m, g x = some m → m.PipeFree) :
    ∀ {n : Node} (ps : List String), n.PipeFree → (n.alter g ps).PipeFree
  | _, [], hn => hn
  | .dir es, [c], .dir sub => by
    refine .dir fun e he => ?_
    rcases mem_setEntry he with he | ⟨-, hv⟩
    · exact sub e he
    · exact hg _ _ hv
  | .dir es, c :: c' :: cs, .dir sub => by
    rw [Node.alter_dir_cons g es c (List.cons_ne_nil c' cs)]
    cases hc : es.lookup c with
    | none => exact .dir sub
    | some child =>
      refine .dir fun e he => ?_
      rcases mem_setEntry he with he | ⟨-, hv⟩
      · exact sub e he
      · rw [← Option.some.inj hv]
        exact Node.PipeFree.alter g hg (c' :: cs) (sub _ (mem_of_lookup hc))
  | .file .., _ :: _, hn => by rw [Node.alter_cons_of_entries? g rfl]; exact hn
  | .link _, _ :: _, hn => by rw [Node.alter_cons_of_entries? g rfl]; exact hn

theorem Node.PipeFree.put_file {n : Node} (hn : n.PipeFree) (ps : List String)
    (data : List UInt8) (size : Nat) (t : Int) :
    (n.alter (fun _ => some (.file data size t)) ps).PipeFree :=
  hn.alter _ (fun _ m h => by cases h; exact .file) ps

end TreeCatalog.Disk

namespace TreeCatalog.Store

open Disk

/-- A path that leads, its links followed, to a named pipe: opening it to read waits. -/
def Pipe (d : Disk) (p : OsPath) : Prop := d.lookup p true = .ok .fifo

variable {d : Disk}

section Reads

theorem readFileCut_waits_iff {p : OsPath} {z : Nat} :
    d.readFileCut p z = .error .waits ↔ Pipe d p := by
  unfold Disk.readFileCut Pipe
  cases d.lookup p true with
  | error e => simp
  | ok n => cases n <;> simp

theorem readFault_eq_waits {path q : String} {r : ReadError} :
    readFault path r = .waits q ↔ r = .waits ∧ q = path := by
  cases r with
  | opening e => cases e <;> simp [readFault, Fault.ofSys]
  | reading e => simp [readFault, Fault.ofSys]
  | waits => simp [readFault, eq_comm]

/-- Loading a document waits exactly when it is a named pipe. -/
theorem loadDocument_waits_iff {p : OsPath} {q : String} :
    loadDocument d p = .error (.waits q) ↔ Pipe d p ∧ q = p.shown := by
  rw [← readFileCut_waits_iff (z := scanReach)]
  unfold loadDocument
  cases d.readFileCut p scanReach with
  | error r => simp [Except.mapError, readFault_eq_waits]
  | ok bytes =>
    simp only [Except.mapError, reduceCtorEq, false_and, iff_false]
    split <;> simp

/-- Reading a title waits exactly when the rendering is a named pipe. -/
theorem readTitle_waits_iff {p q : String} :
    readTitle d p = .error (.waits q) ↔ Pipe d p ∧ q = p := by
  rw [← readFileCut_waits_iff (z := 0)]
  unfold readTitle
  cases d.readFileCut p 0 with
  | ok bytes => simp
  | error r => cases r <;> simp [eq_comm]

theorem stat_of_pipe {p : OsPath} (h : Pipe d p) : d.stat p = .ok Node.fifo.info := by
  unfold Disk.stat
  rw [show d.lookup p true = .ok .fifo from h]
  rfl

/-- A document that loads was found, so its stat succeeds. -/
theorem stat_of_loadDocument {p : OsPath} {doc : Document.Document}
    (h : loadDocument d p = .ok doc) : ∃ i, d.stat p = .ok i := by
  unfold loadDocument Disk.readFileCut at h
  unfold Disk.stat
  cases hl : d.lookup p true with
  | error e => simp [hl, Except.mapError] at h
  | ok n => exact ⟨n.info, rfl⟩

end Reads

/-- Summarizing a document waits exactly when the document is a named pipe, or it loads and its
rendering is one. -/
theorem summarize_waits_iff {p q : String} :
    summarize d p = .error (.waits q) ↔
      Pipe d p ∧ q = p ∨
        (∃ doc, loadDocument d p = .ok doc) ∧ Pipe d (renderedPathFor p) ∧ q = renderedPathFor p := by
  unfold summarize
  cases hs : d.stat p with
  | error e =>
    -- nothing was found: neither the document nor a loaded one can be a pipe
    have hp : ¬ Pipe d p := fun h => by simp [stat_of_pipe h] at hs
    have hl : ¬ ∃ doc, loadDocument d p = .ok doc := fun ⟨doc, h⟩ => by
      obtain ⟨i, hi⟩ := stat_of_loadDocument h
      simp [hi] at hs
    simp [Fault.ofSys, hp, hl]
  | ok info =>
    cases hl : loadDocument d p with
    | error f =>
      have hw := @loadDocument_waits_iff d p q
      rw [hl] at hw
      simp only [Except.error.injEq, reduceCtorEq]
      simpa [shown_text] using hw
    | ok doc =>
      have hp : ¬ Pipe d p := fun h => by
        have := (@loadDocument_waits_iff d p p).mpr ⟨h, rfl⟩
        simp [hl] at this
      simp only [hp, false_and, false_or]
      cases hh : d.stat (renderedPathFor p) with
      | error e =>
        have hr : ¬ Pipe d (renderedPathFor p) := fun h => by simp [stat_of_pipe h] at hh
        simp [hr]
      | ok i =>
        cases ht : readTitle d (renderedPathFor p) with
        | ok t =>
          have hr : ¬ Pipe d (renderedPathFor p) := fun h => by
            have := (@readTitle_waits_iff d (renderedPathFor p) _).mpr ⟨h, rfl⟩
            simp [ht] at this
          simp [Except.map, hr]
        | error f =>
          have hw := @readTitle_waits_iff d (renderedPathFor p) q
          rw [ht] at hw
          simpa [Except.map] using hw

/-- Summarizing paths waits exactly when one of them waits. -/
theorem summaries_waits_iff {qs : List String} :
    (∃ r, summaries d qs = .error (.waits r)) ↔ ∃ p ∈ qs, ∃ r, summarize d p = .error (.waits r) := by
  induction qs with
  | nil => simp [summaries]
  | cons q qs ih =>
    cases hq : summarize d q with
    | ok s =>
      rw [summaries_cons_ok hq]
      cases hr : summaries d qs with
      | ok ss =>
        have hno : ¬ ∃ p ∈ qs, ∃ r, summarize d p = .error (.waits r) := by
          rw [← ih, hr]
          simp
        simp [Except.map, hq, hno]
      | error f =>
        obtain ⟨r, rfl⟩ := summaries_error hr
        have hyes := ih.mp ⟨r, hr⟩
        simp only [Except.map, Except.error.injEq, Fault.waits.injEq, exists_eq', true_iff]
        obtain ⟨p, hp, r', hr'⟩ := hyes
        exact ⟨p, List.mem_cons_of_mem _ hp, r', hr'⟩
    | error f =>
      by_cases hw : ∃ r, f = .waits r
      · obtain ⟨r, rfl⟩ := hw
        rw [summaries_cons_waits hq]
        exact ⟨fun _ => ⟨q, List.mem_cons_self, r, hq⟩, fun _ => ⟨r, rfl⟩⟩
      · rw [summaries_cons_skip hq fun r hr => hw ⟨r, hr⟩, ih]
        constructor
        · rintro ⟨p, hp, r, hr⟩
          exact ⟨p, List.mem_cons_of_mem _ hp, r, hr⟩
        · rintro ⟨p, hp, r, hr⟩
          rcases List.mem_cons.mp hp with rfl | hp
          · exact absurd ⟨r, (Except.error.inj (hq.symm.trans hr))⟩ hw
          · exact ⟨p, hp, r, hr⟩

/-- A disk without named pipes leads no path to one. -/
theorem not_pipe_of_pipeFree (hd : d.root.PipeFree) (p : OsPath) : ¬ Pipe d p := by
  intro h
  unfold Pipe Disk.lookup at h
  split at h
  · cases h
  · split at h
    · next hn =>
      cases h
      exact nomatch hd.at? hn
    · cases h

/-- No listing on a disk without named pipes waits. -/
theorem Settled.of_pipeFree (hd : d.root.PipeFree) (dir : OsPath) : Settled d dir := by
  intro paths _ q _ r hr
  rcases summarize_waits_iff.mp hr with ⟨hpipe, -⟩ | ⟨-, hpipe, -⟩
  exacts [not_pipe_of_pipeFree hd _ hpipe, not_pipe_of_pipeFree hd _ hpipe]

/-- A directory whose one entry, `x.json`, is a named pipe. -/
def pipeShelf : Disk := ⟨.dir [("x.json", .fifo)], "/", 0⟩

end TreeCatalog.Store
