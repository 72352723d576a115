import TreeCatalog.Proofs.Walk.Children

/-! # Faults are pruning

A listing that fails leaves its directory empty, and a look that fails drops its entry. So a walk
with faults gives the tree that a walk without faults gives on the tree pruned accordingly:
`prune` empties each directory whose listing fails and deletes each entry whose look fails, and
`visitNode_prune` states the simulation one visit at a time. The paths are those the walk forms
from the root path, so faults elsewhere, on hidden entries, on links or below a pruned directory
change nothing. -/

namespace TreeCatalog.Walk

open Disk

mutual
/-- The tree below `path` with the faults made part of it: a directory whose listing fails is
emptied, and an entry whose look fails is deleted from its directory. -/
def prune (faults : Faults) (path : String) : Node → Node
  | .dir es => if faults.listing.contains path then .dir [] else .dir (pruneEntries faults path es)
  | n => n

/-- The entries of the directory at `path`, pruned. -/
def pruneEntries (faults : Faults) (path : String) : List (String × Node) → List (String × Node)
  | [] => []
  | (base, n) :: rest =>
    if faults.lookup.contains (Path.join [path, base]) then pruneEntries faults path rest
    else (base, prune faults (Path.join [path, base]) n) :: pruneEntries faults path rest
end

variable {faults : Faults}

theorem isDirNode_prune (path : String) (n : Node) : isDirNode (prune faults path n) = isDirNode n := by
  cases n with
  | dir es =>
    simp only [prune]
    split <;> rfl
  | _ => rfl

theorem kept_prune (path : String) (n : Node) : kept (prune faults path n) = kept n := by
  cases n with
  | dir es =>
    simp only [prune]
    split <;> rfl
  | _ => rfl

/-- An entry whose look succeeds passes screening without faults, once pruned, exactly when it
passes with them. -/
theorem screen_prune_isNone {path base : String} {n : Node}
    (hl : faults.lookup.contains path = false) :
    (screen {} path base (prune faults path n)).isNone = (screen faults path base n).isNone := by
  have hl : path ∉ faults.lookup := by simpa using hl
  cases n with
  | dir es =>
    simp only [prune]
    split <;> simp [screen, hl]
  | _ => simp [screen, prune, hl]

/-- One pass over a pruned listing without faults keeps what the pass with faults keeps, provided
each screened-in entry is visited alike. -/
theorem visitEntries_prune (path name : String) (dirs : Bool) :
    ∀ {es : List (String × Node)}, (∀ e ∈ es,
      (screen faults (Path.join [path, e.1]) e.1 e.2).isNone = true →
        (visitNode faults (Path.join [path, e.1]) (Entry.childName name e.1) e.2).entry =
          (visitNode {} (Path.join [path, e.1]) (Entry.childName name e.1)
            (prune faults (Path.join [path, e.1]) e.2)).entry) →
      (visitEntries faults path name dirs es).entries =
        (visitEntries {} path name dirs (pruneEntries faults path es)).entries
  | [], _ => by simp [visitEntries, pruneEntries]
  | (base, n) :: rest, hkids => by
    have ih := @visitEntries_prune path name dirs rest fun e he =>
      hkids e (List.mem_cons_of_mem _ he)
    by_cases hl : faults.lookup.contains (Path.join [path, base]) = true
    · -- a failed look deletes the entry, and the walk with faults skips it
      have hs : (screen faults (Path.join [path, base]) base n).isNone = false := by
        unfold screen
        split <;> simp
      rw [pruneEntries, if_pos hl]
      simp only [visitEntries, hs, Bool.false_and, Bool.false_eq_true, if_false]
      exact ih
    · have hl' : faults.lookup.contains (Path.join [path, base]) = false := by simpa using hl
      have hs := @screen_prune_isNone faults (Path.join [path, base]) base n hl'
      rw [pruneEntries, if_neg hl]
      simp only [visitEntries, hs, isDirNode_prune]
      split
      · next hv =>
        have hhead := hkids (base, n) (List.mem_cons_self ..) (by simp_all)
        simp only [Visit.cons, hhead, ih]
      · exact ih

/-- A visit with faults gives the entry that a visit without faults gives on the pruned node. -/
theorem visitNode_prune :
    ∀ path name n, (visitNode faults path name n).entry =
      (visitNode {} path name (prune faults path n)).entry := by
  refine @visit_induction faults _ ?file ?unlisted ?listed ?other
  case file => intro path name data size mtime; rfl
  case unlisted =>
    intro path name es hl
    have hl : path ∈ faults.listing := by simpa using hl
    have hzero : Text.wrap64 0 = 0 := Text.wrap64_of_range 0 (by decide) (by decide)
    simp [visitNode, prune, hl, visitEntries, Visits.none, hzero]
  case listed =>
    intro path name es hl ih
    have hl : path ∉ faults.listing := by simpa using hl
    have hdirs := visitEntries_prune path name true ih
    have hothers := visitEntries_prune path name false ih
    simp [visitNode, prune, hl, hdirs, hothers]
  case other =>
    intro path name n hk
    -- a link or a pipe is left as it is by pruning, and gives no entry with faults or without
    have hn : prune faults path n = n := by
      obtain ⟨t, rfl⟩ | rfl := (kept_eq_false_iff n).mp hk <;> rfl
    rw [hn, visitNode_entry_of_not_kept hk, visitNode_entry_of_not_kept hk]

end TreeCatalog.Walk
