import Mathlib
import TreeCatalog.Proofs.Entry.Tree
import TreeCatalog.Proofs.Walk.Children

/-! # What a walk reports, once each

A walk reports progress once for each entry it builds, as it builds it, so the progress names are
the names of the tree in pre-order (`visitNode_counted`), and their number is the number of files
and directories of the tree (`Entry.length_preorder`). It warns once for each directory whose
listing fails, and once for each entry of a listed directory that is not hidden and cannot be
looked at, is a link, or is neither file nor directory: `owedWarnings` lists these entry by entry,
and the warnings of a walk are that list in another order (`visitNode_warnings_perm`), the
screening warnings of a directory coming before those of the visits below it. A hidden entry is
never looked at: a walk depends on the faults only at the paths it can form from its root by
joining names that do not start with `.` (`visitNode_faults_congr`), and on the tree only once its
hidden entries are taken out (`visitNode_unhide`). -/

namespace TreeCatalog.Walk

open Disk

/-! ## The warnings owed -/

mutual
/-- The warnings owed by the walk of a node found at `path`: none for a regular file; one for a
directory whose listing fails, and otherwise those owed by the entries of its listing; one for a
link, and one for a node that is neither file, directory nor link. -/
def owedWarnings (faults : Faults) (path : String) : Node → List Warning
  | .file .. => []
  | .dir es =>
    if faults.listing.contains path then
      [⟨path, "cannot read directory: open " ++ path ++ ": " ++ Errno.access.text⟩]
    else owedEntries faults path es
  | .link _ => [⟨path, "symbolic link skipped"⟩]
  | .fifo => [⟨path, "unsupported file type p---------"⟩]

/-- The warnings owed by the entries of the directory listed at `dir`: none for a hidden name,
one for an entry that cannot be looked at, and otherwise those owed by the entry's node. -/
def owedEntries (faults : Faults) (dir : String) : List (String × Node) → List Warning
  | [] => []
  | (base, n) :: rest =>
    (if base.startsWith "." then []
      else if faults.lookup.contains (Path.join [dir, base]) then
        [⟨Path.join [dir, base], "lstat " ++ Path.join [dir, base] ++ ": " ++ Errno.access.text⟩]
      else owedWarnings faults (Path.join [dir, base]) n) ++
    owedEntries faults dir rest
end

/-! ## Visits one after another -/

/-- A visit reports as progress the names of the tree it gives, in pre-order. -/
def Visit.Counted (v : Visit) : Prop :=
  v.progress = (v.entry.toList.flatMap Entry.preorder).map Entry.name

/-- Visits report as progress the names of the trees they give, in pre-order. -/
def Visits.Counted (vs : Visits) : Prop :=
  vs.progress = (vs.entries.flatMap Entry.preorder).map Entry.name

theorem Visits.counted_none : Visits.none.Counted := by
  simp [Visits.Counted, Visits.none]

theorem Visit.Counted.cons {v : Visit} {vs : Visits} (hv : v.Counted) (hvs : vs.Counted) :
    (v.cons vs).Counted := by
  simp only [Visits.Counted, Visit.Counted, Visit.cons] at *
  rw [hv, hvs, List.flatMap_append, List.map_append]

section Passes

variable {faults : Faults}

theorem visitEntries_nil (fullPath name : String) (dirs : Bool) :
    visitEntries faults fullPath name dirs [] = .none := by
  rw [visitEntries]

theorem visitEntries_cons (fullPath name : String) (dirs : Bool) (e : String × Node)
    (rest : List (String × Node)) :
    visitEntries faults fullPath name dirs (e :: rest) =
      if visits faults fullPath dirs e then
        (visitNode faults (Path.join [fullPath, e.1]) (Entry.childName name e.1) e.2).cons
          (visitEntries faults fullPath name dirs rest)
      else visitEntries faults fullPath name dirs rest := by
  obtain ⟨base, n⟩ := e
  rw [visitEntries]
  rfl

/-- A pass whose visits each report their tree reports the trees of the pass. -/
theorem visitEntries_counted (fullPath name : String) (dirs : Bool) :
    ∀ {es : List (String × Node)}, (∀ e ∈ es, visits faults fullPath dirs e = true →
      (visitNode faults (Path.join [fullPath, e.1]) (Entry.childName name e.1) e.2).Counted) →
      (visitEntries faults fullPath name dirs es).Counted
  | [], _ => by rw [visitEntries_nil]; exact Visits.counted_none
  | e :: rest, h => by
    have hrest := visitEntries_counted fullPath name dirs fun e' he' => h e' (List.mem_cons_of_mem _ he')
    rw [visitEntries_cons]
    split
    · next hv => exact (h e (List.mem_cons_self ..) hv).cons hrest
    · exact hrest

end Passes

/-! ## Progress -/

section Progress

variable (faults : Faults)

/-- Every visit reports as progress the names of the tree it gives, in pre-order: one name per
entry, the entry before its children. -/
theorem visitNode_counted : ∀ path name n, (visitNode faults path name n).Counted := by
  refine @visit_induction faults _ ?file ?unlisted ?listed ?other
  case file => intro path name data size mtime; simp [Visit.Counted, visitNode, Entry.preorder]
  case unlisted =>
    intro path name es hl
    simp only [Visit.Counted, visitNode, hl, if_true]
    simp [Entry.preorder]
  case listed =>
    intro path name es hl ih
    -- both passes report their trees, and the directory's name comes first
    have hpass (dirs : Bool) := @visitEntries_counted faults path name dirs es
      fun e he hv => ih e he (by simp only [visits, Bool.and_eq_true] at hv; exact hv.1)
    simp only [Visits.Counted] at hpass
    simp only [Visit.Counted, visitNode, hl, Bool.false_eq_true, if_false, Option.toList_some,
      List.flatMap_singleton]
    rw [Entry.preorder_eq, List.map_cons, hpass true, hpass false]
    simp [Entry.kids, List.flatMap_def]
  case other =>
    intro path name n hk
    obtain ⟨t, rfl⟩ | rfl := (kept_eq_false_iff n).mp hk <;> simp [Visit.Counted, visitNode]

/-- Every entry a visit gives is a file without a child list or a directory. -/
theorem visitNode_plain : ∀ path name n e, (visitNode faults path name n).entry = some e →
    ∀ x ∈ e.preorder, x.Plain := by
  refine @visit_induction faults _ ?file ?unlisted ?listed ?other
  case file =>
    intro path name data size mtime e he x hx
    simp only [visitNode, Option.some.injEq] at he
    subst he
    simp only [Entry.preorder, List.mem_singleton] at hx
    subst hx
    exact .inl ⟨rfl, rfl⟩
  case unlisted =>
    intro path name es hl e he x hx
    simp only [visitNode, hl, if_true, Option.some.injEq] at he
    subst he
    simp only [Entry.preorder, List.map_nil, List.flatten_nil, List.mem_singleton] at hx
    subst hx
    exact .inr rfl
  case listed =>
    intro path name es hl ih e he x hx
    simp only [visitNode, hl, Bool.false_eq_true, if_false, Option.some.injEq] at he
    subst he
    rw [Entry.preorder_eq] at hx
    rcases List.mem_cons.mp hx with rfl | hx
    · exact .inr rfl
    · -- an entry below is in the tree of a child, the visit of a screened-in entry
      obtain ⟨_, hl', hx⟩ := List.mem_flatten.mp hx
      obtain ⟨c, hc, rfl⟩ := List.mem_map.mp hl'
      have hc' : c ∈ (visitEntries faults path name true es).entries ++
          (visitEntries faults path name false es).entries := hc
      rcases List.mem_append.mp hc' with hc' | hc' <;>
      · rw [visitEntries_entries] at hc'
        obtain ⟨q, hq, hqc⟩ := List.mem_filterMap.mp hc'
        obtain ⟨hqes, hv⟩ := List.mem_filter.mp hq
        exact ih q hqes (by simp_all [visits]) c hqc x hx
  case other =>
    intro path name n hk e he
    simp [visitNode_entry_of_not_kept hk] at he

end Progress

/-! ## Warnings -/

section Warnings

variable {faults : Faults}

theorem owedEntries_cons (dir base : String) (n : Node) (rest : List (String × Node)) :
    owedEntries faults dir ((base, n) :: rest) =
      (if base.startsWith "." then []
        else if faults.lookup.contains (Path.join [dir, base]) then
          [⟨Path.join [dir, base], "lstat " ++ Path.join [dir, base] ++ ": " ++ Errno.access.text⟩]
        else owedWarnings faults (Path.join [dir, base]) n) ++
      owedEntries faults dir rest := by
  rw [owedEntries]

theorem screenWarnings_cons (fullPath : String) (e : String × Node) (rest : List (String × Node)) :
    screenWarnings faults fullPath (e :: rest) =
      ((screen faults (Path.join [fullPath, e.1]) e.1 e.2).bind id).toList ++
        screenWarnings faults fullPath rest := by
  obtain ⟨base, n⟩ := e
  simp only [screenWarnings, List.filterMap_cons]
  cases (screen faults (Path.join [fullPath, base]) base n).bind id <;> rfl

/-- What one entry of a listed directory brings to the directory's warnings, its screening
warning and the warnings of its visit in the pass of its group, is what the entry owes. -/
theorem entry_warnings_perm (fullPath name base : String) (n : Node)
    (h : (screen faults (Path.join [fullPath, base]) base n).isNone = true →
      (visitNode faults (Path.join [fullPath, base]) (Entry.childName name base) n).warnings.Perm
        (owedWarnings faults (Path.join [fullPath, base]) n)) :
    (((screen faults (Path.join [fullPath, base]) base n).bind id).toList ++
      (if visits faults fullPath true (base, n) then
        (visitNode faults (Path.join [fullPath, base]) (Entry.childName name base) n).warnings
        else []) ++
      (if visits faults fullPath false (base, n) then
        (visitNode faults (Path.join [fullPath, base]) (Entry.childName name base) n).warnings
        else [])).Perm
      ((if base.startsWith "." then []
        else if faults.lookup.contains (Path.join [fullPath, base]) then
          [⟨Path.join [fullPath, base],
            "lstat " ++ Path.join [fullPath, base] ++ ": " ++ Errno.access.text⟩]
        else owedWarnings faults (Path.join [fullPath, base]) n)) := by
  by_cases hh : base.startsWith "." = true
  · -- a hidden name is passed over without a word
    simp [screen, visits, hh]
  by_cases hf : faults.lookup.contains (Path.join [fullPath, base]) = true
  · -- a failed look is warned of once, and the entry is visited by neither pass
    have hs : screen faults (Path.join [fullPath, base]) base n =
        some (some ⟨Path.join [fullPath, base],
          "lstat " ++ Path.join [fullPath, base] ++ ": " ++ Errno.access.text⟩) := by
      unfold screen
      rw [if_neg hh, if_pos hf]
    have hv (b : Bool) : visits faults fullPath b (base, n) = false := by simp [visits, hs]
    simp only [hs, hv, if_neg hh, if_pos hf, Option.bind_some, id, Option.toList_some,
      Bool.false_eq_true, if_false, List.append_nil, List.Perm.refl]
  rw [if_neg hh, if_neg hf]
  by_cases hl : ∃ t, n = .link t
  · -- a link is warned of once, and visited by neither pass
    obtain ⟨t, rfl⟩ := hl
    have hs : screen faults (Path.join [fullPath, base]) base (.link t) =
        some (some ⟨Path.join [fullPath, base], "symbolic link skipped"⟩) := by
      unfold screen
      rw [if_neg hh, if_neg hf]
    have hv (b : Bool) : visits faults fullPath b (base, .link t) = false := by simp [visits, hs]
    simp only [hs, hv, Option.bind_some, id, Option.toList_some, Bool.false_eq_true, if_false,
      List.append_nil, owedWarnings, List.Perm.refl]
  · -- screened in: exactly one pass visits the entry, and its visit gives what it owes
    have hs : screen faults (Path.join [fullPath, base]) base n = none := by
      unfold screen
      rw [if_neg hh, if_neg hf]
      split
      · exact absurd ⟨_, rfl⟩ hl
      · rfl
    cases hd : isDirNode n <;> simpa [visits, hs, hd] using h (by rw [hs]; rfl)

/-- The warnings of a listed directory, its screening warnings and then those of its two passes,
are those its entries owe, given that each screened-in entry's visit gives what it owes. -/
theorem listed_warnings_perm (fullPath name : String) :
    ∀ {es : List (String × Node)}, (∀ e ∈ es,
      (screen faults (Path.join [fullPath, e.1]) e.1 e.2).isNone = true →
        (visitNode faults (Path.join [fullPath, e.1]) (Entry.childName name e.1) e.2).warnings.Perm
          (owedWarnings faults (Path.join [fullPath, e.1]) e.2)) →
      (screenWarnings faults fullPath es ++ (visitEntries faults fullPath name true es).warnings ++
        (visitEntries faults fullPath name false es).warnings).Perm (owedEntries faults fullPath es)
  | [], _ => by simp [screenWarnings, visitEntries_nil, Visits.none, owedEntries]
  | (base, n) :: rest, h => by
    have hhead := entry_warnings_perm fullPath name base n (h (base, n) (List.mem_cons_self ..))
    have hrest := listed_warnings_perm fullPath name fun e' he' => h e' (List.mem_cons_of_mem _ he')
    rw [screenWarnings_cons, visitEntries_cons, visitEntries_cons, owedEntries_cons]
    refine List.Perm.trans ?_ (hhead.append hrest)
    -- the head's warnings and the rest's, regrouped
    apply List.perm_iff_count.mpr
    intro w
    split <;> split <;> simp only [Visit.cons, List.count_append, List.count_nil] <;> omega

/-- Every visit of a node other than a link warns exactly as the node owes, in some order. -/
theorem visitNode_warnings_perm (faults : Faults) :
    ∀ path name n, (∀ t, n ≠ .link t) →
      (visitNode faults path name n).warnings.Perm (owedWarnings faults path n) := by
  refine @visit_induction faults _ ?file ?unlisted ?listed ?other
  case file => intro path name data size mtime _; simp [visitNode, owedWarnings]
  case unlisted =>
    intro path name es hl _
    simp only [visitNode, owedWarnings, hl, if_true, List.Perm.refl]
  case listed =>
    intro path name es hl ih _
    simp only [visitNode, owedWarnings, hl, Bool.false_eq_true, if_false]
    refine listed_warnings_perm path name fun e he hs => ih e he hs ?_
    -- a screened-in entry is no link
    exact ((screen_isNone_iff.mp hs).2.2)
  case other =>
    intro path name n hk hn
    obtain ⟨t, rfl⟩ | rfl := (kept_eq_false_iff n).mp hk
    · exact absurd rfl (hn t)
    · simp [visitNode, owedWarnings, modeText]

end Warnings

/-! ## Hidden entries are never looked at -/

/-- The paths a walk from `root` can form: the root, and such a path joined with a name that
does not start with `.`. -/
inductive Shown (root : String) : String → Prop
  | root : Shown root root
  | join {p : String} (base : String) : Shown root p → base.startsWith "." = false →
      Shown root (Path.join [p, base])

theorem Shown.trans {a b c : String} (hab : Shown a b) (hbc : Shown b c) : Shown a c := by
  induction hbc with
  | root => exact hab
  | join base _ hb ih => exact .join base ih hb

/-- Two sets of faults agree at a path when listing it and looking at it fail under both or
under neither. -/
def Faults.AgreeAt (faults faults' : Faults) (p : String) : Prop :=
  faults.listing.contains p = faults'.listing.contains p ∧
    faults.lookup.contains p = faults'.lookup.contains p

section Faults

variable {faults faults' : Faults}

theorem screen_congr {path base : String} {n : Node}
    (h : base.startsWith "." = false → faults.lookup.contains path = faults'.lookup.contains path) :
    screen faults path base n = screen faults' path base n := by
  unfold screen
  by_cases hh : base.startsWith "." = true
  · rw [if_pos hh, if_pos hh]
  · rw [if_neg hh, if_neg hh, h (by simpa using hh)]

/-- Two passes over a listing under faults that agree at the paths of its entries that are not
hidden, visiting each screened-in entry alike, are alike. -/
theorem visitEntries_faults_congr (path name : String) (dirs : Bool) :
    ∀ {es : List (String × Node)},
      (∀ e ∈ es, e.1.startsWith "." = false → faults.AgreeAt faults' (Path.join [path, e.1])) →
      (∀ e ∈ es, (screen faults (Path.join [path, e.1]) e.1 e.2).isNone = true →
        visitNode faults (Path.join [path, e.1]) (Entry.childName name e.1) e.2 =
          visitNode faults' (Path.join [path, e.1]) (Entry.childName name e.1) e.2) →
      visitEntries faults path name dirs es = visitEntries faults' path name dirs es ∧
        screenWarnings faults path es = screenWarnings faults' path es
  | [], _, _ => by simp [visitEntries_nil, screenWarnings]
  | e :: rest, ha, hv => by
    obtain ⟨hrest, hwrest⟩ := visitEntries_faults_congr path name dirs
      (fun e' he' => ha e' (List.mem_cons_of_mem _ he'))
      (fun e' he' => hv e' (List.mem_cons_of_mem _ he'))
    have hs : screen faults (Path.join [path, e.1]) e.1 e.2 =
        screen faults' (Path.join [path, e.1]) e.1 e.2 :=
      screen_congr fun hh => (ha e (List.mem_cons_self ..) hh).2
    have hvis : visits faults path dirs e = visits faults' path dirs e := by
      simp only [visits, hs]
    refine ⟨?_, ?_⟩
    · rw [visitEntries_cons, visitEntries_cons, hvis, hrest]
      split
      · next hin =>
        have hscreen : (screen faults (Path.join [path, e.1]) e.1 e.2).isNone = true := by
          simp only [visits, Bool.and_eq_true, ← hs] at hin
          exact hin.1
        rw [hv e (List.mem_cons_self ..) hscreen]
      · rfl
    · rw [screenWarnings_cons, screenWarnings_cons, hs, hwrest]

/-- A visit looks at the faults only at the paths it can form from its own path. -/
theorem visitNode_faults_congr :
    ∀ path name n, (∀ q, Shown path q → faults.AgreeAt faults' q) →
      visitNode faults path name n = visitNode faults' path name n := by
  refine @visit_induction faults _ ?file ?unlisted ?listed ?other
  case file => intro path name data size mtime _; rfl
  case unlisted =>
    intro path name es hl ha
    have hl' : faults'.listing.contains path = true := (ha path .root).1 ▸ hl
    simp only [visitNode, hl, hl', if_true]
  case listed =>
    intro path name es hl ha_all ha
    have hl' : faults'.listing.contains path = false := (ha path .root).1 ▸ hl
    -- the paths formed below an entry that is not hidden are formed below the directory
    have hkid : ∀ e ∈ es, e.1.startsWith "." = false → ∀ q, Shown (Path.join [path, e.1]) q →
        faults.AgreeAt faults' q :=
      fun e _ hh q hq => ha q ((Shown.join e.1 .root hh).trans hq)
    have hpass (dirs : Bool) := @visitEntries_faults_congr faults faults' path name dirs es
      (fun e he hh => hkid e he hh _ .root)
      (fun e he hs => ha_all e he hs (hkid e he (screen_isNone_iff.mp hs).1))
    simp only [visitNode, hl, hl', Bool.false_eq_true, if_false, (hpass true).1, (hpass false).1,
      (hpass true).2]
  case other =>
    intro path name n hk _
    obtain ⟨t, rfl⟩ | rfl := (kept_eq_false_iff n).mp hk <;> rfl

end Faults

mutual
/-- A tree with every entry whose name starts with `.` taken out, at every depth below it. -/
def unhide : Node → Node
  | .dir es => .dir (unhideEntries es)
  | n => n

/-- Entries of a directory without the hidden ones, each with its hidden entries taken out. -/
def unhideEntries : List (String × Node) → List (String × Node)
  | [] => []
  | (base, n) :: rest =>
    if base.startsWith "." then unhideEntries rest else (base, unhide n) :: unhideEntries rest
end

section Unhide

variable {faults : Faults}

theorem unhide_of_isDirNode {n : Node} (h : isDirNode n = false) : unhide n = n := by
  cases n with
  | dir => simp [isDirNode] at h
  | _ => rfl

theorem isDirNode_unhide (n : Node) : isDirNode (unhide n) = isDirNode n := by
  cases n <;> rfl

theorem screen_unhide (path base : String) (n : Node) :
    screen faults path base (unhide n) = screen faults path base n := by
  cases n <;> rfl

/-- A pass over a listing without its hidden entries, each visited alike, is the pass over the
listing. -/
theorem visitEntries_unhide (path name : String) (dirs : Bool) :
    ∀ {es : List (String × Node)}, (∀ e ∈ es, (screen faults (Path.join [path, e.1]) e.1 e.2).isNone = true →
        visitNode faults (Path.join [path, e.1]) (Entry.childName name e.1) (unhide e.2) =
          visitNode faults (Path.join [path, e.1]) (Entry.childName name e.1) e.2) →
      visitEntries faults path name dirs (unhideEntries es) = visitEntries faults path name dirs es ∧
        screenWarnings faults path (unhideEntries es) = screenWarnings faults path es
  | [], _ => by simp [unhideEntries, visitEntries_nil, screenWarnings]
  | (base, n) :: rest, hv => by
    obtain ⟨hrest, hwrest⟩ := visitEntries_unhide path name dirs
      (fun e' he' => hv e' (List.mem_cons_of_mem _ he'))
    rw [unhideEntries]
    by_cases hh : base.startsWith "." = true
    · -- a hidden entry is screened out without a warning
      have hs : screen faults (Path.join [path, base]) base n = some none := by
        unfold screen
        rw [if_pos hh]
      have hvis : visits faults path dirs (base, n) = false := by simp [visits, hs]
      rw [if_pos hh, visitEntries_cons, hvis, if_neg Bool.false_ne_true, screenWarnings_cons, hs]
      exact ⟨hrest, hwrest⟩
    · rw [if_neg hh, visitEntries_cons, visitEntries_cons, screenWarnings_cons,
        screenWarnings_cons]
      have hvis : visits faults path dirs (base, unhide n) = visits faults path dirs (base, n) := by
        simp only [visits, screen_unhide, isDirNode_unhide]
      refine ⟨?_, by rw [hwrest, screen_unhide]⟩
      rw [hvis, hrest]
      split
      · next hin =>
        have hscreen : (screen faults (Path.join [path, base]) base n).isNone = true := by
          simp only [visits, Bool.and_eq_true] at hin
          exact hin.1
        rw [hv (base, n) (List.mem_cons_self ..) hscreen]
      · rfl

/-- A visit does not see the hidden entries of the tree below it. -/
theorem visitNode_unhide :
    ∀ path name n, visitNode faults path name (unhide n) = visitNode faults path name n := by
  refine @visit_induction faults _ ?file ?unlisted ?listed ?other
  case file => intro path name data size mtime; rfl
  case unlisted =>
    intro path name es hl
    simp only [unhide, visitNode, hl, if_true]
  case listed =>
    intro path name es hl ih
    have hpass (dirs : Bool) := @visitEntries_unhide faults path name dirs es ih
    simp only [unhide, visitNode, hl, Bool.false_eq_true, if_false, (hpass true).1,
      (hpass false).1, (hpass true).2]
  case other =>
    intro path name n hk
    obtain ⟨t, rfl⟩ | rfl := (kept_eq_false_iff n).mp hk <;> rfl

end Unhide

/-! ## The walk -/

section Build

variable {d : Disk} {faults : Faults} {rootPath : String} {b : Built}

/-- What a successful build is made of: the node the root path names and its visit. -/
theorem build_ok (h : build d faults rootPath = .ok b) :
    ∃ n, d.lookup (Path.abs d.cwd rootPath) true = .ok n ∧
      visitNode faults (Path.abs d.cwd rootPath) (Entry.rootName (Path.abs d.cwd rootPath)) n =
        ⟨some b.root, b.warnings, b.progress⟩ := by
  dsimp only [build] at h
  split at h
  · cases h
  · next n hn =>
    split at h
    · next root hroot =>
      cases h
      exact ⟨n, hn, by rw [← hroot]⟩
    · cases h

theorem isDirNode_of_kept {n : Node} (h : kept n = false) : isDirNode n = false := by
  cases n <;> simp_all [kept, isDirNode, Node.info]

/-- A build reports as progress the names of its tree in pre-order. -/
theorem build_progress (h : build d faults rootPath = .ok b) :
    b.progress = b.root.preorder.map Entry.name := by
  obtain ⟨n, -, hv⟩ := build_ok h
  have hc := visitNode_counted faults (Path.abs d.cwd rootPath)
    (Entry.rootName (Path.abs d.cwd rootPath)) n
  rw [hv] at hc
  simpa [Visit.Counted] using hc

/-- A build counts one visit per file and per directory of its tree. -/
theorem build_visited (h : build d faults rootPath = .ok b) :
    b.visited = b.root.countFiles + b.root.countDirectories := by
  obtain ⟨n, -, hv⟩ := build_ok h
  have hplain := visitNode_plain faults (Path.abs d.cwd rootPath)
    (Entry.rootName (Path.abs d.cwd rootPath)) n b.root (by rw [hv])
  rw [Built.visited, build_progress h, List.length_map, Entry.length_preorder b.root hplain]

/-- A build warns exactly as the node its root path names owes, in some order. -/
theorem build_warnings_perm (h : build d faults rootPath = .ok b) :
    ∃ n, d.lookup (Path.abs d.cwd rootPath) true = .ok n ∧
      b.warnings.Perm (owedWarnings faults (Path.abs d.cwd rootPath) n) := by
  obtain ⟨n, hn, hv⟩ := build_ok h
  -- the root gave an entry, so it is a file or a directory and no link
  have hk : kept n = true := by
    have hs := @visitNode_entry_isSome faults (Path.abs d.cwd rootPath)
      (Entry.rootName (Path.abs d.cwd rootPath)) n
    rw [hv] at hs
    exact hs.symm
  have hp := visitNode_warnings_perm faults (Path.abs d.cwd rootPath)
    (Entry.rootName (Path.abs d.cwd rootPath)) n fun t ht => by
      subst ht
      simp [kept, Node.info] at hk
  rw [hv] at hp
  exact ⟨n, hn, hp⟩

/-- A build looks at the faults only at the paths it can form from the root path by joining names
that do not start with `.`. -/
theorem build_faults_congr {faults' : Faults}
    (ha : ∀ q, Shown (Path.abs d.cwd rootPath) q → faults.AgreeAt faults' q) :
    build d faults rootPath = build d faults' rootPath := by
  unfold build
  dsimp only
  split
  · rfl
  · next n _ => rw [visitNode_faults_congr _ _ n ha]

/-- A build does not see the hidden entries of the tree below its root. -/
theorem build_unhide_congr {d' : Disk} {n n' : Node} (hcwd : d'.cwd = d.cwd)
    (hn : d.lookup (Path.abs d.cwd rootPath) true = .ok n)
    (hn' : d'.lookup (Path.abs d.cwd rootPath) true = .ok n') (hu : unhide n = unhide n') :
    build d' faults rootPath = build d faults rootPath := by
  have hv : ∀ name, visitNode faults (Path.abs d.cwd rootPath) name n' =
      visitNode faults (Path.abs d.cwd rootPath) name n := fun name => by
    rw [← visitNode_unhide _ _ n', ← hu, visitNode_unhide]
  unfold build
  rw [hcwd]
  dsimp only
  rw [hn, hn']
  dsimp only
  rw [hv]
  split
  · rfl
  · -- nothing kept: neither node is a directory, so they are the same node
    next hnone =>
    have hk : kept n = false := by
      simpa [hnone] using (@visitNode_entry_isSome faults (Path.abs d.cwd rootPath)
        (Entry.rootName (Path.abs d.cwd rootPath)) n).symm
    have hk' : kept n' = false := by
      have hs := @visitNode_entry_isSome faults (Path.abs d.cwd rootPath)
        (Entry.rootName (Path.abs d.cwd rootPath)) n'
      rw [hv, hnone] at hs
      exact hs.symm
    rw [← unhide_of_isDirNode (isDirNode_of_kept hk), hu,
      unhide_of_isDirNode (isDirNode_of_kept hk')]

/-- A build accounts for everything once. Progress names every entry of its tree once, in
pre-order, so the number of visits is the number of entries, its files and directories. The
warnings are exactly those owed, in some order: one for each directory of the tree whose listing
fails, and one for each entry of a listed directory that is not hidden and cannot be looked at, is
a link, or is neither file nor directory. Nothing hidden is looked at: the build is the same under
faults that agree at every path formed from the root by names that do not start with `.`, and on
any disk where the root path names the same tree up to its hidden entries. -/
theorem build_accounts (h : build d faults rootPath = .ok b) :
    b.progress = b.root.preorder.map Entry.name ∧
      b.visited = b.root.preorder.length ∧
      b.visited = b.root.countFiles + b.root.countDirectories ∧
      (∃ n, d.lookup (Path.abs d.cwd rootPath) true = .ok n ∧
        b.warnings.Perm (owedWarnings faults (Path.abs d.cwd rootPath) n)) ∧
      (∀ faults' : Faults, (∀ q, Shown (Path.abs d.cwd rootPath) q → faults.AgreeAt faults' q) →
        build d faults' rootPath = .ok b) ∧
      (∀ (d' : Disk) (n n' : Node), d'.cwd = d.cwd →
        d.lookup (Path.abs d.cwd rootPath) true = .ok n →
        d'.lookup (Path.abs d.cwd rootPath) true = .ok n' → unhide n = unhide n' →
        build d' faults rootPath = .ok b) := by
  refine ⟨build_progress h, ?_, build_visited h, build_warnings_perm h,
    fun faults' ha => (build_faults_congr ha).symm.trans h,
    fun d' n n' hcwd hn hn' hu => (build_unhide_congr hcwd hn hn' hu).trans h⟩
  rw [Built.visited, build_progress h, List.length_map]

/-- The sample disk, its directory `/a` unreadable and its file `/b` not to be looked at: a hidden
file, a link, and both faults. -/
theorem build_accounts_sample :
    ∃ b, build sampleDisk ⟨["/a"], ["/b"]⟩ "/" = .ok b ∧
      b.progress = b.root.preorder.map Entry.name ∧
      b.visited = b.root.preorder.length ∧
      b.visited = b.root.countFiles + b.root.countDirectories ∧
      (∃ n, sampleDisk.lookup (Path.abs sampleDisk.cwd "/") true = .ok n ∧
        b.warnings.Perm (owedWarnings ⟨["/a"], ["/b"]⟩ (Path.abs sampleDisk.cwd "/") n)) ∧
      (∀ faults' : Faults, (∀ q, Shown (Path.abs sampleDisk.cwd "/") q →
          Faults.AgreeAt ⟨["/a"], ["/b"]⟩ faults' q) →
        build sampleDisk faults' "/" = .ok b) ∧
      (∀ (d' : Disk) (n n' : Node), d'.cwd = sampleDisk.cwd →
        sampleDisk.lookup (Path.abs sampleDisk.cwd "/") true = .ok n →
        d'.lookup (Path.abs sampleDisk.cwd "/") true = .ok n' → unhide n = unhide n' →
        build d' ⟨["/a"], ["/b"]⟩ "/" = .ok b) := by
  obtain ⟨b, hb⟩ := build_slash_ok sampleDisk ⟨["/a"], ["/b"]⟩ (by rfl)
  exact ⟨b, hb, build_accounts hb⟩

end Build

end TreeCatalog.Walk
