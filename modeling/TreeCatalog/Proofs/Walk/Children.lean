import Mathlib
import TreeCatalog.Walk

/-! # The shape of a catalogued tree

Each directory the walk visits becomes an entry whose children are the entries of its listing
that are not hidden, can be looked at and are regular files or directories, one child each,
directories first and then in name order; a file has no child list and a directory whose listing
fails has an empty one. `Shaped` states this of a node and its entry, all the way down, and
`build_shaped` proves it of every tree the walk builds from a disk whose directories list their
entries in name order, as a file system does. -/

namespace TreeCatalog

namespace Disk

/-- Every directory of the tree holds its entries in strictly increasing name order: names are
unique within a directory and a listing comes sorted by name. -/
inductive Node.Sorted : Node → Prop
  | file {data : List UInt8} {size : Nat} {mtime : Int} : Node.Sorted (.file data size mtime)
  | dir {es : List (String × Node)} (order : es.Pairwise (fun a b => a.1 < b.1))
      (sub : ∀ e ∈ es, e.2.Sorted) : Node.Sorted (.dir es)
  | link {target : String} : Node.Sorted (.link target)
  | fifo : Node.Sorted .fifo

mutual
/-- Whether every directory of the tree lists its entries in strictly increasing name order. -/
def Node.sortedB : Node → Bool
  | .dir es => decide (es.Pairwise fun a b => a.1 < b.1) && Node.sortedEntriesB es
  | _ => true

/-- Whether every node of a listing is sorted. -/
def Node.sortedEntriesB : List (String × Node) → Bool
  | [] => true
  | (_, n) :: es => n.sortedB && Node.sortedEntriesB es
end

mutual
theorem Node.sortedB_iff : ∀ n : Node, n.sortedB = true ↔ n.Sorted
  | .dir es => by
    rw [Node.sortedB, Bool.and_eq_true, decide_eq_true_iff, Node.sortedEntriesB_iff]
    exact ⟨fun ⟨h₁, h₂⟩ => .dir h₁ h₂, fun h => by cases h with | dir h₁ h₂ => exact ⟨h₁, h₂⟩⟩
  | .file .. => by simp [Node.sortedB, Node.Sorted.file]
  | .link .. => by simp [Node.sortedB, Node.Sorted.link]
  | .fifo => by simp [Node.sortedB, Node.Sorted.fifo]

theorem Node.sortedEntriesB_iff : ∀ es : List (String × Node),
    Node.sortedEntriesB es = true ↔ ∀ e ∈ es, e.2.Sorted
  | [] => by simp [Node.sortedEntriesB]
  | (c, n) :: es => by
    rw [Node.sortedEntriesB, Bool.and_eq_true, Node.sortedB_iff, Node.sortedEntriesB_iff es]
    simp
end

/-- Whether a given tree is sorted is decided by walking it. -/
instance : DecidablePred Node.Sorted := fun n => decidable_of_iff _ (Node.sortedB_iff n)

theorem mem_of_lookup {es : List (String × Node)} {c : String} {child : Node}
    (h : es.lookup c = some child) : (c, child) ∈ es := by
  obtain ⟨l₁, l₂, rfl, -⟩ := List.lookup_eq_some_iff.mp h
  simp

theorem Node.Sorted.at? {n m : Node} (hn : n.Sorted) :
    ∀ {phys : List String}, n.at? phys = some m → m.Sorted
  | [], h => by cases h; exact hn
  | c :: cs, h => by
    cases hn with
    | dir _ sub =>
      simp only [Node.at?] at h
      split at h
      · next child hc => exact (sub _ (mem_of_lookup hc)).at? h
      · cases h
    | _ => simp [Node.at?] at h

/-- A disk whose directories are all sorted looks up sorted nodes. -/
theorem lookup_sorted {d : Disk} (hd : d.root.Sorted) {p : OsPath} {follow : Bool}
    {n : Node} (h : d.lookup p follow = .ok n) : n.Sorted := by
  unfold Disk.lookup at h
  split at h
  · cases h
  · split at h
    · next hn => cases h; exact hd.at? hn
    · cases h

end Disk

namespace Walk

open Disk

/-- What a look at a node reports it to be is a regular file or a directory. -/
def kept (n : Node) : Bool := n.info.kind == .file || n.info.kind == .dir

/-- Whether an entry of the directory listed at `dir` becomes a child: its name does not start
with `.`, looking at its path succeeds, and it is a regular file or a directory. -/
def Faults.admits (faults : Faults) (dir : String) (e : String × Node) : Bool :=
  !e.1.startsWith "." && !faults.lookup.contains (Path.join [dir, e.1]) && kept e.2

/-- Catalogue order of listed entries: a directory before anything else, and entries of the same
group by name. -/
def Before (a b : String × Node) : Prop :=
  (isDirNode a.2 = true ∧ isDirNode b.2 = false) ∨ (isDirNode a.2 = isDirNode b.2 ∧ a.1 < b.1)

/-- The entry a walk may give a node found at `path` under the entry name `name`, sizes apart:
a regular file is a file entry without a child list; a directory whose listing fails has an empty
child list; any other directory has one child for each admitted entry of its listing (`pairs`
lists each such entry with its child), in catalogue order. -/
inductive Shaped (faults : Faults) : String → String → Node → Entry → Prop
  | file {path name : String} {data : List UInt8} {size : Nat} {mtime s : Int} :
      Shaped faults path name (.file data size mtime) ⟨Entry.fileKind, name, s, none⟩
  | unlisted {path name : String} {es : List (String × Node)} {s : Int}
      (fails : path ∈ faults.listing) :
      Shaped faults path name (.dir es) ⟨Entry.directoryKind, name, s, some []⟩
  | listed {path name : String} {es : List (String × Node)} {s : Int}
      (pairs : List ((String × Node) × Entry)) (lists : path ∉ faults.listing)
      (perm : (pairs.map Prod.fst).Perm (es.filter (faults.admits path)))
      (order : (pairs.map Prod.fst).Pairwise Before)
      (kids : ∀ p ∈ pairs,
        Shaped faults (Path.join [path, p.1.1]) (Entry.childName name p.1.1) p.1.2 p.2) :
      Shaped faults path name (.dir es) ⟨Entry.directoryKind, name, s, some (pairs.map Prod.snd)⟩

section Visit

variable {faults : Faults}

theorem screen_isNone_iff {path base : String} {n : Node} :
    (screen faults path base n).isNone = true ↔
      base.startsWith "." = false ∧ faults.lookup.contains path = false ∧
        ∀ target, n ≠ .link target := by
  unfold screen
  split
  · simp_all
  · split
    · simp_all
    · split <;> simp_all

theorem kept_iff (n : Node) :
    kept n = true ↔ (∃ data size mtime, n = .file data size mtime) ∨ ∃ es, n = .dir es := by
  cases n <;> simp [kept, Node.info]

/-- What the walk does not keep is a link or a named pipe. -/
theorem kept_eq_false_iff (n : Node) :
    kept n = false ↔ (∃ target, n = .link target) ∨ n = .fifo := by
  cases n <;> simp [kept, Node.info]

theorem visitNode_entry_isSome (fullPath name : String) (n : Node) :
    (visitNode faults fullPath name n).entry.isSome = kept n := by
  cases n with
  | file => simp [visitNode, kept, Node.info]
  | dir es =>
    simp only [visitNode]
    split <;> simp [kept, Node.info]
  | link => simp [visitNode, kept, Node.info]
  | fifo => simp [visitNode, kept, Node.info]

theorem visitNode_entry_of_not_kept {fullPath name : String} {n : Node} (hk : kept n = false) :
    (visitNode faults fullPath name n).entry = none := by
  simpa [hk] using @visitNode_entry_isSome faults fullPath name n

/-- Whether one of the two passes over a listing visits an entry. -/
def visits (faults : Faults) (fullPath : String) (dirs : Bool) (e : String × Node) : Bool :=
  (screen faults (Path.join [fullPath, e.1]) e.1 e.2).isNone && isDirNode e.2 == dirs

/-- One pass over a listing visits, in listing order, the entries that pass screening and are of
its group. -/
theorem visitEntries_entries (fullPath name : String) (dirs : Bool) (es : List (String × Node)) :
    (visitEntries faults fullPath name dirs es).entries =
      (es.filter (visits faults fullPath dirs)).filterMap fun e =>
        (visitNode faults (Path.join [fullPath, e.1]) (Entry.childName name e.1) e.2).entry := by
  induction es with
  | nil => simp [visitEntries, Visits.none]
  | cons e rest ih =>
    obtain ⟨base, n⟩ := e
    by_cases hv : visits faults fullPath dirs (base, n) = true
    · have hv' : ((screen faults (Path.join [fullPath, base]) base n).isNone &&
          isDirNode n == dirs) = true := hv
      simp only [visitEntries, hv', if_true, Visit.cons, List.filter_cons_of_pos hv,
        List.filterMap_cons, ih]
      cases (visitNode faults (Path.join [fullPath, base]) (Entry.childName name base) n).entry <;>
        rfl
    · have hv' : ¬((screen faults (Path.join [fullPath, base]) base n).isNone &&
          isDirNode n == dirs) = true := hv
      simp only [visitEntries, hv', List.filter_cons_of_neg hv]
      exact ih

/-- A screened-in entry is admitted exactly when the walk keeps what it visits there. -/
theorem admits_iff_screen (fullPath : String) (e : String × Node) :
    faults.admits fullPath e = true ↔
      (screen faults (Path.join [fullPath, e.1]) e.1 e.2).isNone = true ∧ kept e.2 = true := by
  obtain ⟨base, n⟩ := e
  rw [screen_isNone_iff]
  cases n <;> simp [Faults.admits, kept, Node.info]

/-- Induction along the walk: a property of visits that holds of files, of directories whose
listing fails, of whatever the walk does not keep, and of a listed directory as soon as it holds
of every screened-in entry of its listing, holds of every visit. -/
theorem visit_induction (P : String → String → Node → Prop)
    (file : ∀ path name data size mtime, P path name (.file data size mtime))
    (unlisted : ∀ path name es, faults.listing.contains path = true → P path name (.dir es))
    (listed : ∀ path name es, faults.listing.contains path = false →
      (∀ e ∈ es, (screen faults (Path.join [path, e.1]) e.1 e.2).isNone = true →
        P (Path.join [path, e.1]) (Entry.childName name e.1) e.2) →
      P path name (.dir es))
    (other : ∀ path name n, kept n = false → P path name n) :
    ∀ path name n, P path name n := by
  intro path name n
  refine visitNode.induct faults P
    (fun path name dirs es => ∀ e ∈ es, visits faults path dirs e = true →
      P (Path.join [path, e.1]) (Entry.childName name e.1) e.2)
    file unlisted ?_ ?_ ?_ ?_ ?_ path name n
  · -- a listed directory: every screened-in entry is visited by the pass of its group
    intro path name es hl hdirs hothers
    apply listed path name es (by simpa using hl)
    intro e he hs
    cases hd : isDirNode e.2
    · exact hothers e he (by simp [visits, hs, hd])
    · exact hdirs e he (by simp [visits, hs, hd])
  · intro path name n hfile hdir
    apply other
    cases n with
    | file data size mtime => exact (hfile data size mtime rfl).elim
    | dir es => exact (hdir es rfl).elim
    | link => rfl
    | fifo => rfl
  · intro _ _ _ e he
    cases he
  · intro path name dirs base n rest _ _ hhead hrest e he hv
    rcases List.mem_cons.mp he with rfl | he
    · exact hhead
    · exact hrest e he hv
  · intro path name dirs base n rest _ hnot hrest e he hv
    rcases List.mem_cons.mp he with rfl | he
    · exact absurd (by simpa [visits] using hv) hnot
    · exact hrest e he hv

/-- The entries one pass over a listing keeps, each with the entry it gives: exactly the
screened-in entries of the pass's group that are regular files or directories. -/
theorem exists_pass_pairs (fullPath name : String) (dirs : Bool) (es : List (String × Node)) :
    ∃ pairs : List ((String × Node) × Entry),
      pairs.map Prod.snd = (visitEntries faults fullPath name dirs es).entries ∧
      pairs.map Prod.fst = es.filter (fun e => visits faults fullPath dirs e && kept e.2) ∧
      ∀ q ∈ pairs, (visitNode faults (Path.join [fullPath, q.1.1])
        (Entry.childName name q.1.1) q.1.2).entry = some q.2 := by
  induction es with
  | nil => exact ⟨[], by simp [visitEntries, Visits.none], by simp, by simp⟩
  | cons e rest ih =>
    obtain ⟨pairs, hsnd, hfst, hkids⟩ := ih
    obtain ⟨base, n⟩ := e
    by_cases hv : visits faults fullPath dirs (base, n) = true
    · have hv' : ((screen faults (Path.join [fullPath, base]) base n).isNone &&
          isDirNode n == dirs) = true := hv
      have hsome := @visitNode_entry_isSome faults (Path.join [fullPath, base])
        (Entry.childName name base) n
      cases he : (visitNode faults (Path.join [fullPath, base]) (Entry.childName name base)
          n).entry with
      | none =>
        refine ⟨pairs, ?_, ?_, hkids⟩
        · simp [visitEntries, hv', Visit.cons, he, hsnd]
        · simp only [he, Option.isSome_none] at hsome
          simp [hv, ← hsome, hfst]
      | some c =>
        refine ⟨((base, n), c) :: pairs, ?_, ?_, ?_⟩
        · simp [visitEntries, hv', Visit.cons, he, hsnd]
        · simp only [he, Option.isSome_some] at hsome
          simp [hv, ← hsome, hfst]
        · intro q hq
          rcases List.mem_cons.mp hq with rfl | hq
          · exact he
          · exact hkids q hq
    · have hv' : ¬((screen faults (Path.join [fullPath, base]) base n).isNone &&
          isDirNode n == dirs) = true := hv
      refine ⟨pairs, ?_, ?_, hkids⟩
      · simp only [visitEntries, hv']
        exact hsnd
      · simp [hv, hfst]

/-- The kept entries of the directory pass are the admitted directories, those of the other pass
the admitted entries that are not directories. -/
theorem filter_visits_kept (fullPath : String) (dirs : Bool) (es : List (String × Node)) :
    es.filter (fun e => visits faults fullPath dirs e && kept e.2) =
      es.filter (fun e => faults.admits fullPath e && isDirNode e.2 == dirs) := by
  apply List.filter_congr
  intro e _
  have h := @admits_iff_screen faults fullPath e
  rw [Bool.eq_iff_iff]
  simp only [visits, Bool.and_eq_true, beq_iff_eq, h]
  tauto

end Visit

section Order

/-- Splitting a listing into its directories and the rest loses and adds nothing. -/
theorem filter_dirs_append_perm (q : String × Node → Bool) (es : List (String × Node)) :
    (es.filter (fun e => q e && isDirNode e.2 == true) ++
      es.filter (fun e => q e && isDirNode e.2 == false)).Perm (es.filter q) := by
  have h := List.filter_append_perm (fun e : String × Node => isDirNode e.2) (es.filter q)
  simp only [List.filter_filter] at h
  convert h using 3 <;> funext e <;> cases isDirNode e.2 <;> simp [Bool.and_comm]

/-- Directories of a listing sorted by name, followed by its other entries, come in catalogue
order. -/
theorem pairwise_before {es : List (String × Node)} (hs : es.Pairwise (fun a b => a.1 < b.1))
    (q : String × Node → Bool) :
    (es.filter (fun e => q e && isDirNode e.2 == true) ++
      es.filter (fun e => q e && isDirNode e.2 == false)).Pairwise Before := by
  -- within one group the listing order is the name order; across groups directories lead
  have group (d : Bool) : (es.filter (fun e => q e && isDirNode e.2 == d)).Pairwise Before := by
    refine (hs.sublist List.filter_sublist).imp_of_mem ?_
    intro a b ha hb hab
    simp only [List.mem_filter, Bool.and_eq_true, beq_iff_eq] at ha hb
    exact .inr ⟨ha.2.2.trans hb.2.2.symm, hab⟩
  refine List.pairwise_append.mpr ⟨group true, group false, ?_⟩
  intro a ha b hb
  simp only [List.mem_filter, Bool.and_eq_true, beq_iff_eq] at ha hb
  exact .inl ⟨ha.2.2, hb.2.2⟩

end Order

/-- A build fails or succeeds on its root node alone: it fails when the root path names nothing,
and otherwise succeeds exactly when that node is a regular file or a directory. -/
theorem build_ok_iff (d : Disk) (faults : Faults) (rootPath : String) :
    (∃ b, build d faults rootPath = .ok b) ↔
      ∃ n, d.lookup (Path.abs d.cwd rootPath) true = .ok n ∧ kept n = true := by
  dsimp only [build]
  split
  · next e he => simp [he]
  · next n hn =>
    have hs := @visitNode_entry_isSome faults (Path.abs d.cwd rootPath)
      (Entry.rootName (Path.abs d.cwd rootPath)) n
    split
    · next root hroot => simp_all
    · next hroot => simp_all

/-- The walk gives every sorted node the shape `Shaped` describes. -/
theorem visitNode_shaped (faults : Faults) :
    ∀ path name n, n.Sorted → ∀ e, (visitNode faults path name n).entry = some e →
      Shaped faults path name n e := by
  refine @visit_induction faults _ ?file ?unlisted ?listed ?other
  case file =>
    intro path name data size mtime _ e he
    simp only [visitNode, Option.some.injEq] at he
    subst he
    exact .file
  case unlisted =>
    intro path name es hl _ e he
    simp only [visitNode, hl, if_true, Option.some.injEq] at he
    subst he
    exact .unlisted (List.contains_iff_mem.mp hl)
  case listed =>
    intro path name es hl ih hsorted e he
    cases hsorted with
    | dir order sub =>
      simp only [visitNode, hl, Bool.false_eq_true, if_false, Option.some.injEq] at he
      subst he
      obtain ⟨dirs, hdsnd, hdfst, hdkids⟩ := @exists_pass_pairs faults path name true es
      obtain ⟨others, hosnd, hofst, hokids⟩ :=
        @exists_pass_pairs faults path name false es
      have hfst : (dirs ++ others).map Prod.fst =
          es.filter (fun e => faults.admits path e && isDirNode e.2 == true) ++
            es.filter (fun e => faults.admits path e && isDirNode e.2 == false) := by
        rw [List.map_append, hdfst, hofst, filter_visits_kept, filter_visits_kept]
      have hsnd : (dirs ++ others).map Prod.snd =
          (visitEntries faults path name true es).entries ++
            (visitEntries faults path name false es).entries := by
        rw [List.map_append, hdsnd, hosnd]
      rw [← hsnd]
      refine .listed (dirs ++ others) (by simpa using hl) ?_ ?_ ?_
      · rw [hfst]
        exact filter_dirs_append_perm _ es
      · rw [hfst]
        exact pairwise_before order _
      · -- each child is the visit of a screened-in listing entry, itself sorted
        intro q hq
        have hmem : q.1 ∈ (dirs ++ others).map Prod.fst := List.mem_map_of_mem hq
        rw [hfst] at hmem
        have hq' : q.1 ∈ es ∧ faults.admits path q.1 = true := by
          rcases List.mem_append.mp hmem with hm | hm <;>
            simp only [List.mem_filter, Bool.and_eq_true] at hm <;> exact ⟨hm.1, hm.2.1⟩
        have hscreen := ((admits_iff_screen path q.1).mp hq'.2).1
        refine ih q.1 hq'.1 hscreen (sub q.1 hq'.1) q.2 ?_
        rcases List.mem_append.mp hq with hq | hq
        · exact hdkids q hq
        · exact hokids q hq
  case other =>
    intro path name n hk _ e he
    simp [visitNode_entry_of_not_kept hk] at he

/-- Every tree the walk builds from a disk whose directories are sorted has, from its root down,
the shape of the tree below the root path: each directory entry holds one child per listed entry
that is not hidden, can be looked at and is a regular file or a directory, directories first and
each group in strictly increasing name order; file entries have no child list, and a directory
whose listing fails has an empty one. -/
theorem build_shaped {d : Disk} (hd : d.root.Sorted) {faults : Faults} {rootPath : String}
    {b : Built} (h : build d faults rootPath = .ok b) :
    ∃ n, d.lookup (Path.abs d.cwd rootPath) true = .ok n ∧
      Shaped faults (Path.abs d.cwd rootPath) (Entry.rootName (Path.abs d.cwd rootPath)) n
        b.root := by
  dsimp only [build] at h
  split at h
  · cases h
  · next n hn =>
    split at h
    · next root hroot =>
      cases h
      exact ⟨n, hn, visitNode_shaped faults _ _ n (lookup_sorted hd hn) root hroot⟩
    · cases h

section Slash

/-! The root path `/` names the root of the disk from any working directory, so a walk from it
visits the disk's root node itself. -/

theorem isAbs_slash : Path.isAbs "/" = true := by cbv

theorem abs_slash (cwd : String) : Path.abs cwd "/" = "/" := by
  have hclean : Path.clean "/" = "/" := by cbv
  simp [Path.abs, isAbs_slash, hclean]

theorem lookup_slash (d : Disk) (follow : Bool) : d.lookup (.text "/") follow = .ok d.root := by
  have hcomps : components "/" = [] := by cbv
  have hpath : pathProblem "/" = none := by cbv
  simp [Disk.lookup, Disk.resolve, hpath, hcomps, Disk.start, isAbs_slash, walk_nil, Node.at?]

theorem build_slash_ok (d : Disk) (faults : Faults) (h : kept d.root = true) :
    ∃ b, build d faults "/" = .ok b :=
  (build_ok_iff d faults "/").mpr ⟨d.root, by rw [abs_slash, lookup_slash], h⟩

end Slash

/-- A small sorted disk: a directory with a file, a file, a hidden file and a link. -/
def sampleDisk : Disk :=
  ⟨.dir [(".h", .file [] 1 0), ("a", .dir [("x", .file [] 3 0)]), ("b", .file [] 2 0),
    ("c", .link "b")], "/", 0⟩

theorem build_shaped_sample :
    sampleDisk.root.Sorted ∧ ∃ b, build sampleDisk {} "/" = .ok b ∧
      ∃ n, sampleDisk.lookup (Path.abs sampleDisk.cwd "/") true = .ok n ∧
        Shaped {} (Path.abs sampleDisk.cwd "/") (Entry.rootName (Path.abs sampleDisk.cwd "/")) n
          b.root := by
  have hsorted : sampleDisk.root.Sorted := by
    refine .dir (by decide) ?_
    intro e he
    simp only [List.mem_cons, List.mem_nil_iff, or_false] at he
    rcases he with rfl | rfl | rfl | rfl
    · exact .file
    · exact .dir (by decide) (by simp [Node.Sorted.file])
    · exact .file
    · exact .link
  obtain ⟨b, hb⟩ := build_slash_ok sampleDisk {} (by rfl)
  exact ⟨hsorted, b, hb, build_shaped hsorted hb⟩

end Walk

end TreeCatalog
