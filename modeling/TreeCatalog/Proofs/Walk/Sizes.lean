import Mathlib
import TreeCatalog.Proofs.Walk.Children
import TreeCatalog.Proofs.Entry.Tree

/-! # Directory sizes of a catalogued tree

A directory entry's size is the sum of its children's sizes, added in 64-bit arithmetic, so it
is the total size of the files below it taken modulo `2^64` into the signed range. It is the true
total exactly when that total stays below `2^63`: a tree of large sparse files wraps around. -/

namespace TreeCatalog

open Text

section Wrap

theorem wrap64_eq_bmod (n : Int) : wrap64 n = n.bmod (2 ^ 64) := by
  unfold wrap64 Int.bmod
  norm_num

theorem wrap64_wrap64 (n : Int) : wrap64 (wrap64 n) = wrap64 n := by
  simp [wrap64_eq_bmod]

theorem wrap64_eq_self_iff (n : Int) : wrap64 n = n ↔ -2 ^ 63 ≤ n ∧ n < 2 ^ 63 := by
  refine ⟨fun h => ?_, fun h => wrap64_of_range n h.1 h.2⟩
  unfold wrap64 at h
  dsimp only at h
  split at h <;> omega

/-- Sums of terms that agree modulo `2^64` agree modulo `2^64`. -/
theorem wrap64_sum_congr {α : Type} (f g : α → Int) :
    ∀ {xs : List α}, (∀ x ∈ xs, wrap64 (f x) = wrap64 (g x)) →
      wrap64 (xs.map f).sum = wrap64 (xs.map g).sum
  | [], _ => rfl
  | x :: xs, h => by
    have hx := h x (List.mem_cons_self ..)
    have hxs : wrap64 (xs.map f).sum = wrap64 (xs.map g).sum :=
      wrap64_sum_congr f g fun y hy => h y (List.mem_cons_of_mem _ hy)
    simp only [wrap64_eq_bmod] at hx hxs ⊢
    simp only [List.map_cons, List.sum_cons]
    rw [Int.add_bmod, hx, hxs, ← Int.add_bmod]

end Wrap

namespace Entry

/-- The total size of the file entries of a tree. -/
def fileTotal (e : Entry) : Int :=
  ((e.preorder.filter (·.kind == fileKind)).map size).sum

/-- A tree's file total is its own size if it is a file, plus its children's file totals. -/
theorem fileTotal_eq (e : Entry) :
    e.fileTotal = (if e.kind = fileKind then e.size else 0) + (e.kids.map fileTotal).sum := by
  rw [fileTotal, preorder_eq, List.filter_cons]
  have hrest : (((e.kids.map preorder).flatten.filter (·.kind == fileKind)).map size).sum =
      (e.kids.map fileTotal).sum := by
    rw [List.filter_flatten, List.map_flatten, List.sum_flatten]
    simp only [List.map_map]
    rfl
  split <;> simp_all

end Entry

namespace Walk

open Disk Entry

/-- What the walk guarantees of every entry of a tree it builds: it is a file or a directory, a
file's size is its own file total (at least zero), and a directory's size is the sum of its
children's sizes and its file total, both taken modulo `2^64`. -/
def Tallied (e : Entry) : Prop :=
  0 ≤ e.fileTotal ∧
    ((e.kind = fileKind ∧ e.kids = [] ∧ e.size = e.fileTotal) ∨
      (e.kind = directoryKind ∧ e.size = wrap64 (e.kids.map Entry.size).sum ∧
        e.size = wrap64 e.fileTotal))

theorem Tallied.wrap64_size {e : Entry} (h : Tallied e) : wrap64 e.size = wrap64 e.fileTotal := by
  rcases h.2 with ⟨-, -, hs⟩ | ⟨-, -, hs⟩
  · rw [hs]
  · rw [hs, wrap64_wrap64]

/-- The file total of an entry is at least that of each of its children. -/
theorem fileTotal_kid_le {e c : Entry} (hc : c ∈ e.kids) (hk : ∀ x ∈ e.kids, 0 ≤ x.fileTotal)
    (he : 0 ≤ if e.kind = fileKind then e.size else 0) : c.fileTotal ≤ e.fileTotal := by
  rw [fileTotal_eq e]
  have := List.single_le_sum (fun x hx => by
    obtain ⟨y, hy, rfl⟩ := List.mem_map.mp hx
    exact hk y hy) _ (List.mem_map_of_mem hc : c.fileTotal ∈ e.kids.map fileTotal)
  omega

/-- A directory entry the walk builds from tallied children is tallied. -/
theorem tallied_directory {name : String} {cs : List Entry} (hcs : ∀ c ∈ cs, Tallied c) :
    Tallied ⟨directoryKind, name, wrap64 (cs.map Entry.size).sum, some cs⟩ := by
  have htotal : (⟨directoryKind, name, wrap64 (cs.map Entry.size).sum, some cs⟩ : Entry).fileTotal =
      (cs.map fileTotal).sum := by
    rw [fileTotal_eq]
    simp [kids, directoryKind, fileKind]
  refine ⟨?_, .inr ⟨rfl, rfl, ?_⟩⟩
  · rw [htotal]
    exact List.sum_nonneg fun x hx => by
      obtain ⟨c, hc, rfl⟩ := List.mem_map.mp hx
      exact (hcs c hc).1
  · rw [htotal, wrap64_sum_congr Entry.size fileTotal fun c hc => (hcs c hc).wrap64_size]

/-- Every entry of every tree the walk builds is tallied. -/
theorem visitNode_tallied (faults : Faults) :
    ∀ path name n e, (visitNode faults path name n).entry = some e → ∀ d ∈ e.preorder,
      Tallied d := by
  refine @visit_induction faults _ ?file ?unlisted ?listed ?other
  case file =>
    intro path name data size mtime e he d hd
    simp only [visitNode, Option.some.injEq] at he
    subst he
    have hd' : d = ⟨fileKind, name, size, none⟩ := by simpa [preorder] using hd
    subst hd'
    have htotal : (⟨fileKind, name, size, none⟩ : Entry).fileTotal = size := by
      simp [fileTotal_eq, kids]
    exact ⟨by omega, .inl ⟨rfl, rfl, htotal.symm⟩⟩
  case unlisted =>
    intro path name es hl e he d hd
    simp only [visitNode, hl, if_true, Option.some.injEq] at he
    subst he
    have hd' : d = ⟨directoryKind, name, 0, some []⟩ := by simpa [preorder] using hd
    subst hd'
    have h := @tallied_directory name [] (by simp)
    simpa [wrap64_eq_bmod] using h
  case listed =>
    intro path name es hl ih e he d hd
    simp only [visitNode, hl, Bool.false_eq_true, if_false, Option.some.injEq] at he
    subst he
    -- each child is the visit of a screened-in entry, so the induction hypothesis covers its tree
    have hkids : ∀ c ∈ (visitEntries faults path name true es).entries ++
        (visitEntries faults path name false es).entries, ∀ x ∈ c.preorder, Tallied x := by
      intro c hc
      rcases List.mem_append.mp hc with hc | hc <;>
      · rw [visitEntries_entries] at hc
        obtain ⟨q, hq, hqc⟩ := List.mem_filterMap.mp hc
        obtain ⟨hqes, hv⟩ := List.mem_filter.mp hq
        exact ih q hqes (by simp_all [visits]) c hqc
    rw [preorder_eq] at hd
    rcases List.mem_cons.mp hd with rfl | hd
    · exact tallied_directory fun c hc => hkids c hc c (mem_preorder_self c)
    · obtain ⟨_, hl, hd⟩ := List.mem_flatten.mp hd
      obtain ⟨c, hc, rfl⟩ := List.mem_map.mp hl
      exact hkids c hc d hd
  case other =>
    intro path name n hk e he
    simp [visitNode_entry_of_not_kept hk] at he

/-- Every directory entry of a tree the walk builds has as size the sum of its children's sizes
and the total size of the files below it, both taken into 64-bit signed range; and it has that
total as its size, equal to the exact sum of its children's sizes, exactly when the total is
below `2^63`. -/
theorem build_directory_size {d : Disk} {faults : Faults} {rootPath : String} {b : Built}
    (h : build d faults rootPath = .ok b) {e : Entry} (he : e ∈ b.root.preorder)
    (hdir : e.kind = directoryKind) :
    e.size = wrap64 (e.kids.map Entry.size).sum ∧ e.size = wrap64 e.fileTotal ∧
      (e.size = (e.kids.map Entry.size).sum ∧ e.size = e.fileTotal ↔ e.fileTotal < 2 ^ 63) := by
  have hroot : ∀ x ∈ b.root.preorder, Tallied x := by
    dsimp only [build] at h
    split at h
    · cases h
    · split at h
      · next root hroot =>
        cases h
        exact visitNode_tallied faults _ _ _ root hroot
      · cases h
  have hkids : ∀ c ∈ e.kids, Tallied c := fun c hc =>
    hroot c (preorder_trans b.root he c (preorder_subset_of_mem_kids hc c (mem_preorder_self c)))
  obtain ⟨hnonneg, hshape⟩ := hroot e he
  have hnotfile : e.kind ≠ fileKind := by rw [hdir]; decide
  obtain ⟨hsum, htotal⟩ : e.size = wrap64 (e.kids.map Entry.size).sum ∧
      e.size = wrap64 e.fileTotal := by
    rcases hshape with ⟨hfile, -⟩ | ⟨-, hs⟩
    · exact absurd hfile hnotfile
    · exact hs
  refine ⟨hsum, htotal, ⟨fun ⟨_, hexact⟩ => ?_, fun hlt => ?_⟩⟩
  · -- an exact total is one that wrapping leaves alone
    have := (wrap64_eq_self_iff e.fileTotal).mp (htotal.symm.trans hexact)
    exact this.2
  · -- below `2^63` every child's total is below it too, so nothing wraps
    have hdecomp : e.fileTotal = (e.kids.map fileTotal).sum := by
      rw [fileTotal_eq]
      simp [hnotfile]
    have hexact : e.size = e.fileTotal := by
      rw [htotal, wrap64_of_range _ (by omega) hlt]
    have hchild : ∀ c ∈ e.kids, c.size = c.fileTotal := by
      intro c hc
      have hle := fileTotal_kid_le hc (fun x hx => (hkids x hx).1) (by simp [hnotfile])
      rcases (hkids c hc).2 with ⟨-, -, hs⟩ | ⟨-, -, hs⟩
      · exact hs
      · rw [hs, wrap64_of_range _ (by have := (hkids c hc).1; omega) (by omega)]
    refine ⟨?_, hexact⟩
    rw [hexact, hdecomp, List.map_congr_left hchild]

/-- Two sparse files of `2^62` bytes each in the root directory of a disk. -/
def sparsePair : Disk :=
  ⟨.dir [("a", .file [] (2 ^ 62) 0), ("b", .file [] (2 ^ 62) 0)], "/", 0⟩

theorem build_sparsePair : ∃ b, build sparsePair {} "/" = .ok b ∧
    b.root = ⟨directoryKind, rootName "/", -2 ^ 63, some
      [⟨fileKind, childName (rootName "/") "a", 2 ^ 62, none⟩,
        ⟨fileKind, childName (rootName "/") "b", 2 ^ 62, none⟩]⟩ := by
  obtain ⟨b, hb⟩ := build_slash_ok sparsePair {} rfl
  refine ⟨b, hb, ?_⟩
  have ha : "a".startsWith "." = false := by simp
  have hb' : "b".startsWith "." = false := by simp
  dsimp only [build] at hb
  rw [abs_slash, lookup_slash] at hb
  simp [sparsePair, visitNode, visitEntries, screen, ha, hb', isDirNode, Visit.cons,
    Visits.none] at hb
  subst hb
  simp [wrap64_eq_bmod]

theorem build_directory_size_sparsePair : ∃ b, build sparsePair {} "/" = .ok b ∧
    b.root ∈ b.root.preorder ∧ b.root.kind = directoryKind ∧
    (b.root.size = wrap64 (b.root.kids.map Entry.size).sum ∧ b.root.size = wrap64 b.root.fileTotal ∧
      (b.root.size = (b.root.kids.map Entry.size).sum ∧ b.root.size = b.root.fileTotal ↔
        b.root.fileTotal < 2 ^ 63)) := by
  obtain ⟨b, hb, hroot⟩ := build_sparsePair
  have hkind : b.root.kind = directoryKind := by rw [hroot]
  exact ⟨b, hb, mem_preorder_self _, hkind,
    build_directory_size hb (mem_preorder_self _) hkind⟩

/-- Two files of `2^62` bytes make a directory of `-2^63` bytes, though its children's sizes add
up to `2^63`. -/
theorem build_sparsePair_wraps : ∃ b, build sparsePair {} "/" = .ok b ∧
    (b.root.kids.map Entry.size).sum = 2 ^ 63 ∧ b.root.size = -2 ^ 63 := by
  obtain ⟨b, hb, hroot⟩ := build_sparsePair
  refine ⟨b, hb, ?_⟩
  rw [hroot]
  simp [kids]

end Walk

end TreeCatalog
