import Mathlib
import TreeCatalog.Entry.Basic

/-! # Entries as trees

An entry's children are its child list, empty when the list is absent (`Entry.kids`). Properties
of whole trees are proved by `kids_induction`, one step per entry given its children; the
pre-order list of a tree holds the entry and then its children's lists (`preorder_eq`), so the
subtree of any entry of a tree lies in the tree (`preorder_trans`). -/

namespace TreeCatalog

namespace Entry

/-- Induction over a tree: a property of every entry whose children all have it. -/
theorem kids_induction {motive : Entry → Prop} (step : ∀ e, (∀ c ∈ e.kids, motive c) → motive e) :
    ∀ e, motive e := fun e =>
  @Entry.rec motive (fun cs => ∀ c ∈ cs.getD [], motive c) (fun cs => ∀ c ∈ cs, motive c)
    (fun _ _ _ _ ih => step _ ih) (by simp) (fun _ ih => ih) (by simp)
    (fun _ _ ihc ihcs x hx => by
      rcases List.mem_cons.mp hx with rfl | hx
      · exact ihc
      · exact ihcs x hx)
    e

theorem preorder_eq (e : Entry) : e.preorder = e :: (e.kids.map preorder).flatten := by
  obtain ⟨k, n, s, cs⟩ := e
  cases cs <;> simp [preorder, kids]

theorem mem_preorder_self (e : Entry) : e ∈ e.preorder := by
  rw [preorder_eq]
  exact List.mem_cons_self ..

/-- A child's subtree lies in its parent's. -/
theorem preorder_subset_of_mem_kids {e c : Entry} (hc : c ∈ e.kids) :
    ∀ x ∈ c.preorder, x ∈ e.preorder := by
  intro x hx
  rw [preorder_eq]
  exact List.mem_cons_of_mem _ (List.mem_flatten.mpr ⟨_, List.mem_map_of_mem hc, hx⟩)

/-- The subtree of any entry of a tree lies in the tree. -/
theorem preorder_trans : ∀ (e : Entry) {d : Entry}, d ∈ e.preorder → ∀ x ∈ d.preorder,
    x ∈ e.preorder := by
  refine kids_induction fun e ih d hd x hx => ?_
  rw [preorder_eq] at hd
  rcases List.mem_cons.mp hd with rfl | hd
  · exact hx
  · obtain ⟨_, hl, hd⟩ := List.mem_flatten.mp hd
    obtain ⟨c, hc, rfl⟩ := List.mem_map.mp hl
    exact preorder_subset_of_mem_kids hc x (ih c hc hd x hx)

section Counts

theorem countFiles_eq (e : Entry) :
    e.countFiles = if e.kind = fileKind then 1 else (e.kids.map countFiles).sum := by
  obtain ⟨k, n, s, cs⟩ := e
  cases cs <;> simp [countFiles, kids]

theorem countDirectories_eq (e : Entry) :
    e.countDirectories =
      if e.kind = directoryKind then 1 + (e.kids.map countDirectories).sum else 0 := by
  obtain ⟨k, n, s, cs⟩ := e
  cases cs <;> simp [countDirectories, kids]

/-- A file without a child list, or a directory: the entries a walk builds. -/
def Plain (x : Entry) : Prop := (x.kind = fileKind ∧ x.children = none) ∨ x.kind = directoryKind

/-- A tree of files without child lists and of directories has one entry per file and per
directory. -/
theorem length_preorder : ∀ e : Entry, (∀ x ∈ e.preorder, x.Plain) →
    e.preorder.length = e.countFiles + e.countDirectories := by
  refine kids_induction fun e ih hp => ?_
  have hkids : ∀ c ∈ e.kids, c.preorder.length = c.countFiles + c.countDirectories :=
    fun c hc => ih c hc fun x hx => hp x (preorder_subset_of_mem_kids hc x hx)
  have hne : fileKind ≠ directoryKind := by decide
  rw [preorder_eq, countFiles_eq, countDirectories_eq, List.length_cons, List.length_flatten,
    List.map_map]
  rcases hp e (mem_preorder_self e) with ⟨hf, hc⟩ | hd
  · have hnil : e.kids = [] := by simp [kids, hc]
    simp [hnil, hf, hne]
  · -- a directory: one for itself, and its children's entries split into files and directories
    have hsum : (e.kids.map (List.length ∘ preorder)).sum =
        (e.kids.map countFiles).sum + (e.kids.map countDirectories).sum := by
      rw [← List.sum_map_add]
      exact congrArg List.sum (List.map_congr_left fun c hc => hkids c hc)
    rw [if_neg (by rw [hd]; exact hne.symm), if_pos hd, hsum]
    omega

end Counts

section Walk

variable {σ : Type} (visit : σ → Entry → σ × Bool)

/-- One step of a walk: visit the entry, then walk its children if the visit says so. -/
theorem walk_eq (s : σ) (e : Entry) :
    e.walk visit s = if (visit s e).2 then walkList visit (visit s e).1 e.kids else (visit s e).1 := by
  obtain ⟨k, n, sz, cs⟩ := e
  rw [walk.eq_def]
  dsimp only
  generalize visit s ⟨k, n, sz, cs⟩ = r
  obtain ⟨s', b⟩ := r
  cases b <;> cases cs <;> rfl

theorem walkList_nil (s : σ) : walkList visit s [] = s := by
  rw [walkList]

theorem walkList_cons (s : σ) (c : Entry) (cs : List Entry) :
    walkList visit s (c :: cs) = walkList visit (c.walk visit s) cs := by
  rw [walkList]

/-- Walking a list of trees, each of which walks as a fold over its pre-order, folds over their
pre-orders joined. -/
theorem walkList_eq_foldl {f : σ → Entry → σ} :
    ∀ {cs : List Entry}, (∀ c ∈ cs, ∀ s, c.walk visit s = c.preorder.foldl f s) →
      ∀ s, walkList visit s cs = (cs.map preorder).flatten.foldl f s
  | [], _, s => walkList_nil visit s
  | c :: cs, hcs, s => by
    rw [walkList_cons, hcs c (List.mem_cons_self ..), List.map_cons, List.flatten_cons,
      List.foldl_append]
    exact walkList_eq_foldl (fun c' hc' => hcs c' (List.mem_cons_of_mem _ hc')) _

/-- A walk whose visits always go on into the children folds its visits over the pre-order of
the tree. -/
theorem walk_eq_foldl_preorder (h : ∀ s e, (visit s e).2 = true) :
    ∀ (e : Entry) (s : σ), e.walk visit s = e.preorder.foldl (fun s x => (visit s x).1) s := by
  refine kids_induction fun e ih s => ?_
  rw [walk_eq, if_pos (h s e), preorder_eq, List.foldl_cons]
  exact walkList_eq_foldl visit ih _

end Walk

end Entry

end TreeCatalog
