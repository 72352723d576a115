import Mathlib
import TreeCatalog.Render.Outline
import TreeCatalog.Proofs.Render.Listing

/-! # The console outline lists the page's entries

The console outline and the page walk the same tree but decide where to go down differently: the
page goes down into an entry when the entry itself is a directory, the root included, while the
outline tests each child before going down into it and always goes down into the root. Below the
root the two therefore reach the same entries in the same order, the outline keeping those within
its depth limit (`childItems_labels`). At the root they agree when the root is a directory or has
no children (`outlineTree_labels`); a file root that carries children has them listed by the
outline and not by the page (`outlineTree_fileRoot`). -/

namespace TreeCatalog.Render

namespace Outline

/-- The labels of a tree in insertion pre-order: the label, then each item's labels in turn. -/
def labels : Outline → List String
  | node label items => label :: items.flatMap labels

@[simp] theorem labels_node (label : String) (items : List Outline) :
    (node label items).labels = label :: items.flatMap labels := by
  rw [labels]

end Outline

/-- The tree the console outline prints: the root's label over the items of its children. -/
def outlineTree (root : Entry) (maxDepth : Int) : Outline :=
  .node (entryLabel root true) (childItems maxDepth 1 root)

theorem outline_eq_print (root : Entry) (maxDepth : Int) :
    outline root maxDepth = (outlineTree root maxDepth).print := rfl

/-- Whether an entry at `depth` (the number of its proper ancestors) is within the limit
`maxDepth`; zero or less sets no limit. -/
def Within (maxDepth : Int) (depth : Nat) : Prop := maxDepth ≤ 0 ∨ depth ≤ maxDepth

instance (maxDepth : Int) (depth : Nat) : Decidable (Within maxDepth depth) :=
  inferInstanceAs (Decidable (_ ∨ _))

/-- The outline label of a page line; the root is the line without ancestors. -/
def lineLabel (l : TreeLine) : String := entryLabel l.entry l.ancestors.isEmpty

/-- The outline labels of the page lines within the depth limit, in order. -/
def shownLabels (maxDepth : Int) (ls : List TreeLine) : List String :=
  (ls.filter fun l => Within maxDepth l.ancestors.length).map lineLabel

/-- The outline item of a child at `depth`: its label over its own children when it is a
directory. -/
def childItem (maxDepth : Int) (depth : Nat) (c : Entry) : Outline :=
  .node (entryLabel c false) (if c.isDir then childItems maxDepth (depth + 1) c else [])

section Steps

variable {maxDepth : Int}

theorem childItems_eq (maxDepth : Int) (depth : Nat) (e : Entry) :
    childItems maxDepth depth e =
      if 0 < maxDepth ∧ maxDepth < depth then [] else e.kids.map (childItem maxDepth depth) := by
  obtain ⟨k, n, s, cs⟩ := e
  rw [childItems.eq_def]
  cases cs with
  | none => simp [Entry.kids]
  | some cs => rfl

theorem isDir_iff (e : Entry) : e.isDir = true ↔ e.kind = Entry.directoryKind := by
  simp [Entry.isDir]

theorem shownLabels_append (ls ls' : List TreeLine) :
    shownLabels maxDepth (ls ++ ls') = shownLabels maxDepth ls ++ shownLabels maxDepth ls' := by
  simp [shownLabels]

theorem shownLabels_cons_of_within {l : TreeLine} (h : Within maxDepth l.ancestors.length)
    (ls : List TreeLine) : shownLabels maxDepth (l :: ls) = lineLabel l :: shownLabels maxDepth ls := by
  simp [shownLabels, h]

theorem shownLabels_of_deeper {ls : List TreeLine} (hpos : 0 < maxDepth)
    (h : ∀ l ∈ ls, maxDepth < l.ancestors.length) : shownLabels maxDepth ls = [] := by
  rw [shownLabels, List.map_eq_nil_iff, List.filter_eq_nil_iff]
  intro l hl hw
  have hdeep := h l hl
  rcases of_decide_eq_true hw with h0 | hle <;> omega

theorem mem_childLines {ancestors : List Bool} :
    ∀ {cs : List Entry} {l : TreeLine}, l ∈ childLines ancestors cs →
      ∃ c ∈ cs, ∃ last, l ∈ treeLines ancestors last c
  | [], l, h => by simp [childLines_nil] at h
  | c :: cs, l, h => by
    rw [childLines_cons, List.mem_append] at h
    rcases h with h | h
    · exact ⟨c, List.mem_cons_self .., _, h⟩
    · obtain ⟨c', hc', last, hl⟩ := mem_childLines h
      exact ⟨c', List.mem_cons_of_mem _ hc', last, hl⟩

/-- Every line below an entry has at least the entry's ancestors. -/
theorem length_le_of_mem_treeLines :
    ∀ (e : Entry) (ancestors : List Bool) (last : Bool), ∀ l ∈ treeLines ancestors last e,
      ancestors.length ≤ l.ancestors.length := by
  refine Entry.kids_induction fun e ih ancestors last l hl => ?_
  rw [treeLines_eq, List.mem_cons] at hl
  rcases hl with rfl | hl
  · exact le_refl _
  · split at hl
    · obtain ⟨c, hc, last', hl'⟩ := mem_childLines hl
      have := ih c hc (ancestors ++ [last]) last' l hl'
      simp only [List.length_append, List.length_singleton] at this
      omega
    · simp at hl

end Steps

section Agreement

variable {maxDepth : Int}

/-- Siblings whose items each list their shown lines list the shown lines of the siblings. -/
theorem flatMap_childItem :
    ∀ {cs : List Entry} {ancestors : List Bool},
      (∀ c ∈ cs, ∀ last, (childItem maxDepth ancestors.length c).labels =
        shownLabels maxDepth (treeLines ancestors last c)) →
      (cs.map (childItem maxDepth ancestors.length)).flatMap Outline.labels =
        shownLabels maxDepth (childLines ancestors cs)
  | [], ancestors, _ => by simp [childLines_nil, shownLabels]
  | c :: cs, ancestors, h => by
    rw [List.map_cons, List.flatMap_cons, childLines_cons, shownLabels_append,
      h c (List.mem_cons_self ..), flatMap_childItem fun c' hc' => h c' (List.mem_cons_of_mem _ hc')]

/-- Below the root the outline lists, for each child within the limit, the page lines of that
child's subtree that are within the limit: the item of an entry is cut where the page goes on,
and only below the limit. -/
theorem childItem_labels :
    ∀ (c : Entry) (ancestors : List Bool) (last : Bool), ancestors ≠ [] →
      Within maxDepth ancestors.length →
      (childItem maxDepth ancestors.length c).labels =
        shownLabels maxDepth (treeLines ancestors last c) := by
  refine Entry.kids_induction fun c ih ancestors last hne hw => ?_
  rw [childItem, Outline.labels_node, treeLines_eq, shownLabels_cons_of_within hw]
  have hlabel : lineLabel ⟨ancestors, last, c⟩ = entryLabel c false := by
    obtain ⟨a, as, rfl⟩ := List.exists_cons_of_ne_nil hne
    rfl
  rw [hlabel]
  congr 1
  by_cases hdir : c.kind = Entry.directoryKind
  · rw [if_pos ((isDir_iff c).mpr hdir), if_pos hdir, childItems_eq]
    have hlen : (ancestors ++ [last]).length = ancestors.length + 1 := by simp
    split
    · -- past the limit the outline stops, and every page line below is deeper than the limit
      next hcut =>
      refine (shownLabels_of_deeper hcut.1 fun l hl => ?_).symm
      obtain ⟨c', -, last', hl'⟩ := mem_childLines hl
      have := length_le_of_mem_treeLines c' _ last' l hl'
      rw [hlen] at this
      omega
    · next hcut =>
      have hw' : Within maxDepth (ancestors ++ [last]).length := by
        rw [hlen, Within]
        push_cast
        omega
      rw [← hlen]
      exact flatMap_childItem fun c' hc' last' =>
        ih c' hc' (ancestors ++ [last]) last' (by simp) hw'
  · rw [if_neg (mt (isDir_iff c).mp hdir), if_neg hdir]
    simp [shownLabels]

/-- The outline lists the page's entries within its depth limit, in the page's order, when the
root is a directory or has no children. -/
theorem outlineTree_labels (root : Entry) (maxDepth : Int)
    (h : root.kind = Entry.directoryKind ∨ root.kids = []) :
    (outlineTree root maxDepth).labels = shownLabels maxDepth (treeLines [] true root) := by
  have hw0 : Within maxDepth ([] : List Bool).length := by simp [Within]; omega
  have hw1 : Within maxDepth [true].length := by simp [Within]; omega
  rw [outlineTree, Outline.labels_node, treeLines_eq, shownLabels_cons_of_within hw0]
  have hall : childItems maxDepth 1 root = root.kids.map (childItem maxDepth 1) := by
    rw [childItems_eq, if_neg (by omega)]
  rw [hall]
  congr 1
  rcases h with hdir | hnil
  · rw [if_pos hdir, List.nil_append]
    exact flatMap_childItem fun c hc last => childItem_labels c [true] last (by simp) hw1
  · split <;> simp [hnil, childLines_nil, shownLabels]

/-- Whatever its kind, the root is gone down into as a directory: the outline lists what the
page lists for the root taken as a directory. -/
theorem outlineTree_labels_asDirectory (root : Entry) (maxDepth : Int) :
    (outlineTree root maxDepth).labels =
      shownLabels maxDepth (treeLines [] true { root with kind := Entry.directoryKind }) := by
  have hsame : outlineTree root maxDepth =
      outlineTree { root with kind := Entry.directoryKind } maxDepth := by
    simp only [outlineTree, entryLabel, childItems_eq, Entry.kids, Bool.not_true, Bool.and_false,
      Bool.false_eq_true, if_false, Entry.basename]
  rw [hsame]
  exact outlineTree_labels _ maxDepth (.inl rfl)

/-- A directory with a subdirectory two levels deep and a file. -/
def nestedShelf : Entry :=
  ⟨"directory", "./s", 5, some [⟨"directory", "./s/d", 2, some [⟨"file", "./s/d/x", 2, none⟩]⟩,
    ⟨"file", "./s/a", 3, none⟩]⟩

theorem outlineTree_labels_nestedShelf :
    (nestedShelf.kind = Entry.directoryKind ∨ nestedShelf.kids = []) ∧
      (outlineTree nestedShelf 1).labels = shownLabels 1 (treeLines [] true nestedShelf) :=
  ⟨.inl rfl, outlineTree_labels nestedShelf 1 (.inl rfl)⟩

/-- A file root that carries a child. -/
def fileRoot : Entry := ⟨"file", "a", 1, some [⟨"file", "b", 2, none⟩]⟩

/-- The outline lists the child of a file root, which the page leaves out. -/
theorem outlineTree_fileRoot :
    (outlineTree fileRoot 0).labels.length = 2 ∧ (treeLines [] true fileRoot).length = 1 ∧
      (outlineTree fileRoot 0).labels ≠ shownLabels 0 (treeLines [] true fileRoot) := by
  have hout : (outlineTree fileRoot 0).labels.length = 2 := by
    simp [outlineTree, childItems_eq, childItem, fileRoot, Entry.kids, Entry.isDir,
      Entry.directoryKind]
  have hpage : (treeLines [] true fileRoot).length = 1 := by
    rw [treeLines_eq, if_neg (by decide)]
    rfl
  refine ⟨hout, hpage, fun h => ?_⟩
  have hshown : (shownLabels 0 (treeLines [] true fileRoot)).length ≤ 1 := by
    rw [shownLabels, List.length_map, ← hpage]
    exact List.length_filter_le _ _
  rw [← h, hout] at hshown
  omega

end Agreement

end TreeCatalog.Render
