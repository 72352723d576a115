import Mathlib
import TreeCatalog.Render.Page
import TreeCatalog.Proofs.Entry.Tree

/-! # The tree of a page is a `tree -H` listing

The page writes its tree by threading a prefix string through a recursion over the entries
(`branchText`). Read flat, the tree is one line per entry reached from the root by going down into
directories only, in pre-order (`treeLines`). A line's prefix has one segment per proper ancestor,
decided by whether that ancestor is the root or the last child of its parent, and its connector is
decided by the same question about the entry itself (`TreeLine.text`). The prefix the recursion
carries is exactly the segments of the ancestors seen so far (`branchText_eq_lines`). When every
entry is a file or a directory, the footer's counts are the numbers of directory and file lines
(`countDirectories_eq_lines`, `countFiles_eq_lines`). -/

namespace TreeCatalog.Render

open Outline (connector indent)

/-- A line of a page's tree: an entry, whether each of its proper ancestors, from the root down,
is the root or the last child of its parent, and the same of the entry itself. -/
structure TreeLine where
  ancestors : List Bool
  last : Bool
  entry : Entry

/-- The text of a line: a segment per proper ancestor (blank below the root or a last child, a bar
otherwise), the connector, the size column, two non-breaking spaces, the escaped basename and a
line break. -/
def TreeLine.text (l : TreeLine) : String :=
  String.join (l.ancestors.map indent) ++ connector l.last ++ Size.column l.entry.size ++
    "&nbsp;&nbsp;" ++ Markup.escape l.entry.basename ++ "<br>\n"

mutual
/-- The lines of the entries reached from an entry by going down into directories only, in
pre-order; `ancestors` and `last` are the entry's own flags. -/
def treeLines (ancestors : List Bool) (last : Bool) : Entry → List TreeLine
  | ⟨k, n, s, cs⟩ => ⟨ancestors, last, ⟨k, n, s, cs⟩⟩ ::
    if k = Entry.directoryKind then
      match cs with
      | none => []
      | some cs => childLines (ancestors ++ [last]) cs
    else []

/-- The lines of a list of siblings under the same ancestors; a sibling is last when none
follows it. -/
def childLines (ancestors : List Bool) : List Entry → List TreeLine
  | [] => []
  | c :: cs => treeLines ancestors cs.isEmpty c ++ childLines ancestors cs
end

section Lines

theorem treeLines_eq (ancestors : List Bool) (last : Bool) (e : Entry) :
    treeLines ancestors last e = ⟨ancestors, last, e⟩ ::
      if e.kind = Entry.directoryKind then childLines (ancestors ++ [last]) e.kids else [] := by
  obtain ⟨k, n, s, cs⟩ := e
  rw [treeLines.eq_def]
  cases cs <;> simp [Entry.kids, childLines]

theorem childLines_nil (ancestors : List Bool) : childLines ancestors [] = [] := by
  rw [childLines]

theorem childLines_cons (ancestors : List Bool) (c : Entry) (cs : List Entry) :
    childLines ancestors (c :: cs) = treeLines ancestors cs.isEmpty c ++ childLines ancestors cs := by
  rw [childLines]

end Lines

section Text

theorem join_indent_concat (ancestors : List Bool) (last : Bool) :
    String.join ((ancestors ++ [last]).map indent) = String.join (ancestors.map indent) ++ indent last := by
  simp [String.join_append]

/-- One step of the page's recursion: the entry's line, then its children's lines under the
prefix extended by its segment when it is a directory. -/
theorem branchText_eq (pre : String) (last : Bool) (e : Entry) :
    branchText pre last e = pre ++ connector last ++ Size.column e.size ++ "&nbsp;&nbsp;" ++
      Markup.escape e.basename ++ "<br>\n" ++
      (if e.kind = Entry.directoryKind then branchesText (pre ++ indent last) e.kids else "") := by
  obtain ⟨k, n, s, cs⟩ := e
  rw [branchText.eq_def]
  cases cs <;> simp [Entry.kids, Entry.basename, branchesText]

theorem branchesText_cons (pre : String) (c : Entry) (cs : List Entry) :
    branchesText pre (c :: cs) = branchText pre cs.isEmpty c ++ branchesText pre cs := by
  cases cs with
  | nil => simp [branchesText]
  | cons c' cs => simp [branchesText]

/-- Siblings each written as their lines are written as the lines of the list. -/
theorem branchesText_eq_lines :
    ∀ {cs : List Entry}, (∀ c ∈ cs, ∀ ancestors last,
        branchText (String.join (ancestors.map indent)) last c =
          String.join ((treeLines ancestors last c).map TreeLine.text)) →
      ∀ ancestors, branchesText (String.join (ancestors.map indent)) cs =
        String.join ((childLines ancestors cs).map TreeLine.text)
  | [], _, ancestors => by simp [branchesText, childLines_nil]
  | c :: cs, hcs, ancestors => by
    rw [branchesText_cons, childLines_cons, hcs c (List.mem_cons_self ..), List.map_append,
      String.join_append,
      branchesText_eq_lines (fun c' hc' => hcs c' (List.mem_cons_of_mem _ hc')) ancestors]

/-- The page's recursion writes the lines of the entries it reaches, each with the segments of
its ancestors as prefix. -/
theorem branchText_eq_lines :
    ∀ (e : Entry) (ancestors : List Bool) (last : Bool),
      branchText (String.join (ancestors.map indent)) last e =
        String.join ((treeLines ancestors last e).map TreeLine.text) := by
  refine Entry.kids_induction fun e ih ancestors last => ?_
  rw [branchText_eq, treeLines_eq, List.map_cons, String.join_cons]
  -- the entry's own line, then the children's under the prefix with the entry's segment
  have hline : String.join (ancestors.map indent) ++ connector last ++ Size.column e.size ++
      "&nbsp;&nbsp;" ++ Markup.escape e.basename ++ "<br>\n" = TreeLine.text ⟨ancestors, last, e⟩ :=
    rfl
  rw [hline]
  split
  · rw [← join_indent_concat, branchesText_eq_lines ih]
  · simp

end Text

section Counts

variable {p : TreeLine → Bool}

theorem countP_childLines {f : Entry → Nat} :
    ∀ {cs : List Entry}, (∀ c ∈ cs, ∀ ancestors last, f c = (treeLines ancestors last c).countP p) →
      ∀ ancestors, (childLines ancestors cs).countP p = (cs.map f).sum
  | [], _, ancestors => by simp [childLines_nil]
  | c :: cs, hcs, ancestors => by
    rw [childLines_cons, List.countP_append, ← hcs c (List.mem_cons_self ..),
      countP_childLines (fun c' hc' => hcs c' (List.mem_cons_of_mem _ hc')) ancestors]
    simp

theorem fileKind_ne_directoryKind : Entry.fileKind ≠ Entry.directoryKind := by
  decide

/-- Whether every entry of a tree is a file or a directory. -/
def KnownKinds (e : Entry) : Prop := ∀ x ∈ e.preorder, x.kind = Entry.fileKind ∨ x.kind = Entry.directoryKind

theorem KnownKinds.kid {e c : Entry} (h : KnownKinds e) (hc : c ∈ e.kids) : KnownKinds c :=
  fun x hx => h x (Entry.preorder_subset_of_mem_kids hc x hx)

/-- In a tree of files and directories, the files are the file lines: a file has one line and
its children none, a directory has what its children have. -/
theorem countFiles_eq_lines : ∀ e : Entry, KnownKinds e → ∀ ancestors last,
    e.countFiles = (treeLines ancestors last e).countP (·.entry.kind = Entry.fileKind) := by
  refine Entry.kids_induction fun e ih hk ancestors last => ?_
  rw [Entry.countFiles_eq, treeLines_eq]
  rcases hk e (Entry.mem_preorder_self e) with hf | hd
  · simp [hf, fileKind_ne_directoryKind]
  · rw [if_neg (by rw [hd]; exact fileKind_ne_directoryKind.symm), if_pos hd, List.countP_cons,
      countP_childLines (fun c hc => ih c hc (hk.kid hc))]
    simp [hd, fileKind_ne_directoryKind.symm]

theorem countDirectories_eq_lines : ∀ e : Entry, KnownKinds e → ∀ ancestors last,
    e.countDirectories = (treeLines ancestors last e).countP (·.entry.kind = Entry.directoryKind) := by
  refine Entry.kids_induction fun e ih hk ancestors last => ?_
  rw [Entry.countDirectories_eq, treeLines_eq]
  rcases hk e (Entry.mem_preorder_self e) with hf | hd
  · simp [hf, fileKind_ne_directoryKind]
  · rw [if_pos hd, if_pos hd, List.countP_cons,
      countP_childLines (fun c hc => ih c hc (hk.kid hc))]
    simp [hd, Nat.add_comm]

end Counts

/-- The tree of a page is its `tree -H` listing: the line of each entry reached from the root by
going down into directories only, in pre-order, each made of a segment per proper ancestor, the
connector, the size column, two non-breaking spaces, the escaped basename and a break; and when
every entry is a file or a directory, the footer counts the directory lines and the file lines. -/
theorem page_tree_listing (root : Entry) (title : String) :
    page root title = Page.head ++ Markup.escape title ++ Page.afterTitle ++ Markup.escape title ++
        Page.afterHeading ++ String.join ((treeLines [] true root).map TreeLine.text) ++
        Page.afterTree ++ Size.text root.size ++ Page.usedIn ++ toString root.countDirectories ++
        Page.directoriesText ++ toString root.countFiles ++ Page.tail ∧
      ((∀ e ∈ root.preorder, e.kind = Entry.fileKind ∨ e.kind = Entry.directoryKind) →
        root.countDirectories = (treeLines [] true root).countP (·.entry.kind = Entry.directoryKind) ∧
        root.countFiles = (treeLines [] true root).countP (·.entry.kind = Entry.fileKind)) := by
  refine ⟨?_, fun hk => ⟨countDirectories_eq_lines root hk [] true, countFiles_eq_lines root hk [] true⟩⟩
  have htree := branchText_eq_lines root [] true
  rw [List.map_nil, String.join_nil] at htree
  rw [page, htree]

/-- A directory holding an empty directory and a file. -/
def shelfTree : Entry :=
  ⟨"directory", "./s", 3, some [⟨"directory", "./s/d", 0, some []⟩, ⟨"file", "./s/a", 3, none⟩]⟩

theorem page_tree_listing_shelf :
    (∀ e ∈ shelfTree.preorder, e.kind = Entry.fileKind ∨ e.kind = Entry.directoryKind) ∧
      shelfTree.countDirectories =
        (treeLines [] true shelfTree).countP (·.entry.kind = Entry.directoryKind) ∧
      shelfTree.countFiles = (treeLines [] true shelfTree).countP (·.entry.kind = Entry.fileKind) := by
  have hk : ∀ e ∈ shelfTree.preorder, e.kind = Entry.fileKind ∨ e.kind = Entry.directoryKind := by
    simp [shelfTree, Entry.preorder, Entry.fileKind, Entry.directoryKind]
  exact ⟨hk, (page_tree_listing shelfTree "shelf").2 hk⟩

end TreeCatalog.Render
