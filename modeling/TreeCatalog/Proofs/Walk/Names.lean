import Mathlib
import TreeCatalog.Search
import TreeCatalog.Proofs.Entry.Tree
import TreeCatalog.Proofs.Walk.Children
import TreeCatalog.Proofs.Path.Rooted

/-! # Names in a catalogued tree

A catalogue keeps no paths: the name of an entry says where it was found. The root is named `./`
and the base of its absolute path, or `./` alone at the root of the disk. The entry found by the
components `p₁ … pₖ` below the root is named the root's name, a slash and the components joined by
slashes, with no slash of its own after a root named `./` (`Entry.nameBelow`). The walk builds
these names one component at a time (`foldl_childName`), and on a disk whose directories list file
names (`Node.Named`) the components are read back from a name (`parts_nameBelow`), so the names
of a tree are distinct. Splitting a name at its last slash then gives back what the walk put
together: the base is the component found on disk, and the directory part, as search reports it,
is the parent's name (`build_names`). -/

namespace TreeCatalog

namespace Disk

/-- Every directory of the tree lists its entries under file names, as a file system does: not
empty, without a slash, and neither `.` nor `..`. -/
inductive Node.Named : Node → Prop
  | file {data : List UInt8} {size : Nat} {mtime : Int} : Node.Named (.file data size mtime)
  | dir {es : List (String × Node)} (names : ∀ e ∈ es, Path.IsComponent e.1)
      (sub : ∀ e ∈ es, e.2.Named) : Node.Named (.dir es)
  | link {target : String} : Node.Named (.link target)
  | fifo : Node.Named .fifo

mutual
/-- Whether every directory of the tree lists its entries under file names. -/
def Node.namedB : Node → Bool
  | .dir es => Node.namedEntriesB es
  | _ => true

/-- Whether every entry of a listing has a file name and a named node. -/
def Node.namedEntriesB : List (String × Node) → Bool
  | [] => true
  | (c, n) :: es => decide (Path.IsComponent c) && n.namedB && Node.namedEntriesB es
end

mutual
theorem Node.namedB_iff : ∀ n : Node, n.namedB = true ↔ n.Named
  | .dir es => by
    rw [Node.namedB, Node.namedEntriesB_iff]
    exact ⟨fun h => .dir (fun e he => (h e he).1) (fun e he => (h e he).2),
      fun h => by cases h with | dir h₁ h₂ => exact fun e he => ⟨h₁ e he, h₂ e he⟩⟩
  | .file .. => by simp [Node.namedB, Node.Named.file]
  | .link .. => by simp [Node.namedB, Node.Named.link]
  | .fifo => by simp [Node.namedB, Node.Named.fifo]

theorem Node.namedEntriesB_iff : ∀ es : List (String × Node),
    Node.namedEntriesB es = true ↔ ∀ e ∈ es, Path.IsComponent e.1 ∧ e.2.Named
  | [] => by simp [Node.namedEntriesB]
  | (c, n) :: es => by
    rw [Node.namedEntriesB, Bool.and_eq_true, Bool.and_eq_true, decide_eq_true_iff,
      Node.namedB_iff, Node.namedEntriesB_iff es]
    simp [and_assoc]
end

/-- Whether a given tree is named is decided by walking it. -/
instance : DecidablePred Node.Named := fun n => decidable_of_iff _ (Node.namedB_iff n)

/-- A property that passes from a directory to each of its entries holds of every node below one
that has it. -/
theorem Node.at?_of_closed {P : Node → Prop} (hP : ∀ es, P (.dir es) → ∀ e ∈ es, P e.2) :
    ∀ {n m : Node} {ps : List String}, P n → n.at? ps = some m → P m
  | _, _, [], hn, h => by cases h; exact hn
  | n, _, _ :: _, hn, h => by
    cases n with
    | dir es =>
      simp only [Node.at?] at h
      split at h
      · next child hc => exact Node.at?_of_closed hP (hP es hn _ (mem_of_lookup hc)) h
      · cases h
    | _ => simp [Node.at?] at h

theorem Node.Named.at? {n m : Node} {ps : List String} (hn : n.Named) (h : n.at? ps = some m) :
    m.Named :=
  Node.at?_of_closed (fun _ hes e he => by cases hes with | dir _ sub => exact sub e he) hn h

/-- A disk whose directories list file names looks up nodes whose directories do too. -/
theorem lookup_named {d : Disk} (hd : d.root.Named) {p : OsPath} {follow : Bool} {n : Node}
    (h : d.lookup p follow = .ok n) : n.Named := by
  unfold Disk.lookup at h
  split at h
  · cases h
  · split at h
    · next hn => cases h; exact hd.at? hn
    · cases h

/-- In a listing in strictly increasing name order, an entry is what its name looks up. -/
theorem lookup_of_mem {es : List (String × Node)} (hs : es.Pairwise (fun a b => a.1 < b.1))
    {e : String × Node} (he : e ∈ es) : es.lookup e.1 = some e.2 := by
  induction es with
  | nil => cases he
  | cons a rest ih =>
    obtain ⟨k, v⟩ := a
    rw [List.pairwise_cons] at hs
    rcases List.mem_cons.mp he with rfl | he
    · simp
    · have hne : e.1 ≠ k := (ne_of_lt (hs.1 e he)).symm
      rw [List.lookup_cons]
      simp only [beq_false_of_ne hne]
      exact ih hs.2 he

end Disk

namespace Entry

/-- The name of the entry found by the components `ps` below a root named `root`: the root's
name, a slash and the components joined by slashes, with no slash of its own after a root named
`./`. -/
def nameBelow (root : String) (ps : List String) : String :=
  if ps = [] then root
  else if root = "./" then "./" ++ "/".intercalate ps else root ++ "/" ++ "/".intercalate ps

section Names

variable {root b : String} {ps qs : List String}

/-- A name that a component is added to is no longer that of a root at the top of the disk. -/
theorem childName_ne_dotSlash (hb : b ≠ "") (root : String) : childName root b ≠ "./" := by
  intro h
  have hchars := congrArg String.toList h
  unfold childName at hchars
  split at hchars
  · -- after `./` the component would have to be empty
    have hlen := congrArg List.length hchars
    simp at hlen
    exact hb hlen
  · have hlen := congrArg List.length hchars
    simp only [String.toList_append, List.length_append] at hlen
    have hroot : root.toList = [] := by
      apply List.eq_nil_of_length_eq_zero
      have : b.toList.length ≠ 0 := by simpa [String.toList_eq_nil_iff] using hb
      simp at hlen
      omega
    simp [hroot] at hchars

theorem nameBelow_nil (root : String) : nameBelow root [] = root := by
  simp [nameBelow]

/-- Adding a component to a name and then naming the rest below it is naming the whole path. -/
theorem nameBelow_childName (hb : b ≠ "") :
    nameBelow (childName root b) ps = nameBelow root (b :: ps) := by
  cases ps with
  | nil => by_cases hr : root = "./" <;> simp [nameBelow, childName, hr]
  | cons p ps =>
    have hne := childName_ne_dotSlash hb root
    rw [nameBelow, if_neg (List.cons_ne_nil _ _), if_neg hne, nameBelow,
      if_neg (List.cons_ne_nil _ _), String.intercalate_cons_cons]
    by_cases hr : root = "./" <;> simp [childName, hr, String.append_assoc]

/-- The walk names an entry one component at a time; the result is the name of the whole path. -/
theorem foldl_childName (h : ∀ p ∈ ps, p ≠ "") (root : String) :
    ps.foldl childName root = nameBelow root ps := by
  induction ps generalizing root with
  | nil => exact (nameBelow_nil root).symm
  | cons p ps ih =>
    rw [List.foldl_cons, ih (fun x hx => h x (List.mem_cons_of_mem _ hx)),
      nameBelow_childName (h p (List.mem_cons_self ..))]

/-- The components of a name are those of the root's name followed by the path below it. -/
theorem parts_nameBelow (h : ∀ p ∈ ps, p ≠ "" ∧ '/' ∉ p.toList) (root : String) :
    Path.parts (nameBelow root ps) = Path.parts root ++ ps := by
  unfold nameBelow
  split
  · next hps => simp [hps]
  · split
    · next hr =>
      subst hr
      -- the root's own name is split at its slash too
      have hsplit : ∀ t : String, "./" ++ t = "." ++ "/" ++ t := fun t => by
        rw [String.append_assoc]
        rfl
      have hroot : Path.parts "./" = Path.parts "." := by
        rw [show "./" = "." ++ "/" ++ "" from rfl, Path.parts_append_slash, Path.parts_empty,
          List.append_nil]
      rw [hsplit, Path.parts_append_slash, Path.parts_intercalate h, hroot]
    · rw [Path.parts_append_slash, Path.parts_intercalate h]

/-- Distinct paths below a root have distinct names. -/
theorem nameBelow_injective (hps : ∀ p ∈ ps, Path.IsComponent p)
    (hqs : ∀ q ∈ qs, Path.IsComponent q) (h : nameBelow root ps = nameBelow root qs) : ps = qs := by
  have := congrArg Path.parts h
  rwa [parts_nameBelow (fun p hp => ⟨(hps p hp).1, (hps p hp).2.1⟩),
    parts_nameBelow (fun q hq => ⟨(hqs q hq).1, (hqs q hq).2.1⟩), List.append_cancel_left_eq] at this

/-- A name is at least as long as the root's name. -/
theorem length_le_nameBelow (root : String) (ps : List String) :
    root.length ≤ (nameBelow root ps).length := by
  unfold nameBelow
  split
  · exact le_refl _
  · split
    · next hr => subst hr; simp [String.length_append]
    · simp [String.length_append]; omega

/-- A name below a root ends in a slash and its last component. -/
theorem toList_nameBelow_concat (root p : String) (qs : List String) :
    ∃ xs, (nameBelow root (qs ++ [p])).toList = xs ++ '/' :: p.toList := by
  obtain ⟨ys, hys⟩ := Path.dirChars_concat qs
  -- a slash and the components before the last, each followed by a slash, end in a slash
  have hjoined : '/' :: ("/".intercalate (qs ++ [p])).toList = ys ++ '/' :: p.toList := by
    have hslash : "/".toList = ['/'] := rfl
    rw [String.toList_intercalate, hslash, List.map_append, List.map_singleton,
      Path.intercalate_concat, ← List.cons_append]
    exact (congrArg (· ++ p.toList) hys).trans (by simp)
  unfold nameBelow
  rw [if_neg (by simp)]
  split
  · exact ⟨'.' :: ys, by simp [← hjoined]⟩
  · exact ⟨root.toList ++ ys, by simp [← hjoined]⟩

/-- The base of a name below a root is its last component. -/
theorem base_nameBelow_concat {p : String} (hp : p ≠ "") (hs : '/' ∉ p.toList) (root : String)
    (qs : List String) : Path.base (nameBelow root (qs ++ [p])) = p := by
  obtain ⟨xs, hxs⟩ := toList_nameBelow_concat root p qs
  exact Path.base_of_toList hxs hp hs

/-- The base of a root's name: `.` for `./`, and what follows `./` otherwise. -/
theorem base_rootName {c : String} (hc : c ≠ "") (hs : '/' ∉ c.toList) :
    Path.base "./" = "." ∧ Path.base ("./" ++ c) = c := by
  have hchars : ("./" ++ c).toList = ['.'] ++ '/' :: c.toList := by simp
  refine ⟨?_, Path.base_of_toList hchars hc hs⟩
  rw [Path.base, if_neg (by decide)]
  simp only [Path.slash_eq, Text.splitOn_singleton]
  decide

end Names

end Entry

namespace Search

/-- Splitting a name at its last slash, when a piece without a slash follows it: what stands before
the slash, `/` when nothing does. -/
theorem dirname_of_toList {name c : String} {xs : List Char}
    (h : name.toList = xs ++ '/' :: c.toList) (hc : c ≠ "") (hs : '/' ∉ c.toList) :
    dirname name = if xs = [] then "/" else String.ofList xs := by
  have hkeep : (name.toList.reverse.dropWhile (· = '/')).reverse = name.toList := by
    rw [h]
    simpa using congrArg List.reverse (Path.dropWhile_slash_reverse hc hs (xs ++ ['/']))
  -- the piece after the last slash is passed over and the slash dropped
  have hdrop : (name.toList.reverse.dropWhile (· ≠ '/')) = '/' :: xs.reverse := by
    rw [h, List.reverse_append, List.reverse_cons, List.append_assoc, List.dropWhile_append]
    have hall : c.toList.reverse.dropWhile (· ≠ '/') = [] :=
      List.dropWhile_eq_nil_iff.mpr fun x hx => by
        simp only [ne_eq, decide_eq_true_eq]
        rintro rfl
        exact hs (List.mem_reverse.mp hx)
    rw [hall, List.isEmpty_nil, if_pos rfl, List.singleton_append,
      List.dropWhile_cons_of_neg (by simp)]
  have hne : name.toList ≠ [] := by simp [h]
  unfold dirname
  simp only [hkeep, List.isEmpty_iff, hne, if_false, hdrop, List.reverse_reverse,
    List.reverse_eq_nil_iff]

/-- The directory part of a child's name is its parent's name, `.` for a parent named `./`. -/
theorem dirname_childName {parent c : String} (hp : parent ≠ "") (hc : c ≠ "")
    (hs : '/' ∉ c.toList) :
    dirname (Entry.childName parent c) = if parent = "./" then "." else parent := by
  unfold Entry.childName
  split
  · next hr =>
    have hchars : ("./" ++ c).toList = ['.'] ++ '/' :: c.toList := by simp
    rw [dirname_of_toList hchars hc hs]
    rfl
  · have hchars : (parent ++ "/" ++ c).toList = parent.toList ++ '/' :: c.toList := by simp
    rw [dirname_of_toList hchars hc hs, if_neg (by simpa [String.toList_eq_nil_iff] using hp),
      String.ofList_toList]

/-- A root's name has no directory part. -/
theorem dirname_rootName {c : String} (hc : c ≠ "") (hs : '/' ∉ c.toList) :
    dirname "./" = "." ∧ dirname ("./" ++ c) = "." := by
  have hchars : ("./" ++ c).toList = ['.'] ++ '/' :: c.toList := by simp
  refine ⟨by decide, ?_⟩
  rw [dirname_of_toList hchars hc hs]
  rfl

end Search

namespace Walk

open Disk

variable {faults : Faults}

section Shape

theorem Shaped.name_eq {path name : String} {n : Node} {e : Entry}
    (h : Shaped faults path name n e) : e.name = name := by
  cases h <;> rfl

/-- Each child of a listed directory is the entry of an admitted entry of its listing. -/
theorem mem_listing {path : String} {es : List (String × Node)}
    {pairs : List ((String × Node) × Entry)}
    (perm : (pairs.map Prod.fst).Perm (es.filter (faults.admits path)))
    {q : (String × Node) × Entry} (hq : q ∈ pairs) : q.1 ∈ es ∧ faults.admits path q.1 = true := by
  have hmem := perm.mem_iff.mp (List.mem_map_of_mem hq)
  simpa using hmem

/-- Every entry of a shaped tree is the entry of the node found below the top node by the
components of its path, joined on to the top's path and added to the top's name one at a time,
as the walk does. -/
theorem Shaped.locate {path name : String} {n : Node} {e : Entry}
    (h : Shaped faults path name n e) : n.Sorted → n.Named → ∀ x ∈ e.preorder,
      ∃ ps : List String, (∀ p ∈ ps, Path.IsComponent p) ∧ ∃ m, n.at? ps = some m ∧
        Shaped faults (ps.foldl (fun a p => Path.join [a, p]) path) (ps.foldl Entry.childName name)
          m x := by
  induction h with
  | file =>
    intro _ _ x hx
    simp only [Entry.preorder, List.mem_singleton] at hx
    exact ⟨[], by simp, _, rfl, hx ▸ .file⟩
  | unlisted fails =>
    intro _ _ x hx
    simp only [Entry.preorder, List.map_nil, List.flatten_nil, List.mem_singleton] at hx
    exact ⟨[], by simp, _, rfl, hx ▸ .unlisted fails⟩
  | @listed path name es s pairs lists perm order kids ih =>
    intro hs hn x hx
    rw [Entry.preorder_eq] at hx
    rcases List.mem_cons.mp hx with rfl | hx
    · exact ⟨[], by simp, _, rfl, .listed pairs lists perm order kids⟩
    · -- below the top: in the subtree of one child, found by that child's own components
      obtain ⟨_, hkid, hxkid⟩ := List.mem_flatten.mp hx
      obtain ⟨c, hc, rfl⟩ := List.mem_map.mp hkid
      have hc' : c ∈ pairs.map Prod.snd := hc
      obtain ⟨q, hq, rfl⟩ := List.mem_map.mp hc'
      obtain ⟨hqes, hqadm⟩ := mem_listing perm hq
      cases hs with
      | dir hsorted hsub =>
      cases hn with
      | dir hnames hnsub =>
      obtain ⟨ps, hps, m, hm, hshape⟩ := ih q hq (hsub q.1 hqes) (hnsub q.1 hqes) x hxkid
      refine ⟨q.1.1 :: ps, ?_, m, ?_, hshape⟩
      · intro p hp
        rcases List.mem_cons.mp hp with rfl | hp
        · exact hnames q.1 hqes
        · exact hps p hp
      · simp only [Node.at?, lookup_of_mem hsorted hqes]
        exact hm

/-- Each child of an entry of a shaped tree is named by adding a component to the entry's name. -/
theorem Shaped.kid_name {path name : String} {n : Node} {e : Entry}
    (h : Shaped faults path name n e) (hn : n.Named) :
    ∀ x ∈ e.kids, ∃ c, Path.IsComponent c ∧ x.name = Entry.childName name c := by
  intro x hx
  cases h with
  | file => simp [Entry.kids] at hx
  | unlisted => simp [Entry.kids] at hx
  | listed pairs lists perm order kids =>
    have hx' : x ∈ pairs.map Prod.snd := hx
    obtain ⟨q, hq, rfl⟩ := List.mem_map.mp hx'
    have hqes := (mem_listing perm hq).1
    cases hn with
    | dir hnames _ => exact ⟨q.1.1, hnames q.1 hqes, (kids q hq).name_eq⟩

/-- Every entry of a shaped tree is named by the components of its path below the top. -/
theorem Shaped.names_below {path name : String} {n : Node} {e : Entry}
    (h : Shaped faults path name n e) (hs : n.Sorted) (hn : n.Named) :
    ∀ x ∈ e.preorder, ∃ ps : List String, (∀ p ∈ ps, Path.IsComponent p) ∧
      x.name = Entry.nameBelow name ps := by
  intro x hx
  obtain ⟨ps, hps, m, -, hshape⟩ := h.locate hs hn x hx
  exact ⟨ps, hps, by rw [hshape.name_eq, Entry.foldl_childName fun p hp => (hps p hp).1]⟩

/-- The children of a listed directory come from entries of distinct names. -/
theorem pairs_names_nodup {path : String} {es : List (String × Node)}
    {pairs : List ((String × Node) × Entry)} (hsorted : es.Pairwise (fun a b => a.1 < b.1))
    (perm : (pairs.map Prod.fst).Perm (es.filter (faults.admits path))) :
    pairs.Pairwise (fun q r => q.1.1 ≠ r.1.1) := by
  have hfilter : (es.filter (faults.admits path)).Pairwise (fun a b => a.1 ≠ b.1) :=
    (hsorted.filter _).imp ne_of_lt
  have hfst := (perm.pairwise_iff (fun h => Ne.symm h)).mpr hfilter
  exact (List.pairwise_map (f := Prod.fst)).mp hfst

/-- The names of a shaped tree are distinct. -/
theorem Shaped.names_nodup {path name : String} {n : Node} {e : Entry}
    (h : Shaped faults path name n e) : n.Sorted → n.Named → (e.preorder.map Entry.name).Nodup := by
  induction h with
  | file => intro _ _; simp [Entry.preorder]
  | unlisted => intro _ _; simp [Entry.preorder]
  | @listed path name es s pairs lists perm order kids ih =>
    intro hs hn
    cases hs with
    | dir hsorted hsub =>
    cases hn with
    | dir hnames hnsub =>
    -- every name in a child's subtree is the directory's name with that child's component first
    have hbelow : ∀ q ∈ pairs, ∀ x ∈ q.2.preorder, ∃ ps : List String,
        (∀ p ∈ q.1.1 :: ps, Path.IsComponent p) ∧ x.name = Entry.nameBelow name (q.1.1 :: ps) := by
      intro q hq x hx
      have hqes := (mem_listing perm hq).1
      obtain ⟨ps, hps, hname⟩ := (kids q hq).names_below (hsub q.1 hqes) (hnsub q.1 hqes) x hx
      refine ⟨ps, ?_, by rw [hname, Entry.nameBelow_childName (hnames q.1 hqes).1]⟩
      intro p hp
      rcases List.mem_cons.mp hp with rfl | hp
      · exact hnames q.1 hqes
      · exact hps p hp
    rw [Entry.preorder_eq]
    simp only [Entry.kids, Option.getD_some, List.map_cons, List.map_flatten, List.map_map]
    refine List.nodup_cons.mpr ⟨?_, List.nodup_flatten.mpr ⟨?_, ?_⟩⟩
    · -- no entry below the directory has its name
      intro hmem
      obtain ⟨_, hl, hx⟩ := List.mem_flatten.mp hmem
      obtain ⟨q, hq, rfl⟩ := List.mem_map.mp hl
      obtain ⟨x, hx, hxname⟩ := List.mem_map.mp hx
      obtain ⟨ps, hps, hname⟩ := hbelow q hq x hx
      have := @Entry.nameBelow_injective name [] (q.1.1 :: ps) (by simp) hps
        (by rw [Entry.nameBelow_nil, ← hname]; exact hxname.symm)
      simp at this
    · intro l hl
      obtain ⟨q, hq, rfl⟩ := List.mem_map.mp hl
      have hqes := (mem_listing perm hq).1
      exact ih q hq (hsub q.1 hqes) (hnsub q.1 hqes)
    · -- subtrees of children with distinct components share no name
      refine List.pairwise_map.mpr ((pairs_names_nodup hsorted perm).imp_of_mem ?_)
      intro q r hq hr hqr
      refine List.disjoint_left.mpr fun {a} ha hb => hqr ?_
      obtain ⟨x, hx, rfl⟩ := List.mem_map.mp ha
      obtain ⟨y, hy, hyx⟩ := List.mem_map.mp hb
      obtain ⟨ps, hps, hxname⟩ := hbelow q hq x hx
      obtain ⟨qs, hqs, hyname⟩ := hbelow r hr y hy
      have := Entry.nameBelow_injective hps hqs (by rw [← hxname, ← hyname, hyx])
      exact (List.cons.inj this).1

end Shape

section Rooted

/-! A tree catalogued from a cleaned absolute path. -/

variable {cs : List String}

/-- A root is named `./` at the root of the disk, and `./` and its last component otherwise. -/
theorem rootName_cases (hcs : ∀ x ∈ cs, Path.IsComponent x) :
    (cs = [] ∧ Entry.rootName (Path.rooted cs) = "./") ∨
      ∃ cs' c, Path.IsComponent c ∧ cs = cs' ++ [c] ∧ Entry.rootName (Path.rooted cs) = "./" ++ c := by
  have hsplit := fun x hx => And.intro (hcs x hx).1 (hcs x hx).2.1
  rw [Path.rootName_rooted hcs]
  rcases List.eq_nil_or_concat cs with rfl | ⟨cs', c, rfl⟩
  · exact .inl ⟨rfl, if_pos rfl⟩
  · rw [List.concat_eq_append] at hcs hsplit ⊢
    refine .inr ⟨cs', c, hcs c (by simp), rfl, ?_⟩
    rw [if_neg (fun he => by simpa using (Path.rooted_eq_slash_iff hsplit).mp he),
      Path.base_rooted hcs]

theorem two_le_length_rootName (hcs : ∀ x ∈ cs, Path.IsComponent x) :
    2 ≤ (Entry.rootName (Path.rooted cs)).length := by
  rcases rootName_cases hcs with ⟨-, he⟩ | ⟨_, c, -, -, he⟩
  · rw [he]; decide
  · rw [he, String.length_append]; exact Nat.le_add_right _ _

/-- Every entry of a tree catalogued from a cleaned absolute path is the entry of the node at that
path joined with the components below it, named by them, and its base is its last component, or
that of the root's path (`.` at the root of the disk). -/
theorem Shaped.located {n : Node} {e : Entry} (hcs : ∀ x ∈ cs, Path.IsComponent x)
    (h : Shaped faults (Path.rooted cs) (Entry.rootName (Path.rooted cs)) n e)
    (hs : n.Sorted) (hn : n.Named) :
    ∀ x ∈ e.preorder, ∃ ps : List String, (∀ p ∈ ps, Path.IsComponent p) ∧
      (∃ m, n.at? ps = some m ∧ Shaped faults (Path.join (Path.rooted cs :: ps)) x.name m x) ∧
      x.name = Entry.nameBelow e.name ps ∧
      x.basename = if Path.join (Path.rooted cs :: ps) = "/" then "."
        else Path.base (Path.join (Path.rooted cs :: ps)) := by
  intro x hx
  obtain ⟨ps, hps, m, hm, hshape⟩ := h.locate hs hn x hx
  have hall : ∀ y ∈ cs ++ ps, Path.IsComponent y := fun y hy =>
    (List.mem_append.mp hy).elim (hcs y) (hps y)
  have hjoin := Path.join_rooted hall
  have hname : x.name = Entry.nameBelow e.name ps := by
    rw [hshape.name_eq, h.name_eq, Entry.foldl_childName fun p hp => (hps p hp).1]
  refine ⟨ps, hps, ⟨m, hm, ?_⟩, hname, ?_⟩
  · rw [hjoin, ← Path.foldl_join_rooted hall, hshape.name_eq]
    exact hshape
  · rw [Entry.basename, hname, hjoin, h.name_eq]
    have hslash := fun qs (hq : ∀ y ∈ qs, Path.IsComponent y) =>
      @Path.rooted_eq_slash_iff qs fun y hy => ⟨(hq y hy).1, (hq y hy).2.1⟩
    rcases List.eq_nil_or_concat ps with rfl | ⟨qs, p, rfl⟩
    · -- the root itself: its name is made from its path
      rw [Entry.nameBelow_nil, List.append_nil]
      rcases rootName_cases hcs with ⟨rfl, he⟩ | ⟨cs', c, hc, rfl, he⟩
      · rw [he, if_pos (show Path.rooted [] = "/" from rfl),
          (Entry.base_rootName (c := "x") (by decide) (by decide)).1]
      · rw [he, if_neg (by simp [hslash _ hcs]), Path.base_rooted hcs,
          (Entry.base_rootName hc.1 hc.2.1).2]
    · -- an entry below it: the last component on both sides
      rw [List.concat_eq_append] at hall hps ⊢
      have hp := hps p (by simp)
      have hne : Path.rooted (cs ++ (qs ++ [p])) ≠ "/" := fun he => by
        simpa using (hslash _ hall).mp he
      rw [if_neg hne, ← List.append_assoc, Path.base_rooted (by simpa using hall),
        Entry.base_nameBelow_concat hp.1 hp.2.1]

/-- What search reports as the directory of an entry: its name up to the last slash, and nothing
when that is `.`. -/
theorem hitOf_fullPath (catalog file : String) (x : Entry) :
    (Search.hitOf catalog file x).fullPath =
      if Search.dirname x.name = "." then "" else Search.dirname x.name := rfl

/-- A root found from a cleaned absolute path is reported with no directory. -/
theorem hitOf_root_fullPath {e : Entry} (hcs : ∀ x ∈ cs, Path.IsComponent x)
    (he : e.name = Entry.rootName (Path.rooted cs)) (catalog file : String) :
    (Search.hitOf catalog file e).fullPath = "" := by
  rw [hitOf_fullPath, he]
  rcases rootName_cases hcs with ⟨-, hr⟩ | ⟨_, c, hc, -, hr⟩
  · rw [hr, (Search.dirname_rootName (c := "x") (by decide) (by decide)).1, if_pos rfl]
  · rw [hr, (Search.dirname_rootName hc.1 hc.2.1).2, if_pos rfl]

/-- Each child of an entry of a tree catalogued from a cleaned absolute path is reported with its
parent's name as its directory, or with none when the parent is named `./`. -/
theorem Shaped.hitOf_kid_fullPath {n : Node} {e : Entry} (hcs : ∀ x ∈ cs, Path.IsComponent x)
    (h : Shaped faults (Path.rooted cs) (Entry.rootName (Path.rooted cs)) n e)
    (hs : n.Sorted) (hn : n.Named) :
    ∀ y ∈ e.preorder, ∀ x ∈ y.kids, ∀ catalog file : String,
      (Search.hitOf catalog file x).fullPath = if y.name = "./" then "" else y.name := by
  intro y hy x hx catalog file
  obtain ⟨ps, hps, m, hm, hshape⟩ := h.locate hs hn y hy
  obtain ⟨c, hc, hxname⟩ := hshape.kid_name (hn.at? hm) x hx
  rw [← hshape.name_eq] at hxname
  -- the parent's name is at least as long as the root's, so neither empty nor `.`
  have hlen : 2 ≤ y.name.length := by
    rw [hshape.name_eq, Entry.foldl_childName fun p hp => (hps p hp).1]
    exact (two_le_length_rootName hcs).trans (Entry.length_le_nameBelow _ _)
  have hne : y.name ≠ "" := fun he => by simp [he] at hlen
  have hdot : y.name ≠ "." := fun he => by
    rw [he] at hlen
    exact absurd hlen (by decide)
  rw [hitOf_fullPath, hxname, Search.dirname_childName hne hc.1 hc.2.1]
  by_cases hr : y.name = "./"
  · simp [hr]
  · simp [hr, hdot]

end Rooted

/-- How the entries of a tree catalogued from the absolute path `absPath` are named. The root is
named after `absPath`: `./` and its base, or `./` alone at the root of the disk. Every entry is the
entry of the node at `absPath` joined with some components, is named by the root's name and those
components, and has the last of its path's components as its base (`.` for a root named `./`).
Distinct entries have distinct names. A search hit of the root has no directory, and one of any
other entry has its parent's name, or none when the parent is named `./`; its base is the entry's
by definition. -/
structure NamedByPath (d : Disk) (faults : Faults) (absPath : String) (root : Entry) : Prop where
  root_name : root.name = Entry.rootName absPath
  rootName_eq : Entry.rootName absPath = if absPath = "/" then "./" else "./" ++ Path.base absPath
  located : ∀ x ∈ root.preorder, ∃ ps : List String, (∀ p ∈ ps, Path.IsComponent p) ∧
    (∃ n m, d.lookup absPath true = .ok n ∧ n.at? ps = some m ∧
      Shaped faults (Path.join (absPath :: ps)) x.name m x) ∧
    x.name = Entry.nameBelow root.name ps ∧
    x.basename = if Path.join (absPath :: ps) = "/" then "." else Path.base (Path.join (absPath :: ps))
  names_nodup : (root.preorder.map Entry.name).Nodup
  root_hit : ∀ catalog file : String, (Search.hitOf catalog file root).fullPath = ""
  kid_hit : ∀ y ∈ root.preorder, ∀ x ∈ y.kids, ∀ catalog file : String,
    (Search.hitOf catalog file x).fullPath = if y.name = "./" then "" else y.name

/-- On a disk whose directories list file names in increasing order, with an absolute working
directory, every tree the walk builds is named by the paths of its entries: the root after its
absolute path, every other entry by the components below it, distinct entries distinctly; each
base is the one on disk, and each search hit's directory is its parent's name. -/
theorem build_names {d : Disk} (hs : d.root.Sorted) (hn : d.root.Named)
    (hcwd : Path.isAbs d.cwd = true) {faults : Faults} {rootPath : String} {b : Built}
    (h : build d faults rootPath = .ok b) :
    NamedByPath d faults (Path.abs d.cwd rootPath) b.root := by
  obtain ⟨n, hlookup, hshape⟩ := build_shaped hs h
  obtain ⟨cs, hcs, habs⟩ := Path.abs_eq_rooted hcwd rootPath
  have hns := lookup_sorted hs hlookup
  have hnn := lookup_named hn hlookup
  rw [habs] at hlookup hshape ⊢
  refine ⟨hshape.name_eq, Path.rootName_rooted hcs, fun x hx => ?_, hshape.names_nodup hns hnn,
    hitOf_root_fullPath hcs hshape.name_eq, hshape.hitOf_kid_fullPath hcs hns hnn⟩
  obtain ⟨ps, hps, ⟨m, hm, hx⟩, hname, hbase⟩ := hshape.located hcs hns hnn x hx
  exact ⟨ps, hps, ⟨n, m, hlookup, hm, hx⟩, hname, hbase⟩

/-- A disk with a directory of a file and a subdirectory, beside a file. -/
def docsDisk : Disk :=
  ⟨.dir [("docs", .dir [("a.txt", .file [] 1 0), ("b", .dir [("c", .file [] 2 0)])]),
    ("x", .file [] 2 0)], "/", 0⟩

/-- The directory catalogued from the working directory: its root is named `./docs`. -/
theorem build_names_docsDisk :
    docsDisk.root.Sorted ∧ docsDisk.root.Named ∧ Path.isAbs docsDisk.cwd = true ∧
      ∃ b, build docsDisk {} "docs" = .ok b ∧
        NamedByPath docsDisk {} (Path.abs docsDisk.cwd "docs") b.root := by
  have hsorted : docsDisk.root.Sorted := by
    refine .dir (by decide) ?_
    intro e he
    simp only [List.mem_cons, List.mem_nil_iff, or_false] at he
    rcases he with rfl | rfl
    · refine .dir (by decide) ?_
      intro e he
      simp only [List.mem_cons, List.mem_nil_iff, or_false] at he
      rcases he with rfl | rfl
      · exact .file
      · exact .dir (by decide) (by simp [Node.Sorted.file])
    · exact .file
  have hnamed : docsDisk.root.Named := by
    refine .dir (by simp [Path.IsComponent]) ?_
    intro e he
    simp only [List.mem_cons, List.mem_nil_iff, or_false] at he
    rcases he with rfl | rfl
    · refine .dir (by simp [Path.IsComponent]) ?_
      intro e he
      simp only [List.mem_cons, List.mem_nil_iff, or_false] at he
      rcases he with rfl | rfl
      · exact .file
      · exact .dir (by simp [Path.IsComponent]) (by simp [Node.Named.file])
    · exact .file
  -- the root path is made absolute against the working directory and looked up
  have habs : Path.abs docsDisk.cwd "docs" = "/docs" := by
    have hrel : Path.isAbs "docs" = false := by cbv
    simp only [docsDisk, Path.abs, hrel]
    exact @Path.join_rooted [] ["docs"] (by simp [Path.IsComponent])
  have hlookup : docsDisk.lookup (.text "/docs") true =
      .ok (.dir [("a.txt", .file [] 1 0), ("b", .dir [("c", .file [] 2 0)])]) := by
    have hcomps : components "/docs" = ["docs"] := by cbv
    have hpath : pathProblem "/docs" = none := by cbv
    have hstart : Path.isAbs "/docs" = true := by cbv
    simp [Disk.lookup, Disk.resolve, hpath, hcomps, Disk.start, hstart, walk, Node.at?, docsDisk,
      Node.entries?]
  obtain ⟨b, hb⟩ : ∃ b, build docsDisk {} "docs" = .ok b :=
    (build_ok_iff _ _ _).mpr ⟨_, by rw [habs]; exact hlookup, rfl⟩
  exact ⟨hsorted, hnamed, isAbs_slash, b, hb, build_names hsorted hnamed isAbs_slash hb⟩

end Walk

end TreeCatalog
