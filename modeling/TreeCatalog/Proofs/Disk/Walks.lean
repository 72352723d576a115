import Mathlib
import TreeCatalog.Proofs.Disk.Tree
import TreeCatalog.Proofs.Path.Lexical

/-! # Walks that survive a change

A walk reads the tree one place at a time, so it is determined by what it meets on its way. Three
ways of knowing that a walk still ends where it did:

* `walk_of_agreeOff`: two trees that look alike except at and below a place `q`, where the second
  holds a leaf. A walk in the second tree that ends at a directory never met `q` (a leaf on the way
  stops a walk, and at its end is no directory), so it goes the same way in the first.
* `walk_zero_keepsDirs`: a walk that follows no link and ends at a directory met only
  directories, so it goes the same way in every tree that keeps them. Such a walk ends where the
  path says, lexically (`walk_zero_lexical`), and more links to follow change nothing
  (`walk_links_zero`).
* `walk_names`: names that lead to a node that is no link walk down to it, and a cleaned path
  climbs first and then goes down by names (`walk_climbing`). -/

namespace TreeCatalog.Disk

section Steps

variable {root : Node} {f : Bool} {links : Nat} {here : List String} {c : String}
  {es : List (String × Node)}

theorem at?_of_bind_entries (h : (root.at? here).bind Node.entries? = some es) :
    root.at? here = some (.dir es) := by
  obtain ⟨m, hm, hme⟩ := Option.bind_eq_some_iff.mp h
  cases m with
  | dir fs => cases hme; exact hm
  | _ => simp [Node.entries?] at hme

theorem at?_snoc_of_lookup (h : (root.at? here).bind Node.entries? = some es) {x : Node}
    (hl : es.lookup c = some x) : root.at? (here ++ [c]) = some x :=
  (Node.at?_snoc_of_dir (at?_of_bind_entries h) c).trans hl

theorem walk_dot (cs : List String) :
    walk root f links here ("." :: cs) = walk root f links here cs := by
  rw [walk]; simp

theorem walk_dotdot (cs : List String) :
    walk root f links here (".." :: cs) = walk root f links here.dropLast cs := by
  rw [walk]; simp

theorem walk_dir (cs : List String) (hc1 : c ≠ ".") (hc2 : c ≠ "..")
    (hhere : root.at? here = some (.dir es)) {fs : List (String × Node)}
    (hc : root.at? (here ++ [c]) = some (.dir fs)) :
    walk root f links here (c :: cs) = walk root f links (here ++ [c]) cs := by
  have hl : es.lookup c = some (.dir fs) := (Node.at?_snoc_of_dir hhere c).symm.trans hc
  rw [walk]; simp [hc1, hc2, hhere, Node.entries?, hl]

theorem walk_link_stop (cs : List String) (hc1 : c ≠ ".") (hc2 : c ≠ "..")
    (hhere : root.at? here = some (.dir es)) {target : String}
    (hc : root.at? (here ++ [c]) = some (.link target)) (hstop : cs.isEmpty = true ∧ (!f) = true) :
    walk root f links here (c :: cs) = .ok (here ++ [c]) := by
  have hl : es.lookup c = some (.link target) := (Node.at?_snoc_of_dir hhere c).symm.trans hc
  rw [walk]; simp [hc1, hc2, hhere, Node.entries?, hl, hstop.1, hstop.2]

theorem walk_link_follow (cs : List String) (hc1 : c ≠ ".") (hc2 : c ≠ "..") {k : Nat}
    (hhere : root.at? here = some (.dir es)) {target : String}
    (hc : root.at? (here ++ [c]) = some (.link target))
    (hgo : ¬ (cs.isEmpty = true ∧ (!f) = true)) (ht : target ≠ "") :
    walk root f (k + 1) here (c :: cs) =
      walk root f k (if Path.isAbs target then [] else here) (components target ++ cs) := by
  have hl : es.lookup c = some (.link target) := (Node.at?_snoc_of_dir hhere c).symm.trans hc
  have hes : (root.at? here).bind Node.entries? = some es := by simp [hhere, Node.entries?]
  rw [walk]
  simp only [hc1, hc2, if_false, hes, hl, hgo, ht]

theorem walk_leaf (cs : List String) (hc1 : c ≠ ".") (hc2 : c ≠ "..")
    (hhere : root.at? here = some (.dir es)) {n : Node} (hc : root.at? (here ++ [c]) = some n)
    (hn : n.entries? = none) (hlink : ∀ t, n ≠ .link t) :
    walk root f links here (c :: cs) = if cs.isEmpty then .ok (here ++ [c]) else .error .notDir := by
  have hl : es.lookup c = some n := (Node.at?_snoc_of_dir hhere c).symm.trans hc
  rw [walk]
  cases n with
  | dir => simp [Node.entries?] at hn
  | link t => exact absurd rfl (hlink t)
  | file => simp [hc1, hc2, hhere, Node.entries?, hl]
  | fifo => simp [hc1, hc2, hhere, Node.entries?, hl]

/-- Each leading `..` goes up one place. -/
theorem walk_dotdots (k : Nat) (here cs : List String) :
    walk root f links here (List.replicate k ".." ++ cs) =
      walk root f links (List.dropLast^[k] here) cs := by
  induction k generalizing here with
  | zero => rfl
  | succ k ih =>
    rw [List.replicate_succ, List.cons_append, walk_dotdot, ih, Function.iterate_succ_apply]

end Steps

section Transfer

variable {a b : Node} {q : List String}

/-- Below a leaf there is no directory. -/
theorem not_prefix_of_dir (hq : (b.at? q).map Node.form = some .fifo) {xs : List String}
    {es : List (String × Node)} (h : b.at? xs = some (.dir es)) : ¬ q <+: xs := by
  rintro ⟨zs, rfl⟩
  obtain ⟨n, hn, hne, -⟩ := Node.map_form_eq_leaf.mp hq
  cases zs with
  | nil =>
    rw [List.append_nil, hn] at h
    cases h
    simp [Node.entries?] at hne
  | cons z zs =>
    obtain ⟨fs, hfs⟩ := Node.at?_of_below h
    rw [hfs] at hn
    cases hn
    simp [Node.entries?] at hne

theorem Node.AgreeOff.dir (h : a.AgreeOff q b) {xs : List String} (hx : ¬ q <+: xs)
    {es : List (String × Node)} (hb : b.at? xs = some (.dir es)) :
    ∃ es', a.at? xs = some (.dir es') :=
  Node.map_form_eq_dir.mp (by rw [h xs hx, hb]; rfl)

theorem Node.AgreeOff.link (h : a.AgreeOff q b) {xs : List String} (hx : ¬ q <+: xs)
    {t : String} (hb : b.at? xs = some (.link t)) : a.at? xs = some (.link t) :=
  Node.map_form_eq_link.mp (by rw [h xs hx, hb]; rfl)

theorem Node.AgreeOff.leaf (h : a.AgreeOff q b) {xs : List String} (hx : ¬ q <+: xs)
    {n : Node} (hb : b.at? xs = some n) (hn : n.entries? = none) (hl : ∀ t, n ≠ .link t) :
    ∃ m, a.at? xs = some m ∧ m.entries? = none ∧ ∀ t, m ≠ .link t :=
  Node.map_form_eq_leaf.mp (by rw [h xs hx, Node.map_form_eq_leaf.mpr ⟨n, hb, hn, hl⟩])

/-- Going down by a name that is not `q` keeps a walk away from `q`. -/
theorem not_prefix_snoc {here : List String} {c : String} (hhere : ¬ q <+: here)
    (hc : q ≠ here ++ [c]) : ¬ q <+: here ++ [c] := by
  rw [List.prefix_concat_iff]
  rintro (h | h)
  · exact hc h
  · exact hhere h

/-- A walk that ends at a directory of `b` goes the same way in a tree that looks alike except
at and below a leaf of `b`: it never met the leaf. -/
theorem walk_of_agreeOff (hab : a.AgreeOff q b) (hq : (b.at? q).map Node.form = some .fifo)
    {f : Bool} {links : Nat} {here cs r : List String} (hhere : ¬ q <+: here)
    (hw : walk b f links here cs = .ok r) (hr : ∃ es, b.at? r = some (.dir es)) :
    walk a f links here cs = .ok r := by
  obtain ⟨esr, hesr⟩ := hr
  -- the place of a leaf of `b` is no directory, so the walk does not end there
  have hleaf : ∀ {xs : List String} {n : Node}, b.at? xs = some n → n.entries? = none → xs ≠ r :=
    fun hx hn he => by rw [he, hesr] at hx; cases hx; simp [Node.entries?] at hn
  fun_induction walk b f links here cs with
  | case1 here => rw [walk_nil]; exact hw
  | case2 links here cs ih => rw [walk_dot]; exact ih hhere hw
  | case3 links here cs _ ih =>
    rw [walk_dotdot]
    exact ih (fun h => hhere (h.trans (List.dropLast_prefix here))) hw
  | case4 => cases hw
  | case5 => cases hw
  | case6 links here c cs hc1 hc2 es hes target hl hstop =>
    cases hw
    exact absurd rfl (hleaf (at?_snoc_of_lookup hes hl) rfl)
  | case7 => cases hw
  | case8 => cases hw
  | case9 here c cs hc1 hc2 es hes target hl hgo k ht ih =>
    have hc := at?_snoc_of_lookup hes hl
    have hnq : q ≠ here ++ [c] := fun he => by
      rw [he, hc] at hq
      cases hq
    obtain ⟨es', hes'⟩ := hab.dir hhere (at?_of_bind_entries hes)
    rw [walk_link_follow cs hc1 hc2 hes' (hab.link (not_prefix_snoc hhere hnq) hc) hgo ht]
    refine ih ?_ hw
    split
    · exact fun h => hhere (List.prefix_nil.mp h ▸ List.nil_prefix)
    · exact hhere
  | case10 links here c cs hc1 hc2 es hes fs hl ih =>
    have hc := at?_snoc_of_lookup hes hl
    have hnq : ¬ q <+: here ++ [c] := not_prefix_of_dir hq hc
    obtain ⟨es', hes'⟩ := hab.dir hhere (at?_of_bind_entries hes)
    obtain ⟨fs', hfs'⟩ := hab.dir hnq hc
    rw [walk_dir cs hc1 hc2 hes' hfs']
    exact ih hnq hw
  | case11 links here c cs hc1 hc2 es hes n hnl hnd hl hcs =>
    cases hw
    exact absurd rfl (hleaf (at?_snoc_of_lookup hes hl) (by cases n <;> simp_all [Node.entries?]))
  | case12 => cases hw

end Transfer

section Budget

variable {root : Node} {f : Bool} {links : Nat} {here cs r : List String}

/-- A walk that follows no link needs no budget for links. -/
theorem walk_links_zero (hw : walk root f links here cs = .ok r) (h0 : links = 0) (k : Nat) :
    walk root f k here cs = .ok r := by
  fun_induction walk root f links here cs with
  | case1 here => rw [walk_nil]; exact hw
  | case2 links here cs ih => rw [walk_dot]; exact ih hw h0
  | case3 links here cs _ ih => rw [walk_dotdot]; exact ih hw h0
  | case4 => cases hw
  | case5 => cases hw
  | case6 links here c cs hc1 hc2 es hes target hl hstop =>
    rw [walk_link_stop cs hc1 hc2 (at?_of_bind_entries hes) (at?_snoc_of_lookup hes hl) hstop]
    exact hw
  | case7 => cases hw
  | case8 => cases hw
  | case9 => cases h0
  | case10 links here c cs hc1 hc2 es hes fs hl ih =>
    rw [walk_dir cs hc1 hc2 (at?_of_bind_entries hes) (at?_snoc_of_lookup hes hl)]
    exact ih hw h0
  | case11 links here c cs hc1 hc2 es hes n hnl hnd hl hcs =>
    rw [walk_leaf cs hc1 hc2 (at?_of_bind_entries hes) (at?_snoc_of_lookup hes hl)
      (by cases n <;> simp_all [Node.entries?]) hnl, if_pos hcs]
    exact hw
  | case12 => cases hw

/-- A walk that follows no link ends where the path says, lexically. -/
theorem walk_zero_lexical (hw : walk root f links here cs = .ok r) (h0 : links = 0) :
    r = Path.lexical here cs := by
  fun_induction walk root f links here cs with
  | case1 here => cases hw; rfl
  | case2 links here cs ih => rw [Path.lexical, if_pos rfl]; exact ih hw h0
  | case3 links here cs _ ih =>
    rw [Path.lexical, if_neg (by decide), if_pos rfl]; exact ih hw h0
  | case4 => cases hw
  | case5 => cases hw
  | case6 links here c cs hc1 hc2 es hes target hl hstop =>
    cases hw
    rw [List.isEmpty_iff.mp hstop.1, Path.lexical, if_neg hc1, if_neg hc2]
    rfl
  | case7 => cases hw
  | case8 => cases hw
  | case9 => cases h0
  | case10 links here c cs hc1 hc2 es hes fs hl ih =>
    rw [Path.lexical, if_neg hc1, if_neg hc2]; exact ih hw h0
  | case11 links here c cs hc1 hc2 es hes n hnl hnd hl hcs =>
    cases hw
    rw [List.isEmpty_iff.mp hcs, Path.lexical, if_neg hc1, if_neg hc2]
    rfl
  | case12 => cases hw

/-- A walk that follows no link and ends at a directory goes the same way in every tree that
keeps the directories: it met nothing else. -/
theorem walk_zero_keepsDirs {a b : Node} (hk : a.KeepsDirs b) (hw : walk a f links here cs = .ok r)
    (h0 : links = 0) (hr : ∃ es, a.at? r = some (.dir es)) : walk b f links here cs = .ok r := by
  obtain ⟨esr, hesr⟩ := hr
  fun_induction walk a f links here cs with
  | case1 here => rw [walk_nil]; exact hw
  | case2 links here cs ih => rw [walk_dot]; exact ih hw h0
  | case3 links here cs _ ih => rw [walk_dotdot]; exact ih hw h0
  | case4 => cases hw
  | case5 => cases hw
  | case6 links here c cs hc1 hc2 es hes target hl hstop =>
    cases hw
    rw [at?_snoc_of_lookup hes hl] at hesr
    cases hesr
  | case7 => cases hw
  | case8 => cases hw
  | case9 => cases h0
  | case10 links here c cs hc1 hc2 es hes fs hl ih =>
    obtain ⟨es', hes'⟩ := hk _ _ (at?_of_bind_entries hes)
    obtain ⟨fs', hfs'⟩ := hk _ _ (at?_snoc_of_lookup hes hl)
    rw [walk_dir cs hc1 hc2 hes' hfs']
    exact ih hw h0
  | case11 links here c cs hc1 hc2 es hes n hnl hnd hl hcs =>
    cases hw
    rw [at?_snoc_of_lookup hes hl] at hesr
    cases hesr
    exact absurd rfl (hnd _)
  | case12 => cases hw

end Budget

section Direct

variable {root : Node} {f : Bool} {links : Nat}

/-- Names that lead to a node that is no link walk down to it. -/
theorem walk_names {names : List String} (hn : ∀ c ∈ names, c ≠ "." ∧ c ≠ "..") :
    ∀ {here : List String}, (∃ n, root.at? (here ++ names) = some n ∧ ∀ t, n ≠ .link t) →
      walk root f links here names = .ok (here ++ names) := by
  induction names with
  | nil => intro here _; rw [walk_nil, List.append_nil]
  | cons c rest ih =>
    intro here ⟨n, hat, hlink⟩
    obtain ⟨hc1, hc2⟩ := hn c List.mem_cons_self
    have ih' := @ih (fun x hx => hn x (List.mem_cons_of_mem _ hx)) (here ++ [c])
    obtain ⟨es, hes⟩ := Node.at?_of_below hat
    cases rest with
    | nil =>
      rw [List.append_nil] at ih'
      cases n with
      | dir fs => rw [walk_dir [] hc1 hc2 hes hat, walk_nil]
      | link t => exact absurd rfl (hlink t)
      | file => rw [walk_leaf [] hc1 hc2 hes hat rfl hlink]; rfl
      | fifo => rw [walk_leaf [] hc1 hc2 hes hat rfl hlink]; rfl
    | cons d rest =>
      -- on the way down every place is a directory
      have hat' : root.at? (here ++ [c] ++ d :: rest) = some n := by simpa using hat
      obtain ⟨fs, hfs⟩ := Node.at?_of_below hat'
      rw [walk_dir _ hc1 hc2 hes hfs, ih' ⟨n, hat', hlink⟩]
      simp

/-- A path that climbs first and then goes down by names walks to the place it names lexically,
when that holds a node that is no link. -/
theorem walk_climbing {k : Nat} {names : List String} (hn : ∀ c ∈ names, c ≠ "." ∧ c ≠ "..")
    {here : List String}
    (hq : ∃ n, root.at? (Path.lexical here (List.replicate k ".." ++ names)) = some n ∧
      ∀ t, n ≠ .link t) :
    walk root f links here (List.replicate k ".." ++ names) =
      .ok (Path.lexical here (List.replicate k ".." ++ names)) := by
  rw [Path.lexical_dotdots, Path.lexical_names hn] at hq ⊢
  rw [walk_dotdots]
  exact walk_names hn hq

/-- A walk to a directory, continued by more components, goes on from that directory with what
is left of its budget for links. -/
theorem walk_append {here cs r ds : List String} (hw : walk root true links here cs = .ok r)
    (hr : ∃ es, root.at? r = some (.dir es)) (hds : ds ≠ []) :
    ∃ k, walk root f links here (cs ++ ds) = walk root f k r ds := by
  obtain ⟨esr, hesr⟩ := hr
  have hgo : ∀ xs : List String, ¬ ((xs ++ ds).isEmpty = true ∧ (!f) = true) := fun xs h => by
    simp [List.isEmpty_iff, hds] at h
  fun_induction walk root true links here cs with
  | case1 links here => cases hw; exact ⟨links, rfl⟩
  | case2 links here cs ih => rw [List.cons_append, walk_dot]; exact ih hw
  | case3 links here cs _ ih => rw [List.cons_append, walk_dotdot]; exact ih hw
  | case4 => cases hw
  | case5 => cases hw
  | case6 links here c cs hc1 hc2 es hes target hl hstop => simp at hstop
  | case7 => cases hw
  | case8 => cases hw
  | case9 here c cs hc1 hc2 es hes target hl hgo' k ht ih =>
    rw [List.cons_append, walk_link_follow (cs ++ ds) hc1 hc2 (at?_of_bind_entries hes)
      (at?_snoc_of_lookup hes hl) (hgo cs) ht, ← List.append_assoc]
    exact ih hw
  | case10 links here c cs hc1 hc2 es hes fs hl ih =>
    rw [List.cons_append, walk_dir _ hc1 hc2 (at?_of_bind_entries hes) (at?_snoc_of_lookup hes hl)]
    exact ih hw
  | case11 links here c cs hc1 hc2 es hes n hnl hnd hl hcs =>
    cases hw
    rw [at?_snoc_of_lookup hes hl] at hesr
    cases hesr
    exact absurd rfl (hnd _)
  | case12 => cases hw

end Direct

end TreeCatalog.Disk
