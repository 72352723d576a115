import Mathlib
import TreeCatalog.Proofs.Path.Rooted

/-! # Walking a path without a disk

`lexical here cs` is where a walk from `here` along `cs` ends when it meets no link: `.` stays,
`..` goes up (at the root it stays) and a name goes down. Cleaning does not move that place
(`lexical_cleanParts`), and a cleaned path climbs with `..` only before its first name
(`cleanParts_climbs`).

A name joined to a path is the path's `entryPrefix` followed by the name: the cleaned path and a
slash, the slash alone at the root, nothing at all for `.` (`join_entry`). So the joined path is a
direct child of the cleaned path (`dir_entry`, `base_entry`), its components are those of the
cleaned path and the name (`parts_entry`), and two names give two paths. -/

namespace TreeCatalog.Path

/-- Where a walk from `here` along `cs` ends when it meets no link. -/
def lexical : List String → List String → List String
  | here, [] => here
  | here, c :: cs =>
    if c = "." then lexical here cs
    else if c = ".." then lexical here.dropLast cs
    else lexical (here ++ [c]) cs

section Lexical

theorem lexical_append (here xs ys : List String) :
    lexical here (xs ++ ys) = lexical (lexical here xs) ys := by
  induction xs generalizing here with
  | nil => rfl
  | cons c xs ih =>
    simp only [List.cons_append, lexical]
    split_ifs <;> exact ih _

/-- Names only go down. -/
theorem lexical_names {names : List String} (h : ∀ c ∈ names, c ≠ "." ∧ c ≠ "..")
    (here : List String) : lexical here names = here ++ names := by
  induction names generalizing here with
  | nil => simp [lexical]
  | cons c names ih =>
    obtain ⟨h1, h2⟩ := h c List.mem_cons_self
    rw [lexical, if_neg h1, if_neg h2, ih (fun x hx => h x (List.mem_cons_of_mem _ hx))]
    simp

/-- Each leading `..` goes up one place. -/
theorem lexical_dotdots (k : Nat) (here cs : List String) :
    lexical here (List.replicate k ".." ++ cs) = lexical (List.dropLast^[k] here) cs := by
  induction k generalizing here with
  | zero => rfl
  | succ k ih =>
    rw [List.replicate_succ, List.cons_append, lexical, if_neg (by decide), if_pos rfl, ih,
      Function.iterate_succ_apply]

theorem push_dot (rooted : Bool) (stack : List String) : push rooted stack "." = stack := by
  simp [push]

theorem push_dotdot_nil (rooted : Bool) : push rooted [] ".." = if rooted then [] else [".."] := by
  simp [push]

theorem push_dotdot_cons (rooted : Bool) (top : String) (rest : List String) :
    push rooted (top :: rest) ".." = if top = ".." then ".." :: top :: rest else rest := by
  simp [push]

theorem push_name (rooted : Bool) (stack : List String) {c : String} (h1 : c ≠ ".")
    (h2 : c ≠ "..") : push rooted stack c = c :: stack := by
  simp [push, h1, h2]

theorem dot_not_mem_push {rooted : Bool} {stack : List String} (c : String)
    (h : "." ∉ stack) : "." ∉ push rooted stack c := by
  by_cases h1 : c = "."
  · rw [h1, push_dot]; exact h
  · by_cases h2 : c = ".."
    · subst h2
      cases stack with
      | nil => rw [push_dotdot_nil]; split_ifs <;> simp
      | cons top rest =>
        rw [push_dotdot_cons]
        split_ifs
        · simpa using h
        · exact fun hm => h (List.mem_cons_of_mem _ hm)
    · rw [push_name _ _ h1 h2]
      simpa [Ne.symm h1] using h

/-- Folding a component into the cleaned stack moves the place as walking it does. -/
theorem lexical_push {rooted : Bool} {here stack : List String} (c : String)
    (hroot : rooted = true → here = []) (hdot : "." ∉ stack) :
    lexical here (push rooted stack c).reverse = lexical (lexical here stack.reverse) [c] := by
  by_cases h1 : c = "."
  · simp [h1, push_dot, lexical]
  · by_cases h2 : c = ".."
    · subst h2
      cases stack with
      | nil =>
        rw [push_dotdot_nil]
        cases rooted with
        | true => simp [lexical, hroot rfl]
        | false => rfl
      | cons top rest =>
        rw [push_dotdot_cons]
        by_cases htop : top = ".."
        · rw [if_pos htop, List.reverse_cons, lexical_append]
        · -- the `..` takes back the name on top of the stack
          have htop' : top ≠ "." := fun h => hdot (h ▸ List.mem_cons_self)
          rw [if_neg htop, List.reverse_cons, lexical_append _ rest.reverse [top]]
          simp [lexical, htop, htop']
    · rw [push_name _ _ h1 h2, List.reverse_cons, lexical_append]

theorem lexical_foldl_push {rooted : Bool} {here : List String} (hroot : rooted = true → here = [])
    (cs : List String) : ∀ stack : List String, "." ∉ stack →
      lexical here (cs.foldl (push rooted) stack).reverse =
        lexical (lexical here stack.reverse) cs := by
  induction cs with
  | nil => intro stack _; rfl
  | cons c cs ih =>
    intro stack hdot
    rw [List.foldl_cons, ih _ (dot_not_mem_push c hdot), lexical_push c hroot hdot,
      ← lexical_append, List.singleton_append]

/-- Cleaning a path does not move the place a walk without links reaches. -/
theorem lexical_cleanParts {rooted : Bool} {here : List String} (hroot : rooted = true → here = [])
    (cs : List String) : lexical here (cleanParts rooted cs) = lexical here cs := by
  exact lexical_foldl_push hroot cs [] List.not_mem_nil

end Lexical

section Climbing

/-- The stack of a cleaning climbs only below its names: names on top, `..` under them, and no
`..` at all at the root. -/
theorem push_climbs {rooted : Bool} {stack : List String} (c : String)
    (h : ∃ k names, stack = names ++ List.replicate k ".." ∧ (∀ x ∈ names, x ≠ "." ∧ x ≠ "..") ∧
      (rooted = true → k = 0)) :
    ∃ k names, push rooted stack c = names ++ List.replicate k ".." ∧
      (∀ x ∈ names, x ≠ "." ∧ x ≠ "..") ∧ (rooted = true → k = 0) := by
  obtain ⟨k, names, rfl, hnames, hk⟩ := h
  by_cases h1 : c = "."
  · exact ⟨k, names, by rw [h1, push_dot], hnames, hk⟩
  · by_cases h2 : c = ".."
    · subst h2
      cases names with
      | nil =>
        cases k with
        | zero =>
          cases rooted with
          | true => exact ⟨0, [], rfl, by simp, fun _ => rfl⟩
          | false => exact ⟨1, [], rfl, by simp, fun h => by cases h⟩
        | succ k =>
          -- only `..` on the stack: one more goes on it
          refine ⟨k + 2, [], ?_, by simp, fun h => by cases hk h⟩
          rw [List.nil_append, List.replicate_succ, push_dotdot_cons, if_pos rfl]
          simp [List.replicate_succ]
      | cons top rest =>
        have htop : top ≠ ".." := (hnames top List.mem_cons_self).2
        exact ⟨k, rest, by rw [List.cons_append, push_dotdot_cons, if_neg htop],
          fun x hx => hnames x (List.mem_cons_of_mem _ hx), hk⟩
    · refine ⟨k, c :: names, by rw [push_name _ _ h1 h2]; rfl, fun x hx => ?_, hk⟩
      rcases List.mem_cons.mp hx with rfl | hx
      · exact ⟨h1, h2⟩
      · exact hnames x hx

/-- A cleaned path climbs with `..` first and then only goes down by names; at the root it does
not climb at all. -/
theorem cleanParts_climbs (rooted : Bool) (cs : List String) :
    ∃ k names, cleanParts rooted cs = List.replicate k ".." ++ names ∧
      (∀ x ∈ names, x ≠ "." ∧ x ≠ "..") ∧ (rooted = true → k = 0) := by
  have hfold : ∀ (cs stack : List String), (∃ k names, stack = names ++ List.replicate k ".." ∧
      (∀ x ∈ names, x ≠ "." ∧ x ≠ "..") ∧ (rooted = true → k = 0)) →
      ∃ k names, cs.foldl (push rooted) stack = names ++ List.replicate k ".." ∧
        (∀ x ∈ names, x ≠ "." ∧ x ≠ "..") ∧ (rooted = true → k = 0) := by
    intro cs
    induction cs with
    | nil => exact fun _ h => h
    | cons c cs ih => exact fun stack h => ih _ (push_climbs c h)
  obtain ⟨k, names, hstack, hnames, hk⟩ := hfold cs [] ⟨0, [], rfl, by simp, fun _ => rfl⟩
  refine ⟨k, names.reverse, ?_, fun x hx => hnames x (List.mem_reverse.mp hx), hk⟩
  rw [cleanParts, hstack, List.reverse_append, List.reverse_replicate]

/-- What a cleaned path holds: its own components and `..`. -/
theorem mem_cleanParts {rooted : Bool} {cs : List String} {c : String}
    (h : c ∈ cleanParts rooted cs) : c ∈ cs ∨ c = ".." := by
  have hfold : ∀ (xs stack : List String), (∀ x ∈ stack, x ∈ cs ∨ x = "..") →
      (∀ x ∈ xs, x ∈ cs) → ∀ x ∈ xs.foldl (push rooted) stack, x ∈ cs ∨ x = ".." := by
    intro xs
    induction xs with
    | nil => exact fun _ h _ => h
    | cons y xs ih =>
      intro stack hstack hxs
      refine ih _ (fun x hx => ?_) (fun x hx => hxs x (List.mem_cons_of_mem _ hx))
      by_cases h1 : y = "."
      · rw [h1, push_dot] at hx
        exact hstack x hx
      · by_cases h2 : y = ".."
        · subst h2
          cases stack with
          | nil =>
            rw [push_dotdot_nil] at hx
            split_ifs at hx
            · simp at hx
            · exact .inr (List.mem_singleton.mp hx)
          | cons top rest =>
            rw [push_dotdot_cons] at hx
            split_ifs at hx
            · rcases List.mem_cons.mp hx with rfl | hx
              · exact .inr rfl
              · exact hstack x hx
            · exact hstack x (List.mem_cons_of_mem _ hx)
        · rw [push_name _ _ h1 h2] at hx
          rcases List.mem_cons.mp hx with rfl | hx
          · exact .inl (hxs x List.mem_cons_self)
          · exact hstack x hx
  exact hfold cs [] (by simp) (fun x hx => hx) c (List.mem_reverse.mp h)

/-- The components of a cleaned path are not empty and hold no slash. -/
theorem cleanParts_parts_spec (rooted : Bool) (p : String) :
    ∀ c ∈ cleanParts rooted (parts p), c ≠ "" ∧ '/' ∉ c.toList := by
  intro c hc
  rcases mem_cleanParts hc with hc | rfl
  · exact parts_spec p c hc
  · exact ⟨by decide, by decide⟩

/-- A name after a path is its last component after cleaning. -/
theorem cleanParts_snoc (rooted : Bool) (cs : List String) {n : String}
    (hn : n ≠ "." ∧ n ≠ "..") : cleanParts rooted (cs ++ [n]) = cleanParts rooted cs ++ [n] := by
  simp [cleanParts, List.foldl_append, push, hn.1, hn.2]

/-- A path that climbs first and then goes down is clean already. -/
theorem cleanParts_climbing {rooted : Bool} {k : Nat} {names : List String}
    (hnames : ∀ x ∈ names, x ≠ "." ∧ x ≠ "..") (hk : rooted = true → k = 0) :
    cleanParts rooted (List.replicate k ".." ++ names) = List.replicate k ".." ++ names := by
  have hdots : (List.replicate k "..").foldl (push rooted) [] = List.replicate k ".." := by
    cases rooted with
    | true => rw [hk rfl]; rfl
    | false =>
      have : ∀ j i, (List.replicate j "..").foldl (push false) (List.replicate i "..") =
          List.replicate (i + j) ".." := by
        intro j
        induction j with
        | zero => intro i; rfl
        | succ j ih =>
          intro i
          rw [List.replicate_succ, List.foldl_cons]
          have hstep : push false (List.replicate i "..") ".." = List.replicate (i + 1) ".." := by
            cases i <;> simp [push, List.replicate_succ]
          rw [hstep, ih]
          congr 1
          omega
      simpa using this k 0
  have hnames' : ∀ stack, names.foldl (push rooted) stack = names.reverse ++ stack := by
    induction names with
    | nil => intro stack; rfl
    | cons c names ih =>
      intro stack
      obtain ⟨h1, h2⟩ := hnames c List.mem_cons_self
      rw [List.foldl_cons, ih (fun x hx => hnames x (List.mem_cons_of_mem _ hx))]
      simp [push, h1, h2]
  rw [cleanParts, List.foldl_append, hdots, hnames']
  simp [List.reverse_replicate]

end Climbing

section Entries

/-- The characters that a cleaned path puts before the name of an entry: the root's slash when
the path is absolute, then each component and a slash. -/
def entryChars (rooted : Bool) (cs : List String) : List Char :=
  (if rooted then ['/'] else []) ++ (cs.map String.toList).flatMap (· ++ ['/'])

/-- What a path puts before the name of one of its entries, once joined and cleaned: the cleaned
path and a slash, the slash alone at the root, nothing at all for `.`. -/
def entryPrefix (p : String) : String :=
  String.ofList (entryChars (isAbs p) (cleanParts (isAbs p) (parts p)))

variable {p n : String}

/-- The name after the prefix of a path is the path of its cleaned components and the name. -/
theorem entryPrefix_append :
    entryPrefix p ++ n = if isAbs p then rooted (cleanParts true (parts p) ++ [n])
      else "/".intercalate (cleanParts false (parts p) ++ [n]) := by
  have hslash : "/".toList = ['/'] := rfl
  apply String.toList_inj.mp
  cases h : isAbs p with
  | true =>
    simp only [entryPrefix, h, entryChars, String.toList_append, String.toList_ofList, if_true,
      toList_rooted, List.map_append, List.map_singleton, intercalate_concat]
    rfl
  | false =>
    simp only [entryPrefix, h, entryChars, String.toList_append, String.toList_ofList,
      Bool.false_eq_true, if_false, List.nil_append, String.toList_intercalate, hslash,
      List.map_append, List.map_singleton, intercalate_concat]

/-- The components of a joined name are those of the cleaned path and the name. -/
theorem parts_entry (hn : IsComponent n) :
    parts (entryPrefix p ++ n) = cleanParts (isAbs p) (parts p) ++ [n] := by
  have hall : ∀ r, ∀ c ∈ cleanParts r (parts p) ++ [n], c ≠ "" ∧ '/' ∉ c.toList := by
    intro r c hc
    rcases List.mem_append.mp hc with hc | hc
    · exact cleanParts_parts_spec r p c hc
    · rw [List.mem_singleton.mp hc]; exact ⟨hn.1, hn.2.1⟩
  rw [entryPrefix_append]
  cases h : isAbs p with
  | true => exact parts_rooted (hall true)
  | false => exact parts_intercalate (hall false)

/-- Joining a name to a non-empty path puts it after the path's entry prefix. -/
theorem join_entry (hp : p ≠ "") (hn : IsComponent n) : join [p, n] = entryPrefix p ++ n := by
  have hjoin : join [p, n] = clean (p ++ "/" ++ n) := by
    simp [join, hp, hn.1, String.intercalate_cons_cons]
  have habs : isAbs (p ++ "/" ++ n) = isAbs p := by
    have hne : p.toList ≠ [] := fun h => hp (String.toList_inj.mp (by rw [h]; rfl))
    obtain ⟨x, xs, hx⟩ := List.exists_cons_of_ne_nil hne
    cases h : isAbs p with
    | true =>
      obtain ⟨t, ht⟩ := (isAbs_iff p).mp h
      exact (isAbs_iff _).mpr ⟨t ++ '/' :: n.toList, by simp [ht]⟩
    | false =>
      cases h' : isAbs (p ++ "/" ++ n) with
      | false => rfl
      | true =>
        obtain ⟨t, ht⟩ := (isAbs_iff _).mp h'
        rw [String.toList_append, String.toList_append, hx] at ht
        have hx' : x = '/' := (List.cons.inj ht).1
        have : isAbs p = true := (isAbs_iff p).mpr ⟨xs, by rw [hx, hx']⟩
        rw [this] at h
        cases h
  have hparts : parts (p ++ "/" ++ n) = parts p ++ [n] := by
    rw [parts_append_slash, show parts n = [n] from by
      simpa using @parts_intercalate [n] (by simpa using ⟨hn.1, hn.2.1⟩)]
  rw [hjoin, entryPrefix_append]
  cases h : isAbs p with
  | true =>
    rw [clean_of_isAbs (habs.trans h), hparts, cleanParts_snoc _ _ ⟨hn.2.2.1, hn.2.2.2⟩, if_pos rfl]
  | false =>
    have hbody : "/".intercalate (cleanParts false (parts p) ++ [n]) ≠ "" := fun he => by
      have := congrArg String.toList he
      rw [String.toList_intercalate, show "/".toList = ['/'] from rfl, List.map_append,
        List.map_singleton, intercalate_concat] at this
      exact hn.1 (String.toList_inj.mp (by simpa using (List.append_eq_nil_iff.mp this).2))
    simp only [clean, habs, h, Bool.false_eq_true, if_false, hparts,
      cleanParts_snoc _ _ ⟨hn.2.2.1, hn.2.2.2⟩]
    exact if_neg hbody

theorem entryChars_cases (rooted : Bool) (cs : List String) :
    entryChars rooted cs = [] ∨ ∃ xs, entryChars rooted cs = xs ++ ['/'] := by
  rcases List.eq_nil_or_concat cs with rfl | ⟨cs, x, rfl⟩
  · cases rooted
    · exact .inl rfl
    · exact .inr ⟨[], rfl⟩
  · refine .inr ⟨(if rooted then ['/'] else []) ++ (cs.map String.toList).flatMap (· ++ ['/']) ++
      x.toList, ?_⟩
    simp [entryChars]

/-- Characters that start with a component, or a piece without a slash, start no absolute path. -/
theorem isAbs_flatMap {cs : List String} (hcs : ∀ c ∈ cs, c ≠ "" ∧ '/' ∉ c.toList)
    {y : List Char} (hy : '/' ∉ y) :
    isAbs (String.ofList ((cs.map String.toList).flatMap (· ++ ['/']) ++ y)) = false := by
  cases h : isAbs (String.ofList ((cs.map String.toList).flatMap (· ++ ['/']) ++ y)) with
  | false => rfl
  | true =>
    obtain ⟨t, ht⟩ := (isAbs_iff _).mp h
    rw [String.toList_ofList] at ht
    cases cs with
    | nil => exact absurd (ht ▸ List.mem_cons_self : '/' ∈ _) (by simpa using hy)
    | cons c cs =>
      obtain ⟨hne, hslash⟩ := hcs c List.mem_cons_self
      obtain ⟨d, ds, hd⟩ := List.exists_cons_of_ne_nil
        (show c.toList ≠ [] from fun h => hne (String.toList_inj.mp (by rw [h]; rfl)))
      simp only [List.map_cons, List.flatMap_cons, hd, List.cons_append, List.cons.injEq] at ht
      have : '/' ∈ c.toList := by rw [hd, ht.1]; exact List.mem_cons_self
      exact (hslash this).elim

theorem isAbs_entry (hn : IsComponent n) : isAbs (entryPrefix p ++ n) = isAbs p := by
  cases h : isAbs p with
  | true => rw [entryPrefix_append, h, if_pos rfl]; exact isAbs_rooted _
  | false =>
    have hchars : entryPrefix p ++ n = String.ofList
        (((cleanParts false (parts p)).map String.toList).flatMap (· ++ ['/']) ++ n.toList) := by
      apply String.toList_inj.mp
      simp [entryPrefix, h, entryChars]
    rw [hchars]
    exact isAbs_flatMap (cleanParts_parts_spec false p) hn.2.1

/-- A joined name does not end in a slash. -/
theorem endsWith_entry (hn : IsComponent n) : (entryPrefix p ++ n).endsWith "/" = false := by
  cases h : (entryPrefix p ++ n).endsWith "/" with
  | false => rfl
  | true =>
    rw [String.endsWith, String.Slice.endsWith_string_iff, String.copy_toSlice, ← List.reverse_prefix,
      String.toList_append, List.reverse_append] at h
    obtain ⟨d, ds, hd⟩ := List.exists_cons_of_ne_nil (fun h => hn.1 (String.toList_inj.mp
      (by rw [List.reverse_eq_nil_iff.mp h]; rfl)) : n.toList.reverse ≠ [])
    rw [hd, List.cons_append] at h
    have hd' : d = '/' := (List.cons_prefix_cons.mp h).1.symm
    have : '/' ∈ n.toList.reverse := by rw [hd, hd']; exact List.mem_cons_self
    exact (hn.2.1 (List.mem_reverse.mp this)).elim

/-- A piece without a slash is its own base. -/
theorem base_of_component {c : String} (hc : c ≠ "") (hs : '/' ∉ c.toList) : base c = c := by
  have hkeep : c.toList.reverse.dropWhile (· = '/') = c.toList.reverse := by
    simpa using dropWhile_slash_reverse hc hs []
  have htrim : String.ofList (c.toList.reverse.dropWhile (· = '/')).reverse = c := by
    rw [hkeep, List.reverse_reverse, String.ofList_toList]
  rw [base, if_neg hc]
  simp only [htrim, if_neg hc]
  simp only [slash_eq, Text.splitOn_singleton, List.splitOn_eq_singleton hs, List.map_singleton,
    String.ofList_toList]
  rfl

/-- A joined name is the base of the joined path. -/
theorem base_entry (hn : IsComponent n) : base (entryPrefix p ++ n) = n := by
  rcases entryChars_cases (isAbs p) (cleanParts (isAbs p) (parts p)) with h | ⟨xs, h⟩
  · have : entryPrefix p = "" := by rw [entryPrefix, h]
    rw [this, String.empty_append]
    exact base_of_component hn.1 hn.2.1
  · exact @base_of_toList _ _ xs (by simp [entryPrefix, h]) hn.1 hn.2.1

theorem clean_of_not_isAbs {q : String} (h : isAbs q = false) :
    clean q = if "/".intercalate (cleanParts false (parts q)) = "" then "."
      else "/".intercalate (cleanParts false (parts q)) := by
  simp [clean, h]

theorem entryPrefix_toList :
    (entryPrefix p).toList = entryChars (isAbs p) (cleanParts (isAbs p) (parts p)) := by
  simp [entryPrefix]

/-- The directory of a joined name is the cleaned path. -/
theorem dir_entry (hn : IsComponent n) : dir (entryPrefix p ++ n) = clean p := by
  -- the characters before the last slash are the entry prefix
  have hbefore : ((entryPrefix p ++ n).toList.reverse.dropWhile (· ≠ '/')).reverse =
      (entryPrefix p).toList := by
    have hname : n.toList.reverse.dropWhile (· ≠ '/') = [] :=
      List.dropWhile_eq_nil_iff.mpr fun x hx => by
        simp only [ne_eq, decide_eq_true_eq]
        rintro rfl
        exact hn.2.1 (List.mem_reverse.mp hx)
    rw [String.toList_append, List.reverse_append, List.dropWhile_append, hname, List.isEmpty_nil,
      if_pos rfl]
    rcases entryChars_cases (isAbs p) (cleanParts (isAbs p) (parts p)) with h | ⟨xs, h⟩
    · rw [entryPrefix_toList, h]; rfl
    · rw [entryPrefix_toList, h, List.reverse_append, List.reverse_singleton,
        List.singleton_append, List.dropWhile_cons_of_neg (by simp), List.reverse_cons,
        List.reverse_reverse]
  rw [dir, hbefore, String.ofList_toList]
  have hcs := cleanParts_parts_spec (isAbs p) p
  cases h : isAbs p with
  | true =>
    rw [h] at hcs
    have hE : entryPrefix p = String.ofList (dirChars (cleanParts true (parts p))) := by
      apply String.toList_inj.mp
      rw [entryPrefix_toList, h]
      simp [entryChars, dirChars]
    rw [hE, clean_of_isAbs (isAbs_dirChars _), parts_dirChars hcs,
      cleanParts_components (components_cleanParts p), clean_of_isAbs h]
  | false =>
    rw [h] at hcs
    have hE : entryPrefix p = String.ofList
        (((cleanParts false (parts p)).map String.toList).flatMap (· ++ ['/']) ++ []) := by
      apply String.toList_inj.mp
      rw [entryPrefix_toList, h]
      simp [entryChars]
    have hparts : parts (entryPrefix p) = cleanParts false (parts p) := by
      rw [hE, parts_eq, String.toList_ofList, splitOn_flatMap (by simpa using fun c hc =>
        (hcs c hc).2) [], List.map_append, List.filter_append,
        filter_pieces fun c hc => (hcs c hc).1]
      simp
    obtain ⟨k, names, hclimb, hnames, -⟩ := cleanParts_climbs false (parts p)
    have hclean : cleanParts false (cleanParts false (parts p)) = cleanParts false (parts p) := by
      rw [hclimb]
      exact cleanParts_climbing hnames (fun h => by cases h)
    rw [clean_of_not_isAbs (by rw [hE]; exact isAbs_flatMap hcs (by simp)), hparts, hclean,
      clean_of_not_isAbs h]

/-- Two names joined to one path give two paths. -/
theorem entryPrefix_append_inj {n₁ n₂ : String} (h : entryPrefix p ++ n₁ = entryPrefix p ++ n₂) :
    n₁ = n₂ := by
  have := congrArg String.toList h
  rw [String.toList_append, String.toList_append] at this
  exact String.toList_inj.mp (List.append_cancel_left this)

end Entries

section Cleaned

/-- A path that does not start empty starts the way its continuations do. -/
theorem isAbs_append {x : String} (hx : x ≠ "") (y : String) : isAbs (x ++ y) = isAbs x := by
  obtain ⟨a, as, ha⟩ := List.exists_cons_of_ne_nil
    (show x.toList ≠ [] from fun h => hx (String.toList_inj.mp (by rw [h]; rfl)))
  have hxy : (x ++ y).toList = a :: (as ++ y.toList) := by simp [ha]
  cases h : isAbs x with
  | true =>
    obtain ⟨t, ht⟩ := (isAbs_iff x).mp h
    rw [ha] at ht
    exact (isAbs_iff _).mpr ⟨as ++ y.toList, by rw [hxy, (List.cons.inj ht).1]⟩
  | false =>
    cases h' : isAbs (x ++ y) with
    | false => rfl
    | true =>
      obtain ⟨t, ht⟩ := (isAbs_iff _).mp h'
      rw [hxy] at ht
      have : isAbs x = true := (isAbs_iff x).mpr ⟨as, by rw [ha, (List.cons.inj ht).1]⟩
      rw [this] at h
      cases h

/-- Cleaning keeps a path absolute or relative. -/
theorem isAbs_clean (p : String) : isAbs (clean p) = isAbs p := by
  have hcs := cleanParts_parts_spec (isAbs p) p
  cases h : isAbs p with
  | true => rw [clean_of_isAbs h]; exact isAbs_rooted _
  | false =>
    rw [clean_of_not_isAbs h]
    split
    · cbv
    · rw [h] at hcs
      rcases List.eq_nil_or_concat (cleanParts false (parts p)) with hnil | ⟨cs, y, hy⟩
      · rw [hnil]; rfl
      rw [List.concat_eq_append] at hy
      · have hchars : "/".intercalate (cleanParts false (parts p)) =
            String.ofList ((cs.map String.toList).flatMap (· ++ ['/']) ++ y.toList) := by
          apply String.toList_inj.mp
          rw [hy, String.toList_intercalate, show "/".toList = ['/'] from rfl, List.map_append,
            List.map_singleton, intercalate_concat, String.toList_ofList]
        rw [hchars]
        exact isAbs_flatMap (fun c hc => hcs c (by rw [hy]; exact List.mem_append_left _ hc))
          (hcs y (by rw [hy]; exact List.mem_append_right _ List.mem_cons_self)).2

/-- Cleaning never gives the empty path: an empty result is `.`. -/
theorem clean_ne_empty (p : String) : clean p ≠ "" := by
  unfold clean
  dsimp only
  split
  · intro h
    simpa using congrArg String.length h
  · split
    · simp
    · assumption

/-- A cleaned path has the cleaned components, or is `.` when there are none. -/
theorem parts_clean (p : String) :
    parts (clean p) = cleanParts (isAbs p) (parts p) ∨
      (clean p = "." ∧ cleanParts (isAbs p) (parts p) = []) := by
  have hcs := cleanParts_parts_spec (isAbs p) p
  cases h : isAbs p with
  | true =>
    rw [h] at hcs
    exact .inl (by rw [clean_of_isAbs h]; exact parts_rooted hcs)
  | false =>
    rw [h] at hcs
    rw [clean_of_not_isAbs h]
    split
    · next hbody =>
      refine .inr ⟨rfl, ?_⟩
      have := parts_intercalate hcs
      rwa [hbody, parts_empty, eq_comm] at this
    · exact .inl (parts_intercalate hcs)

/-- A name written after a path and one slash, as temporary names are, is the path's components
and the name. -/
theorem parts_slash_append (x : String) {t : String} (ht : t ≠ "" ∧ '/' ∉ t.toList) :
    parts ((if x.endsWith "/" then x else x ++ "/") ++ t) = parts x ++ [t] := by
  have hname : parts t = [t] := by simpa using @parts_intercalate [t] (by simpa using ht)
  split
  · next hx =>
    rw [String.endsWith, String.Slice.endsWith_string_iff, String.copy_toSlice] at hx
    obtain ⟨ys, hys⟩ := hx
    have hx' : x = String.ofList ys ++ "/" := by
      apply String.toList_inj.mp
      rw [← hys]
      simp
    have htrail : parts (String.ofList ys ++ "/") = parts (String.ofList ys) := by
      simpa [parts_empty] using parts_append_slash (String.ofList ys) ""
    rw [hx', parts_append_slash, hname, htrail]
  · rw [parts_append_slash, hname]

/-- A path that ends in a piece without a slash does not end in a slash. -/
theorem endsWith_append_piece (s : String) {t : String} (ht : t ≠ "" ∧ '/' ∉ t.toList) :
    (s ++ t).endsWith "/" = false := by
  cases h : (s ++ t).endsWith "/" with
  | false => rfl
  | true =>
    rw [String.endsWith, String.Slice.endsWith_string_iff, String.copy_toSlice,
      ← List.reverse_prefix, String.toList_append, List.reverse_append] at h
    obtain ⟨d, ds, hd⟩ := List.exists_cons_of_ne_nil (fun h => ht.1 (String.toList_inj.mp
      (by rw [List.reverse_eq_nil_iff.mp h]; rfl)) : t.toList.reverse ≠ [])
    rw [hd, List.cons_append] at h
    have hd' : d = '/' := (List.cons_prefix_cons.mp h).1.symm
    have : '/' ∈ t.toList.reverse := by rw [hd, hd']; exact List.mem_cons_self
    exact (ht.2 (List.mem_reverse.mp this)).elim

end Cleaned

end TreeCatalog.Path
