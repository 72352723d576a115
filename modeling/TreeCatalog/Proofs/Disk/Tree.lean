import Mathlib
import TreeCatalog.Disk.Write
import TreeCatalog.Proofs.Walk.Names

/-! # Changing a tree in place

`Node.alter` changes the node at one physical path and re-enters every directory on the way with
`setEntry`. Seen through `Node.at?`, the changed place holds the new node (`at?_alter_self`), a
place neither on the way nor below it is untouched (`at?_alter_of_diverge`), and a directory on
the way stays a directory (`form_at?_alter_of_prefix`). Two writes of a node at one place are the
last one (`alter_alter_some`), and on a sorted tree a node written where there was none and then
removed leaves the tree as it was (`alter_remove_put`). Sorted directories and file names survive
every change that puts such nodes under a file name.

A walk sees a node only through its `Node.form`: a directory, a link with its target, or a leaf.
`Node.AgreeOff q` says that two trees look alike to a walk everywhere but at `q` and below it,
and `Node.KeepsDirs` that every directory of one tree is a directory of the other. -/

namespace TreeCatalog.Disk

/-- What a walk sees of a node: a directory, a link with its target, or a leaf (a regular file and
a named pipe look alike). -/
def Node.form : Node → Node
  | .dir _ => .dir []
  | .link t => .link t
  | _ => .fifo

/-- Two trees look alike to a walk at every place that is not `q` or below it. -/
def Node.AgreeOff (q : List String) (a b : Node) : Prop :=
  ∀ xs, ¬ q <+: xs → (a.at? xs).map Node.form = (b.at? xs).map Node.form

/-- Every directory of `a` is a directory of `b`, at the same place. -/
def Node.KeepsDirs (a b : Node) : Prop :=
  ∀ xs es, a.at? xs = some (.dir es) → ∃ es', b.at? xs = some (.dir es')

section Forms

theorem Node.map_form_eq_dir {o : Option Node} :
    o.map Node.form = some (.dir []) ↔ ∃ es, o = some (.dir es) := by
  rcases o with _ | n
  · simp
  · cases n <;> simp [Node.form]

theorem Node.map_form_eq_link {o : Option Node} {t : String} :
    o.map Node.form = some (.link t) ↔ o = some (.link t) := by
  rcases o with _ | n
  · simp
  · cases n <;> simp [Node.form]

theorem Node.map_form_eq_leaf {o : Option Node} :
    o.map Node.form = some .fifo ↔ ∃ n, o = some n ∧ n.entries? = none ∧ ∀ t, n ≠ .link t := by
  rcases o with _ | n
  · simp
  · cases n <;> simp [Node.form, Node.entries?]

theorem Node.AgreeOff.symm {q : List String} {a b : Node} (h : a.AgreeOff q b) : b.AgreeOff q a :=
  fun xs hx => (h xs hx).symm

theorem Node.AgreeOff.trans {q : List String} {a b c : Node} (h₁ : a.AgreeOff q b)
    (h₂ : b.AgreeOff q c) : a.AgreeOff q c :=
  fun xs hx => (h₁ xs hx).trans (h₂ xs hx)

theorem Node.KeepsDirs.refl (a : Node) : a.KeepsDirs a := fun _ es h => ⟨es, h⟩

theorem Node.KeepsDirs.trans {a b c : Node} (h₁ : a.KeepsDirs b) (h₂ : b.KeepsDirs c) :
    a.KeepsDirs c := fun xs es h => by
  obtain ⟨es', h'⟩ := h₁ xs es h
  exact h₂ xs es' h'

end Forms

section Lookup

theorem lookup_cons_of_ne {k x : String} {v : Node} (rest : List (String × Node)) (h : x ≠ k) :
    ((k, v) :: rest).lookup x = rest.lookup x := by
  simp [List.lookup_cons, beq_false_of_ne h]

/-- Looking up among the entries whose names pass a test. -/
theorem lookup_filter_name (q : String → Bool) (x : String) :
    ∀ es : List (String × Node), (es.filter (fun e => q e.1)).lookup x =
      if q x then es.lookup x else none := by
  intro es
  induction es with
  | nil => simp
  | cons e rest ih =>
    obtain ⟨k, v⟩ := e
    by_cases hx : x = k
    · subst hx
      by_cases hk : q x <;> simp [hk, ih]
    · by_cases hk : q k <;> simp [hk, ih, lookup_cons_of_ne _ hx]

/-- The entry set by `setEntry` is found under its name. -/
@[simp] theorem lookup_setEntry_self (es : List (String × Node)) (c : String) (v : Option Node) :
    (setEntry es c v).lookup c = v := by
  cases v with
  | none =>
    simpa [setEntry] using lookup_filter_name (fun k => decide (k ≠ c)) c es
  | some n =>
    have h1 := lookup_filter_name (fun k => decide (k < c)) c (es.filter (fun e => decide (e.1 ≠ c)))
    have hlt : ¬ (decide (c < c) = true) := by
      simp only [decide_eq_true_eq]; exact lt_irrefl c
    simp only [setEntry, List.lookup_append]
    rw [h1, if_neg hlt, List.lookup_cons_self, Option.none_or, Option.some_or]

/-- Every other name finds what it found before. -/
theorem lookup_setEntry_of_ne (es : List (String × Node)) {c x : String} (v : Option Node)
    (h : x ≠ c) : (setEntry es c v).lookup x = es.lookup x := by
  have h0 := lookup_filter_name (fun k => decide (k ≠ c)) x es
  simp only [h, ne_eq, not_false_eq_true, decide_true, if_true] at h0
  cases v with
  | none => simpa [setEntry] using h0
  | some n =>
    have h1 := lookup_filter_name (fun k => decide (k < c)) x (es.filter (fun e => decide (e.1 ≠ c)))
    have h2 := lookup_filter_name (fun k => decide ¬ (k < c)) x (es.filter (fun e => decide (e.1 ≠ c)))
    simp only [setEntry, List.lookup_append]
    simp only [ne_eq, decide_not] at h0 h1 h2 ⊢
    rw [h1, h2, lookup_cons_of_ne _ h]
    by_cases hlt : x < c <;> simp_all

/-- An entry of the new list is an old entry or the one set. -/
theorem mem_setEntry {es : List (String × Node)} {c : String} {v : Option Node}
    {e : String × Node} (h : e ∈ setEntry es c v) : e ∈ es ∨ (e.1 = c ∧ v = some e.2) := by
  cases v with
  | none => exact .inl (List.mem_of_mem_filter h)
  | some n =>
    simp only [setEntry, List.mem_append, List.mem_singleton] at h
    rcases h with (h | rfl) | h
    · exact .inl (List.mem_of_mem_filter (List.mem_of_mem_filter h))
    · exact .inr ⟨rfl, rfl⟩
    · exact .inl (List.mem_of_mem_filter (List.mem_of_mem_filter h))

theorem setEntry_some_eq (es : List (String × Node)) (c : String) (m : Node) :
    setEntry es c (some m) =
      (es.filter (fun e => decide (e.1 ≠ c))).filter (fun e => decide (e.1 < c)) ++ [(c, m)] ++
        (es.filter (fun e => decide (e.1 ≠ c))).filter (fun e => decide ¬ (e.1 < c)) := rfl

section NameFilters

variable {L : List (String × Node)} {c : String} {e : String × Node}

theorem ne_of_mem_filter_ne (h : e ∈ L.filter (fun e => decide (e.1 ≠ c))) : e.1 ≠ c :=
  of_decide_eq_true (List.mem_filter.mp h).2

theorem lt_of_mem_filter_lt (h : e ∈ L.filter (fun e => decide (e.1 < c))) : e.1 < c :=
  of_decide_eq_true (List.mem_filter.mp h).2

theorem not_lt_of_mem_filter_not_lt (h : e ∈ L.filter (fun e => decide ¬ (e.1 < c))) :
    ¬ e.1 < c :=
  of_decide_eq_true (List.mem_filter.mp h).2

theorem filter_ne_eq_self (h : ∀ e ∈ L, e.1 ≠ c) : L.filter (fun e => decide (e.1 ≠ c)) = L :=
  List.filter_eq_self.mpr fun e he => decide_eq_true (h e he)

theorem filter_lt_eq_self (h : ∀ e ∈ L, e.1 < c) : L.filter (fun e => decide (e.1 < c)) = L :=
  List.filter_eq_self.mpr fun e he => decide_eq_true (h e he)

theorem filter_lt_eq_nil (h : ∀ e ∈ L, ¬ e.1 < c) : L.filter (fun e => decide (e.1 < c)) = [] :=
  List.filter_eq_nil_iff.mpr fun e he hd => h e he (of_decide_eq_true hd)

theorem filter_not_lt_eq_self (h : ∀ e ∈ L, ¬ e.1 < c) :
    L.filter (fun e => decide ¬ (e.1 < c)) = L :=
  List.filter_eq_self.mpr fun e he => decide_eq_true (h e he)

theorem filter_not_lt_eq_nil (h : ∀ e ∈ L, e.1 < c) :
    L.filter (fun e => decide ¬ (e.1 < c)) = [] :=
  List.filter_eq_nil_iff.mpr fun e he hd => of_decide_eq_true hd (h e he)

theorem filter_ne_singleton (m : Node) : [(c, m)].filter (fun e => decide (e.1 ≠ c)) = [] := by
  simp

/-- Without `c`, the entries set by `setEntry` are the others, split at `c`. -/
theorem filter_ne_setEntry_some (es : List (String × Node)) (m : Node) :
    (setEntry es c (some m)).filter (fun e => decide (e.1 ≠ c)) =
      (es.filter (fun e => decide (e.1 ≠ c))).filter (fun e => decide (e.1 < c)) ++
        (es.filter (fun e => decide (e.1 ≠ c))).filter (fun e => decide ¬ (e.1 < c)) := by
  rw [setEntry_some_eq, List.filter_append, List.filter_append, filter_ne_singleton,
    List.append_nil, filter_ne_eq_self fun e he => ne_of_mem_filter_ne (List.mem_of_mem_filter he),
    filter_ne_eq_self fun e he => ne_of_mem_filter_ne (List.mem_of_mem_filter he)]

end NameFilters

/-- Setting a name twice, the second time to a node, is setting it once. -/
theorem setEntry_setEntry_some (es : List (String × Node)) (c : String) (v : Option Node)
    (m : Node) : setEntry (setEntry es c v) c (some m) = setEntry es c (some m) := by
  set O := es.filter (fun e => decide (e.1 ≠ c))
  -- without `c`, the entries split at `c` into the same two lists either way
  have hothers : ((setEntry es c v).filter (fun e => decide (e.1 ≠ c))).filter
        (fun e => decide (e.1 < c)) = O.filter (fun e => decide (e.1 < c)) ∧
      ((setEntry es c v).filter (fun e => decide (e.1 ≠ c))).filter
        (fun e => decide ¬ (e.1 < c)) = O.filter (fun e => decide ¬ (e.1 < c)) := by
    cases v with
    | none =>
      have hO : O.filter (fun e => decide (e.1 ≠ c)) = O :=
        filter_ne_eq_self fun e he => ne_of_mem_filter_ne he
      exact ⟨by rw [setEntry, hO], by rw [setEntry, hO]⟩
    | some n =>
      rw [filter_ne_setEntry_some, List.filter_append, List.filter_append,
        filter_lt_eq_self fun e he => lt_of_mem_filter_lt he,
        filter_lt_eq_nil fun e he => not_lt_of_mem_filter_not_lt he,
        filter_not_lt_eq_nil fun e he => lt_of_mem_filter_lt he,
        filter_not_lt_eq_self fun e he => not_lt_of_mem_filter_not_lt he,
        List.append_nil, List.nil_append]
      exact ⟨rfl, rfl⟩
  rw [setEntry_some_eq (setEntry es c v), setEntry_some_eq es, hothers.1, hothers.2]

section Sorted

variable {es : List (String × Node)}

/-- A sorted list is its entries before `c` followed by the others. -/
theorem filter_lt_append_filter_not_lt (hs : es.Pairwise (fun a b => a.1 < b.1)) (c : String) :
    es.filter (fun e => decide (e.1 < c)) ++ es.filter (fun e => decide ¬ (e.1 < c)) = es := by
  induction es with
  | nil => rfl
  | cons e rest ih =>
    obtain ⟨hhead, hrest⟩ := List.pairwise_cons.mp hs
    by_cases he : e.1 < c
    · have h1 : decide (e.1 < c) = true := decide_eq_true he
      have h2 : decide (¬ e.1 < c) = false := decide_eq_false (not_not_intro he)
      simp only [List.filter_cons, h1, h2, if_true, Bool.false_eq_true, if_false, List.cons_append,
        ih hrest]
    · -- every later name is above `e`, hence not below `c` either
      have h1 : decide (e.1 < c) = false := decide_eq_false he
      have h2 : decide (¬ e.1 < c) = true := decide_eq_true he
      have hnone : rest.filter (fun e => decide (e.1 < c)) = [] :=
        filter_lt_eq_nil fun x hx h => he (lt_trans (hhead x hx) h)
      have hall : rest.filter (fun e => decide ¬ (e.1 < c)) = rest :=
        filter_not_lt_eq_self fun x hx h => he (lt_trans (hhead x hx) h)
      simp only [List.filter_cons, h1, h2, if_true, Bool.false_eq_true, if_false, hnone, hall,
        List.nil_append]

/-- Names not in a list are not removed from it. -/
theorem filter_ne_of_lookup_none {c : String} (h : es.lookup c = none) :
    es.filter (fun e => decide (e.1 ≠ c)) = es :=
  filter_ne_eq_self fun e he hc => by
    have := List.lookup_eq_none_iff.mp h e he
    simp [hc] at this

/-- In a sorted list, setting a name to what it holds changes nothing. -/
theorem setEntry_of_lookup (hs : es.Pairwise (fun a b => a.1 < b.1)) {c : String}
    {v : Option Node} (h : es.lookup c = v) : setEntry es c v = es := by
  cases v with
  | none => exact filter_ne_of_lookup_none h
  | some m =>
    obtain ⟨l₁, l₂, rfl, -⟩ := List.lookup_eq_some_iff.mp h
    have hs' := List.pairwise_append.mp hs
    have hbefore : ∀ e ∈ l₁, e.1 < c := fun e he => hs'.2.2 e he (c, m) List.mem_cons_self
    have hafter : ∀ e ∈ l₂, c < e.1 := fun e he => (List.pairwise_cons.mp hs'.2.1).1 e he
    have hothers : (l₁ ++ (c, m) :: l₂).filter (fun e => decide (e.1 ≠ c)) = l₁ ++ l₂ := by
      rw [List.filter_append, ← List.singleton_append, List.filter_append, filter_ne_singleton,
        List.nil_append, filter_ne_eq_self fun e he => ne_of_lt (hbefore e he),
        filter_ne_eq_self fun e he => ne_of_gt (hafter e he)]
    have hlow : (l₁ ++ l₂).filter (fun e => decide (e.1 < c)) = l₁ := by
      rw [List.filter_append, filter_lt_eq_self hbefore,
        filter_lt_eq_nil fun e he => lt_asymm (hafter e he), List.append_nil]
    have hhigh : (l₁ ++ l₂).filter (fun e => decide ¬ (e.1 < c)) = l₂ := by
      rw [List.filter_append, filter_not_lt_eq_nil hbefore,
        filter_not_lt_eq_self fun e he => lt_asymm (hafter e he), List.nil_append]
    rw [setEntry_some_eq, hothers, hlow, hhigh]
    simp

/-- Setting a name keeps a list sorted. -/
theorem setEntry_pairwise (hs : es.Pairwise (fun a b => a.1 < b.1)) (c : String)
    (v : Option Node) : (setEntry es c v).Pairwise (fun a b => a.1 < b.1) := by
  have hothers := hs.filter (fun e => decide (e.1 ≠ c))
  cases v with
  | none => exact hothers
  | some n =>
    -- a name above `c` that is not `c` is above it
    have habove : ∀ b ∈ (es.filter (fun e => decide (e.1 ≠ c))).filter
        (fun e => decide ¬ (e.1 < c)), c < b.1 := fun b hb =>
      lt_of_le_of_ne (not_lt.mp (not_lt_of_mem_filter_not_lt hb))
        (Ne.symm (ne_of_mem_filter_ne (List.mem_of_mem_filter hb)))
    rw [setEntry_some_eq]
    refine List.pairwise_append.mpr ⟨List.pairwise_append.mpr ⟨hothers.filter _, by simp, ?_⟩,
      hothers.filter _, ?_⟩
    · intro a ha b hb
      rw [List.mem_singleton] at hb
      subst hb
      exact lt_of_mem_filter_lt ha
    · intro a ha b hb
      rcases List.mem_append.mp ha with ha | ha
      · exact lt_trans (lt_of_mem_filter_lt ha) (habove b hb)
      · rw [List.mem_singleton] at ha
        subst ha
        exact habove b hb

end Sorted

end Lookup

section At

theorem Node.at?_dir_cons (es : List (String × Node)) (c : String) (cs : List String) :
    (Node.dir es).at? (c :: cs) = (es.lookup c).bind (·.at? cs) := by
  simp only [Node.at?]
  cases es.lookup c <;> rfl

/-- The node at a path continued: the node at the continuation from the node at the path. -/
theorem Node.at?_append (n : Node) (xs ys : List String) :
    n.at? (xs ++ ys) = (n.at? xs).bind (·.at? ys) := by
  induction xs generalizing n with
  | nil => rfl
  | cons x xs ih =>
    cases n with
    | dir es =>
      rw [List.cons_append, Node.at?_dir_cons, Node.at?_dir_cons]
      cases es.lookup x with
      | none => rfl
      | some child => exact ih child
    | _ => rfl

/-- One step down from a directory: the node its entry names. -/
theorem Node.at?_snoc_of_dir {n : Node} {ps : List String} {es : List (String × Node)}
    (h : n.at? ps = some (.dir es)) (c : String) : n.at? (ps ++ [c]) = es.lookup c := by
  rw [Node.at?_append, h, Option.bind_some, Node.at?_dir_cons]
  cases es.lookup c <;> rfl

/-- Nothing lies below a node that is not a directory. -/
theorem Node.at?_cons_of_entries? {n : Node} (h : n.entries? = none) (c : String)
    (cs : List String) : n.at? (c :: cs) = none := by
  cases n <;> simp_all [Node.at?, Node.entries?]

/-- What lies above a node is a directory. -/
theorem Node.at?_of_below {n m : Node} {ys zs : List String} {z : String}
    (h : n.at? (ys ++ z :: zs) = some m) : ∃ fs, n.at? ys = some (.dir fs) := by
  rw [Node.at?_append] at h
  cases hy : n.at? ys with
  | none => simp [hy] at h
  | some k =>
    rw [hy, Option.bind_some] at h
    cases k with
    | dir fs => exact ⟨fs, rfl⟩
    | _ => simp [Node.at?] at h

/-- What lies on the way to a directory is a directory. -/
theorem Node.at?_of_prefix_dir {n : Node} {ys zs : List String} {es : List (String × Node)}
    (h : n.at? (ys ++ zs) = some (.dir es)) : ∃ fs, n.at? ys = some (.dir fs) := by
  cases zs with
  | nil => exact ⟨es, by simpa using h⟩
  | cons z zs => exact Node.at?_of_below h

end At

section Alter

variable (g : Option Node → Option Node)

theorem Node.alter_dir_cons (es : List (String × Node)) (c : String) {cs : List String}
    (h : cs ≠ []) : (Node.dir es).alter g (c :: cs) =
      match es.lookup c with
      | some child => .dir (setEntry es c (some (child.alter g cs)))
      | none => .dir es := by
  cases cs with
  | nil => exact absurd rfl h
  | cons c' cs => rfl

/-- A node that is not a directory has nothing below it to change. -/
theorem Node.alter_cons_of_entries? {n : Node} (h : n.entries? = none) (c : String)
    (cs : List String) : n.alter g (c :: cs) = n := by
  cases n with
  | dir es => simp [Node.entries?] at h
  | _ => cases cs <;> rfl

/-- Changing the node below a directory's entry keeps a directory there. -/
theorem Node.alter_dir_isDir (es : List (String × Node)) {xs : List String} (h : xs ≠ []) :
    ∃ fs, (Node.dir es).alter g xs = .dir fs := by
  cases xs with
  | nil => exact absurd rfl h
  | cons c cs =>
    cases cs with
    | nil => exact ⟨_, rfl⟩
    | cons c' cs =>
      rw [Node.alter_dir_cons g es c (List.cons_ne_nil c' cs)]
      cases es.lookup c <;> exact ⟨_, rfl⟩

/-- The node at the changed place is the change of what was there. -/
theorem Node.at?_alter_self {n : Node} {ps : List String} {es : List (String × Node)} (c : String)
    (h : n.at? ps = some (.dir es)) : (n.alter g (ps ++ [c])).at? (ps ++ [c]) = g (es.lookup c) := by
  induction ps generalizing n with
  | nil =>
    cases h
    simp [Node.alter, Node.at?_dir_cons, Node.at?]
  | cons p ps ih =>
    cases n with
    | dir fs =>
      rw [Node.at?_dir_cons] at h
      cases hp : fs.lookup p with
      | none => simp [hp] at h
      | some child =>
        rw [hp, Option.bind_some] at h
        rw [List.cons_append, Node.alter_dir_cons g fs p (by simp), hp, Node.at?_dir_cons,
          lookup_setEntry_self, Option.bind_some]
        exact ih h
    | _ => simp [Node.at?] at h

/-- A place that is neither on the way to the changed place nor below it keeps its node. -/
theorem Node.at?_alter_of_diverge (c : String) :
    ∀ {n : Node} {ps ys : List String}, ¬ ys <+: ps → ¬ (ps ++ [c]) <+: ys →
      (n.alter g (ps ++ [c])).at? ys = n.at? ys := by
  intro n ps ys hy hx
  induction ps generalizing n ys with
  | nil =>
    cases ys with
    | nil => exact absurd (List.nil_prefix) hy
    | cons y ys =>
      have hyc : y ≠ c := fun he => hx (by subst he; simp)
      cases n with
      | dir es =>
        simp only [List.nil_append, Node.alter, Node.at?_dir_cons, lookup_setEntry_of_ne _ _ hyc]
      | _ => rfl
  | cons p ps ih =>
    cases ys with
    | nil => exact absurd (List.nil_prefix) hy
    | cons y ys =>
      cases n with
      | dir es =>
        rw [List.cons_append, Node.alter_dir_cons g es p (by simp)]
        cases hp : es.lookup p with
        | none => rfl
        | some child =>
          simp only
          by_cases hyp : y = p
          · subst hyp
            rw [Node.at?_dir_cons, Node.at?_dir_cons, lookup_setEntry_self, hp, Option.bind_some,
              Option.bind_some]
            exact ih (fun h => hy (List.cons_prefix_cons.mpr ⟨rfl, h⟩))
              (fun h => hx (by rw [List.cons_append]; exact List.cons_prefix_cons.mpr ⟨rfl, h⟩))
          · rw [Node.at?_dir_cons, Node.at?_dir_cons, lookup_setEntry_of_ne _ _ hyp]
      | _ => rw [List.cons_append, Node.alter_cons_of_entries? g rfl]

/-- A place holding a node with nothing below it keeps that node when another place, in a
directory and holding no directory itself, is changed: it can be neither on the way to the
changed place nor below it. -/
theorem Node.at?_alter_of_leaf {n m : Node} {ps ys : List String} {c : String}
    (hps : ∃ es, n.at? ps = some (.dir es)) (hq : ∀ es, n.at? (ps ++ [c]) ≠ some (.dir es))
    (hy : n.at? ys = some m) (hm : m.entries? = none) (hne : ys ≠ ps ++ [c]) :
    (n.alter g (ps ++ [c])).at? ys = some m := by
  have hnot_up : ¬ ys <+: ps := by
    rintro ⟨zs, rfl⟩
    obtain ⟨es, hes⟩ := hps
    obtain ⟨fs, hfs⟩ := Node.at?_of_prefix_dir hes
    rw [hy] at hfs
    cases hfs
    simp [Node.entries?] at hm
  have hnot_below : ¬ (ps ++ [c]) <+: ys := by
    rintro ⟨zs, rfl⟩
    cases zs with
    | nil => exact hne (List.append_nil _)
    | cons z zs =>
      obtain ⟨fs, hfs⟩ := Node.at?_of_below hy
      exact hq fs hfs
  rw [Node.at?_alter_of_diverge g c hnot_up hnot_below, hy]

/-- A place on the way to the changed place looks the same to a walk: a directory stays one,
and where the way is broken nothing changes. -/
theorem Node.form_at?_alter_of_prefix (c : String) :
    ∀ {n : Node} {ps ys : List String}, ys <+: ps →
      ((n.alter g (ps ++ [c])).at? ys).map Node.form = (n.at? ys).map Node.form := by
  intro n ps ys hy
  induction ys generalizing n ps with
  | nil =>
    cases n with
    | dir es =>
      obtain ⟨fs, hfs⟩ := @Node.alter_dir_isDir g es (ps ++ [c]) (by simp)
      rw [hfs]; rfl
    | _ =>
      obtain ⟨x, xs, hx⟩ := List.exists_cons_of_ne_nil (List.append_ne_nil_of_right_ne_nil ps
        (List.cons_ne_nil c []))
      rw [hx, Node.alter_cons_of_entries? g rfl]
  | cons y ys ih =>
    obtain ⟨rest, rfl⟩ := hy
    cases n with
    | dir es =>
      rw [List.cons_append, List.cons_append, Node.alter_dir_cons g es y (by simp)]
      cases hp : es.lookup y with
      | none => rfl
      | some child =>
        simp only
        rw [Node.at?_dir_cons, Node.at?_dir_cons, lookup_setEntry_self, hp, Option.bind_some,
          Option.bind_some]
        exact ih (List.prefix_append ys rest)
    | _ => rw [List.cons_append, List.cons_append, Node.alter_cons_of_entries? g rfl]

/-- Two changes at one place, the second one writing a node, are the second one. -/
theorem Node.alter_alter_some (g' : Option Node → Option Node) (m : Node) :
    ∀ (n : Node) (ps : List String),
      (n.alter g' ps).alter (fun _ => some m) ps = n.alter (fun _ => some m) ps
  | n, [] => rfl
  | .dir es, [c] => by simp [Node.alter, setEntry_setEntry_some]
  | .dir es, c :: c' :: cs => by
    rw [Node.alter_dir_cons g' es c (List.cons_ne_nil c' cs)]
    cases hc : es.lookup c with
    | none => simp only [Node.alter_dir_cons _ es c (List.cons_ne_nil c' cs), hc]
    | some child =>
      simp only
      rw [Node.alter_dir_cons _ _ c (List.cons_ne_nil c' cs), lookup_setEntry_self,
        Node.alter_dir_cons _ es c (List.cons_ne_nil c' cs), hc]
      simp only [setEntry_setEntry_some, Node.alter_alter_some g' m child (c' :: cs)]
  | .file .., _ :: _ => by
    rw [Node.alter_cons_of_entries? g' rfl, Node.alter_cons_of_entries? _ rfl]
  | .link _, _ :: _ => by
    rw [Node.alter_cons_of_entries? g' rfl, Node.alter_cons_of_entries? _ rfl]
  | .fifo, _ :: _ => by
    rw [Node.alter_cons_of_entries? g' rfl, Node.alter_cons_of_entries? _ rfl]

/-- On a sorted tree, a node written where there was none and removed again leaves the tree as
it was. -/
theorem Node.alter_remove_put (m : Node) (c : String) :
    ∀ {n : Node} {ps : List String}, n.Sorted → n.at? (ps ++ [c]) = none →
      (n.alter (fun _ => some m) (ps ++ [c])).alter (fun _ => none) (ps ++ [c]) = n
  | .dir es, [], hs, h => by
    cases hs with
    | dir order _ =>
      have hc : es.lookup c = none := by
        cases hl : es.lookup c with
        | none => rfl
        | some x => simp [Node.at?_dir_cons, hl, Node.at?] at h
      -- the new entry goes again, and the others come back in their sorted order
      have hgone : (setEntry es c (some m)).filter (fun e => decide (e.1 ≠ c)) = es := by
        rw [filter_ne_setEntry_some, filter_ne_of_lookup_none hc,
          filter_lt_append_filter_not_lt order c]
      simp only [List.nil_append, Node.alter]
      exact congrArg Node.dir hgone
  | .dir es, p :: ps, hs, h => by
    cases hs with
    | dir order sub =>
      rw [List.cons_append] at h ⊢
      rw [Node.alter_dir_cons _ es p (by simp)]
      cases hp : es.lookup p with
      | none => simp only; rw [Node.alter_dir_cons _ es p (by simp), hp]
      | some child =>
        simp only
        rw [Node.at?_dir_cons, hp, Option.bind_some] at h
        rw [Node.alter_dir_cons _ _ p (by simp), lookup_setEntry_self]
        simp only [setEntry_setEntry_some,
          Node.alter_remove_put m c (sub _ (mem_of_lookup hp)) h, setEntry_of_lookup order hp]
  | .file .., _ :: _, _, _ => by
    rw [List.cons_append, Node.alter_cons_of_entries? (fun _ => some m) rfl,
      Node.alter_cons_of_entries? _ rfl]
  | .link _, _ :: _, _, _ => by
    rw [List.cons_append, Node.alter_cons_of_entries? (fun _ => some m) rfl,
      Node.alter_cons_of_entries? _ rfl]
  | .fifo, _ :: _, _, _ => by
    rw [List.cons_append, Node.alter_cons_of_entries? (fun _ => some m) rfl,
      Node.alter_cons_of_entries? _ rfl]
  | .file .., [], _, _ => rfl
  | .link _, [], _, _ => rfl
  | .fifo, [], _, _ => rfl

end Alter

section Invariants

variable (g : Option Node → Option Node)

/-- A change that writes sorted nodes keeps a tree sorted. -/
theorem Node.Sorted.alter (hg : ∀ x m, g x = some m → m.Sorted) :
    ∀ {n : Node} (ps : List String), n.Sorted → (n.alter g ps).Sorted
  | n, [], hn => hn
  | .dir es, [c], .dir order sub => by
    refine .dir (setEntry_pairwise order c _) fun e he => ?_
    rcases mem_setEntry he with he | ⟨-, hv⟩
    · exact sub e he
    · exact hg _ _ hv
  | .dir es, c :: c' :: cs, .dir order sub => by
    rw [Node.alter_dir_cons g es c (List.cons_ne_nil c' cs)]
    cases hc : es.lookup c with
    | none => exact .dir order sub
    | some child =>
      refine .dir (setEntry_pairwise order c _) fun e he => ?_
      rcases mem_setEntry he with he | ⟨-, hv⟩
      · exact sub e he
      · rw [← Option.some.inj hv]
        exact Node.Sorted.alter hg (c' :: cs) (sub _ (mem_of_lookup hc))
  | .file .., _ :: _, hn => by rw [Node.alter_cons_of_entries? g rfl]; exact hn
  | .link _, _ :: _, hn => by rw [Node.alter_cons_of_entries? g rfl]; exact hn
  | .fifo, _ :: _, hn => by rw [Node.alter_cons_of_entries? g rfl]; exact hn

/-- A change that writes nodes with file names under a file name keeps the names of a tree. -/
theorem Node.Named.alter (hg : ∀ x m, g x = some m → m.Named) {c : String}
    (hc : Path.IsComponent c) : ∀ {n : Node} (ps : List String), n.Named →
      (n.alter g (ps ++ [c])).Named
  | .dir es, [], .dir names sub => by
    refine .dir (fun e he => ?_) fun e he => ?_
    · rcases mem_setEntry he with he | ⟨he, -⟩
      · exact names e he
      · exact he ▸ hc
    · rcases mem_setEntry he with he | ⟨-, hv⟩
      · exact sub e he
      · exact hg _ _ hv
  | .dir es, p :: ps, .dir names sub => by
    rw [List.cons_append, Node.alter_dir_cons g es p (by simp)]
    cases hp : es.lookup p with
    | none => exact .dir names sub
    | some child =>
      have hpmem := mem_of_lookup hp
      refine .dir (fun e he => ?_) fun e he => ?_
      · rcases mem_setEntry he with he | ⟨he, -⟩
        · exact names e he
        · exact he ▸ names _ hpmem
      · rcases mem_setEntry he with he | ⟨-, hv⟩
        · exact sub e he
        · rw [← Option.some.inj hv]
          exact Node.Named.alter hg hc ps (sub _ hpmem)
  | .file .., ps, hn => by
    rw [show ps ++ [c] = (ps ++ [c]).head! :: (ps ++ [c]).tail by cases ps <;> rfl,
      Node.alter_cons_of_entries? g rfl]; exact hn
  | .link _, ps, hn => by
    rw [show ps ++ [c] = (ps ++ [c]).head! :: (ps ++ [c]).tail by cases ps <;> rfl,
      Node.alter_cons_of_entries? g rfl]; exact hn
  | .fifo, ps, hn => by
    rw [show ps ++ [c] = (ps ++ [c]).head! :: (ps ++ [c]).tail by cases ps <;> rfl,
      Node.alter_cons_of_entries? g rfl]; exact hn

/-- A change anywhere leaves the rest of the tree looking the same to a walk. -/
theorem Node.agreeOff_alter (n : Node) (ps : List String) (c : String) :
    n.AgreeOff (ps ++ [c]) (n.alter g (ps ++ [c])) := by
  intro xs hx
  by_cases hp : xs <+: ps
  · exact (Node.form_at?_alter_of_prefix g c hp).symm
  · rw [Node.at?_alter_of_diverge g c hp hx]

/-- A change at a place that holds no directory keeps every directory. -/
theorem Node.keepsDirs_alter {n : Node} {ps : List String} {c : String}
    (hq : ∀ es, n.at? (ps ++ [c]) ≠ some (.dir es)) : n.KeepsDirs (n.alter g (ps ++ [c])) := by
  intro xs es h
  by_cases hp : xs <+: ps
  · exact Node.map_form_eq_dir.mp (by rw [Node.form_at?_alter_of_prefix g c hp, h]; rfl)
  · by_cases hx : ps ++ [c] <+: xs
    · -- at or below the changed place there was no directory to keep
      exfalso
      obtain ⟨zs, rfl⟩ := hx
      obtain ⟨fs, hfs⟩ := Node.at?_of_prefix_dir h
      exact hq fs hfs
    · exact ⟨es, by rw [Node.at?_alter_of_diverge g c hp hx, h]⟩

end Invariants

end TreeCatalog.Disk
