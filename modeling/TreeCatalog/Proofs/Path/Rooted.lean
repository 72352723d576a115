import Mathlib
import TreeCatalog.Entry.Basic
import TreeCatalog.Proofs.Text.Split

/-! # Cleaned absolute paths

A cleaned absolute path is the root followed by its components, one slash between two of them,
each component neither empty nor `.` nor `..` and without a slash (`Path.rooted`). Making a path
absolute against an absolute working directory gives such a path (`abs_eq_rooted`). On one, the
lexical operations are read off its components: cleaning leaves it alone (`clean_rooted`), its last
component is its base (`base_rooted`) and the others name its directory (`dir_rooted`), from which
it leads on by its base (`rel_rooted`). So a catalog root is named `./` and its base, or `./` alone
at the root of the disk (`rootName_rooted`). -/

namespace TreeCatalog.Path

/-- A component of a cleaned path: not empty, no slash, neither `.` nor `..`. -/
def IsComponent (c : String) : Prop := c ≠ "" ∧ '/' ∉ c.toList ∧ c ≠ "." ∧ c ≠ ".."

instance (c : String) : Decidable (IsComponent c) := inferInstanceAs (Decidable (_ ∧ _ ∧ _ ∧ _))

/-- The absolute path of components, from the root. -/
def rooted (cs : List String) : String := "/" ++ "/".intercalate cs

/-- The characters of the directory that holds the last of some components: the root, then each
of the other components followed by a slash. -/
def dirChars (cs : List String) : List Char := '/' :: (cs.map String.toList).flatMap (· ++ ['/'])

section Split

/-! Splitting at slashes, on the characters of a path. -/

theorem slash_eq : "/" = String.singleton '/' := rfl

theorem parts_eq (p : String) :
    parts p = ((p.toList.splitOn '/').map String.ofList).filter (· ≠ "") := by
  rw [parts, slash_eq, Text.splitOn_singleton]

/-- Every component of a path is a non-empty piece without a slash. -/
theorem parts_spec (p : String) : ∀ c ∈ parts p, c ≠ "" ∧ '/' ∉ c.toList := by
  intro c hc
  rw [parts_eq] at hc
  simp only [List.mem_filter, List.mem_map, decide_eq_true_eq] at hc
  obtain ⟨⟨piece, hpiece, rfl⟩, hne⟩ := hc
  exact ⟨hne, by simpa using Text.not_mem_of_mem_splitOn hpiece⟩

theorem toList_rooted (cs : List String) :
    (rooted cs).toList = '/' :: ['/'].intercalate (cs.map String.toList) := by
  simp [rooted]

theorem intercalate_concat (L : List (List Char)) (y : List Char) :
    ['/'].intercalate (L ++ [y]) = L.flatMap (· ++ ['/']) ++ y := by
  induction L with
  | nil => simp
  | cons x L ih =>
    rw [List.cons_append, List.intercalate_cons_of_ne_nil (by simp), ih]
    simp

/-- The last component of a path follows the characters of its directory. -/
theorem toList_rooted_concat (cs : List String) (c : String) :
    (rooted (cs ++ [c])).toList = dirChars cs ++ c.toList := by
  rw [toList_rooted, List.map_append, List.map_singleton, intercalate_concat]
  rfl

/-- The characters of a directory end with a slash. -/
theorem dirChars_concat (cs : List String) : ∃ xs, dirChars cs = xs ++ ['/'] := by
  rcases List.eq_nil_or_concat cs with rfl | ⟨cs, x, rfl⟩
  · exact ⟨[], rfl⟩
  · exact ⟨'/' :: (cs.map String.toList).flatMap (· ++ ['/']) ++ x.toList, by simp [dirChars]⟩

/-- Pieces that end in a slash split apart, each piece one part. -/
theorem splitOn_flatMap {L : List (List Char)} (h : ∀ x ∈ L, '/' ∉ x) (y : List Char) :
    (L.flatMap (· ++ ['/']) ++ y).splitOn '/' = L ++ y.splitOn '/' := by
  induction L with
  | nil => simp
  | cons x L ih =>
    rw [List.flatMap_cons, List.append_assoc, List.append_assoc, List.singleton_append,
      List.splitOn_append_cons_of_beq _ _ (by simp), List.splitOn_eq_singleton (h x (by simp)),
      ih (fun z hz => h z (List.mem_cons_of_mem _ hz))]
    rfl

theorem splitOn_dirChars {cs : List String} (h : ∀ c ∈ cs, '/' ∉ c.toList) :
    (dirChars cs).splitOn '/' = [] :: (cs.map String.toList ++ [[]]) := by
  rw [dirChars, List.splitOn_cons_eq_if_modifyHead, if_pos (by simp)]
  simpa using splitOn_flatMap (L := cs.map String.toList) (by simpa using h) []

/-- The components read back from pieces: the empty pieces go, the others stay. -/
theorem filter_pieces {cs : List String} (h : ∀ c ∈ cs, c ≠ "") :
    ((cs.map String.toList).map String.ofList).filter (· ≠ "") = cs := by
  simp only [List.map_map, Function.comp_def, String.ofList_toList, List.map_id']
  exact List.filter_eq_self.mpr fun x hx => by simpa using h x hx

theorem parts_empty : parts "" = [] := by
  rw [parts_eq]
  decide

/-- The components on either side of a slash are the path's components. -/
theorem parts_append_slash (s t : String) : parts (s ++ "/" ++ t) = parts s ++ parts t := by
  have hchars : (s ++ "/" ++ t).toList = s.toList ++ '/' :: t.toList := by
    simp
  rw [parts_eq, parts_eq, parts_eq, hchars, List.splitOn_append_cons_of_beq _ _ (by simp),
    List.map_append, List.filter_append]

/-- Components joined by slashes are read back. -/
theorem parts_intercalate {cs : List String} (h : ∀ c ∈ cs, c ≠ "" ∧ '/' ∉ c.toList) :
    parts ("/".intercalate cs) = cs := by
  cases cs with
  | nil => rw [parts_eq]; decide
  | cons c cs =>
    have hslash : "/".toList = ['/'] := rfl
    rw [parts_eq, String.toList_intercalate, hslash, List.map_cons,
      List.splitOn_intercalate _ (by simpa using fun x hx => (h x hx).2) (List.cons_ne_nil _ _),
      ← List.map_cons]
    exact filter_pieces fun x hx => (h x hx).1

theorem parts_rooted {cs : List String} (h : ∀ c ∈ cs, c ≠ "" ∧ '/' ∉ c.toList) :
    parts (rooted cs) = cs := by
  have hsplit : rooted cs = "" ++ "/" ++ "/".intercalate cs := by
    simp [rooted]
  rw [hsplit, parts_append_slash, parts_intercalate h, parts_empty, List.nil_append]

theorem parts_dirChars {cs : List String} (h : ∀ c ∈ cs, c ≠ "" ∧ '/' ∉ c.toList) :
    parts (String.ofList (dirChars cs)) = cs := by
  rw [parts_eq, String.toList_ofList, splitOn_dirChars (fun x hx => (h x hx).2), List.map_cons,
    List.filter_cons_of_neg (by simp), List.map_append, List.filter_append,
    filter_pieces fun x hx => (h x hx).1]
  simp

end Split

section Clean

/-! Cleaning keeps the components of a cleaned path and drops `.` and `..` at the root. -/

theorem isAbs_iff (p : String) : isAbs p = true ↔ ∃ t, p.toList = '/' :: t := by
  unfold isAbs
  rw [String.startsWith_string_iff]
  exact ⟨fun ⟨t, ht⟩ => ⟨t, ht.symm⟩, fun ⟨t, ht⟩ => ⟨t, ht.symm⟩⟩

theorem isAbs_rooted (cs : List String) : isAbs (rooted cs) = true :=
  (isAbs_iff _).mpr ⟨_, toList_rooted cs⟩

theorem isAbs_dirChars (cs : List String) : isAbs (String.ofList (dirChars cs)) = true :=
  (isAbs_iff _).mpr ⟨_, by rw [String.toList_ofList, dirChars]⟩

theorem foldl_push_components {cs acc : List String} (h : ∀ c ∈ cs, IsComponent c) :
    cs.foldl (push true) acc = cs.reverse ++ acc := by
  induction cs generalizing acc with
  | nil => rfl
  | cons c cs ih =>
    obtain ⟨-, -, hdot, hdots⟩ := h c (List.mem_cons_self ..)
    rw [List.foldl_cons, ih (fun x hx => h x (List.mem_cons_of_mem _ hx))]
    simp [push, hdot, hdots]

theorem cleanParts_components {cs : List String} (h : ∀ c ∈ cs, IsComponent c) :
    cleanParts true cs = cs := by
  simp [cleanParts, foldl_push_components h]

/-- Cleaning at the root keeps only components: `.` goes, and `..` takes the component before it
or, at the root, stays there. -/
theorem components_foldl_push {cs acc : List String} (hcs : ∀ c ∈ cs, c ≠ "" ∧ '/' ∉ c.toList)
    (hacc : ∀ c ∈ acc, IsComponent c) : ∀ c ∈ cs.foldl (push true) acc, IsComponent c := by
  induction cs generalizing acc with
  | nil => exact hacc
  | cons x cs ih =>
    rw [List.foldl_cons]
    refine ih (fun c hc => hcs c (List.mem_cons_of_mem _ hc)) ?_
    obtain ⟨hne, hslash⟩ := hcs x (List.mem_cons_self ..)
    intro c hc
    simp only [push] at hc
    by_cases hdot : x = "."
    · rw [if_pos hdot] at hc
      exact hacc c hc
    · rw [if_neg hdot] at hc
      by_cases hdots : x = ".."
      · -- `..` takes the component before it; at the root there is none to take
        rw [if_pos hdots] at hc
        cases acc with
        | nil => simp at hc
        | cons top rest =>
          have htop : top ≠ ".." := (hacc top (List.mem_cons_self ..)).2.2.2
          simp only [htop, if_false] at hc
          exact hacc c (List.mem_cons_of_mem _ hc)
      · rw [if_neg hdots] at hc
        rcases List.mem_cons.mp hc with rfl | hc
        · exact ⟨hne, hslash, hdot, hdots⟩
        · exact hacc c hc

theorem components_cleanParts (p : String) : ∀ c ∈ cleanParts true (parts p), IsComponent c := by
  simpa [cleanParts] using @components_foldl_push (parts p) [] (parts_spec p) (by simp)

theorem clean_of_isAbs {p : String} (h : isAbs p = true) :
    clean p = rooted (cleanParts true (parts p)) := by
  simp [clean, h, rooted]

/-- A cleaned absolute path is its own cleaning. -/
theorem clean_rooted {cs : List String} (h : ∀ c ∈ cs, IsComponent c) : clean (rooted cs) = rooted cs := by
  rw [clean_of_isAbs (isAbs_rooted cs), parts_rooted fun c hc => ⟨(h c hc).1, (h c hc).2.1⟩,
    cleanParts_components h]

/-- A path made absolute against an absolute working directory is a cleaned absolute path. -/
theorem abs_eq_rooted {cwd : String} (hcwd : isAbs cwd = true) (p : String) :
    ∃ cs, (∀ c ∈ cs, IsComponent c) ∧ abs cwd p = rooted cs := by
  have hclean : ∀ q, isAbs q = true → ∃ cs, (∀ c ∈ cs, IsComponent c) ∧ clean q = rooted cs :=
    fun q hq => ⟨_, components_cleanParts q, clean_of_isAbs hq⟩
  unfold abs
  split
  · exact hclean p ‹_›
  · -- joined to the working directory, whose leading slash starts the joined path
    obtain ⟨t, ht⟩ := (isAbs_iff cwd).mp hcwd
    have hne : cwd ≠ "" := fun h => by simp [h] at ht
    by_cases hp : p = ""
    · have hjoin : join [cwd, p] = clean cwd := by simp [join, hne, hp]
      rw [hjoin]
      exact hclean cwd hcwd
    · have hjoin : join [cwd, p] = clean (cwd ++ "/" ++ p) := by
        simp [join, hne, hp, String.intercalate_cons_cons]
      rw [hjoin]
      exact hclean _ ((isAbs_iff _).mpr ⟨t ++ '/' :: p.toList, by simp [ht]⟩)

/-- Joining components to a cleaned path adds them as its last components. -/
theorem join_rooted {cs ps : List String} (h : ∀ x ∈ cs ++ ps, IsComponent x) :
    join (rooted cs :: ps) = rooted (cs ++ ps) := by
  have hcs : ∀ x ∈ cs, IsComponent x := fun x hx => h x (by simp [hx])
  have hroot : rooted cs ≠ "" := fun he => by simpa [he] using toList_rooted cs
  cases ps with
  | nil =>
    have hjoin : join [rooted cs] = clean (rooted cs) := by simp [join, hroot]
    rw [hjoin, clean_rooted hcs, List.append_nil]
  | cons p ps =>
    have hps : ∀ x ∈ p :: ps, x ≠ "" ∧ '/' ∉ x.toList := fun x hx =>
      ⟨(h x (by simp [hx])).1, (h x (by simp [hx])).2.1⟩
    have hparts : parts (rooted cs ++ "/" ++ "/".intercalate (p :: ps)) = cs ++ p :: ps := by
      rw [parts_append_slash, parts_rooted fun x hx => ⟨(hcs x hx).1, (hcs x hx).2.1⟩,
        parts_intercalate hps]
    have hfilter : (rooted cs :: p :: ps).filter (· ≠ "") = rooted cs :: p :: ps :=
      List.filter_eq_self.mpr fun x hx => by
        rcases List.mem_cons.mp hx with rfl | hx
        · simpa using hroot
        · simpa using (hps x hx).1
    have hjoin : join (rooted cs :: p :: ps) = clean (rooted cs ++ "/" ++ "/".intercalate (p :: ps)) := by
      rw [join, hfilter]
      simp only [String.intercalate_cons_cons]
    have habs : isAbs (rooted cs ++ "/" ++ "/".intercalate (p :: ps)) = true :=
      (isAbs_iff _).mpr ⟨['/'].intercalate (cs.map String.toList) ++ '/' ::
        ("/".intercalate (p :: ps)).toList, by simp [toList_rooted]⟩
    rw [hjoin, clean_of_isAbs habs, hparts, cleanParts_components h]

/-- Joining components one at a time, as a walk descends, gives the same path. -/
theorem foldl_join_rooted {cs ps : List String} (h : ∀ x ∈ cs ++ ps, IsComponent x) :
    ps.foldl (fun a p => join [a, p]) (rooted cs) = rooted (cs ++ ps) := by
  induction ps generalizing cs with
  | nil => simp
  | cons p ps ih =>
    rw [List.foldl_cons, @join_rooted cs [p] fun x hx => h x (by simp at hx ⊢; tauto),
      ih fun x hx => h x (by simp at hx ⊢; tauto)]
    simp

end Clean

section Segments

/-! The base and the directory of a cleaned path. -/

/-- Trailing slashes are trimmed from the end of a path: none when it ends in a piece without
one. -/
theorem dropWhile_slash_reverse {c : String} (hc : c ≠ "") (hs : '/' ∉ c.toList)
    (xs : List Char) :
    (xs ++ c.toList).reverse.dropWhile (· = '/') = (xs ++ c.toList).reverse := by
  obtain ⟨d, ds, hd⟩ : ∃ d ds, c.toList.reverse = d :: ds := by
    cases hc' : c.toList.reverse with
    | nil => simp_all
    | cons d ds => exact ⟨d, ds, rfl⟩
  have hd' : d ≠ '/' := fun he => hs (List.mem_reverse.mp (he ▸ hd ▸ List.mem_cons_self ..))
  rw [List.reverse_append, hd, List.cons_append]
  exact List.dropWhile_cons_of_neg (by simpa using hd')

/-- A path that ends in a slash and then a piece without one has that piece as its base. -/
theorem base_of_toList {p c : String} {xs : List Char} (hp : p.toList = xs ++ '/' :: c.toList)
    (hc : c ≠ "") (hs : '/' ∉ c.toList) : base p = c := by
  have hne : p ≠ "" := fun he => by simp [he] at hp
  have hkeep : p.toList.reverse.dropWhile (· = '/') = p.toList.reverse := by
    rw [hp]
    simpa using dropWhile_slash_reverse hc hs (xs ++ ['/'])
  have htrim : String.ofList (p.toList.reverse.dropWhile (· = '/')).reverse = p := by
    rw [hkeep, List.reverse_reverse, String.ofList_toList]
  rw [base, if_neg hne]
  simp only [htrim, if_neg hne]
  simp only [slash_eq, Text.splitOn_singleton, hp,
    List.splitOn_append_cons_of_beq _ _ (by simp : ('/' == '/') = true), List.splitOn_eq_singleton hs,
    List.map_append, List.map_singleton, String.ofList_toList]
  rw [List.getLastD_eq_getLast?, List.getLast?_concat, Option.getD_some]

/-- The last component of a cleaned path is its base. -/
theorem base_rooted {cs : List String} {c : String} (h : ∀ x ∈ cs ++ [c], IsComponent x) :
    base (rooted (cs ++ [c])) = c := by
  obtain ⟨hne, hslash, -, -⟩ := h c (by simp)
  obtain ⟨xs, hxs⟩ := dirChars_concat cs
  have hchars : (rooted (cs ++ [c])).toList = xs ++ '/' :: c.toList := by
    rw [toList_rooted_concat, hxs]
    simp
  exact base_of_toList hchars hne hslash

/-- The directory of a cleaned path is the path of its other components. -/
theorem dir_rooted {cs : List String} {c : String} (h : ∀ x ∈ cs ++ [c], IsComponent x) :
    dir (rooted (cs ++ [c])) = rooted cs := by
  have hcs : ∀ x ∈ cs, IsComponent x := fun x hx => h x (by simp [hx])
  obtain ⟨-, hslash, -, -⟩ := h c (by simp)
  -- the last component holds no slash, and the directory's characters end with one
  have hdrop : (c.toList.reverse ++ (dirChars cs).reverse).dropWhile (· ≠ '/') =
      (dirChars cs).reverse := by
    rw [List.dropWhile_append]
    have hall : (c.toList.reverse.dropWhile (· ≠ '/')) = [] :=
      List.dropWhile_eq_nil_iff.mpr fun x hx => by
        simp only [ne_eq, decide_eq_true_eq]
        rintro rfl
        exact hslash (List.mem_reverse.mp hx)
    rw [hall, List.isEmpty_nil, if_pos rfl]
    obtain ⟨xs, hxs⟩ := dirChars_concat cs
    rw [hxs, List.reverse_append, List.reverse_singleton, List.singleton_append,
      List.dropWhile_cons_of_neg (by simp)]
  rw [dir, toList_rooted_concat, List.reverse_append, hdrop, List.reverse_reverse,
    clean_of_isAbs (isAbs_dirChars cs),
    parts_dirChars fun x hx => ⟨(hcs x hx).1, (hcs x hx).2.1⟩, cleanParts_components hcs]

theorem dropCommon_append (cs ds : List String) : dropCommon cs (cs ++ ds) = ([], ds) := by
  induction cs with
  | nil => cases ds <;> rfl
  | cons c cs ih => simp [dropCommon, ih]

/-- From its directory, a cleaned path leads on by its base. -/
theorem rel_rooted {cs : List String} {c : String} (h : ∀ x ∈ cs ++ [c], IsComponent x) :
    rel (rooted cs) (rooted (cs ++ [c])) = some c := by
  have hcs : ∀ x ∈ cs, IsComponent x := fun x hx => h x (by simp [hx])
  have hparts := parts_rooted fun x (hx : x ∈ cs ++ [c]) => ⟨(h x hx).1, (h x hx).2.1⟩
  have hparts' := parts_rooted fun x (hx : x ∈ cs) => ⟨(hcs x hx).1, (hcs x hx).2.1⟩
  have hne : rooted cs ≠ rooted (cs ++ [c]) := fun he => by
    have := congrArg parts he
    rw [hparts, hparts'] at this
    simp at this
  have hdot : rooted cs ≠ "." := fun he => by
    simpa [he] using toList_rooted cs
  simp [rel, clean_rooted hcs, clean_rooted h, hne, isAbs_rooted, hdot, hparts, hparts',
    dropCommon_append]

/-- A cleaned absolute path is the root exactly when it has no component. -/
theorem rooted_eq_slash_iff {cs : List String} (h : ∀ x ∈ cs, x ≠ "" ∧ '/' ∉ x.toList) :
    rooted cs = "/" ↔ cs = [] := by
  refine ⟨fun he => ?_, fun he => by rw [he]; rfl⟩
  have := congrArg parts he
  rwa [parts_rooted h, show "/" = rooted [] from rfl, parts_rooted (by simp)] at this

/-- A root's name is read off the step from its directory. -/
theorem rootName_of_rel {p r : String} (h : rel (dir p) p = some r) :
    Entry.rootName p = if r = "." then "./" else "./" ++ r := by
  -- `unfold` rather than the equation lemma, whose generation evaluates the match's discriminant
  unfold Entry.rootName
  rw [h]

/-- A catalog root is named `./` followed by its base, or `./` alone at the root of the disk. -/
theorem rootName_rooted {cs : List String} (h : ∀ x ∈ cs, IsComponent x) :
    Entry.rootName (rooted cs) = if rooted cs = "/" then "./" else "./" ++ base (rooted cs) := by
  rcases List.eq_nil_or_concat cs with rfl | ⟨cs, c, rfl⟩
  · have hdir : dir "/" = "/" := by
      have : dir "/" = clean "/" := by simp [dir]
      rw [this, show "/" = rooted [] from rfl, clean_rooted (by simp)]
    rw [show rooted [] = "/" from rfl, rootName_of_rel (by rw [hdir]; exact rel_self "/")]
    simp
  · rw [List.concat_eq_append] at h ⊢
    have hc : IsComponent c := h c (by simp)
    have hne : rooted (cs ++ [c]) ≠ "/" := fun he => by
      simpa using (rooted_eq_slash_iff fun x hx => ⟨(h x hx).1, (h x hx).2.1⟩).mp he
    rw [rootName_of_rel (by rw [dir_rooted h]; exact rel_rooted h), if_neg hne, base_rooted h]
    simp [hc.2.2.1]

end Segments

end TreeCatalog.Path
