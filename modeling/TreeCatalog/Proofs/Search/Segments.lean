import Mathlib
import TreeCatalog.Search
import TreeCatalog.Proofs.Path.RootNames

/-! # Where a hit splits a name

A hit reports an entry's name in two parts, computed apart: its last segment by the path library
(`Path.base`) and what precedes that segment by the search itself (`dirname`, with `.` shown as
nothing). Both first trim the name's trailing slashes. Written as a text `t` that does not end in a
slash followed by some slashes, the name is split by both at the last slash of `t`
(`base_trailing_slash`, `dirname_trailing_slash`), or not at all when `t` has none, so the two
parts never disagree about where the cut is: directory, slash and base spell `t` whenever the
directory is a real one (`hitOf_splits_at_last_slash`). The directory part is not cleaned, so
`./a//b.txt` has the directory `./a/`. -/

namespace TreeCatalog.Search

section Trailing

variable {n : String} {t pre post : List Char} {k : Nat}

/-- Trimming the trailing slashes of a name written as `t` and slashes gives back `t`, when `t`
does not itself end in one. -/
theorem trim_trailing (hn : n.toList = t ++ List.replicate k '/') (ht : t.getLast? ≠ some '/') :
    (n.toList.reverse.dropWhile (· = '/')).reverse = t := by
  have hslashes : (List.replicate k '/').dropWhile (· = '/') = [] :=
    List.dropWhile_eq_nil_iff.mpr fun x hx => by simp [List.eq_of_mem_replicate hx]
  have hkeep : t.reverse.dropWhile (· = '/') = t.reverse := by
    cases h : t.reverse with
    | nil => rfl
    | cons d ds =>
      have hd : d ≠ '/' := fun hd => ht (by rw [← List.head?_reverse, h, hd]; rfl)
      exact List.dropWhile_cons_of_neg (by simpa using hd)
  rw [hn, List.reverse_append, List.reverse_replicate, List.dropWhile_append, hslashes,
    List.isEmpty_nil, if_pos rfl, hkeep, List.reverse_reverse]

/-- A piece after a slash that is not empty and holds no slash is where the text ends. -/
theorem getLast?_ne_slash (hpost : post ≠ []) (hs : '/' ∉ post) :
    (pre ++ '/' :: post).getLast? ≠ some '/' := by
  obtain ⟨ys, y, rfl⟩ := (List.eq_nil_or_concat post).resolve_left hpost
  have hy : y ≠ '/' := fun hy => hs (by simp [hy])
  have hlast : (pre ++ '/' :: (ys ++ [y])).getLast? = some y := by
    rw [← List.cons_append, ← List.append_assoc, List.getLast?_concat]
  rw [List.concat_eq_append, hlast]
  simpa using hy

theorem ne_empty_of_toList {t rest : List Char} (hn : n.toList = t ++ rest) (ht : t ≠ []) :
    n ≠ "" := by
  rintro rfl
  exact ht (List.append_eq_nil_iff.mp hn.symm).1

/-- The base of a name is the last piece of its trimmed text split at slashes, or `/` when
nothing is left of it. -/
theorem base_trailing (hn : n.toList = t ++ List.replicate k '/') (ht : t.getLast? ≠ some '/')
    (hne : n ≠ "") :
    Path.base n = if t = [] then "/" else
      ((t.splitOn '/').map String.ofList).getLastD (String.ofList t) := by
  rw [Path.base, if_neg hne]
  simp only [trim_trailing hn ht, String.ofList_eq_empty_iff, Path.slash_eq,
    Text.splitOn_singleton, String.toList_ofList]

theorem base_trailing_piece (hn : n.toList = t ++ List.replicate k '/')
    (ht : t.getLast? ≠ some '/') (hne : t ≠ []) (hs : '/' ∉ t) : Path.base n = String.ofList t := by
  rw [base_trailing hn ht (ne_empty_of_toList hn hne), if_neg hne, List.splitOn_eq_singleton hs]
  rfl

theorem base_trailing_slash (hn : n.toList = pre ++ '/' :: post ++ List.replicate k '/')
    (hpost : post ≠ []) (hs : '/' ∉ post) : Path.base n = String.ofList post := by
  have hsplit : (pre ++ '/' :: post).splitOn '/' = pre.splitOn '/' ++ [post] := by
    rw [List.splitOn_append_cons_of_beq _ _ (by simp), List.splitOn_eq_singleton hs]
  rw [base_trailing hn (getLast?_ne_slash hpost hs) (ne_empty_of_toList hn (by simp)),
    if_neg (by simp), hsplit, List.map_append, List.map_singleton, List.getLastD_eq_getLast?,
    List.getLast?_concat, Option.getD_some]

/-- A name of slashes only: its base and directory are both `/`, and both `.` for the empty name. -/
theorem base_slashes (hn : n.toList = List.replicate k '/') :
    Path.base n = if n = "" then "." else "/" := by
  have hn' : n.toList = [] ++ List.replicate k '/' := hn
  split
  · next h => rw [h, Path.base, if_pos rfl]
  · next h => rw [base_trailing hn' (by simp) h, if_pos rfl]

theorem dirname_slashes (hn : n.toList = List.replicate k '/') :
    dirname n = if n = "" then "." else "/" := by
  have hn' : n.toList = [] ++ List.replicate k '/' := hn
  unfold dirname
  simp only [trim_trailing hn' (by simp), List.isEmpty_nil, if_true]

theorem dirname_trailing_piece (hn : n.toList = t ++ List.replicate k '/')
    (ht : t.getLast? ≠ some '/') (hne : t ≠ []) (hs : '/' ∉ t) : dirname n = "." := by
  unfold dirname
  simp only [trim_trailing hn ht, List.isEmpty_iff, hne, if_false,
    Path.dropWhile_reverse_no_slash hs]

/-- The directory part of a name is what precedes the last slash of its trimmed text, as it
stands, or `/` when nothing does. -/
theorem dirname_trailing_slash (hn : n.toList = pre ++ '/' :: post ++ List.replicate k '/')
    (hpost : post ≠ []) (hs : '/' ∉ post) :
    dirname n = if pre = [] then "/" else String.ofList pre := by
  have hne : pre ++ '/' :: post ≠ [] := by simp
  unfold dirname
  simp only [trim_trailing hn (getLast?_ne_slash hpost hs), List.isEmpty_iff, hne, if_false,
    Path.dropWhile_reverse_last_slash hs, List.reverse_reverse, List.reverse_eq_nil_iff]

end Trailing

section Hits

variable {catalog file : String} {e : Entry} {t pre post : List Char} {k : Nat}

theorem hitOf_basename : (hitOf catalog file e).basename = Path.base e.name := rfl

theorem hitOf_fullPath_eq :
    (hitOf catalog file e).fullPath = if dirname e.name = "." then "" else dirname e.name := rfl

/-- The empty name is reported as `.` with no directory, a name of slashes as `/` in `/`. -/
theorem hitOf_slashes (hn : e.name.toList = List.replicate k '/') :
    (e.name = "" → (hitOf catalog file e).basename = "." ∧ (hitOf catalog file e).fullPath = "") ∧
      (e.name ≠ "" → (hitOf catalog file e).basename = "/" ∧
        (hitOf catalog file e).fullPath = "/") := by
  rw [hitOf_basename, hitOf_fullPath_eq, base_slashes hn, dirname_slashes hn]
  constructor
  · intro h
    simp [h]
  · intro h
    simp [h]

/-- A name whose trimmed text holds no slash is its own base, with no directory. -/
theorem hitOf_piece (hn : e.name.toList = t ++ List.replicate k '/') (ht : t.getLast? ≠ some '/')
    (hne : t ≠ []) (hs : '/' ∉ t) :
    (hitOf catalog file e).fullPath = "" ∧ (hitOf catalog file e).basename = String.ofList t := by
  rw [hitOf_basename, hitOf_fullPath_eq, dirname_trailing_piece hn ht hne hs,
    base_trailing_piece hn ht hne hs]
  exact ⟨if_pos rfl, rfl⟩

theorem ofList_eq_dot_iff {cs : List Char} : String.ofList cs = "." ↔ cs = ['.'] := by
  constructor
  · intro h
    simpa using congrArg String.toList h
  · rintro rfl
    rfl

/-- A name with a slash in its trimmed text is cut at the last one: the base follows it and the
directory precedes it, `/` when nothing does and nothing when `.` does. -/
theorem hitOf_last_slash (hn : e.name.toList = pre ++ '/' :: post ++ List.replicate k '/')
    (hpost : post ≠ []) (hs : '/' ∉ post) :
    (hitOf catalog file e).basename = String.ofList post ∧
      (hitOf catalog file e).fullPath =
        if pre = [] then "/" else if pre = ['.'] then "" else String.ofList pre := by
  rw [hitOf_basename, hitOf_fullPath_eq, dirname_trailing_slash hn hpost hs,
    base_trailing_slash hn hpost hs]
  refine ⟨rfl, ?_⟩
  by_cases hpre : pre = []
  · simp [hpre]
  · simp only [hpre, if_false, ofList_eq_dot_iff]

theorem post_ne_nil_of_getLast? (ht : (pre ++ '/' :: post).getLast? ≠ some '/') : post ≠ [] := by
  rintro rfl
  exact ht (by simp)

/-- Whenever a hit's directory is a real one, neither nothing nor `/`, the directory, a slash and
the base spell the name with its trailing slashes trimmed. -/
theorem hitOf_rejoin (hn : e.name.toList = t ++ List.replicate k '/') (ht : t.getLast? ≠ some '/')
    (hdir : (hitOf catalog file e).fullPath ≠ "") (hroot : (hitOf catalog file e).fullPath ≠ "/") :
    (hitOf catalog file e).fullPath ++ "/" ++ (hitOf catalog file e).basename = String.ofList t := by
  rcases Path.last_slash_cases t with hs | ⟨pre, post, rfl, hs⟩
  · -- no slash to cut at: the directory is nothing or `/`
    by_cases hne : t = []
    · subst hne
      by_cases hempty : e.name = ""
      · exact absurd ((hitOf_slashes hn).1 hempty).2 hdir
      · exact absurd ((hitOf_slashes hn).2 hempty).2 hroot
    · exact absurd (hitOf_piece hn ht hne hs).1 hdir
  · obtain ⟨hbase, hfull⟩ := hitOf_last_slash hn (post_ne_nil_of_getLast? ht) hs
    by_cases hpre : pre = []
    · exact absurd (by rw [hfull, if_pos hpre]) hroot
    by_cases hdot : pre = ['.']
    · exact absurd (by rw [hfull, if_neg hpre, if_pos hdot]) hdir
    rw [hbase, hfull, if_neg hpre, if_neg hdot]
    apply String.toList_inj.mp
    simp

/-- The two splitters of a hit agree on every name. With `t` the name less its trailing slashes:
the empty name is reported as `.` with no directory and a name of slashes as `/` in `/`; a `t`
without a slash is the base, with no directory; and a `t` with a last slash has what follows it
as base and what precedes it as directory, uncleaned, but `/` for nothing and nothing for `.`. So
directory, slash and base spell `t` whenever the directory is neither nothing nor `/`. -/
theorem hitOf_splits_at_last_slash (catalog file : String) (e : Entry) {t : List Char} {k : Nat}
    (hn : e.name.toList = t ++ List.replicate k '/') (ht : t.getLast? ≠ some '/') :
    (t = [] →
      (e.name = "" → (hitOf catalog file e).basename = "." ∧ (hitOf catalog file e).fullPath = "") ∧
      (e.name ≠ "" → (hitOf catalog file e).basename = "/" ∧
        (hitOf catalog file e).fullPath = "/")) ∧
    (t ≠ [] → '/' ∉ t →
      (hitOf catalog file e).fullPath = "" ∧ (hitOf catalog file e).basename = String.ofList t) ∧
    (∀ pre post, t = pre ++ '/' :: post → '/' ∉ post →
      (hitOf catalog file e).basename = String.ofList post ∧
      (hitOf catalog file e).fullPath =
        if pre = [] then "/" else if pre = ['.'] then "" else String.ofList pre) ∧
    ((hitOf catalog file e).fullPath ≠ "" → (hitOf catalog file e).fullPath ≠ "/" →
      (hitOf catalog file e).fullPath ++ "/" ++ (hitOf catalog file e).basename =
        String.ofList t) := by
  refine ⟨?_, hitOf_piece hn ht, ?_, hitOf_rejoin hn ht⟩
  · rintro rfl
    exact hitOf_slashes hn
  · rintro pre post rfl hs
    exact hitOf_last_slash hn (post_ne_nil_of_getLast? ht) hs

/-- A name with a doubled slash and two trailing ones: the trailing slashes go, and the directory
keeps the doubled slash's first half. -/
theorem hitOf_splits_doubled :
    "./a//b.txt//".toList = "./a//b.txt".toList ++ List.replicate 2 '/' ∧
      "./a//b.txt".toList.getLast? ≠ some '/' ∧
      (hitOf "c" "/c.json" ⟨"file", "./a//b.txt//", 0, none⟩).basename = "b.txt" ∧
      (hitOf "c" "/c.json" ⟨"file", "./a//b.txt//", 0, none⟩).fullPath = "./a/" := by
  have hn : "./a//b.txt//".toList = "./a//b.txt".toList ++ List.replicate 2 '/' := by decide
  have ht : "./a//b.txt".toList.getLast? ≠ some '/' := by decide
  obtain ⟨hbase, hfull⟩ := (hitOf_splits_at_last_slash "c" "/c.json" ⟨"file", "./a//b.txt//", 0,
    none⟩ hn ht).2.2.1 "./a/".toList "b.txt".toList (by decide) (by decide)
  refine ⟨hn, ht, ?_, ?_⟩
  · rw [hbase, String.ofList_toList]
  · rw [hfull, if_neg (by decide), if_neg (by decide), String.ofList_toList]

end Hits

end TreeCatalog.Search
