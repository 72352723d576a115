import Mathlib

/-! # Splitting text at one character

Text is split at a separator by a scan over byte positions. When the separator is one character,
the scan cuts the text exactly where the list of its characters is cut at that character
(`splitOn_singleton`), so every fact about splitting a list carries over to text. The scan keeps
an invariant over the text written as three lists: what precedes the current piece, the piece read
so far, and what is still to be read (`splitOnAux_single`). -/

namespace TreeCatalog.Text

open String

/-- A one-character text: its character is at the start, and its end is one character on. -/
theorem singleton_pos (c : Char) :
    Pos.Raw.get (String.singleton c) 0 = c ∧ Pos.Raw.next (String.singleton c) 0 = ⟨c.utf8Size⟩ ∧
      (String.singleton c).rawEndPos = ⟨c.utf8Size⟩ := by
  rw [String.singleton_eq_ofList]
  refine ⟨by simpa using get_of_valid [] [c], by simpa using next_of_valid [] c [],
    by simp only [rawEndPos_ofList, utf8Len, Nat.zero_add]⟩

/-- The scan at a one-character separator, from a point inside the text `l ++ m ++ r` where the
piece `m` has been read since the last cut, finishes the pieces the list split would. -/
theorem splitOnAux_single (c : Char) (l m r : List Char) (acc : List String) :
    String.splitOnAux (ofList (l ++ m ++ r)) (String.singleton c) ⟨utf8Len l⟩
        ⟨utf8Len l + utf8Len m⟩ 0 acc =
      acc.reverse ++ (List.splitOnPPrepend (· == c) r m.reverse).map ofList := by
  unfold String.splitOnAux
  simp only [List.append_assoc, atEnd_iff, rawEndPos_ofList, utf8Len_append, Pos.Raw.mk_le_mk,
    Nat.add_le_add_iff_left, (by omega : utf8Len m + utf8Len r ≤ utf8Len m ↔ utf8Len r = 0),
    utf8Len_eq_zero]
  split
  · subst r
    simpa using extract_of_valid l m []
  · obtain ⟨d, r, rfl⟩ := r.exists_cons_of_ne_nil ‹_›
    have hget := get_of_valid (l ++ m) (d :: r)
    have hnext := next_of_valid (l ++ m) d r
    simp only [List.append_assoc, utf8Len_append] at hget hnext
    obtain ⟨hc0, hcn, hce⟩ := singleton_pos c
    rw [hget, hnext, hc0, hcn, hce]
    simp only [List.headD_cons, Pos.Raw.mk_le_mk, Nat.le_refl, if_true]
    split
    · -- the separator: the piece `m` is cut off and a new piece starts after it
      next h =>
      have hdc : d = c := by simpa using h
      subst hdc
      have hback : ({ byteIdx := utf8Len l + utf8Len m + d.utf8Size } : Pos.Raw).unoffsetBy
          ⟨d.utf8Size⟩ = ⟨utf8Len l + utf8Len m⟩ := by
        ext; simp
      rw [hback]
      have hext := extract_of_valid l m (d :: r)
      simp only [List.append_assoc] at hext
      rw [hext]
      simpa [Nat.add_assoc, List.splitOnPPrepend_cons_eq_if] using
        splitOnAux_single d (l ++ m ++ [d]) [] r (ofList m :: acc)
    · -- any other character joins the piece
      next h =>
      have hzero : ({ byteIdx := utf8Len l + utf8Len m } : Pos.Raw).unoffsetBy 0 =
          ⟨utf8Len l + utf8Len m⟩ := by
        ext; simp
      rw [hzero, hnext]
      simpa [Nat.add_assoc, List.splitOnPPrepend_cons_eq_if, h] using
        splitOnAux_single c l (m ++ [d]) r acc

/-- Splitting text at one character cuts its characters where the list split does. -/
theorem splitOn_singleton (s : String) (c : Char) :
    s.splitOn (String.singleton c) = (s.toList.splitOn c).map ofList := by
  have hne : (String.singleton c == "") = false := by
    simp
  rw [String.splitOn, hne]
  simpa [List.splitOn_eq_splitOnP] using splitOnAux_single c [] [] s.toList []

/-- No piece of a list split holds the separator. -/
theorem not_mem_of_mem_splitOn {c : Char} {xs piece : List Char} (h : piece ∈ xs.splitOn c) :
    c ∉ piece := by
  induction xs generalizing piece with
  | nil => simp_all
  | cons x xs ih =>
    rw [List.splitOn_cons_eq_if_modifyHead] at h
    split at h
    · next hx =>
      rcases List.mem_cons.mp h with rfl | h
      · simp
      · exact ih h
    · next hx =>
      cases hs : xs.splitOn c with
      | nil => exact absurd hs (List.splitOn_ne_nil c xs)
      | cons first rest =>
        rw [hs, List.modifyHead_cons] at h
        rcases List.mem_cons.mp h with rfl | h
        · have := ih (hs ▸ List.mem_cons_self ..)
          simp only [List.mem_cons, not_or]
          exact ⟨fun he => hx (by simp [he]), this⟩
        · exact ih (hs ▸ List.mem_cons_of_mem _ h)

end TreeCatalog.Text
