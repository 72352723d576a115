import Mathlib
import TreeCatalog.Text.Blank
import TreeCatalog.Proofs.Text.Utf8

/-! # Trimming bytes

The blank characters are encoded as one byte from the ASCII controls and space, or as two or
three bytes that start from `0xc2` and end below `0xc0` (`blankCodes_shape`). None of them starts
with `{` or `[` or ends with `}` or `]`, so a text between braces or brackets has nothing to trim
(`trimBytes_of_ends`); in general the trimmed text stands in the text after whole blank encodings
(`trimBytes_infix`). -/

namespace TreeCatalog.Text

open Utf8

theorem blankCodes_eq :
    blankCodes = blankCodePoints.map fun n => String.utf8EncodeChar (Char.ofNat n) := by
  unfold blankCodes
  congr 1
  funext n
  rw [← Utf8.encode, encode_eq_flatMap]
  simp

/-- A blank is one byte up to the space, or a multi-byte encoding from a lead byte `0xc2` or
above to a continuation byte. -/
theorem blankCodes_shape : ∀ code ∈ blankCodes, code ≠ [] ∧
    ((code.length = 1 ∧ ∀ b ∈ code, b ≤ 32) ∨
      (∀ b ∈ code.head?, 0xc2 ≤ b) ∧ ∀ b ∈ code.getLast?, 0x80 ≤ b ∧ b < 0xc0) := by
  rw [blankCodes_eq]
  decide +kernel

/-- No blank starts with a byte between the space and the lead bytes. -/
theorem blank_head_ne {code : List UInt8} (h : code ∈ blankCodes) {b : UInt8} (hlo : 32 < b)
    (hhi : b < 0xc2) : code.head? ≠ some b := by
  obtain ⟨hne, ⟨hlen, hsmall⟩ | ⟨hhead, -⟩⟩ := blankCodes_shape code h <;> intro hb
  · have := hsmall b (List.mem_of_mem_head? hb)
    exact absurd this (by simpa using hlo)
  · exact absurd (hhead b hb) (by simpa using hhi)

/-- No blank ends with a byte between the space and the continuation bytes. -/
theorem blank_last_ne {code : List UInt8} (h : code ∈ blankCodes) {b : UInt8} (hlo : 32 < b)
    (hhi : b < 0x80) : code.getLast? ≠ some b := by
  obtain ⟨hne, ⟨hlen, hsmall⟩ | ⟨-, hlast⟩⟩ := blankCodes_shape code h <;> intro hb
  · have := hsmall b (List.mem_of_getLast? hb)
    exact absurd this (by simpa using hlo)
  · exact absurd (hlast b hb).1 (by simpa using hhi)

section Ends

variable {a b : UInt8}

theorem isPrefixOf_blank {code : List UInt8} (h : code ∈ blankCodes) (hlo : 32 < a)
    (hhi : a < 0xc2) (rest : List UInt8) : code.isPrefixOf (a :: rest) = false := by
  obtain ⟨c, cs, rfl⟩ := List.exists_cons_of_ne_nil (blankCodes_shape code h).1
  have hc : c ≠ a := fun hc => blank_head_ne h hlo hhi (by rw [hc]; rfl)
  simp [List.isPrefixOf, hc]

theorem isSuffixOf_blank {code : List UInt8} (h : code ∈ blankCodes) (hlo : 32 < b)
    (hhi : b < 0x80) (xs : List UInt8) : code.isSuffixOf (xs ++ [b]) = false := by
  have hne := (blankCodes_shape code h).1
  rw [List.isSuffixOf, List.reverse_append, List.reverse_singleton, List.singleton_append]
  cases hr : code.reverse with
  | nil => exact absurd (List.reverse_eq_nil_iff.mp hr) hne
  | cons c cs =>
    have hc : c ≠ b := fun hc => blank_last_ne h hlo hhi (by rw [← List.head?_reverse, hr, hc]; rfl)
    simp [List.isPrefixOf, hc]

theorem dropBlankPrefix_of_head (hlo : 32 < a) (hhi : a < 0xc2) (fuel : Nat) (rest : List UInt8) :
    dropBlankPrefix fuel (a :: rest) = a :: rest := by
  cases fuel with
  | zero => rfl
  | succ fuel =>
    have hnone : blankCodes.find? (·.isPrefixOf (a :: rest)) = none :=
      List.find?_eq_none.mpr fun code h => by simp [isPrefixOf_blank h hlo hhi]
    rw [dropBlankPrefix, hnone]

theorem dropBlankSuffix_of_last (hlo : 32 < b) (hhi : b < 0x80) (fuel : Nat) (xs : List UInt8) :
    dropBlankSuffix fuel (xs ++ [b]) = xs ++ [b] := by
  cases fuel with
  | zero => rfl
  | succ fuel =>
    have hnone : blankCodes.find? (·.isSuffixOf (xs ++ [b])) = none :=
      List.find?_eq_none.mpr fun code h => by simp [isSuffixOf_blank h hlo hhi]
    rw [dropBlankSuffix, hnone]

/-- A text that starts with a byte no blank starts with, and ends with one no blank ends with,
has nothing to trim. -/
theorem trimBytes_of_ends (halo : 32 < a) (hahi : a < 0xc2) (hblo : 32 < b) (hbhi : b < 0x80)
    (xs : List UInt8) : trimBytes (a :: (xs ++ [b])) = a :: (xs ++ [b]) := by
  rw [trimBytes]
  simp only [dropBlankPrefix_of_head halo hahi]
  rw [← List.cons_append, dropBlankSuffix_of_last hblo hbhi]

end Ends

/-- A text between braces has no blank at either end. -/
theorem trimBytes_braces (xs : List UInt8) :
    trimBytes (123 :: (xs ++ [125])) = 123 :: (xs ++ [125]) :=
  trimBytes_of_ends (by decide) (by decide) (by decide) (by decide) xs

/-- Trimming the front drops whole blank encodings. -/
theorem dropBlankPrefix_eq_flatten (fuel : Nat) (bs : List UInt8) :
    ∃ codes : List (List UInt8), (∀ code ∈ codes, code ∈ blankCodes) ∧
      bs = codes.flatten ++ dropBlankPrefix fuel bs := by
  induction fuel generalizing bs with
  | zero => exact ⟨[], by simp, rfl⟩
  | succ fuel ih =>
    rw [dropBlankPrefix]
    cases hf : blankCodes.find? (·.isPrefixOf bs) with
    | none => exact ⟨[], by simp, rfl⟩
    | some code =>
      obtain ⟨codes, hcodes, heq⟩ := ih (bs.drop code.length)
      have hp : code.isPrefixOf bs = true := by simpa using List.find?_some hf
      have hpre : code <+: bs := List.isPrefixOf_iff_prefix.mp hp
      refine ⟨code :: codes, ?_, ?_⟩
      · simpa using ⟨List.mem_of_find?_eq_some hf, hcodes⟩
      · dsimp only
        rw [List.flatten_cons, List.append_assoc, ← heq]
        exact (List.prefix_iff_eq_append.mp hpre).symm

/-- Trimming the back keeps a prefix. -/
theorem dropBlankSuffix_prefix (fuel : Nat) (bs : List UInt8) :
    ∃ post : List UInt8, bs = dropBlankSuffix fuel bs ++ post := by
  induction fuel generalizing bs with
  | zero => exact ⟨[], by simp [dropBlankSuffix]⟩
  | succ fuel ih =>
    rw [dropBlankSuffix]
    cases hf : blankCodes.find? (·.isSuffixOf bs) with
    | none => exact ⟨[], by simp⟩
    | some code =>
      obtain ⟨post, hpost⟩ := ih (bs.take (bs.length - code.length))
      refine ⟨post ++ bs.drop (bs.length - code.length), ?_⟩
      dsimp only
      rw [← List.append_assoc, ← hpost, List.take_append_drop]

/-- The trimmed text stands in the text after whole blank encodings. -/
theorem trimBytes_infix (bs : List UInt8) :
    ∃ (codes : List (List UInt8)) (post : List UInt8), (∀ code ∈ codes, code ∈ blankCodes) ∧
      bs = codes.flatten ++ trimBytes bs ++ post := by
  obtain ⟨codes, hcodes, hfront⟩ := dropBlankPrefix_eq_flatten bs.length bs
  obtain ⟨post, hpost⟩ := dropBlankSuffix_prefix (dropBlankPrefix bs.length bs).length
    (dropBlankPrefix bs.length bs)
  refine ⟨codes, post, hcodes, ?_⟩
  rw [trimBytes, List.append_assoc, ← hpost]
  exact hfront

end TreeCatalog.Text
