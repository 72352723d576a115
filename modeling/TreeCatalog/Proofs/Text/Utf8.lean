import Mathlib
import TreeCatalog.Text.Utf8

/-! # Reading back UTF-8

A text is written as the UTF-8 of its characters (`encode`), and the reader of `Text.Utf8` takes
each well-formed sequence back to its character. The four lengths of a sequence are taken one at
a time: `scalar?` accepts the bytes that `String.utf8EncodeChar` writes and computes the code
point they carry, so reading what was written gives the text again (`decode_encode`). A
character from U+0080 up is written with bytes from `0x80` up only, so none of its bytes can be
taken for an ASCII delimiter (`high_of_mem_utf8EncodeChar`). -/

namespace TreeCatalog.Text.Utf8

section Bytes

theorem toList_loop (bs : ByteArray) (i : Nat) (r : List UInt8) :
    ByteArray.toList.loop bs i r = r.reverse ++ bs.data.toList.drop i := by
  fun_induction ByteArray.toList.loop bs i r with
  | case1 i r hi ih =>
    have hlt : i < bs.data.toList.length := by simpa using hi
    rw [ih, List.drop_eq_getElem_cons hlt]
    simp [ByteArray.get!, hi]
  | case2 i r hi =>
    have hle : bs.data.toList.length ≤ i := by simpa using Nat.le_of_not_lt hi
    simp [List.drop_eq_nil_of_le hle]

theorem toList_eq_data (bs : ByteArray) : bs.toList = bs.data.toList := by
  simp [ByteArray.toList, toList_loop]

/-- The bytes of a text are the UTF-8 sequences of its characters, in order. -/
@[simp] theorem encode_eq_flatMap (s : String) :
    encode s = s.toList.flatMap String.utf8EncodeChar := by
  rw [encode, String.toUTF8_eq_toByteArray, ← String.utf8Encode_toList, List.utf8Encode,
    toList_eq_data, List.toList_data_toByteArray]

theorem encode_append (s t : String) : encode (s ++ t) = encode s ++ encode t := by
  simp only [encode_eq_flatMap, String.toList_append, List.flatMap_append]

end Bytes

section Sequences

/-! Each length of sequence on its own, with the bytes given by their values. -/

theorem inRange_iff (lo hi b : UInt8) :
    inRange lo hi b = true ↔ lo.toNat ≤ b.toNat ∧ b.toNat ≤ hi.toNat := by
  simp [inRange, UInt8.le_iff_toNat_le]

theorem toNat_and_mask (b : UInt8) (k : Nat) (m : UInt8) (hm : m.toNat = 2 ^ k - 1) :
    (b &&& m).toNat = b.toNat % 2 ^ k := by
  rw [UInt8.toNat_and, hm, Nat.and_two_pow_sub_one_eq_mod]

theorem beq_toNat (b c : UInt8) : (b == c) = decide (b.toNat = c.toNat) := by
  rw [Bool.eq_iff_iff, beq_iff_eq, decide_eq_true_iff, UInt8.toNat_inj]

theorem scalar?_one_of (b0 : UInt8) (more : List UInt8) (h0 : b0.toNat < 0x80) :
    scalar? b0 more = some (Char.ofNat b0.toNat, 0) := by
  have hy : b0 < 0x80 := by rw [UInt8.lt_iff_toNat_lt]; simpa using h0
  simp only [scalar?, hy, if_true]

theorem scalar?_two_of (b0 b1 : UInt8) (more : List UInt8)
    (h0 : 0xc2 ≤ b0.toNat ∧ b0.toNat ≤ 0xdf) (h1 : 0x80 ≤ b1.toNat ∧ b1.toNat ≤ 0xbf) :
    scalar? b0 (b1 :: more) = some (Char.ofNat (b0.toNat % 32 * 64 + b1.toNat % 64), 1) := by
  have hn : ¬ b0 < 0x80 := by rw [UInt8.lt_iff_toNat_lt]; simp; omega
  have hy2 : inRange 0xc2 0xdf b0 = true := by rw [inRange_iff]; simpa using h0
  have hb1 : inRange 0x80 0xbf b1 = true := by rw [inRange_iff]; simpa using h1
  simp only [scalar?, hn, if_false, hy2, if_true, hb1, toNat_and_mask b0 5 0x1f (by decide),
    toNat_and_mask b1 6 0x3f (by decide)]
  rfl

theorem scalar?_three_of (b0 b1 b2 : UInt8) (more : List UInt8)
    (h0 : 0xe0 ≤ b0.toNat ∧ b0.toNat ≤ 0xef)
    (h1 : (if b0.toNat = 0xe0 then 0xa0 else 0x80) ≤ b1.toNat ∧
      b1.toNat ≤ (if b0.toNat = 0xed then 0x9f else 0xbf))
    (h2 : 0x80 ≤ b2.toNat ∧ b2.toNat ≤ 0xbf) :
    scalar? b0 (b1 :: b2 :: more) =
      some (Char.ofNat (b0.toNat % 16 * 4096 + b1.toNat % 64 * 64 + b2.toNat % 64), 2) := by
  have hn : ¬ b0 < 0x80 := by rw [UInt8.lt_iff_toNat_lt]; simp; omega
  have hn2 : inRange 0xc2 0xdf b0 = false := by
    rw [Bool.eq_false_iff, ne_eq, inRange_iff]; simp; omega
  have hy3 : inRange 0xe0 0xef b0 = true := by rw [inRange_iff]; simp; omega
  -- the second byte's range narrows after `0xe0` (no overlong form) and `0xed` (no surrogate)
  have hb1 : inRange (if b0 == 0xe0 then 0xa0 else 0x80) (if b0 == 0xed then 0x9f else 0xbf) b1 =
      true := by
    rw [inRange_iff, beq_toNat, beq_toNat]
    split <;> split <;> simp_all
  have hb2 : inRange 0x80 0xbf b2 = true := by rw [inRange_iff]; simpa using h2
  simp only [scalar?, hn, if_false, hn2, Bool.false_eq_true, hy3, if_true, hb1, hb2,
    Bool.and_self, toNat_and_mask b0 4 0x0f (by decide), toNat_and_mask b1 6 0x3f (by decide),
    toNat_and_mask b2 6 0x3f (by decide)]
  rfl

theorem scalar?_four_of (b0 b1 b2 b3 : UInt8) (more : List UInt8)
    (h0 : 0xf0 ≤ b0.toNat ∧ b0.toNat ≤ 0xf4)
    (h1 : (if b0.toNat = 0xf0 then 0x90 else 0x80) ≤ b1.toNat ∧
      b1.toNat ≤ (if b0.toNat = 0xf4 then 0x8f else 0xbf))
    (h2 : 0x80 ≤ b2.toNat ∧ b2.toNat ≤ 0xbf) (h3 : 0x80 ≤ b3.toNat ∧ b3.toNat ≤ 0xbf) :
    scalar? b0 (b1 :: b2 :: b3 :: more) =
      some (Char.ofNat (b0.toNat % 8 * 262144 + b1.toNat % 64 * 4096 + b2.toNat % 64 * 64 +
        b3.toNat % 64), 3) := by
  have hn : ¬ b0 < 0x80 := by rw [UInt8.lt_iff_toNat_lt]; simp; omega
  have hn2 : inRange 0xc2 0xdf b0 = false := by
    rw [Bool.eq_false_iff, ne_eq, inRange_iff]; simp; omega
  have hn3 : inRange 0xe0 0xef b0 = false := by
    rw [Bool.eq_false_iff, ne_eq, inRange_iff]; simp; omega
  have hy4 : inRange 0xf0 0xf4 b0 = true := by rw [inRange_iff]; simpa using h0
  -- the second byte's range narrows after `0xf0` (no overlong form) and `0xf4` (U+10FFFF at most)
  have hb1 : inRange (if b0 == 0xf0 then 0x90 else 0x80) (if b0 == 0xf4 then 0x8f else 0xbf) b1 =
      true := by
    rw [inRange_iff, beq_toNat, beq_toNat]
    split <;> split <;> simp_all
  have hb2 : inRange 0x80 0xbf b2 = true := by rw [inRange_iff]; simpa using h2
  have hb3 : inRange 0x80 0xbf b3 = true := by rw [inRange_iff]; simpa using h3
  simp only [scalar?, hn, if_false, hn2, hn3, Bool.false_eq_true, hy4, if_true, hb1, hb2, hb3,
    Bool.and_self, toNat_and_mask b0 3 0x07 (by decide), toNat_and_mask b1 6 0x3f (by decide),
    toNat_and_mask b2 6 0x3f (by decide), toNat_and_mask b3 6 0x3f (by decide)]
  rfl

end Sequences

section Characters

/-! The sequence written for a character, by the length its code point needs. -/

variable {c : Char}

theorem utf8EncodeChar_one (h : c.toNat ≤ 0x7f) :
    String.utf8EncodeChar c = [UInt8.ofNat c.toNat] := by
  simp only [Char.toNat] at h
  unfold String.utf8EncodeChar
  dsimp only
  rw [if_pos h]
  rfl

/-- ASCII text is written one byte a character, each byte the character's code. -/
theorem flatMap_utf8EncodeChar_ascii {cs : List Char} (h : ∀ d ∈ cs, d.toNat < 0x80) :
    cs.flatMap String.utf8EncodeChar = cs.map fun d => UInt8.ofNat d.toNat := by
  induction cs with
  | nil => rfl
  | cons d ds ih =>
    rw [List.flatMap_cons, List.map_cons, utf8EncodeChar_one (by have := h d (by simp); omega),
      ih fun x hx => h x (by simp [hx])]
    rfl

theorem utf8EncodeChar_two (h1 : 0x7f < c.toNat) (h2 : c.toNat ≤ 0x7ff) :
    String.utf8EncodeChar c =
      [UInt8.ofNat (c.toNat / 64 % 32 + 0xc0), UInt8.ofNat (c.toNat % 64 + 0x80)] := by
  simp only [Char.toNat] at h1 h2
  unfold String.utf8EncodeChar
  dsimp only
  rw [if_neg (by omega), if_pos h2]
  rfl

theorem utf8EncodeChar_three (h1 : 0x7ff < c.toNat) (h2 : c.toNat ≤ 0xffff) :
    String.utf8EncodeChar c = [UInt8.ofNat (c.toNat / 4096 % 16 + 0xe0),
      UInt8.ofNat (c.toNat / 64 % 64 + 0x80), UInt8.ofNat (c.toNat % 64 + 0x80)] := by
  simp only [Char.toNat] at h1 h2
  unfold String.utf8EncodeChar
  dsimp only
  rw [if_neg (by omega), if_neg (by omega), if_pos h2]
  rfl

theorem utf8EncodeChar_four (h : 0xffff < c.toNat) :
    String.utf8EncodeChar c = [UInt8.ofNat (c.toNat / 262144 % 8 + 0xf0),
      UInt8.ofNat (c.toNat / 4096 % 64 + 0x80), UInt8.ofNat (c.toNat / 64 % 64 + 0x80),
      UInt8.ofNat (c.toNat % 64 + 0x80)] := by
  simp only [Char.toNat] at h
  unfold String.utf8EncodeChar
  dsimp only
  rw [if_neg (by omega), if_neg (by omega), if_neg (by omega)]
  rfl

/-- A code point is below the surrogates, or above them and at most U+10FFFF. -/
theorem toNat_valid (c : Char) : c.toNat < 0xd800 ∨ (0xdfff < c.toNat ∧ c.toNat < 0x110000) :=
  c.valid

theorem toNat_ofNat_lt {n : Nat} (h : n < 256) : (UInt8.ofNat n).toNat = n := by
  rw [UInt8.toNat_ofNat']
  omega

/-- Reading the sequence written for a character gives the character, and says how many bytes
followed the first. -/
theorem scalar?_utf8EncodeChar {b0 : UInt8} {bs : List UInt8}
    (h : String.utf8EncodeChar c = b0 :: bs) (more : List UInt8) :
    scalar? b0 (bs ++ more) = some (c, bs.length) := by
  have hc := toNat_valid c
  have back : ∀ n, n = c.toNat → Char.ofNat n = c := by
    rintro n rfl
    exact Char.ofNat_toNat c
  by_cases h1 : c.toNat ≤ 0x7f
  · rw [utf8EncodeChar_one h1, List.cons.injEq] at h
    obtain ⟨rfl, rfl⟩ := h
    have e0 := toNat_ofNat_lt (show c.toNat < 256 by omega)
    rw [List.nil_append, scalar?_one_of _ _ (by omega), back _ e0]
    rfl
  by_cases h2 : c.toNat ≤ 0x7ff
  · rw [utf8EncodeChar_two (by omega) h2, List.cons.injEq] at h
    obtain ⟨rfl, rfl⟩ := h
    have e0 := toNat_ofNat_lt (show c.toNat / 64 % 32 + 0xc0 < 256 by omega)
    have e1 := toNat_ofNat_lt (show c.toNat % 64 + 0x80 < 256 by omega)
    rw [List.cons_append, List.nil_append,
      scalar?_two_of _ _ _ (by omega) (by omega), e0, e1, back _ (by omega)]
    rfl
  by_cases h3 : c.toNat ≤ 0xffff
  · rw [utf8EncodeChar_three (by omega) h3, List.cons.injEq] at h
    obtain ⟨rfl, rfl⟩ := h
    have e0 := toNat_ofNat_lt (show c.toNat / 4096 % 16 + 0xe0 < 256 by omega)
    have e1 := toNat_ofNat_lt (show c.toNat / 64 % 64 + 0x80 < 256 by omega)
    have e2 := toNat_ofNat_lt (show c.toNat % 64 + 0x80 < 256 by omega)
    have hb1 : (if (UInt8.ofNat (c.toNat / 4096 % 16 + 0xe0)).toNat = 0xe0 then 0xa0 else 0x80) ≤
        (UInt8.ofNat (c.toNat / 64 % 64 + 0x80)).toNat ∧
        (UInt8.ofNat (c.toNat / 64 % 64 + 0x80)).toNat ≤
          (if (UInt8.ofNat (c.toNat / 4096 % 16 + 0xe0)).toNat = 0xed then 0x9f else 0xbf) := by
      rw [e0, e1]
      split <;> split <;> omega
    rw [List.cons_append, List.cons_append, List.nil_append,
      scalar?_three_of _ _ _ _ (by omega) hb1 (by omega), e0, e1, e2, back _ (by omega)]
    rfl
  · rw [utf8EncodeChar_four (by omega), List.cons.injEq] at h
    obtain ⟨rfl, rfl⟩ := h
    have e0 := toNat_ofNat_lt (show c.toNat / 262144 % 8 + 0xf0 < 256 by omega)
    have e1 := toNat_ofNat_lt (show c.toNat / 4096 % 64 + 0x80 < 256 by omega)
    have e2 := toNat_ofNat_lt (show c.toNat / 64 % 64 + 0x80 < 256 by omega)
    have e3 := toNat_ofNat_lt (show c.toNat % 64 + 0x80 < 256 by omega)
    have hb1 : (if (UInt8.ofNat (c.toNat / 262144 % 8 + 0xf0)).toNat = 0xf0 then 0x90 else 0x80) ≤
        (UInt8.ofNat (c.toNat / 4096 % 64 + 0x80)).toNat ∧
        (UInt8.ofNat (c.toNat / 4096 % 64 + 0x80)).toNat ≤
          (if (UInt8.ofNat (c.toNat / 262144 % 8 + 0xf0)).toNat = 0xf4 then 0x8f else 0xbf) := by
      rw [e0, e1]
      split <;> split <;> omega
    rw [List.cons_append, List.cons_append, List.cons_append, List.nil_append,
      scalar?_four_of _ _ _ _ _ (by omega) hb1 (by omega) (by omega), e0, e1, e2, e3,
      back _ (by omega)]
    rfl

/-- Every byte written for a character from U+0080 up is from `0x80` up. -/
theorem high_of_mem_utf8EncodeChar (h : 0x80 ≤ c.toNat) {b : UInt8}
    (hb : b ∈ String.utf8EncodeChar c) : 0x80 ≤ b.toNat := by
  by_cases h2 : c.toNat ≤ 0x7ff
  · rw [utf8EncodeChar_two (by omega) h2] at hb
    simp only [List.mem_cons, List.not_mem_nil, or_false] at hb
    rcases hb with rfl | rfl <;> rw [toNat_ofNat_lt (by omega)] <;> omega
  by_cases h3 : c.toNat ≤ 0xffff
  · rw [utf8EncodeChar_three (by omega) h3] at hb
    simp only [List.mem_cons, List.not_mem_nil, or_false] at hb
    rcases hb with rfl | rfl | rfl <;> rw [toNat_ofNat_lt (by omega)] <;> omega
  · rw [utf8EncodeChar_four (by omega)] at hb
    simp only [List.mem_cons, List.not_mem_nil, or_false] at hb
    rcases hb with rfl | rfl | rfl | rfl <;> rw [toNat_ofNat_lt (by omega)] <;> omega

end Characters

/-- Reading the bytes of characters gives the characters. -/
theorem decodeChars_flatMap (cs : List Char) :
    decodeChars (cs.flatMap String.utf8EncodeChar) = cs := by
  induction cs with
  | nil => simp [decodeChars]
  | cons c cs ih =>
    obtain ⟨b0, bs, hc⟩ := List.exists_cons_of_ne_nil (String.utf8EncodeChar_ne_nil (c := c))
    rw [List.flatMap_cons, hc, List.cons_append, decodeChars, scalar?_utf8EncodeChar hc]
    simp only [List.drop_left, ih]

/-- Reading a text's bytes gives the text. -/
theorem decode_encode (s : String) : decode (encode s) = s := by
  rw [decode, encode_eq_flatMap, decodeChars_flatMap, String.ofList_toList]

end TreeCatalog.Text.Utf8
