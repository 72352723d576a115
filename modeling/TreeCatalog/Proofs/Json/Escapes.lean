import Mathlib
import TreeCatalog.Json.Read
import TreeCatalog.Proofs.Text.Utf8

/-! # Escaped strings, recognised and read back

Inside a compact string every character is written in one of three forms (`Escaped`): a
backslash and a letter, a `\u` escape of four hexadecimal digits, or the character's own UTF-8
bytes, none of which is a quote, a backslash or a control. `escaped_escapeBytes` shows that the
writer uses only these forms. From the forms alone the recogniser stays inside the string
until the closing quote (`run_string`), the reader finds that quote (`stringBody_escaped`), and
resolving the escapes gives the characters back (`unescape_escaped`). -/

namespace TreeCatalog.Json

open Text.Utf8

/-- The bytes a character is written as inside a string of a compact document. -/
def escapeBytes (c : Char) : List UInt8 := (escapeChar false c).flatMap String.utf8EncodeChar

/-- The bytes of a string's contents, between its quotes. -/
def stringBytes (s : String) : List UInt8 := s.toList.flatMap escapeBytes

/-- How a character stands inside a string: a backslash and a letter, `\u` and four hexadecimal
digits, or its own bytes, none of which ends the string or starts an escape. -/
inductive Escaped : Char → List UInt8 → Prop
  | short {c : Char} {x : UInt8} (hx : isShortEscape x = true) (hc : simpleEscape x = some c) :
      Escaped c [92, x]
  | unicode {c : Char} {ds : List UInt8} (hds : ds.length = 4) (hhex : ∀ d ∈ ds, isHex d = true)
      (hval : ∀ more, hex4? (ds ++ more) = some (c.toNat, more))
      (hs : isSurrogate c.toNat = false) :
      Escaped c (92 :: 117 :: ds)
  | plain {c : Char} (hb : ∀ b ∈ String.utf8EncodeChar c, 32 ≤ b.toNat ∧ b ≠ 34 ∧ b ≠ 92) :
      Escaped c (String.utf8EncodeChar c)

section Digits

open Text.Quoted (hexDigit hexDigits)

/-- The byte of a hexadecimal digit. -/
def hexByte (d : Nat) : UInt8 := UInt8.ofNat (hexDigit d).toNat

theorem hexByte_spec : ∀ d < 16, String.utf8EncodeChar (hexDigit d) = [hexByte d] ∧
    isHex (hexByte d) = true ∧ hexValue (hexByte d) = d := by
  decide

theorem hexDigits_four (n : Nat) :
    hexDigits 4 n = [hexDigit (n / 4096 % 16), hexDigit (n / 256 % 16), hexDigit (n / 16 % 16),
      hexDigit (n % 16)] := by
  simp [hexDigits, List.range_succ]

/-- A `\u` escape of a code point below U+10000 has four hexadecimal digits and reads back as
that code point. -/
theorem escaped_unicode {c : Char} (hc : c.toNat < 0x10000) (hs : isSurrogate c.toNat = false) :
    Escaped c (('\\' :: 'u' :: hexDigits 4 c.toNat).flatMap String.utf8EncodeChar) := by
  obtain ⟨e3, x3, v3⟩ := hexByte_spec (c.toNat / 4096 % 16) (Nat.mod_lt _ (by decide))
  obtain ⟨e2, x2, v2⟩ := hexByte_spec (c.toNat / 256 % 16) (Nat.mod_lt _ (by decide))
  obtain ⟨e1, x1, v1⟩ := hexByte_spec (c.toNat / 16 % 16) (Nat.mod_lt _ (by decide))
  obtain ⟨e0, x0, v0⟩ := hexByte_spec (c.toNat % 16) (Nat.mod_lt _ (by decide))
  have hbytes : ('\\' :: 'u' :: hexDigits 4 c.toNat).flatMap String.utf8EncodeChar =
      92 :: 117 :: [hexByte (c.toNat / 4096 % 16), hexByte (c.toNat / 256 % 16),
        hexByte (c.toNat / 16 % 16), hexByte (c.toNat % 16)] := by
    rw [hexDigits_four]
    simp only [List.flatMap_cons, List.flatMap_nil, e3, e2, e1, e0, List.append_nil]
    rfl
  rw [hbytes]
  refine .unicode rfl ?_ ?_ hs
  · intro d hd
    simp only [List.mem_cons, List.not_mem_nil, or_false] at hd
    rcases hd with rfl | rfl | rfl | rfl <;> assumption
  · intro more
    simp only [List.cons_append, List.nil_append, hex4?, x3, x2, x1, x0, Bool.and_self, if_true,
      v3, v2, v1, v0, Option.some.injEq, Prod.mk.injEq, and_true]
    omega

end Digits

/-- The writer puts each character in one of the three forms. -/
theorem escaped_escapeBytes (c : Char) : Escaped c (escapeBytes c) := by
  unfold escapeBytes escapeChar
  by_cases hq : c = '"'
  · subst hq; exact .short (by decide) (by decide)
  by_cases hb : c = '\\'
  · subst hb; exact .short (by decide) (by decide)
  by_cases hn : c = '\n'
  · subst hn; exact .short (by decide) (by decide)
  by_cases hr : c = '\r'
  · subst hr; exact .short (by decide) (by decide)
  by_cases ht : c = '\t'
  · subst ht; exact .short (by decide) (by decide)
  by_cases h8 : c = '\x08'
  · subst h8; exact .short (by decide) (by decide)
  by_cases hc : c = '\x0c'
  · subst hc; exact .short (by decide) (by decide)
  simp only [hq, hb, hn, hr, ht, h8, hc, if_false, Bool.false_eq_true, false_and]
  by_cases hlow : c.toNat < 0x20
  · rw [if_pos hlow]
    exact escaped_unicode (by omega) (by simp [isSurrogate]; omega)
  rw [if_neg hlow]
  by_cases hsep : c.toNat = 0x2028 ∨ c.toNat = 0x2029
  · rw [if_pos hsep]
    exact escaped_unicode (by omega) (by simp [isSurrogate]; omega)
  rw [if_neg hsep, List.flatMap_singleton]
  refine .plain fun b hmem => ?_
  by_cases hhigh : 0x80 ≤ c.toNat
  · have := high_of_mem_utf8EncodeChar hhigh hmem
    refine ⟨by omega, ?_, ?_⟩ <;> rintro rfl <;> simp at this
  · rw [utf8EncodeChar_one (by omega), List.mem_singleton] at hmem
    subst hmem
    have hv := toNat_ofNat_lt (show c.toNat < 256 by omega)
    refine ⟨by omega, fun h => hq ?_, fun h => hb ?_⟩ <;>
      · apply Char.ext
        have := congrArg UInt8.toNat h
        simp only [hv] at this
        simp only [Char.toNat] at this
        simp [UInt32.toNat_inj.symm, this]

section Scan

/-! The recogniser inside a string: nothing but the closing quote ends it. -/

variable {fs : List Frame}

theorem run_cons_of_step {s s' : Scanner} {c : UInt8} {cs : List UInt8}
    (h : s.step c cs = .ok s') : s.run (c :: cs) = s'.run cs := by
  rw [run_cons, h]

theorem step_backslash (rest : List UInt8) :
    Scanner.step ⟨.token .string, fs⟩ 92 rest = .ok ⟨.token .escape, fs⟩ := rfl

/-- The four digits of a `\u` escape, checked already when the escape began. -/
theorem run_hex (a b c d : UInt8) (rest : List UInt8) :
    Scanner.run ⟨.token (.hex 0), fs⟩ (a :: b :: c :: d :: rest) =
      Scanner.run ⟨.token .string, fs⟩ rest := rfl

theorem run_plain {bs : List UInt8} (h : ∀ b ∈ bs, 32 ≤ b.toNat ∧ b ≠ 34 ∧ b ≠ 92)
    (rest : List UInt8) :
    Scanner.run ⟨.token .string, fs⟩ (bs ++ rest) = Scanner.run ⟨.token .string, fs⟩ rest := by
  induction bs with
  | nil => rfl
  | cons b bs ih =>
    obtain ⟨h32, h34, h92⟩ := h b (by simp)
    have hlt : ¬ b < 32 := by
      rw [UInt8.lt_iff_toNat_lt]
      have : (32 : UInt8).toNat = 32 := rfl
      omega
    have hstep : Scanner.step ⟨.token .string, fs⟩ b (bs ++ rest) = .ok ⟨.token .string, fs⟩ := by
      simp [Scanner.step, tokenStep, h34, h92, hlt]
    rw [List.cons_append, run_cons_of_step hstep, ih fun x hx => h x (by simp [hx])]

theorem run_escaped {c : Char} {bs : List UInt8} (h : Escaped c bs) (rest : List UInt8) :
    Scanner.run ⟨.token .string, fs⟩ (bs ++ rest) = Scanner.run ⟨.token .string, fs⟩ rest := by
  cases h with
  | @short x hx _ =>
    have hstep : Scanner.step ⟨.token .escape, fs⟩ x rest = .ok ⟨.token .string, fs⟩ := by
      simp [Scanner.step, tokenStep, hx]
    rw [List.cons_append, List.cons_append, List.nil_append, run_cons_of_step (step_backslash _),
      run_cons_of_step hstep]
  | @unicode ds hds hhex _ _ =>
    match ds, hds, hhex with
    | [a, b, c, d], _, hhex =>
      have ha := hhex a (by simp)
      have hb := hhex b (by simp)
      have hc := hhex c (by simp)
      have hd := hhex d (by simp)
      have hu : Scanner.step ⟨.token .escape, fs⟩ 117 (a :: b :: c :: d :: rest) =
          .ok ⟨.token (.hex 0), fs⟩ := by
        have hu : isShortEscape 117 = false := by decide
        simp [Scanner.step, tokenStep, hexEscape, hu, ha, hb, hc, hd]
      simp only [List.cons_append, List.nil_append]
      rw [run_cons_of_step (step_backslash _), run_cons_of_step hu, run_hex]
  | plain hb => exact run_plain hb rest

/-- The recogniser passes over the contents of a string and stops after its closing quote. -/
theorem run_string (s : String) (rest : List UInt8) :
    Scanner.run ⟨.token .string, fs⟩ (stringBytes s ++ 34 :: rest) = Scanner.run ⟨.next, fs⟩ rest := by
  unfold stringBytes
  induction s.toList with
  | nil => exact run_cons_of_step rfl
  | cons c cs ih => rw [List.flatMap_cons, List.append_assoc, run_escaped (escaped_escapeBytes c), ih]

end Scan

section Read

/-! The reader of string contents: where the string ends, and what it holds. -/

theorem stringBody_cons {b : UInt8} (h34 : b ≠ 34) (h92 : b ≠ 92) (rest : List UInt8) :
    stringBody (b :: rest) = (b :: (stringBody rest).1, (stringBody rest).2) := by
  rw [stringBody.eq_def]
  split <;> simp_all

theorem stringBody_append {bs : List UInt8} (h : ∀ b ∈ bs, b ≠ 34 ∧ b ≠ 92) (rest : List UInt8) :
    stringBody (bs ++ rest) = (bs ++ (stringBody rest).1, (stringBody rest).2) := by
  induction bs with
  | nil => rfl
  | cons b bs ih =>
    obtain ⟨h34, h92⟩ := h b (by simp)
    rw [List.cons_append, stringBody_cons h34 h92, ih fun x hx => h x (by simp [hx])]
    rfl

theorem isHex_ne {d : UInt8} (h : isHex d = true) : d ≠ 34 ∧ d ≠ 92 := by
  constructor <;> rintro rfl <;> simp [isHex, isDigit] at h

theorem stringBody_escaped {c : Char} {bs : List UInt8} (h : Escaped c bs) (rest : List UInt8) :
    stringBody (bs ++ rest) = (bs ++ (stringBody rest).1, (stringBody rest).2) := by
  cases h with
  | short _ _ => rfl
  | unicode _ hhex _ _ =>
    rw [List.cons_append, List.cons_append, stringBody,
      stringBody_append (fun d hd => isHex_ne (hhex d hd))]
    rfl
  | plain hb => exact stringBody_append (fun b hmem => (hb b hmem).2) rest

/-- The reader finds the closing quote of the contents the writer produced. -/
theorem stringBody_string (s : String) (rest : List UInt8) :
    stringBody (stringBytes s ++ 34 :: rest) = (stringBytes s, rest) := by
  unfold stringBytes
  induction s.toList with
  | nil => rfl
  | cons c cs ih =>
    rw [List.flatMap_cons, List.append_assoc, stringBody_escaped (escaped_escapeBytes c), ih]

theorem unescape_escaped {c : Char} {bs : List UInt8} (h : Escaped c bs) (rest : List UInt8) :
    unescape (bs ++ rest) = c :: unescape rest := by
  cases h with
  | short _ hc => simp [unescape, hc]
  | unicode _ _ hval hs =>
    rw [List.cons_append, List.cons_append, unescape]
    have hu : simpleEscape 117 = none := by decide
    simp only [hu]
    split
    · next hnone => simp [hval] at hnone
    · next n after hsome =>
      rw [hval] at hsome
      simp only [Option.some.injEq, Prod.mk.injEq] at hsome
      obtain ⟨rfl, rfl⟩ := hsome
      simp [hs]
  | plain hb =>
    obtain ⟨b0, bs, hc⟩ := List.exists_cons_of_ne_nil (String.utf8EncodeChar_ne_nil (c := c))
    have h92 : b0 ≠ 92 := (hb b0 (by simp [hc])).2.2
    rw [hc, List.cons_append, unescape]
    · simp only [scalar?_utf8EncodeChar hc, List.drop_left]
    · intro _ _ h
      exact absurd h h92

/-- Resolving the escapes of the contents the writer produced gives the string's characters. -/
theorem unescape_string (s : String) : unescape (stringBytes s) = s.toList := by
  unfold stringBytes
  induction s.toList with
  | nil => simp [unescape]
  | cons c cs ih => rw [List.flatMap_cons, unescape_escaped (escaped_escapeBytes c), ih]

end Read

end TreeCatalog.Json
