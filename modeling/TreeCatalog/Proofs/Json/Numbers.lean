import Mathlib
import TreeCatalog.Json.Read
import TreeCatalog.Text.Decimal
import TreeCatalog.Proofs.Json.Escapes

/-! # Integer literals, recognised and read back

An integer is written as its decimal numeral: a minus sign for a negative value, then its digits
with no leading zero (`toString_toList`, `toDigits_head`). The recogniser takes the numeral as
one number and hands the byte after it on as the end of a value (`run_numeral`); the reader keeps
the numeral's text (`readValue_numeral`), and reading that text as a signed decimal gives the
integer back (`signed?_toString`). -/

namespace TreeCatalog.Json

open Text.Utf8

section Digits

theorem toString_toList (n : Int) :
    (toString n).toList = (if n < 0 then ['-'] else []) ++ Nat.toDigits 10 n.natAbs := by
  cases n with
  | ofNat m => simp [toString, Int.repr, Nat.toList_repr]
  | negSucc m => simp [toString, Int.repr, Nat.toList_repr, Int.negSucc_lt_zero]

theorem isDigit_of_mem_toDigits {m : Nat} {d : Char} (h : d ∈ Nat.toDigits 10 m) : d.isDigit :=
  Nat.isDigit_of_mem_toDigits (by decide) (by decide) h

theorem toNat_of_isDigit {d : Char} (h : d.isDigit = true) : 48 ≤ d.toNat ∧ d.toNat ≤ 57 := by
  simp only [Char.isDigit, Bool.and_eq_true, decide_eq_true_eq] at h
  exact ⟨h.1, h.2⟩

/-- The numeral of zero is `0`; any other starts with a digit from `1` to `9`. -/
theorem toDigits_head (m : Nat) :
    ∃ d ds, Nat.toDigits 10 m = d :: ds ∧ (m = 0 → d = '0' ∧ ds = []) ∧ (0 < m → d ≠ '0') := by
  induction m using Nat.strong_induction_on with
  | _ m ih =>
    rw [Nat.toDigits_eq_if (by decide)]
    split
    · next hm =>
      refine ⟨_, _, rfl, fun h0 => ⟨by subst h0; rfl, rfl⟩, fun hpos => ?_⟩
      have : ∀ k < 10, 0 < k → Nat.digitChar k ≠ '0' := by decide
      exact this m hm hpos
    · next hm =>
      obtain ⟨d, ds, hds, -, hne⟩ := ih (m / 10) (by omega)
      exact ⟨d, ds ++ [Nat.digitChar (m % 10)], by rw [hds]; rfl, by omega,
        fun _ => hne (by omega)⟩

theorem digitsValue?_toDigits (m : Nat) : Text.digitsValue? (Nat.toDigits 10 m) = some m := by
  have hall : (Nat.toDigits 10 m).all Char.isDigit = true := by
    rw [List.all_eq_true]
    exact fun c hc => isDigit_of_mem_toDigits hc
  have hval := Nat.ofDigitChars_ten_toDigits (n := m)
  simp only [Text.digitsValue?, List.isEmpty_iff, Nat.toDigits_ne_nil, hall, false_or, not_true,
    if_false]
  rw [Nat.ofDigitChars_eq_foldl] at hval
  have hstep : (fun n (c : Char) => n * 10 + (c.toNat - 48)) =
      (fun sofar (c : Char) => 10 * sofar + (c.toNat - '0'.toNat)) := by
    funext a c
    rw [Nat.mul_comm]
    rfl
  rw [hstep, hval]

/-- Reading a numeral as a signed decimal gives the integer it was written for. -/
theorem signed?_toString (n : Int) : Text.signed? (toString n) = some n := by
  have hv := digitsValue?_toDigits n.natAbs
  unfold Text.signed?
  rw [toString_toList]
  by_cases hn : n < 0
  · simp only [hn, if_true, List.singleton_append, hv, Option.bind_eq_bind, Option.bind_some,
      Option.pure_def, Option.map_some]
    rw [Int.ofNat_natAbs_of_nonpos hn.le, neg_neg]
  · -- without a sign the numeral starts with a digit, so neither sign branch applies
    obtain ⟨d, ds, hds, -, -⟩ := toDigits_head n.natAbs
    have hd : d.isDigit := isDigit_of_mem_toDigits (by rw [hds]; simp)
    have h1 : d ≠ '-' := by rintro rfl; simp at hd
    have h2 : d ≠ '+' := by rintro rfl; simp at hd
    simp only [hn, if_false, List.nil_append]
    rw [hds]
    split
    · next heq => exact absurd (List.cons.inj heq).1 h1
    · next heq => exact absurd (List.cons.inj heq).1 h2
    · rw [← hds]
      simp only [hv, Option.bind_eq_bind, Option.bind_some, Option.pure_def, Option.map_some]
      rw [Int.natAbs_of_nonneg (by omega)]

/-- A numeral within 64 bits reads back as a 64-bit integer. -/
theorem int64?_toString {n : Int} (h1 : -9223372036854775808 ≤ n) (h2 : n < 9223372036854775808) :
    Text.int64? (toString n) = some n := by
  rw [Text.int64?, signed?_toString]
  simp [Text.within64?, h1, h2]

end Digits

section Bytes

/-- The bytes of the decimal digits of a natural number. -/
def digitBytes (m : Nat) : List UInt8 := (Nat.toDigits 10 m).map fun d => UInt8.ofNat d.toNat

theorem digitBytes_isDigit {m : Nat} {b : UInt8} (h : b ∈ digitBytes m) : isDigit b = true := by
  obtain ⟨d, hd, rfl⟩ := List.mem_map.mp h
  obtain ⟨h48, h57⟩ := toNat_of_isDigit (isDigit_of_mem_toDigits hd)
  have hb := toNat_ofNat_lt (show d.toNat < 256 by omega)
  simp only [isDigit, Bool.and_eq_true, decide_eq_true_eq, UInt8.le_iff_toNat_le, hb]
  exact ⟨h48, h57⟩

/-- The digits of zero are the byte `0`; those of any other number start with `1` to `9`. -/
theorem digitBytes_head (m : Nat) :
    ∃ d ds, digitBytes m = d :: ds ∧ ((m = 0 ∧ d = 48 ∧ ds = []) ∨ (49 ≤ d.toNat ∧ d.toNat ≤ 57)) := by
  obtain ⟨c, cs, hcs, hzero, hpos⟩ := toDigits_head m
  refine ⟨UInt8.ofNat c.toNat, cs.map fun d => UInt8.ofNat d.toNat, by simp [digitBytes, hcs], ?_⟩
  obtain ⟨h48, h57⟩ :=
    toNat_of_isDigit (isDigit_of_mem_toDigits (show c ∈ Nat.toDigits 10 m by rw [hcs]; simp))
  rcases Nat.eq_zero_or_pos m with rfl | hm
  · obtain ⟨rfl, rfl⟩ := hzero rfl
    exact .inl ⟨rfl, rfl, rfl⟩
  · have hne : c.toNat ≠ 48 := fun h => hpos hm (Char.ext (UInt32.toNat_inj.mp h))
    rw [toNat_ofNat_lt (by omega)]
    exact .inr ⟨by omega, h57⟩

/-- The bytes of a numeral: a minus sign for a negative number, then the digits. -/
theorem encode_toString (n : Int) :
    encode (toString n) = (if n < 0 then [45] else []) ++ digitBytes n.natAbs := by
  have hascii : ∀ d ∈ Nat.toDigits 10 n.natAbs, d.toNat < 0x80 := fun d hd => by
    have := toNat_of_isDigit (isDigit_of_mem_toDigits hd)
    omega
  rw [encode_eq_flatMap, toString_toList, List.flatMap_append, digitBytes,
    flatMap_utf8EncodeChar_ascii hascii]
  split <;> rfl

/-- ASCII bytes read as text give back the text they were written from. -/
theorem asciiText_map {cs : List Char} (h : ∀ d ∈ cs, d.toNat < 0x80) :
    asciiText (cs.map fun d => UInt8.ofNat d.toNat) = String.ofList cs := by
  unfold asciiText
  congr 1
  rw [List.map_map]
  conv => rhs; rw [← List.map_id cs]
  apply List.map_congr_left
  intro d hd
  simp only [Function.comp_apply, id_eq, toNat_ofNat_lt (Nat.lt_trans (h d hd) (by decide)),
    Char.ofNat_toNat]

theorem asciiText_encode_toString (n : Int) : asciiText (encode (toString n)) = toString n := by
  have hascii : ∀ d ∈ (toString n).toList, d.toNat < 0x80 := fun d hd => by
    rw [toString_toList, List.mem_append] at hd
    rcases hd with hd | hd
    · split at hd <;> simp_all
    · have := toNat_of_isDigit (isDigit_of_mem_toDigits hd)
      omega
  rw [encode_eq_flatMap, flatMap_utf8EncodeChar_ascii hascii, asciiText_map hascii,
    String.ofList_toList]

theorem isNumberByte_of_mem_encode_toString {n : Int} {b : UInt8} (h : b ∈ encode (toString n)) :
    isNumberByte b = true := by
  rw [encode_toString, List.mem_append] at h
  rcases h with h | h
  · split at h <;> simp_all [isNumberByte]
  · simp [isNumberByte, digitBytes_isDigit h]

/-- A numeral starts with a minus sign or a digit. -/
theorem encode_toString_head (n : Int) :
    ∃ b bs, encode (toString n) = b :: bs ∧ (b = 45 ∨ (48 ≤ b.toNat ∧ b.toNat ≤ 57)) := by
  obtain ⟨d, ds, hds, hd⟩ := digitBytes_head n.natAbs
  rw [encode_toString]
  split
  · exact ⟨45, _, rfl, .inl rfl⟩
  · refine ⟨d, ds, by rw [hds]; rfl, .inr ?_⟩
    rcases hd with ⟨-, rfl, -⟩ | ⟨h49, h57⟩
    · decide
    · exact ⟨by omega, h57⟩

end Bytes

section Scan

/-! The recogniser over a numeral, from its sign or first digit to the byte after it. -/

variable {fs : List Frame} {c : UInt8} {rest : List UInt8}

/-- A byte that cannot continue a number is read as what follows the value. -/
theorem step_after_number {t : Token} (ht : t = .zero ∨ t = .digits) (hc : isNumberByte c = false) :
    Scanner.step ⟨.token t, fs⟩ c rest = Scanner.step ⟨.next, fs⟩ c rest := by
  simp only [isNumberByte, Bool.or_eq_false_iff, beq_eq_false_iff_ne] at hc
  obtain ⟨⟨⟨⟨⟨hd, -⟩, -⟩, h46⟩, h101⟩, h69⟩ := hc
  rcases ht with rfl | rfl <;> simp [Scanner.step, tokenStep, hd, h46, h101, h69]

theorem run_digits {bs : List UInt8} (hbs : ∀ b ∈ bs, isDigit b = true)
    (hc : isNumberByte c = false) :
    Scanner.run ⟨.token .digits, fs⟩ (bs ++ c :: rest) = Scanner.run ⟨.next, fs⟩ (c :: rest) := by
  induction bs with
  | nil => rw [List.nil_append, run_cons, run_cons, step_after_number (.inr rfl) hc]
  | cons b bs ih =>
    have hstep : Scanner.step ⟨.token .digits, fs⟩ b (bs ++ c :: rest) =
        .ok ⟨.token .digits, fs⟩ := by
      simp [Scanner.step, tokenStep, hbs b (by simp)]
    rw [List.cons_append, run_cons_of_step hstep, ih fun x hx => hbs x (by simp [hx])]

/-- The token a number's first digit starts: `0` stands alone, `1` to `9` begin digits. -/
def firstDigitToken (d : UInt8) : Token := if d = 48 then .zero else .digits

/-- From a state whose first digit starts a number, the recogniser passes over the digits. -/
theorem run_digitBytes {s : Scanner}
    (hs : ∀ d more, 48 ≤ d.toNat → d.toNat ≤ 57 →
      s.step d more = .ok ⟨.token (firstDigitToken d), fs⟩)
    (m : Nat) (hc : isNumberByte c = false) :
    s.run (digitBytes m ++ c :: rest) = Scanner.run ⟨.next, fs⟩ (c :: rest) := by
  obtain ⟨d, ds, hds, hd⟩ := digitBytes_head m
  have htail : ∀ b ∈ ds, isDigit b = true := fun b hb => digitBytes_isDigit (by rw [hds]; simp [hb])
  rw [hds, List.cons_append]
  rcases hd with ⟨-, rfl, rfl⟩ | ⟨h49, h57⟩
  · rw [run_cons_of_step (hs 48 _ (by decide) (by decide)), List.nil_append, run_cons, run_cons,
      firstDigitToken, if_pos rfl, step_after_number (.inl rfl) hc]
  · have hne : d ≠ 48 := by rintro rfl; simp at h49
    rw [run_cons_of_step (hs d _ (by omega) h57), firstDigitToken, if_neg hne, run_digits htail hc]

-- The first digit is one of ten bytes; each is checked on its own.
theorem step_value_digit {d : UInt8} (more : List UInt8) (h48 : 48 ≤ d.toNat) (h57 : d.toNat ≤ 57) :
    Scanner.step ⟨.value, fs⟩ d more = .ok ⟨.token (firstDigitToken d), fs⟩ := by
  rw [← UInt8.ofNat_toNat (x := d)]
  generalize d.toNat = k at h48 h57
  interval_cases k <;> rfl

theorem step_minus_digit {d : UInt8} (more : List UInt8) (h48 : 48 ≤ d.toNat) (h57 : d.toNat ≤ 57) :
    Scanner.step ⟨.token .minus, fs⟩ d more = .ok ⟨.token (firstDigitToken d), fs⟩ := by
  rw [← UInt8.ofNat_toNat (x := d)]
  generalize d.toNat = k at h48 h57
  interval_cases k <;> rfl

/-- The recogniser takes a whole numeral as one value and reads the byte after it as the end of
that value. -/
theorem run_numeral (n : Int) (hc : isNumberByte c = false) :
    Scanner.run ⟨.value, fs⟩ (encode (toString n) ++ c :: rest) =
      Scanner.run ⟨.next, fs⟩ (c :: rest) := by
  rw [encode_toString]
  split
  · rw [List.singleton_append, List.cons_append, run_cons_of_step (rfl :
      Scanner.step ⟨.value, fs⟩ 45 _ = .ok ⟨.token .minus, fs⟩)]
    exact run_digitBytes (fun _ more h48 h57 => step_minus_digit more h48 h57) _ hc
  · exact run_digitBytes (fun _ more h48 h57 => step_value_digit more h48 h57) _ hc

end Scan

section Read

/-- A byte that starts a number begins no other kind of value, so the reader takes the run of
number bytes from it. -/
theorem readValue_number_start {b : UInt8} (hb : b = 45 ∨ (48 ≤ b.toNat ∧ b.toNat ≤ 57))
    (bs : List UInt8) (fuel : Nat) :
    readValue (fuel + 1) (b :: bs) = some (.number (asciiText ((b :: bs).takeWhile isNumberByte)),
      (b :: bs).dropWhile isNumberByte) := by
  rcases hb with rfl | ⟨h48, h57⟩
  · rfl
  · rw [← UInt8.ofNat_toNat (x := b)]
    generalize b.toNat = k at h48 h57
    interval_cases k <;> rfl

/-- The reader keeps a numeral's text as a number value. -/
theorem readValue_numeral (n : Int) {c : UInt8} (hc : isNumberByte c = false) (rest : List UInt8)
    (fuel : Nat) :
    readValue (fuel + 1) (encode (toString n) ++ c :: rest) = some (Value.int n, c :: rest) := by
  have hall : ∀ b ∈ encode (toString n), isNumberByte b = true :=
    fun b hb => isNumberByte_of_mem_encode_toString hb
  have htake : (encode (toString n) ++ c :: rest).takeWhile isNumberByte = encode (toString n) := by
    rw [List.takeWhile_append_of_pos hall, List.takeWhile_cons_of_neg (by simp [hc]),
      List.append_nil]
  have hdrop : (encode (toString n) ++ c :: rest).dropWhile isNumberByte = c :: rest := by
    rw [List.dropWhile_append_of_pos hall, List.dropWhile_cons_of_neg (by simp [hc])]
  obtain ⟨b, bs, hbs, hb⟩ := encode_toString_head n
  rw [hbs, List.cons_append, readValue_number_start hb, ← List.cons_append, ← hbs, htake, hdrop,
    asciiText_encode_toString]
  rfl

end Read

end TreeCatalog.Json
