/-! # Decimal integers

Signed decimal integers as configuration values and catalog sizes write them: an optional `+` or
`-`, then one or more ASCII digits, and nothing else (no blanks, no separators). Values are
machine integers of 64 bits, so a literal outside `[-2^63, 2^63)` is not one. -/

namespace TreeCatalog.Text

/-- The value of a non-empty run of decimal digits. -/
def digitsValue? (s : List Char) : Option Nat :=
  if s.isEmpty ∨ ¬ s.all Char.isDigit then none
  else some (s.foldl (fun n c => n * 10 + (c.toNat - 48)) 0)

/-- The value of a signed decimal literal, of any size. -/
def signed? (lit : String) : Option Int :=
  match lit.toList with
  | '-' :: ds => (digitsValue? ds).map fun n => -(n : Int)
  | '+' :: ds => (digitsValue? ds).map fun n => (n : Int)
  | ds => (digitsValue? ds).map fun n => (n : Int)

/-- An integer, when it fits in 64 bits: in `[-2^63, 2^63)`. -/
def within64? (n : Int) : Option Int :=
  if -9223372036854775808 ≤ n ∧ n < 9223372036854775808 then some n else none

/-- The value of a signed decimal literal within 64 bits. -/
def int64? (lit : String) : Option Int := (signed? lit).bind within64?

/-- An integer wrapped into the 64-bit range, the way machine multiplication overflows: its
remainder modulo `2^64`, less `2^64` when that is `2^63` or more. -/
def wrap64 (n : Int) : Int :=
  let m := n % 18446744073709551616
  if m < 9223372036854775808 then m else m - 18446744073709551616

theorem wrap64_of_range (n : Int) (h1 : -9223372036854775808 ≤ n) (h2 : n < 9223372036854775808) :
    wrap64 n = n := by
  unfold wrap64
  dsimp only
  split <;> omega

theorem int64?_range (lit : String) (n : Int) (h : int64? lit = some n) :
    -9223372036854775808 ≤ n ∧ n < 9223372036854775808 := by
  simp only [int64?, Option.bind_eq_some_iff, within64?] at h
  obtain ⟨m, _, hm⟩ := h
  split at hm
  · cases hm; assumption
  · simp at hm

end TreeCatalog.Text
