/-! # Number literals

A JSON number literal is an optional `-`, an integer part (`0`, or digits not starting with `0`),
an optional fraction (`.` and digits) and an optional exponent (`e` or `E`, an optional sign,
digits). Its exact value is a sign, a natural number of digits and a power of ten. -/

-- Natural powers are the core `Nat.pow`, whatever other instances are in scope.
attribute [local instance (high)] instPowNat

namespace TreeCatalog.Json

/-- An exact decimal value: `±digits × 10^exponent`. -/
structure Decimal where
  negative : Bool
  digits : Nat
  exponent : Int
deriving Repr, DecidableEq

/-- The value of a run of digits (zero for none). -/
def digitsNat (cs : List Char) : Nat := cs.foldl (fun n c => n * 10 + (c.toNat - 48)) 0

/-- The exponent part of a literal: empty, or `e`/`E`, an optional sign and digits. -/
def exponentOf? : List Char → Option Int
  | [] => some 0
  | c :: rest =>
    if c = 'e' ∨ c = 'E' then
      let (sign, ds) : Int × List Char := match rest with
        | '+' :: t => (1, t)
        | '-' :: t => (-1, t)
        | t => (1, t)
      if ds.isEmpty ∨ ¬ ds.all Char.isDigit then none else some (sign * digitsNat ds)
    else none

/-- The exact value of a number literal, or none when the text is not one. -/
def Decimal.ofLiteral? (s : String) : Option Decimal :=
  let (neg, cs) := match s.toList with
    | '-' :: r => (true, r)
    | r => (false, r)
  let whole := cs.takeWhile Char.isDigit
  let cs := cs.dropWhile Char.isDigit
  if whole.isEmpty ∨ (1 < whole.length ∧ whole.head? = some '0') then none else
  let (frac, cs, fracOk) : List Char × List Char × Bool := match cs with
    | '.' :: r =>
      let f := r.takeWhile Char.isDigit
      (f, r.dropWhile Char.isDigit, !f.isEmpty)
    | r => ([], r, true)
  if !fracOk then none else
  (exponentOf? cs).map fun e => ⟨neg, digitsNat (whole ++ frac), e - frac.length⟩

/-- Whether a text is a number literal. -/
def isNumberLiteral (s : String) : Bool := (Decimal.ofLiteral? s).isSome

/-- The number of decimal digits of a positive number. -/
def digitCount (n : Nat) : Nat := (toString n).length

/-- The smallest magnitude that rounds past the largest finite double: halfway between the
largest double, `(2^53 - 1) · 2^971`, and `2^1024`. -/
def doubleOverflow : Nat := ((1 <<< 54) - 1) <<< 970

/-- Whether a value is too large in magnitude for a double. -/
def Decimal.overflows (d : Decimal) : Bool :=
  if d.digits = 0 then false else
  let top := (digitCount d.digits : Int) + d.exponent
  if top < 309 then false
  else if 309 < top then true
  else if 0 ≤ d.exponent then doubleOverflow ≤ d.digits * 10 ^ d.exponent.toNat
  else doubleOverflow * 10 ^ (-d.exponent).toNat ≤ d.digits

/-- The double nearest to `n / d` (for `d > 0`), ties to the even mantissa, as `q · 2^e` with
`q < 2^53` (or `q = 2^53` when rounding carries) and `e ≥ -1074`, so subnormal values keep their
fixed spacing. Values past the largest double are not treated specially; callers rule them out
first (see `Decimal.overflows`). -/
def roundRatio (n d : Nat) : Nat × Int :=
  if n = 0 ∨ d = 0 then (0, 0) else
  -- the exponent of the leading bit: `2^lead ≤ n / d < 2^(lead + 1)`
  let guess : Int := (n.log2 : Int) - d.log2
  let lead : Int :=
    if 0 ≤ guess then (if d * 2 ^ guess.toNat ≤ n then guess else guess - 1)
    else (if d ≤ n * 2 ^ (-guess).toNat then guess else guess - 1)
  let e : Int := max (lead - 52) (-1074)
  let (num, den) : Nat × Nat :=
    if 0 ≤ e then (n, d * 2 ^ e.toNat) else (n * 2 ^ (-e).toNat, d)
  let q := num / den
  let r := num % den
  let q := if den < 2 * r ∨ (2 * r = den ∧ q % 2 = 1) then q + 1 else q
  (q, e)

/-- The whole part, toward zero, of the non-negative value `q · 2^e`. -/
def truncPow2 (q : Nat) (e : Int) : Nat :=
  if 0 ≤ e then q * 2 ^ e.toNat else q / 2 ^ (-e).toNat

/-- The value as a double split the way a clock reads seconds from it: the whole part toward
zero, and the fraction times 10^9 rounded to a double and then cut toward zero, both with the
value's sign. The literal is first rounded to the nearest double, so digits beyond a double's
precision count only through that rounding, and a value below `10^-324` (less than half the
least double) is zero. -/
def Decimal.wholeAndNanos (d : Decimal) : Int × Int :=
  if d.digits = 0 ∨ (digitCount d.digits : Int) + d.exponent ≤ -324 then (0, 0) else
  let sign : Int := if d.negative then -1 else 1
  let (n, den) : Nat × Nat :=
    if 0 ≤ d.exponent then (d.digits * 10 ^ d.exponent.toNat, 1)
    else (d.digits, 10 ^ (-d.exponent).toNat)
  let (q, e) := roundRatio n den
  let whole := truncPow2 q e
  if 0 ≤ e then (sign * whole, 0) else
  let scale := 2 ^ (-e).toNat
  let fracNum := q - whole * scale
  let (q2, e2) := roundRatio (fracNum * 1000000000) scale
  (sign * whole, sign * truncPow2 q2 e2)

theorem roundRatio_zero (d : Nat) : roundRatio 0 d = (0, 0) := by
  simp [roundRatio]

theorem ofLiteral_zero : Decimal.ofLiteral? "0" = some ⟨false, 0, 0⟩ := by decide

end TreeCatalog.Json
