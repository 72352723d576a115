/-! # Abbreviated byte counts

A byte count is shown in the largest of the units `B`, `K`, `M`, `G`, `T` that keeps it below
1024 (`T` is the last unit), half-up rounded to one decimal, and the decimal is dropped when it
is zero. The steps are those of binary64 arithmetic — conversion to 53 significant bits, exact
division by 1024, multiplication by ten, adding one half, floor — computed here exactly on
naturals that carry a power-of-two denominator. -/

-- Natural powers are the core `Nat.pow`, whatever other instances are in scope.
attribute [local instance (high)] instPowNat

namespace TreeCatalog.Size

/-- `n` rounded to `p` significant bits, a tie going to the even neighbour. -/
def roundBits (p n : Nat) : Nat :=
  let width := n.log2 + 1
  if width ≤ p then n else
    let s := width - p
    let q := n / 2 ^ s
    let r := n % 2 ^ s
    let half := 2 ^ (s - 1)
    (if half < r ∨ (r = half ∧ q % 2 = 1) then q + 1 else q) * 2 ^ s

/-- The unit letters, smallest first. -/
def units : List String := ["B", "K", "M", "G", "T"]

/-- How many times a count is divided by 1024: while it is at least 1024 and `T` is not reached. -/
def scale (b : Nat) : Nat :=
  if b < 1024 then 0 else if b < 1048576 then 1 else if b < 1073741824 then 2
  else if b < 1099511627776 then 3 else 4

/-- The shown value in tenths of its unit: `⌊fl(fl(10·v) + 1/2)⌋` for `v = fl(b) / 1024 ^ scale`. -/
def tenths (b : Nat) : Nat :=
  let v := roundBits 53 b
  let u := scale v
  let t := roundBits 53 (10 * v)
  roundBits 53 (2 * t + 2 ^ (10 * u)) / 2 ^ (10 * u + 1)

/-- A number of tenths written with one decimal, or none when the decimal is zero. -/
def decimal (f : Nat) : String :=
  if f % 10 = 0 then toString (f / 10) else toString (f / 10) ++ "." ++ toString (f % 10)

/-- The abbreviated text of a byte count; counts of zero or less read `0B`. -/
def text (bytes : Int) : String :=
  if bytes ≤ 0 then "0B"
  else decimal (tenths bytes.toNat) ++ units.getD (scale (roundBits 53 bytes.toNat)) "T"

/-- `s` preceded by spaces up to `width` characters; a longer `s` is kept whole. -/
def padLeft (width : Nat) (s : String) : String :=
  "".pushn ' ' (width - s.length) ++ s

/-- The bracketed size column: the abbreviated text right-aligned in four characters. -/
def column (bytes : Int) : String :=
  if bytes ≤ 0 then "[   0]" else "[" ++ padLeft 4 (text bytes) ++ "]"

theorem roundBits_of_small {p n : Nat} (h : n.log2 + 1 ≤ p) : roundBits p n = n := by
  simp [roundBits, h]

theorem text_of_nonpos {bytes : Int} (h : bytes ≤ 0) : text bytes = "0B" := by
  simp [text, h]

theorem column_of_pos {bytes : Int} (h : 0 < bytes) :
    column bytes = "[" ++ padLeft 4 (text bytes) ++ "]" := by
  simp [column, Int.not_le.mpr h]

end TreeCatalog.Size
