/-! # Calendar text of instants

An instant is a count of nanoseconds since 1970-01-01T00:00:00Z. Its civil date in UTC comes from
the day count by the proleptic Gregorian calendar (eras of 146097 days); the texts are RFC 3339
(seconds, then a fraction only when it is not zero, its trailing zeros dropped, then `Z`) and the
short `YYYY-MM-DD HH:MM`. -/

namespace TreeCatalog.Clock

/-- Nanoseconds in a second. -/
def second : Int := 1000000000

/-- The year, month and day of a day count since 1970-01-01. -/
def civil (days : Int) : Int × Nat × Nat :=
  let z := days + 719468
  let era := z.fdiv 146097
  let doe := z - era * 146097
  let yoe := (doe - doe / 1460 + doe / 36524 - doe / 146096) / 365
  let doy := doe - (365 * yoe + yoe / 4 - yoe / 100)
  let mp := (5 * doy + 2) / 153
  let d := doy - (153 * mp + 2) / 5 + 1
  let m := if mp < 10 then mp + 3 else mp - 9
  let y := yoe + era * 400 + (if m ≤ 2 then 1 else 0)
  (y, m.toNat, d.toNat)

/-- `n` in decimal, padded with zeros to `width` digits. -/
def pad (width : Nat) (n : Nat) : String :=
  let s := toString n
  String.ofList (List.replicate (width - s.length) '0') ++ s

/-- The civil fields of an instant: date, hour, minute, second, nanosecond. -/
def fields (t : Int) : (Int × Nat × Nat) × Nat × Nat × Nat × Nat :=
  let secs := t.fdiv second
  let nanos := (t - secs * second).toNat
  let days := secs.fdiv 86400
  let rest := (secs - days * 86400).toNat
  (civil days, rest / 3600, rest % 3600 / 60, rest % 60, nanos)

/-- The year of a date as four digits (a sign before negative years). -/
def yearText (y : Int) : String :=
  if y < 0 then "-" ++ pad 4 y.natAbs else pad 4 y.toNat

/-- The fraction of a second after the point, trailing zeros dropped; empty for zero. -/
def fraction (nanos : Nat) : String :=
  if nanos = 0 then "" else
    "." ++ String.ofList ((pad 9 nanos).toList.reverse.dropWhile (· = '0')).reverse

/-- The RFC 3339 text of an instant in UTC. -/
def rfc3339 (t : Int) : String :=
  let ((y, mo, d), h, mi, s, ns) := fields t
  yearText y ++ "-" ++ pad 2 mo ++ "-" ++ pad 2 d ++ "T" ++ pad 2 h ++ ":" ++ pad 2 mi ++ ":" ++
    pad 2 s ++ fraction ns ++ "Z"

/-- The date and minute of an instant in UTC, as `YYYY-MM-DD HH:MM`. -/
def minuteText (t : Int) : String :=
  let ((y, mo, d), h, mi, _, _) := fields t
  yearText y ++ "-" ++ pad 2 mo ++ "-" ++ pad 2 d ++ " " ++ pad 2 h ++ ":" ++ pad 2 mi

theorem fraction_zero : fraction 0 = "" := rfl

end TreeCatalog.Clock
