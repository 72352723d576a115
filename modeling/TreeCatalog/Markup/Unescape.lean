import TreeCatalog.Markup.Entities
/-! # Reading character references

Text is read left to right; each `&` may start a character reference.

* `&#` followed by decimal digits, or `&#x`/`&#X` by hexadecimal ones, with an optional `;`,
  stands for that code point, computed in 32-bit signed arithmetic. Code points 0x80 to 0x9F
  stand for the Windows-1252 character of the same byte; 0, surrogates, negatives and values
  above U+10FFFF stand for U+FFFD. The `&` is kept when the reference, `;` included, ends before its fifth character (`&#5x`),
  so `&#x;` is U+FFFD while `&#;` is kept.
* Otherwise the longest run of ASCII letters and digits, with a following `;`, is looked up
  among the named references. Failing that, its longest prefix of at most six characters (and
  not the whole run) that names a reference without `;` is used.
* Anything else is kept as written. -/

namespace TreeCatalog.Markup

/-- What the code points 0x80 to 0x9F stand for, in order. -/
def windows1252 : List Nat :=
  [0x20AC, 0x0081, 0x201A, 0x0192, 0x201E, 0x2026, 0x2020, 0x2021, 0x02C6, 0x2030, 0x0160,
    0x2039, 0x0152, 0x008D, 0x017D, 0x008F, 0x0090, 0x2018, 0x2019, 0x201C, 0x201D, 0x2022,
    0x2013, 0x2014, 0x02DC, 0x2122, 0x0161, 0x203A, 0x0153, 0x009D, 0x017E, 0x0178]

/-- The character a numeric reference stands for, from its 32-bit value. -/
def numericChar (x : Int) : Char :=
  if 0x80 ≤ x ∧ x ≤ 0x9f then Char.ofNat (windows1252.getD (x - 0x80).toNat 0xFFFD)
  else if x ≤ 0 ∨ (0xD800 ≤ x ∧ x ≤ 0xDFFF) ∨ 0x10FFFF < x then '\uFFFD'
  else Char.ofNat x.toNat

/-- `x` reduced to a 32-bit signed value. -/
def wrap32 (x : Int) : Int := Int.bmod x 4294967296

/-- The value of a digit in base 10 or 16. -/
def digitValue (hex : Bool) (c : Char) : Option Nat :=
  if '0' ≤ c ∧ c ≤ '9' then some (c.toNat - 48)
  else if hex ∧ 'a' ≤ c ∧ c ≤ 'f' then some (c.toNat - 87)
  else if hex ∧ 'A' ≤ c ∧ c ≤ 'F' then some (c.toNat - 55)
  else none

/-- Read digits: the 32-bit value, how many digits, and the rest after them. -/
def readDigits (hex : Bool) : List Char → Int → Nat → Int × Nat × List Char
  | c :: rest, x, n =>
    match digitValue hex c with
    | some d => readDigits hex rest (wrap32 ((if hex then 16 else 10) * x + d)) (n + 1)
    | none => (x, n, c :: rest)
  | [], x, n => (x, n, [])

/-- The longest run of ASCII letters and digits at the front, and what follows it. -/
def nameRun (cs : List Char) : List Char × List Char :=
  (cs.takeWhile fun c => c.isAlphanum, cs.dropWhile fun c => c.isAlphanum)

/-- The characters a reference name stands for. -/
def lookupName (name : String) : Option (List Char) :=
  match singleEntities.lookup name with
  | some n => some [Char.ofNat n]
  | none => (doubleEntities.lookup name).map fun (a, b) => [Char.ofNat a, Char.ofNat b]

/-- The longest prefix of `run`, of length `j` from `maxLen` down to 2, that names a reference. -/
def prefixMatch (run : List Char) : Nat → Option (Nat × Char)
  | 0 | 1 => none
  | j + 1 =>
    match singleEntities.lookup (String.ofList (run.take (j + 1))) with
    | some n => some (j + 1, Char.ofNat n)
    | none => prefixMatch run j

/-- Read one reference after its `&`: the characters it stands for and the rest of the text, or
none when the `&` stands for itself. -/
def reference (after : List Char) : Option (List Char × List Char) :=
  match after with
  | '#' :: rest =>
    if after.length < 3 then none else
      let (hex, digits) := match rest with
        | 'x' :: ds => (true, ds)
        | 'X' :: ds => (true, ds)
        | ds => (false, ds)
      let (x, n, tail) := readDigits hex digits 0 0
      let (semi, tail) := match tail with
        | ';' :: t => (1, t)
        | t => (0, t)
      -- the reference must reach past its fourth character
      if 2 + (if hex then 1 else 0) + n + semi ≤ 3 then none
      else some ([numericChar x], tail)
  | _ =>
    let (run, tail) := nameRun after
    let (name, rest) := match tail with
      | ';' :: t => (run ++ [';'], t)
      | t => (run, t)
    if name.isEmpty then none else
      match lookupName (String.ofList name) with
      | some cs => some (cs, rest)
      | none =>
        match prefixMatch name (min (name.length - 1) 6) with
        | some (j, c) => some ([c], name.drop j ++ rest)
        | none => some ('&' :: name, rest)

/-- Text with its character references replaced; `fuel` bounds the number of steps. -/
def unescapeChars : Nat → List Char → List Char
  | 0, cs => cs
  | _ + 1, [] => []
  | fuel + 1, '&' :: rest =>
    match reference rest with
    | some (out, tail) => out ++ unescapeChars fuel tail
    | none => '&' :: unescapeChars fuel rest
  | fuel + 1, c :: rest => c :: unescapeChars fuel rest

/-- Text with its character references replaced. -/
def unescape (s : String) : String := String.ofList (unescapeChars (s.length + 1) s.toList)

end TreeCatalog.Markup
