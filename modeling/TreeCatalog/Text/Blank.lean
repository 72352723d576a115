/-! # Blank characters

The blank characters are those with the Unicode `White_Space` property: the ASCII controls tab to
carriage return, space, U+0085, U+00A0, U+1680, U+2000 to U+200A, U+2028, U+2029, U+202F,
U+205F and U+3000. Trimming removes them from both ends of a string, or of a byte string whose
ends are their UTF-8 encodings. -/

namespace TreeCatalog.Text

/-- The code points of the blank characters, ascending. -/
def blankCodePoints : List Nat :=
  [0x09, 0x0a, 0x0b, 0x0c, 0x0d, 0x20, 0x85, 0xa0, 0x1680] ++ (List.range 11).map (0x2000 + ·) ++
    [0x2028, 0x2029, 0x202f, 0x205f, 0x3000]

/-- Whether `c` has the `White_Space` property. -/
def isBlank (c : Char) : Bool := blankCodePoints.contains c.toNat

/-- The string without blank characters at either end. -/
def trim (s : String) : String :=
  String.ofList ((s.toList.dropWhile isBlank).reverse.dropWhile isBlank).reverse

/-- The UTF-8 encodings of the blank characters. -/
def blankCodes : List (List UInt8) :=
  blankCodePoints.map fun n => (String.singleton (Char.ofNat n)).toUTF8.toList

/-- Drop leading blank encodings from a byte string, at most `fuel` of them. -/
def dropBlankPrefix : Nat → List UInt8 → List UInt8
  | 0, bs => bs
  | fuel + 1, bs =>
    match blankCodes.find? (·.isPrefixOf bs) with
    | some code => dropBlankPrefix fuel (bs.drop code.length)
    | none => bs

/-- Drop trailing blank encodings from a byte string, at most `fuel` of them. -/
def dropBlankSuffix : Nat → List UInt8 → List UInt8
  | 0, bs => bs
  | fuel + 1, bs =>
    match blankCodes.find? (·.isSuffixOf bs) with
    | some code => dropBlankSuffix fuel (bs.take (bs.length - code.length))
    | none => bs

/-- A byte string without blank encodings at either end. A blank counts at the front when its
encoding starts the bytes and at the back when its encoding ends them; each removed blank takes at
least one byte, so the length bounds the work. -/
def trimBytes (bs : List UInt8) : List UInt8 :=
  let front := dropBlankPrefix bs.length bs
  dropBlankSuffix front.length front

theorem isBlank_space : isBlank ' ' = true := by decide

end TreeCatalog.Text
