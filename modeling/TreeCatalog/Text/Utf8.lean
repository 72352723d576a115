/-! # Reading UTF-8 with replacement

Bytes are read one character at a time. A well-formed sequence (no overlong form, no surrogate,
nothing above U+10FFFF) gives its character; otherwise the first byte alone gives U+FFFD and
reading resumes at the next byte. So every ill-formed byte is replaced by one U+FFFD and no ASCII
byte is ever swallowed. -/

namespace TreeCatalog.Text.Utf8

/-- Whether `b` is a continuation byte `10xxxxxx` in `lo ..= hi`. -/
def inRange (lo hi b : UInt8) : Bool := lo ≤ b && b ≤ hi

/-- The character starting with `b0` followed by `rest`, and how many bytes of `rest` it uses,
when the sequence is well formed. -/
def scalar? (b0 : UInt8) (rest : List UInt8) : Option (Char × Nat) :=
  let cont (b : UInt8) : Nat := (b &&& 0x3f).toNat
  let second (lo hi : UInt8) : Bool := match rest with
    | b1 :: _ => inRange lo hi b1
    | [] => false
  if b0 < 0x80 then some (Char.ofNat b0.toNat, 0)
  else if inRange 0xc2 0xdf b0 then
    match rest with
    | b1 :: _ => if inRange 0x80 0xbf b1 then
        some (Char.ofNat ((b0 &&& 0x1f).toNat * 64 + cont b1), 1) else none
    | [] => none
  else if inRange 0xe0 0xef b0 then
    let lo : UInt8 := if b0 == 0xe0 then 0xa0 else 0x80
    let hi : UInt8 := if b0 == 0xed then 0x9f else 0xbf
    match rest with
    | b1 :: b2 :: _ =>
      if second lo hi && inRange 0x80 0xbf b2 then
        some (Char.ofNat ((b0 &&& 0x0f).toNat * 4096 + cont b1 * 64 + cont b2), 2) else none
    | _ => none
  else if inRange 0xf0 0xf4 b0 then
    let lo : UInt8 := if b0 == 0xf0 then 0x90 else 0x80
    let hi : UInt8 := if b0 == 0xf4 then 0x8f else 0xbf
    match rest with
    | b1 :: b2 :: b3 :: _ =>
      if second lo hi && inRange 0x80 0xbf b2 && inRange 0x80 0xbf b3 then
        some (Char.ofNat ((b0 &&& 0x07).toNat * 262144 + cont b1 * 4096 + cont b2 * 64 +
          cont b3), 3) else none
    | _ => none
  else none

/-- Whether bytes are well-formed UTF-8 throughout. -/
def valid : List UInt8 → Bool
  | [] => true
  | b0 :: rest =>
    match scalar? b0 rest with
    | some (_, n) => valid (rest.drop n)
    | none => false
termination_by bs => bs.length
decreasing_by simp only [List.length_cons, List.length_drop]; omega

/-- The characters read from `bs`, each ill-formed byte becoming U+FFFD. -/
def decodeChars : List UInt8 → List Char
  | [] => []
  | b0 :: rest =>
    match scalar? b0 rest with
    | some (c, n) => c :: decodeChars (rest.drop n)
    | none => '\uFFFD' :: decodeChars rest
termination_by bs => bs.length
decreasing_by all_goals (simp only [List.length_cons, List.length_drop]; omega)

/-- The bytes left after dropping the leading characters that satisfy `p`, an ill-formed byte
counting as U+FFFD. -/
def dropCharsWhile (p : Char → Bool) : List UInt8 → List UInt8
  | [] => []
  | b0 :: rest =>
    match scalar? b0 rest with
    | some (c, n) => if p c then dropCharsWhile p (rest.drop n) else b0 :: rest
    | none => if p '\uFFFD' then dropCharsWhile p rest else b0 :: rest
termination_by bs => bs.length
decreasing_by all_goals (simp only [List.length_cons, List.length_drop]; omega)

/-- The text of a byte string, each ill-formed byte becoming U+FFFD. -/
def decode (bs : List UInt8) : String := String.ofList (decodeChars bs)

/-- The text of a byte array, each ill-formed byte becoming U+FFFD. -/
def decodeArray (bs : ByteArray) : String := decode bs.toList

/-- The UTF-8 bytes of a string. -/
def encode (s : String) : List UInt8 := s.toUTF8.toList

theorem decodeChars_nil : decodeChars [] = [] := by simp [decodeChars]

end TreeCatalog.Text.Utf8
