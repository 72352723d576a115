import TreeCatalog.Text.Printable
import TreeCatalog.Text.Utf8
/-! # Quoted text

Text is quoted between double quotes, a single character between single quotes. The quote in use
and the backslash are preceded by a backslash; printable characters stand as they are; the
controls with a letter escape (`\a \b \f \n \r \t \v`) use it; other characters below U+0020 and
DEL are written `\xNN`, the rest `\uNNNN` or `\UNNNNNNNN`, all in lower-case hexadecimal. Bytes
are quoted as the UTF-8 text they hold, each ill-formed byte written `\xNN`. -/

-- Natural powers are the core `Nat.pow`, whatever other instances are in scope.
attribute [local instance (high)] instPowNat

namespace TreeCatalog.Text.Quoted

/-- The lower-case hexadecimal digit of `n < 16`. -/
def hexDigit (n : Nat) : Char :=
  if n < 10 then Char.ofNat (48 + n) else Char.ofNat (87 + n)

/-- The `width` lower-case hexadecimal digits of `n`, most significant first. -/
def hexDigits (width n : Nat) : List Char :=
  (List.range width).reverse.map fun i => hexDigit (n / 16 ^ i % 16)

/-- The escaped form of one character inside quotes `quote`. -/
def escape (quote : Char) (c : Char) : List Char :=
  if c = quote ∨ c = '\\' then ['\\', c]
  else if isPrintable c then [c]
  else match c with
    | '\x07' => ['\\', 'a'] | '\x08' => ['\\', 'b'] | '\x0c' => ['\\', 'f']
    | '\n' => ['\\', 'n'] | '\r' => ['\\', 'r'] | '\t' => ['\\', 't'] | '\x0b' => ['\\', 'v']
    | _ =>
      if c.toNat < 0x20 ∨ c.toNat = 0x7f then '\\' :: 'x' :: hexDigits 2 c.toNat
      else if c.toNat < 0x10000 then '\\' :: 'u' :: hexDigits 4 c.toNat
      else '\\' :: 'U' :: hexDigits 8 c.toNat

/-- Text between double quotes. -/
def string (s : String) : String :=
  String.ofList ('"' :: s.toList.flatMap (escape '"') ++ ['"'])

/-- One character between single quotes. -/
def char (c : Char) : String :=
  String.ofList ('\'' :: escape '\'' c ++ ['\''])

/-- A byte taken as the character of the same number (U+0000 to U+00FF), between single quotes. -/
def byte (b : UInt8) : String := char (Char.ofNat b.toNat)

/-- The escaped characters of bytes read as UTF-8 inside double quotes, an ill-formed byte
written `\xNN`. -/
def escapeBytes : List UInt8 → List Char
  | [] => []
  | b0 :: rest =>
    match Utf8.scalar? b0 rest with
    | some (c, n) => escape '"' c ++ escapeBytes (rest.drop n)
    | none => '\\' :: 'x' :: hexDigits 2 b0.toNat ++ escapeBytes rest
termination_by bs => bs.length
decreasing_by all_goals (simp only [List.length_cons, List.length_drop]; omega)

/-- Bytes between double quotes, read as UTF-8. -/
def bytes (bs : List UInt8) : String := String.ofList ('"' :: escapeBytes bs ++ ['"'])

/-- The first character of bytes read as UTF-8, between single quotes; an ill-formed first byte
is written `'\xNN'`, and no byte at all reads as U+FFFD. -/
def leadingChar : List UInt8 → String
  | [] => char '\uFFFD'
  | b0 :: rest =>
    match Utf8.scalar? b0 rest with
    | some (c, _) => char c
    | none => String.ofList ('\'' :: '\\' :: 'x' :: hexDigits 2 b0.toNat ++ ['\''])

theorem string_empty : string "" = "\"\"" := by decide

end TreeCatalog.Text.Quoted
