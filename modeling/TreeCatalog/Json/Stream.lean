import TreeCatalog.Json.Syntax
/-! # The first value of a stream

A reader of a JSON stream takes one value at a time: it passes over leading whitespace, reads
bytes while they continue the value, and stops where the value ends, whatever follows. A container,
string or literal ends with its last byte; a number ends before the first byte that cannot extend
it. A stream that breaks the syntax before its first value is complete, or ends first, has no
first value. -/

namespace TreeCatalog.Json

/-- The number of bytes up to the end of the first value, counting from `n` with the recogniser
in state `s`; none when the bytes break the syntax or end first. -/
def firstValueLength (s : Scanner) (n : Nat) : List UInt8 → Option Nat
  | [] => if s.complete then some n else none
  | c :: cs =>
    if s.mode = .done then some n else
    match s.step c cs with
    | .ok s' => firstValueLength s' (n + 1) cs
    | .error (.invalid _ .afterTop) => some n
    | .error _ => none

/-- The bytes of the first value of a stream, with the whitespace before it. -/
def leadingValue (bytes : List UInt8) : Option (List UInt8) :=
  (firstValueLength Scanner.start 0 bytes).map bytes.take

theorem firstValueLength_done (s : Scanner) (n : Nat) (bs : List UInt8) (h : s.mode = .done) :
    firstValueLength s n bs = some n := by
  cases bs <;> simp [firstValueLength, Scanner.complete, h]

end TreeCatalog.Json
