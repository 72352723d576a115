import TreeCatalog.Text.Quoted
import TreeCatalog.Text.Blank
/-! # JSON syntax

A byte-at-a-time recogniser for JSON text. The machine keeps a mode (what the next byte may be)
and a stack of open containers; it looks ahead only at a `\u` escape, which is judged by its six
bytes at once. It refuses at the first byte that cannot continue the text, and names where that
byte stood; a text that ends before its value is complete, however it ends, is "unexpected end of
JSON input", and a number is complete at the end of the text. Containers nest at most 10000 deep.
Whitespace is the four bytes space, tab, line feed and carriage return; strings may hold any byte
from U+0020 up, ill-formed UTF-8 included. -/

namespace TreeCatalog.Json

/-- Where a refused character stood. -/
inductive Context where
  | beginningOfValue
  | beginningOfKey
  | afterKey
  | afterPair
  | afterElement
  | afterTop
  | inString
  | inNumber
  | inKeyword (word : String) (expected : Char)
deriving Repr, DecidableEq

/-- Why a text is not JSON. -/
inductive SyntaxError where
  /-- A character that cannot continue the text at its place, given by the bytes from it on (at
  most four, enough for one character). -/
  | invalid (shown : List UInt8) (context : Context)
  /-- An escape in a string that is not one, given by its bytes from the backslash. -/
  | badEscape (text : List UInt8)
  /-- A container opened past the nesting limit. -/
  | tooDeep
  /-- The text ended before its value was complete. -/
  | truncated
deriving Repr, DecidableEq

/-- The words that describe a place in the text. -/
def Context.text : Context → String
  | .beginningOfValue => "looking for beginning of value"
  | .beginningOfKey => "looking for beginning of object key string"
  | .afterKey => "after object key"
  | .afterPair => "after object key:value pair"
  | .afterElement => "after array element"
  | .afterTop => "after top-level value"
  | .inString => "in string"
  | .inNumber => "in numeric literal"
  | .inKeyword w e => "in literal " ++ w ++ " (expecting " ++ Text.Quoted.char e ++ ")"

/-- Whether the text of a bad escape is shown quoted rather than between backquotes: it holds a
backquote, U+FFFD (an ill-formed byte reads as one), a blank, or a character that does not
print. -/
def needsQuotes (text : List UInt8) : Bool :=
  (Text.Utf8.decodeChars text).any fun c =>
    c = '\x60' || c = '\uFFFD' || Text.isBlank c || !Text.isPrintable c

/-- The message of a syntax error; a refused character is shown as the first character of the
bytes kept for it. -/
def SyntaxError.message : SyntaxError → String
  | .invalid bs ctx => "invalid character " ++ Text.Quoted.leadingChar bs ++ " " ++ ctx.text
  | .badEscape text =>
    let shown := if needsQuotes text then Text.Quoted.bytes text
      else "\x60" ++ Text.Utf8.decode text ++ "\x60"
    "invalid escape sequence " ++ shown ++ " in string"
  | .tooDeep => "exceeded max depth"
  | .truncated => "unexpected end of JSON input"

/-- The refusal of byte `c`, followed by `rest`, at a place. -/
def refuse (c : UInt8) (rest : List UInt8) (ctx : Context) : SyntaxError :=
  .invalid ((c :: rest).take 4) ctx

/-- An open container: an object waiting for a key, an object waiting for a value, or an array. -/
inductive Frame where
  | objectKey
  | objectValue
  | arrayValue
deriving Repr, DecidableEq

/-- The part of a token being read. -/
inductive Token where
  | string
  | escape
  /-- Inside `\u`, after `seen` of its four hexadecimal digits, all four checked already. -/
  | hex (seen : Nat)
  | minus
  | zero
  | digits
  | point
  | fraction
  | exponentMark
  | exponentSign
  | exponent
  /-- Inside the keyword `word`, with the letters `pending` still to come. -/
  | keyword (word : String) (pending : List Char)
deriving Repr, DecidableEq

/-- What the next byte may be. -/
inductive Mode where
  | value
  | valueOrClose
  | key
  | keyOrClose
  | next
  | done
  | token (t : Token)
deriving Repr, DecidableEq

/-- The recogniser's state. -/
structure Scanner where
  mode : Mode
  frames : List Frame
deriving Repr, DecidableEq

/-- The deepest nesting of containers accepted. -/
def maxDepth : Nat := 10000

/-- The four whitespace bytes. -/
def isSpace (c : UInt8) : Bool := c == 32 || c == 9 || c == 10 || c == 13

/-- A decimal digit byte. -/
def isDigit (c : UInt8) : Bool := 48 ≤ c && c ≤ 57

/-- A hexadecimal digit byte. -/
def isHex (c : UInt8) : Bool := isDigit c || (97 ≤ c && c ≤ 102) || (65 ≤ c && c ≤ 70)

/-- The step after a complete value: a separator, a closing bracket, or the end of the text.
`rest` is what follows `c`. -/
def afterValue (frames : List Frame) (c : UInt8) (rest : List UInt8) :
    Except SyntaxError Scanner :=
  match frames with
  | [] => if isSpace c then .ok ⟨.done, []⟩ else .error (refuse c rest .afterTop)
  | f :: others =>
    if isSpace c then .ok ⟨.next, frames⟩ else
    match f with
    | .objectKey =>
      if c == 58 then .ok ⟨.value, .objectValue :: others⟩
      else .error (refuse c rest .afterKey)
    | .objectValue =>
      if c == 44 then .ok ⟨.key, .objectKey :: others⟩
      else if c == 125 then .ok ⟨if others.isEmpty then .done else .next, others⟩
      else .error (refuse c rest .afterPair)
    | .arrayValue =>
      if c == 44 then .ok ⟨.value, frames⟩
      else if c == 93 then .ok ⟨if others.isEmpty then .done else .next, others⟩
      else .error (refuse c rest .afterElement)

/-- Opens a container, refusing it past the nesting limit. -/
def openFrame (frames : List Frame) (f : Frame) (mode : Mode) : Except SyntaxError Scanner :=
  if frames.length + 1 ≤ maxDepth then .ok ⟨mode, f :: frames⟩ else .error .tooDeep

/-- The first byte of a value. -/
def beginValue (frames : List Frame) (c : UInt8) (rest : List UInt8) :
    Except SyntaxError Scanner :=
  if c == 123 then openFrame frames .objectKey .keyOrClose
  else if c == 91 then openFrame frames .arrayValue .valueOrClose
  else if c == 34 then .ok ⟨.token .string, frames⟩
  else if c == 45 then .ok ⟨.token .minus, frames⟩
  else if c == 48 then .ok ⟨.token .zero, frames⟩
  else if c == 116 then .ok ⟨.token (.keyword "true" ['r', 'u', 'e']), frames⟩
  else if c == 102 then .ok ⟨.token (.keyword "false" ['a', 'l', 's', 'e']), frames⟩
  else if c == 110 then .ok ⟨.token (.keyword "null" ['u', 'l', 'l']), frames⟩
  else if 49 ≤ c && c ≤ 57 then .ok ⟨.token .digits, frames⟩
  else .error (refuse c rest .beginningOfValue)

/-- The first byte of an object key. -/
def beginKey (frames : List Frame) (c : UInt8) (rest : List UInt8) :
    Except SyntaxError Scanner :=
  if c == 34 then .ok ⟨.token .string, frames⟩ else .error (refuse c rest .beginningOfKey)

/-- A one-letter escape: `\b \f \n \r \t \\ \/ \"`. -/
def isShortEscape (c : UInt8) : Bool :=
  c == 98 || c == 102 || c == 110 || c == 114 || c == 116 || c == 92 || c == 47 || c == 34

/-- A `\u` escape, given by `rest`, the bytes after its `u`: with four hexadecimal digits it
is read on, with fewer bytes left that could still begin one the text is cut short, and otherwise
its bytes from the backslash (six, or all that are left) are refused. -/
def hexEscape (frames : List Frame) (rest : List UInt8) : Except SyntaxError Scanner :=
  let digits := rest.take 4
  if digits.all isHex then
    (if digits.length = 4 then .ok ⟨.token (.hex 0), frames⟩ else .error .truncated)
  else .error (.badEscape (92 :: 117 :: digits))

/-- One byte inside a token; `rest` is what follows it. -/
def tokenStep (frames : List Frame) (t : Token) (c : UInt8) (rest : List UInt8) :
    Except SyntaxError Scanner :=
  let stay (t : Token) : Except SyntaxError Scanner := .ok ⟨.token t, frames⟩
  match t with
  | .string =>
    if c == 34 then .ok ⟨.next, frames⟩
    else if c == 92 then stay .escape
    else if c < 32 then .error (refuse c rest .inString)
    else stay .string
  | .escape =>
    if isShortEscape c then stay .string
    else if c == 117 then hexEscape frames rest
    else .error (.badEscape [92, c])
  | .hex seen => if seen < 3 then stay (.hex (seen + 1)) else stay .string
  | .minus =>
    if c == 48 then stay .zero
    else if 49 ≤ c && c ≤ 57 then stay .digits
    else .error (refuse c rest .inNumber)
  | .digits =>
    if isDigit c then stay .digits
    else if c == 46 then stay .point
    else if c == 101 || c == 69 then stay .exponentMark
    else afterValue frames c rest
  | .zero =>
    if c == 46 then stay .point
    else if c == 101 || c == 69 then stay .exponentMark
    else afterValue frames c rest
  | .point => if isDigit c then stay .fraction else .error (refuse c rest .inNumber)
  | .fraction =>
    if isDigit c then stay .fraction
    else if c == 101 || c == 69 then stay .exponentMark
    else afterValue frames c rest
  | .exponentMark =>
    if c == 43 || c == 45 then stay .exponentSign
    else if isDigit c then stay .exponent
    else .error (refuse c rest .inNumber)
  | .exponentSign => if isDigit c then stay .exponent else .error (refuse c rest .inNumber)
  | .exponent => if isDigit c then stay .exponent else afterValue frames c rest
  | .keyword w pending =>
    match pending with
    | [] => afterValue frames c rest
    | e :: more =>
      if c.toNat == e.toNat then
        (if more.isEmpty then .ok ⟨.next, frames⟩ else stay (.keyword w more))
      else .error (refuse c rest (.inKeyword w e))

/-- One step of the recogniser: byte `c`, followed by `rest`. -/
def Scanner.step (s : Scanner) (c : UInt8) (rest : List UInt8) : Except SyntaxError Scanner :=
  match s.mode with
  | .value => if isSpace c then .ok s else beginValue s.frames c rest
  | .valueOrClose =>
    if isSpace c then .ok s
    else if c == 93 then afterValue s.frames c rest
    else beginValue s.frames c rest
  | .key => if isSpace c then .ok s else beginKey s.frames c rest
  | .keyOrClose =>
    if isSpace c then .ok s
    else if c == 125 then afterValue (.objectValue :: s.frames.drop 1) c rest
    else beginKey s.frames c rest
  | .next => afterValue s.frames c rest
  | .done => if isSpace c then .ok s else .error (refuse c rest .afterTop)
  | .token t => tokenStep s.frames t c rest

/-- The state before any byte: a value must begin, no container is open. -/
def Scanner.start : Scanner := ⟨.value, []⟩

/-- Runs the recogniser over bytes. -/
def Scanner.run (s : Scanner) : List UInt8 → Except SyntaxError Scanner
  | [] => .ok s
  | c :: cs => match s.step c cs with
    | .ok s' => s'.run cs
    | .error e => .error e

/-- A token that is a whole number when the text ends after it. -/
def Token.endsNumber : Token → Bool
  | .zero | .digits | .fraction | .exponent => true
  | _ => false

/-- Whether the text may end in this state: the top value is complete, or is a number that the
end completes. -/
def Scanner.complete (s : Scanner) : Bool :=
  match s.mode with
  | .done => true
  | .next => s.frames.isEmpty
  | .token t => s.frames.isEmpty && t.endsNumber
  | _ => false

/-- The end of the text: finished, or cut short. -/
def Scanner.finish (s : Scanner) : Except SyntaxError Unit :=
  if s.complete then .ok () else .error .truncated

/-- Checks that bytes are one JSON value with optional whitespace around it. -/
def check (bytes : List UInt8) : Except SyntaxError Unit :=
  match Scanner.start.run bytes with
  | .ok s => s.finish
  | .error e => .error e

theorem run_nil (s : Scanner) : s.run [] = .ok s := rfl

theorem run_cons (s : Scanner) (c : UInt8) (cs : List UInt8) :
    s.run (c :: cs) = (match s.step c cs with
      | .ok s' => s'.run cs
      | .error e => .error e) := rfl

theorem check_nil : check [] = .error .truncated := rfl

end TreeCatalog.Json
