import TreeCatalog.Text.Quoted
import TreeCatalog.Text.Utf8
/-! # Command-line flags

A flag has a long name, perhaps a one-letter short name, a kind and a usage line. Arguments are
read left to right: `--name=value` or `--name value`, `-x value`, `-xvalue` or `-x=value`; a
run of short boolean flags may share one dash (`-vh`); a boolean flag takes no separate value
(`--name=false` sets it false); `--` ends the flags; everything else is a positional argument,
wherever it stands. Integers are read in base 10 unless they start with `0x`, `0o`, `0b` or `0`,
with `_` allowed between digits after such a prefix or inside decimals, within 64 bits; booleans
are `1 t T TRUE true True` and `0 f F FALSE false False`; durations are sums like `1h30m` of
decimal numbers with units `ns us µs ms s m h`. -/

namespace TreeCatalog.Command

/-- What a flag holds. -/
inductive FlagKind where
  | bool
  | int
  | text
  | duration
deriving Repr, DecidableEq

/-- A value given to a flag. -/
inductive FlagValue where
  | bool (b : Bool)
  | int (n : Int)
  | text (s : String)
  | duration (ns : Int)
deriving Repr, DecidableEq

/-- A flag a command accepts. `default` is the default as help text shows it. -/
structure Flag where
  name : String
  short : Option Char := none
  kind : FlagKind
  usage : String
  default : String := ""
deriving Repr, DecidableEq

/-- The message of a number that is not one. -/
def syntaxError (fn s : String) : String :=
  "strconv." ++ fn ++ ": parsing " ++ Text.Quoted.string s ++ ": invalid syntax"

/-- The message of a number out of range. -/
def rangeError (fn s : String) : String :=
  "strconv." ++ fn ++ ": parsing " ++ Text.Quoted.string s ++ ": value out of range"

/-- The value of a digit in bases up to 36. -/
def digitValue (c : Char) : Option Nat :=
  if '0' ≤ c ∧ c ≤ '9' then some (c.toNat - 48)
  else if 'a' ≤ c.toLower ∧ c.toLower ≤ 'z' then some (c.toLower.toNat - 87)
  else none

/-- Whether the underscores of an unsigned literal stand between digits (or after a base
prefix). -/
def underscoresFit (s : List Char) : Bool :=
  let (body, start, hex) : List Char × Char × Bool := match s with
    | '0' :: p :: rest =>
      if p.toLower = 'b' ∨ p.toLower = 'o' ∨ p.toLower = 'x' then (rest, '0', p.toLower = 'x')
      else (s, '^', false)
    | _ => (s, '^', false)
  let step (saw : Option Char) (c : Char) : Option Char :=
    match saw with
    | none => none
    | some w =>
      if c.isDigit ∨ (hex ∧ 'a' ≤ c.toLower ∧ c.toLower ≤ 'f') then some '0'
      else if c = '_' then (if w = '0' then some '_' else none)
      else if w = '_' then none
      else some '!'
  match body.foldl step (some start) with
  | some w => w ≠ '_'
  | none => false

/-- Why digits are not a number: bad syntax, or a value past 64 bits. -/
inductive NumberFault where
  | badSyntax
  | outOfRange
deriving Repr, DecidableEq

/-- Reads digits in a base onto `n`, skipping underscores; a digit the base does not have is bad
syntax, and a value past 64 bits is out of range at the digit that passes them, whatever
follows. -/
def readDigits (base : Nat) : List Char → Nat → Except NumberFault Nat
  | [], n => .ok n
  | c :: cs, n =>
    if c = '_' then readDigits base cs n else
    match digitValue c with
    | none => .error .badSyntax
    | some d =>
      if base ≤ d then .error .badSyntax
      else if 1 <<< 64 ≤ n * base + d then .error .outOfRange
      else readDigits base cs (n * base + d)

/-- An unsigned literal in base 0 notation: the base and the digits after the prefix (a prefix
needs a digit after it to count). -/
def basePrefix (s : List Char) : Nat × List Char :=
  match s with
  | '0' :: p :: rest =>
    if rest.length ≥ 1 ∧ p.toLower = 'b' then (2, rest)
    else if rest.length ≥ 1 ∧ p.toLower = 'o' then (8, rest)
    else if rest.length ≥ 1 ∧ p.toLower = 'x' then (16, rest)
    else (8, p :: rest)
  | '0' :: [] => (8, [])
  | _ => (10, s)

/-- The value of an unsigned 64-bit literal in base 0 notation. Underscores must stand between
digits, which is checked once the digits have been read. -/
def unsignedOf (s : List Char) : Except NumberFault Nat :=
  if s.isEmpty then .error .badSyntax else
  let (base, digits) := basePrefix s
  match readDigits base digits 0 with
  | .error e => .error e
  | .ok n => if digits.contains '_' ∧ ¬ underscoresFit s then .error .badSyntax else .ok n

/-- A signed 64-bit integer in base 0 notation, or the message of why not. An unsigned part past
64 bits counts as out of range, like one past the signed bounds. -/
def parseInt (s : String) : Except String Int :=
  let (neg, body) : Bool × List Char := match s.toList with
    | '-' :: r => (true, r)
    | '+' :: r => (false, r)
    | r => (false, r)
  match unsignedOf body with
  | .error .badSyntax => .error (syntaxError "ParseInt" s)
  | .error .outOfRange => .error (rangeError "ParseInt" s)
  | .ok n =>
    if neg then
      if 1 <<< 63 < n then .error (rangeError "ParseInt" s) else .ok (-(n : Int))
    else if 1 <<< 63 ≤ n then .error (rangeError "ParseInt" s) else .ok n

/-- A boolean, or the message of why not. -/
def parseBool (s : String) : Except String Bool :=
  if ["1", "t", "T", "TRUE", "true", "True"].contains s then .ok true
  else if ["0", "f", "F", "FALSE", "false", "False"].contains s then .ok false
  else .error (syntaxError "ParseBool" s)

/-- Nanoseconds in a unit of duration. -/
def unitNanos : String → Option Nat
  | "ns" => some 1
  | "us" => some 1000
  | "µs" => some 1000
  | "μs" => some 1000
  | "ms" => some 1000000
  | "s" => some 1000000000
  | "m" => some 60000000000
  | "h" => some 3600000000000
  | _ => none

/-- Quotes text for a message about a duration: the quote and the backslash escaped, other
printable ASCII as it is, and each byte of a control or non-ASCII character as `\xNN`. -/
def durationQuote (s : String) : String :=
  let byteEscape (b : UInt8) : String := "\\x" ++ String.ofList (Text.Quoted.hexDigits 2 b.toNat)
  let piece (c : Char) : String :=
    if c.toNat < 0x20 ∨ 0x80 ≤ c.toNat then
      String.join ((String.singleton c).toUTF8.toList.map byteEscape)
    else if c = '"' ∨ c = '\\' then "\\" ++ c.toString
    else c.toString
  "\"" ++ String.join (s.toList.map piece) ++ "\""

/-- Reads leading decimal digits onto `x`; `none` once the value passes `2^63`. -/
def leadingInt : List Char → Nat → Option (Nat × List Char)
  | [], x => some (x, [])
  | c :: cs, x =>
    if c.isDigit then
      if 1 <<< 63 / 10 < x then none
      else if 1 <<< 63 < x * 10 + (c.toNat - 48) then none
      else leadingInt cs (x * 10 + (c.toNat - 48))
    else some (x, c :: cs)

/-- Reads the digits of a fraction onto `x` with `scale` the power of ten they make; digits that
would pass `2^63` are read but ignored. -/
def leadingFraction : List Char → Nat → Float → Bool → Nat × Float × List Char
  | [], x, scale, _ => (x, scale, [])
  | c :: cs, x, scale, spilled =>
    if c.isDigit then
      if spilled then leadingFraction cs x scale true
      else if ((1 <<< 63) - 1) / 10 < x then leadingFraction cs x scale true
      else if 1 <<< 63 < x * 10 + (c.toNat - 48) then leadingFraction cs x scale true
      else leadingFraction cs (x * 10 + (c.toNat - 48)) (scale * 10) false
    else (x, scale, c :: cs)

/-- Reads the terms of a duration, adding their nanoseconds to `acc`; at most `fuel` terms. Each
term is a number with an optional fraction and a unit; the fraction is scaled in floating point,
which keeps it exact to the nanosecond for every unit up to hours. -/
def durationTerms (orig : String) : Nat → List Char → Nat → Except String Nat
  | 0, _, acc => .ok acc
  | _, [], acc => .ok acc
  | fuel + 1, c :: cs, acc =>
    let bad := "time: invalid duration " ++ durationQuote orig
    if ¬ (c = '.' ∨ c.isDigit) then .error bad else
    match leadingInt (c :: cs) 0 with
    | none => .error bad
    | some (v, rest) =>
      let pre := rest.length ≠ (c :: cs).length
      let (f, scale, rest, post) : Nat × Float × List Char × Bool := match rest with
        | '.' :: r =>
          let (f, scale, r') := leadingFraction r 0 1 false
          (f, scale, r', r'.length ≠ r.length)
        | r => (0, 1, r, false)
      if ¬ pre ∧ ¬ post then .error bad else
      let unit := rest.takeWhile (fun c => c ≠ '.' ∧ ¬ c.isDigit)
      let rest := rest.dropWhile (fun c => c ≠ '.' ∧ ¬ c.isDigit)
      if unit.isEmpty then .error ("time: missing unit in duration " ++ durationQuote orig) else
      match unitNanos (String.ofList unit) with
      | none => .error ("time: unknown unit " ++ durationQuote (String.ofList unit) ++
          " in duration " ++ durationQuote orig)
      | some u =>
        if 1 <<< 63 / u < v then .error bad else
        let part := if f = 0 then 0
          else (Float.ofNat f * (Float.ofNat u / scale)).toUInt64.toNat
        let v := v * u + part
        if 1 <<< 63 < v then .error bad
        else if 1 <<< 63 < acc + v then .error bad
        else durationTerms orig fuel rest (acc + v)

/-- A duration in nanoseconds, or the message of why not. -/
def parseDuration (s : String) : Except String Int :=
  let (neg, body) : Bool × List Char := match s.toList with
    | '-' :: r => (true, r)
    | '+' :: r => (false, r)
    | r => (false, r)
  if body = ['0'] then .ok 0
  else if body.isEmpty then .error ("time: invalid duration " ++ durationQuote s)
  else
    match durationTerms s (body.length + 1) body 0 with
    | .error e => .error e
    | .ok n =>
      if neg then .ok (-(n : Int))
      else if (1 <<< 63) - 1 < n then .error ("time: invalid duration " ++ durationQuote s)
      else .ok n

/-- Reads a value for a flag of a kind; the error is the reason, without the flag. -/
def FlagKind.read : FlagKind → String → Except String FlagValue
  | .bool, s => (parseBool s).map .bool
  | .int, s => (parseInt s).map .int
  | .text, s => .ok (.text s)
  | .duration, s => (parseDuration s).map .duration

/-- How a flag is named in messages about its value. -/
def Flag.label (f : Flag) : String :=
  match f.short with
  | some c => "-" ++ c.toString ++ ", --" ++ f.name
  | none => "--" ++ f.name

/-- Arguments read so far: flag values (the latest first) and positional arguments in order. -/
structure Parsed where
  values : List (String × FlagValue) := []
  positional : List String := []
deriving Repr

/-- The parse with a flag set from its text, or the message of a bad value. -/
def Parsed.set (p : Parsed) (f : Flag) (value : String) : Except String Parsed :=
  match f.kind.read value with
  | .ok v => .ok { p with values := (f.name, v) :: p.values }
  | .error e => .error ("invalid argument " ++ Text.Quoted.string value ++ " for " ++
      Text.Quoted.string f.label ++ " flag: " ++ e)

/-- The flag of a short name given as a byte. -/
def shortFlag? (flags : List Flag) (b : UInt8) : Option Flag :=
  flags.find? fun f => (f.short.map (fun c => c.toNat == b.toNat)).getD false

/-- Reads a run of short flags after one dash; `rest` are the arguments after this one. The
result is the parse and the arguments left. A run that reaches `test.` ends there unread: such
arguments belong to test binaries. -/
def shortRun (flags : List Flag) (rest : List String) :
    List UInt8 → Parsed → Except String (Parsed × List String)
  | [], p => .ok (p, rest)
  | b :: more, p =>
    if (b :: more).take 5 = "test.".toUTF8.toList then .ok (p, rest) else
    let shown := Text.Utf8.decode (b :: more)
    match shortFlag? flags b with
    | none => .error ("unknown shorthand flag: " ++ Text.Quoted.byte b ++ " in -" ++ shown)
    | some f =>
      match more with
      | 61 :: value@(_ :: _) => (p.set f (Text.Utf8.decode value)).map (·, rest)
      | _ =>
        if f.kind = .bool then
          match p.set f "true" with
          | .ok p' => shortRun flags rest more p'
          | .error e => .error e
        else if !more.isEmpty then (p.set f (Text.Utf8.decode more)).map (·, rest)
        else
          match rest with
          | v :: rest' => (p.set f v).map (·, rest')
          | [] => .error ("flag needs an argument: " ++ Text.Quoted.byte b ++ " in -" ++ shown)

/-- Reads one long flag `--body`; `rest` are the arguments after it. -/
def longFlag (flags : List Flag) (arg body : String) (rest : List String) (p : Parsed) :
    Except String (Parsed × List String) :=
  match body.toList with
  | [] | '-' :: _ | '=' :: _ => .error ("bad flag syntax: " ++ arg)
  | _ =>
    let (name, value?) := match body.splitOn "=" with
      | n :: v :: vs => (n, some ("=".intercalate (v :: vs)))
      | _ => (body, none)
    match flags.find? (·.name = name) with
    | none => .error ("unknown flag: --" ++ name)
    | some f =>
      match value? with
      | some v => (p.set f v).map (·, rest)
      | none =>
        if f.kind = .bool then (p.set f "true").map (·, rest)
        else
          match rest with
          | v :: rest' => (p.set f v).map (·, rest')
          | [] => .error ("flag needs an argument: " ++ arg)

/-- Reads arguments, at most `fuel` of them. -/
def parseFrom (flags : List Flag) : Nat → List String → Parsed → Except String Parsed
  | 0, _, p => .ok p
  | _, [], p => .ok p
  | fuel + 1, arg :: rest, p =>
    match arg.toList with
    | '-' :: '-' :: [] => .ok { p with positional := p.positional ++ rest }
    | '-' :: '-' :: body =>
      match longFlag flags arg (String.ofList body) rest p with
      | .ok (p', rest') => parseFrom flags fuel rest' p'
      | .error e => .error e
    | '-' :: c :: body =>
      match shortRun flags rest (String.ofList (c :: body)).toUTF8.toList p with
      | .ok (p', rest') => parseFrom flags fuel rest' p'
      | .error e => .error e
    | _ => parseFrom flags fuel rest { p with positional := p.positional ++ [arg] }

/-- Reads the arguments of a command against its flags. Every step takes at least one argument,
so their number bounds the steps. -/
def parseArgs (flags : List Flag) (args : List String) : Except String Parsed :=
  parseFrom flags (args.length + 1) args {}

/-- The value last given to a flag. -/
def Parsed.get? (p : Parsed) (name : String) : Option FlagValue := p.values.lookup name

/-- A boolean flag's value, false when not given. -/
def Parsed.flag (p : Parsed) (name : String) : Bool :=
  match p.get? name with
  | some (.bool b) => b
  | _ => false

/-- A text flag's value, empty when not given. -/
def Parsed.text (p : Parsed) (name : String) : String :=
  match p.get? name with
  | some (.text s) => s
  | _ => ""

/-- An integer flag's value, zero when not given. -/
def Parsed.int (p : Parsed) (name : String) : Int :=
  match p.get? name with
  | some (.int n) => n
  | _ => 0

theorem parseArgs_nil (flags : List Flag) : parseArgs flags [] = .ok {} := by
  simp [parseArgs, parseFrom]

end TreeCatalog.Command
