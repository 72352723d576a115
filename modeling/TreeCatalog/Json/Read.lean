import TreeCatalog.Json.Syntax
import TreeCatalog.Json.Value
import TreeCatalog.Text.Utf8
/-! # Reading JSON text into values

Text is first checked by the recogniser of `Json.Syntax`; a checked text is then read into a
`Value` by descent. String contents are read with their escapes resolved: a `\u` escape of a
surrogate pair gives the one character of the pair, any other surrogate gives U+FFFD (and the
escape after an unpaired high surrogate is read on its own), and each ill-formed UTF-8 byte gives
U+FFFD. Numbers keep their literal text. -/

namespace TreeCatalog.Json

/-- The value of a hexadecimal digit byte. -/
def hexValue (c : UInt8) : Nat :=
  if c ≤ 57 then c.toNat - 48 else if c ≤ 70 then c.toNat - 55 else c.toNat - 87

/-- The number written by four hexadecimal digits at the front of `bs`. -/
def hex4? : List UInt8 → Option (Nat × List UInt8)
  | a :: b :: c :: d :: rest =>
    if isHex a && isHex b && isHex c && isHex d then
      some (((hexValue a * 16 + hexValue b) * 16 + hexValue c) * 16 + hexValue d, rest)
    else none
  | _ => none

/-- The character of a simple escape letter. -/
def simpleEscape (c : UInt8) : Option Char :=
  if c == 98 then some '\x08' else if c == 102 then some '\x0c'
  else if c == 110 then some '\n' else if c == 114 then some '\r'
  else if c == 116 then some '\t' else if c == 34 then some '"'
  else if c == 92 then some '\\' else if c == 47 then some '/'
  else none

/-- Whether a code is a UTF-16 surrogate. -/
def isSurrogate (n : Nat) : Bool := 0xD800 ≤ n && n < 0xE000

/-- The character of a high and a low surrogate, when they form a pair. -/
def pair? (hi lo : Nat) : Option Char :=
  if 0xD800 ≤ hi ∧ hi < 0xDC00 ∧ 0xDC00 ≤ lo ∧ lo < 0xE000 then
    some (Char.ofNat (0x10000 + (hi - 0xD800) * 0x400 + (lo - 0xDC00)))
  else none

theorem hex4?_length {bs rest : List UInt8} {n : Nat} (h : hex4? bs = some (n, rest)) :
    rest.length + 4 = bs.length := by
  unfold hex4? at h
  split at h
  · split at h
    · simp only [Option.some.injEq, Prod.mk.injEq] at h
      obtain ⟨-, rfl⟩ := h
      simp
    · simp at h
  · simp at h

/-- The character of a surrogate pair whose high half is `hi` and whose low half is escaped at the
front of `bs`, and what follows that escape. -/
def lowHalf? (hi : Nat) : List UInt8 → Option (Char × List UInt8)
  | 92 :: 117 :: more =>
    match hex4? more with
    | some (m, rest) => (pair? hi m).map fun c => (c, rest)
    | none => none
  | _ => none

theorem lowHalf?_length {hi : Nat} {bs rest : List UInt8} {c : Char}
    (h : lowHalf? hi bs = some (c, rest)) : rest.length < bs.length := by
  unfold lowHalf? at h
  split at h
  · split at h
    · next m r hm =>
      have := hex4?_length hm
      simp only [Option.map_eq_some_iff, Prod.mk.injEq] at h
      obtain ⟨-, -, -, rfl⟩ := h
      simp only [List.length_cons]
      omega
    · simp at h
  · simp at h

/-- The characters of string contents (between the quotes, escapes unresolved). -/
def unescape : List UInt8 → List Char
  | [] => []
  | 92 :: e :: rest =>
    match simpleEscape e with
    | some c => c :: unescape rest
    | none =>
      match _h : hex4? rest with
      | none => '\uFFFD' :: unescape rest
      | some (n, after) =>
        if isSurrogate n then
          match _h2 : lowHalf? n after with
          | some (c, after2) => c :: unescape after2
          | none => '\uFFFD' :: unescape after
        else Char.ofNat n :: unescape after
  | b :: rest =>
    match Text.Utf8.scalar? b rest with
    | some (c, n) => c :: unescape (rest.drop n)
    | none => '\uFFFD' :: unescape rest
termination_by bs => bs.length
decreasing_by
  all_goals first
    | simp only [List.length_cons, List.length_drop]; omega
    | have h3 := hex4?_length _h; have h4 := lowHalf?_length _h2
      simp only [List.length_cons] at *; omega
    | have h3 := hex4?_length _h; simp only [List.length_cons] at *; omega

/-- The raw contents of a string after its opening quote, up to the closing quote, and what
follows that quote. A backslash takes the next byte along, so an escaped quote does not close. -/
def stringBody : List UInt8 → List UInt8 × List UInt8
  | [] => ([], [])
  | 34 :: rest => ([], rest)
  | 92 :: c :: rest => let (body, after) := stringBody rest; (92 :: c :: body, after)
  | c :: rest => let (body, after) := stringBody rest; (c :: body, after)

/-- Whether a byte belongs to a number literal. -/
def isNumberByte (c : UInt8) : Bool :=
  isDigit c || c == 45 || c == 43 || c == 46 || c == 101 || c == 69

/-- Leading whitespace removed. -/
def skipSpace (bs : List UInt8) : List UInt8 := bs.dropWhile isSpace

/-- The ASCII text of bytes. -/
def asciiText (bs : List UInt8) : String := String.ofList (bs.map fun b => Char.ofNat b.toNat)

mutual
/-- Reads one value of checked text, with `fuel` bounding the nesting and the list lengths. -/
def readValue : Nat → List UInt8 → Option (Value × List UInt8)
  | 0, _ => none
  | fuel + 1, bs =>
    match skipSpace bs with
    | 123 :: rest => readMembers fuel [] (skipSpace rest)
    | 91 :: rest => readItems fuel [] (skipSpace rest)
    | 34 :: rest =>
      let (body, after) := stringBody rest
      some (.string (String.ofList (unescape body)), after)
    | 116 :: rest => some (.bool true, rest.drop 3)
    | 102 :: rest => some (.bool false, rest.drop 4)
    | 110 :: rest => some (.null, rest.drop 3)
    | other => some (.number (asciiText (other.takeWhile isNumberByte)),
        other.dropWhile isNumberByte)

/-- Reads the items of an array after its opening bracket; `acc` holds those read so far,
latest first. -/
def readItems : Nat → List Value → List UInt8 → Option (Value × List UInt8)
  | 0, _, _ => none
  | fuel + 1, acc, bs =>
    match bs with
    | 93 :: rest => some (.array acc.reverse, rest)
    | _ =>
      match readValue fuel bs with
      | none => none
      | some (v, after) =>
        match skipSpace after with
        | 44 :: rest => readItems fuel (v :: acc) (skipSpace rest)
        | 93 :: rest => some (.array (v :: acc).reverse, rest)
        | _ => none

/-- Reads the members of an object after its opening brace; `acc` holds those read so far,
latest first. -/
def readMembers : Nat → List (String × Value) → List UInt8 → Option (Value × List UInt8)
  | 0, _, _ => none
  | fuel + 1, acc, bs =>
    match bs with
    | 125 :: rest => some (.object acc.reverse, rest)
    | 34 :: rest =>
      let (body, after) := stringBody rest
      let key := String.ofList (unescape body)
      match skipSpace after with
      | 58 :: rest2 =>
        match readValue fuel rest2 with
        | none => none
        | some (v, after2) =>
          match skipSpace after2 with
          | 44 :: rest3 => readMembers fuel ((key, v) :: acc) (skipSpace rest3)
          | 125 :: rest3 => some (.object ((key, v) :: acc).reverse, rest3)
          | _ => none
      | _ => none
    | _ => none
end

/-- The members of an object whose text starts at `bs` (just after its opening brace), each with
its value and the text of the value as written; `fuel` bounds the number of members. -/
def writtenMembers : Nat → List UInt8 → Option (List (String × Value × List UInt8))
  | 0, _ => none
  | fuel + 1, bs =>
    match skipSpace bs with
    | 125 :: _ => some []
    | 34 :: rest =>
      let (body, after) := stringBody rest
      match skipSpace after with
      | 58 :: rest2 =>
        let start := skipSpace rest2
        match readValue (2 * start.length + 2) start with
        | none => none
        | some (v, after2) =>
          let text := start.take (start.length - after2.length)
          let entry := (String.ofList (unescape body), v, text)
          match skipSpace after2 with
          | 44 :: rest3 => (writtenMembers fuel rest3).map (entry :: ·)
          | _ => some [entry]
      | _ => none
    | _ => none

/-- The members of a checked JSON text that is an object, each with the text of its value as
written; nothing for any other text. -/
def objectMembers (bytes : List UInt8) : List (String × Value × List UInt8) :=
  match skipSpace bytes with
  | 123 :: rest => (writtenMembers (rest.length + 1) rest).getD []
  | _ => []

/-- The value of a JSON text, or why the text is not JSON. -/
def parse (bytes : List UInt8) : Except SyntaxError Value :=
  match check bytes with
  | .error e => .error e
  | .ok () =>
    match readValue (2 * bytes.length + 2) bytes with
    | some (v, _) => .ok v
    | none => .error .truncated

theorem parse_of_check_error (bytes : List UInt8) (e : SyntaxError) (h : check bytes = .error e) :
    parse bytes = .error e := by
  simp [parse, h]

end TreeCatalog.Json
