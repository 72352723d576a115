import TreeCatalog.Text.Blank
import TreeCatalog.Text.Utf8
/-! # Environment files

An environment file is a list of assignments `KEY=value` (or `KEY: value`), one statement after
another. Blank space and `#` comment lines between statements are passed over, and a statement may
start with `export `. A key is made of letters, digits, `_` and `.` (single bytes read as Latin-1
characters; spaces inside are kept). A value is either
* unquoted: the rest of the line, cut at the last ` #` (a comment), trimmed of spaces and tabs;
* in single quotes: taken as it is, and it may span lines;
* in double quotes: `\n` and `\r` become line breaks, a backslash before any other character but
  `$` is dropped, and it may span lines.
A quote preceded by a backslash does not close. Unquoted and double-quoted values expand
`$NAME`, `${NAME}` (and `$(NAME`) from keys assigned earlier in the file, else to nothing
(the environment is not consulted); names are upper-case letters, digits and `_`, and `\$` stays
as `$`. A later assignment of a key wins. A file that breaks these rules assigns nothing. -/

namespace TreeCatalog.Settings.Dotenv

/-- The spaces of these files: tab, vertical tab, form feed, carriage return, space, U+0085 and
U+00A0 (line feeds separate statements). -/
def isSpaceCode (n : Nat) : Bool :=
  n = 9 || n = 11 || n = 12 || n = 13 || n = 32 || n = 0x85 || n = 0xA0

/-- A space character. -/
def isSpace (c : Char) : Bool := isSpaceCode c.toNat

/-- Latin-1 letters. -/
def isLatinLetter (n : Nat) : Bool :=
  (65 ≤ n && n ≤ 90) || (97 ≤ n && n ≤ 122) || n = 0xAA || n = 0xB5 || n = 0xBA ||
    (0xC0 ≤ n && n ≤ 0xD6) || (0xD8 ≤ n && n ≤ 0xF6) || (0xF8 ≤ n && n ≤ 0xFF)

/-- Latin-1 numbers. -/
def isLatinNumber (n : Nat) : Bool :=
  (48 ≤ n && n ≤ 57) || n = 0xB2 || n = 0xB3 || n = 0xB9 || (0xBC ≤ n && n ≤ 0xBE)

/-- The characters of bytes, ill-formed ones as U+FFFD. -/
def chars (bs : List UInt8) : List Char := Text.Utf8.decodeChars bs

/-- Bytes with every `\r\n` replaced by `\n`. -/
def joinLines : List UInt8 → List UInt8
  | 13 :: 10 :: rest => 10 :: joinLines rest
  | b :: rest => b :: joinLines rest
  | [] => []

/-- The start of the next statement: blank space and comment lines passed over; none at the end
of the file. -/
def statementStart (fuel : Nat) (bs : List UInt8) : Option (List UInt8) :=
  match fuel with
  | 0 => none
  | fuel + 1 =>
    match Text.Utf8.dropCharsWhile Text.isBlank bs with
    | [] => none
    | 35 :: rest =>
      match rest.dropWhile (· ≠ 10) with
      | [] => none
      | more => statementStart fuel more
    | start => some start

/-- Why a file is refused. -/
abbrev Refusal := String

/-- The key of a statement and what follows its separator. -/
def keyOf (bs : List UInt8) : Except Refusal (String × List UInt8) :=
  let src := Text.Utf8.dropCharsWhile isSpace bs
  let src := if "export".toUTF8.toList.isPrefixOf src then
      let trimmed := src.drop 6
      match chars trimmed with
      | c :: _ => if isSpace c then Text.Utf8.dropCharsWhile isSpace trimmed else src
      | [] => src
    else src
  let rec scan : List UInt8 → Nat → Except Refusal (Option Nat)
    | [], _ => .ok none
    | b :: rest, i =>
      if isSpaceCode b.toNat then scan rest (i + 1)
      else if b = 61 ∨ b = 58 then .ok (some i)
      else if b = 95 ∨ b = 46 ∨ isLatinLetter b.toNat ∨ isLatinNumber b.toNat then scan rest (i + 1)
      else .error "unexpected character in variable name"
  match scan src 0 with
  | .error e => .error e
  | .ok found =>
    if src.isEmpty then .error "zero length string" else
    let (keyBytes, offset) := match found with
      | some i => (src.take i, i + 1)
      | none => ([], 0)
    let key := String.ofList ((chars keyBytes).reverse.dropWhile Text.isBlank).reverse
    .ok (key, Text.Utf8.dropCharsWhile isSpace (src.drop offset))

/-- Whether a byte may be part of a variable name: an upper-case letter, a digit or `_`. -/
def isNameByte (b : UInt8) : Bool := (65 ≤ b && b ≤ 90) || (48 ≤ b && b ≤ 57) || b = 95

/-- One variable reference after its `$` (and the backslash of `\$`): an optional `(`, an
optional `{`, a name, an optional `}`. The result is the text read, the name, and what
follows. -/
def reference (bs : List UInt8) : List UInt8 × List UInt8 × List UInt8 :=
  let (paren, r1) : List UInt8 × List UInt8 := match bs with
    | 40 :: r => ([40], r)
    | r => ([], r)
  let (brace, r2) : List UInt8 × List UInt8 := match r1 with
    | 123 :: r => ([123], r)
    | r => ([], r)
  let name := r2.takeWhile isNameByte
  let r3 := r2.dropWhile isNameByte
  let (close, r4) : List UInt8 × List UInt8 := match r3 with
    | 125 :: r => ([125], r)
    | r => ([], r)
  (paren ++ brace ++ name ++ close, name, r4)

/-- Replaces the variables of a value, at most `fuel` bytes of it; `look` gives a name's value.
A reference without a name, and one written with a backslash, stay as written (without the
backslash). -/
def expandFrom (look : String → List UInt8) : Nat → List UInt8 → List UInt8
  | 0, bs => bs
  | _, [] => []
  | fuel + 1, 92 :: 36 :: rest =>
    let (text, _, after) := reference rest
    36 :: text ++ expandFrom look fuel after
  | fuel + 1, 36 :: rest =>
    let (text, name, after) := reference rest
    let out := if name.isEmpty then 36 :: text else look (Text.Utf8.decode name)
    out ++ expandFrom look fuel after
  | fuel + 1, b :: rest => b :: expandFrom look fuel rest

/-- Replaces the variables of a value; every step reads at least one byte, so the length of the
value is fuel enough. -/
def expand (look : String → List UInt8) (bs : List UInt8) : List UInt8 :=
  expandFrom look bs.length bs

/-- The escapes of a double-quoted value: first `\n` and `\r` become line breaks (other pairs
stay), then a backslash before any character but `$` is dropped. Both steps work on bytes: the
byte after a backslash starts the character it escapes, and the bytes that follow it are never a
backslash or `$`, so a malformed character is escaped one byte at a time and comes out whole. -/
def lineEscapes : List UInt8 → List UInt8
  | 92 :: 110 :: rest => 10 :: lineEscapes rest
  | 92 :: 114 :: rest => 13 :: lineEscapes rest
  | 92 :: b :: rest => if b = 10 then 92 :: lineEscapes (b :: rest)
      else 92 :: b :: lineEscapes rest
  | b :: rest => b :: lineEscapes rest
  | [] => []

/-- Drops a backslash before any character but `$`. -/
def dropBackslashes : List UInt8 → List UInt8
  | 92 :: b :: rest => if b = 36 then 92 :: dropBackslashes (b :: rest)
      else b :: dropBackslashes rest
  | b :: rest => b :: dropBackslashes rest
  | [] => []

/-- The escapes of a double-quoted value. -/
def unescape (bs : List UInt8) : List UInt8 := dropBackslashes (lineEscapes bs)

/-- Where an unquoted value ends: before the last ` #` of the line (a `#` after a space, not at
the start), else at the end of the line. -/
def commentCut (line : List Char) : Nat :=
  let rec go : List Char → Nat → Option Nat → Option Nat
    | a :: b :: rest, i, best =>
      go (b :: rest) (i + 1) (if b = '#' ∧ isSpace a then some (i + 1) else best)
    | _, _, best => best
  (go line 0 none).getD line.length

/-- Characters without leading and trailing spaces. -/
def trimSpaces (cs : List Char) : List Char :=
  ((cs.dropWhile isSpace).reverse.dropWhile isSpace).reverse

/-- The place of the quote that closes a quoted value: the first `q` after the opening one that
does not follow a backslash. `prev` is the byte before `bs`, which starts at place `i`. -/
def closingQuote (q prev : UInt8) : List UInt8 → Nat → Option Nat
  | [], _ => none
  | b :: rest, i => if b = q ∧ prev ≠ 92 then some i else closingQuote q b rest (i + 1)

/-- Bytes without the quote `q` at either end. -/
def stripQuotes (q : UInt8) (bs : List UInt8) : List UInt8 :=
  ((bs.dropWhile (· = q)).reverse.dropWhile (· = q)).reverse

/-- The value of a statement, as bytes, read from just after its separator, and where the next
statement may start; `look` gives the value of a variable. A quoted value keeps its bytes as
they are; an unquoted one is read as characters (a malformed byte becoming U+FFFD) to find its
comment and trim it. -/
def valueOf (look : String → List UInt8) (bs : List UInt8) :
    Except Refusal (List UInt8 × List UInt8) :=
  match bs with
  | [] => .ok ([], [])
  | q :: more =>
    if q = 34 ∨ q = 39 then
      match closingQuote q q more 1 with
      | none => .error "unterminated quoted value"
      | some i =>
        let inner := stripQuotes q (bs.take i)
        let value := if q = 34 then expand look (unescape inner) else inner
        .ok (value, bs.drop (i + 1))
    else
      let isEnd : UInt8 → Bool := fun b => b = 10 ∨ b = 13
      let lineBytes := bs.takeWhile (fun b => !isEnd b)
      let rest := bs.dropWhile (fun b => !isEnd b)
      let line := chars lineBytes
      let trimmed := (String.ofList (trimSpaces (line.take (commentCut line)))).toUTF8.toList
      .ok (expand look trimmed, rest)

/-- The value a variable has while reading a file: its last assignment so far (`seen` holds the
newest first), else nothing. The environment is not consulted. -/
def lookIn (seen : List (String × List UInt8)) (name : String) : List UInt8 :=
  (seen.lookup name).getD []

/-- Reads statements from `bs` on, adding each assignment to the front of `seen`; `fuel` bounds
the number of statements. -/
def statements : Nat → List UInt8 → List (String × List UInt8) →
    Except Refusal (List (String × List UInt8))
  | 0, _, seen => .ok seen
  | fuel + 1, bs, seen =>
    match statementStart (bs.length + 1) bs with
    | none => .ok seen
    | some start =>
      match keyOf start with
      | .error e => .error e
      | .ok (key, afterKey) =>
        match valueOf (lookIn seen) afterKey with
        | .error e => .error e
        | .ok (value, rest) => statements fuel rest ((key, value) :: seen)

/-- The assignments of a file, newest first (so the first binding of a key is its value), or the
reason the file is refused. Values are read as bytes and only then as text, a malformed byte
becoming U+FFFD. Every statement takes at least one byte, so the length of the file bounds their
number. -/
def read (bytes : List UInt8) : Except Refusal (List (String × String)) :=
  let bs := joinLines bytes
  (statements (bs.length + 1) bs []).map fun seen =>
    seen.map fun (k, v) => (k, Text.Utf8.decode v)

end TreeCatalog.Settings.Dotenv
