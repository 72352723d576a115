import TreeCatalog.Text.Quoted
/-! # JSON values and their text

A value keeps a number as the literal text it was read from or will be written as, and an object
as its members in order, repeated keys included. Text is written in one of two layouts: compact,
or one member per line with a fixed indent per level and `": "` after each key (an empty object or
array stays `{}` or `[]`). Strings escape the quote, the backslash and the controls below U+0020
(`\b \f \n \r \t` by name, the rest as `\u00XX`), and always U+2028 and U+2029; `<`, `>` and `&`
are written `\u003c`, `\u003e` and `\u0026` only when the style asks for it. -/

namespace TreeCatalog.Json

/-- A JSON value. -/
inductive Value where
  | null
  | bool (b : Bool)
  | number (literal : String)
  | string (s : String)
  | array (items : List Value)
  | object (members : List (String × Value))
deriving Repr, Inhabited

/-- The name of a value's kind, as type errors name what they found. -/
def Value.kindName : Value → String
  | .null => "null"
  | .bool _ => "bool"
  | .number _ => "number"
  | .string _ => "string"
  | .array _ => "array"
  | .object _ => "object"

/-- How a value is written. -/
structure Style where
  /-- Whether `<`, `>` and `&` are written as escapes. -/
  escapeMarkup : Bool
  /-- The indent of one level, or none for the compact layout. -/
  indent : Option String
deriving Repr, DecidableEq

namespace Style

/-- Compact, with markup characters as they are. -/
def plain : Style := ⟨false, none⟩

/-- Compact, with markup characters escaped. -/
def web : Style := ⟨true, none⟩

/-- Two spaces per level, with markup characters escaped. -/
def pretty : Style := ⟨true, some "  "⟩

end Style

/-- The escaped form of one character inside a JSON string. -/
def escapeChar (markup : Bool) (c : Char) : List Char :=
  if c = '"' then ['\\', '"']
  else if c = '\\' then ['\\', '\\']
  else if c = '\n' then ['\\', 'n']
  else if c = '\r' then ['\\', 'r']
  else if c = '\t' then ['\\', 't']
  else if c = '\x08' then ['\\', 'b']
  else if c = '\x0c' then ['\\', 'f']
  else if c.toNat < 0x20 then '\\' :: 'u' :: Text.Quoted.hexDigits 4 c.toNat
  else if markup ∧ (c = '<' ∨ c = '>' ∨ c = '&') then '\\' :: 'u' :: Text.Quoted.hexDigits 4 c.toNat
  else if c.toNat = 0x2028 ∨ c.toNat = 0x2029 then '\\' :: 'u' :: Text.Quoted.hexDigits 4 c.toNat
  else [c]

/-- A string between double quotes with its characters escaped. -/
def quote (markup : Bool) (s : String) : String :=
  String.ofList ('"' :: s.toList.flatMap (escapeChar markup) ++ ['"'])

/-- The line break and indent before an item at `depth`. -/
def newline (indent : String) (depth : Nat) : String :=
  "\n" ++ String.join (List.replicate depth indent)

mutual
/-- The text of a value at nesting `depth`. -/
def Value.render (st : Style) (depth : Nat) : Value → String
  | .null => "null"
  | .bool b => if b then "true" else "false"
  | .number lit => lit
  | .string s => quote st.escapeMarkup s
  | .array [] => "[]"
  | .array items => "[" ++ renderItems st (depth + 1) items ++ close st depth ++ "]"
  | .object [] => "\x7b\x7d"
  | .object ms => "\x7b" ++ renderMembers st (depth + 1) ms ++ close st depth ++ "\x7d"

/-- The items of a non-empty array, separated by commas. -/
def renderItems (st : Style) (depth : Nat) : List Value → String
  | [] => ""
  | [v] => open_ st depth ++ v.render st depth
  | v :: vs => open_ st depth ++ v.render st depth ++ "," ++ renderItems st depth vs

/-- The members of a non-empty object, separated by commas. -/
def renderMembers (st : Style) (depth : Nat) : List (String × Value) → String
  | [] => ""
  | [(k, v)] => open_ st depth ++ member st depth k v
  | (k, v) :: ms => open_ st depth ++ member st depth k v ++ "," ++ renderMembers st depth ms

/-- One member: the quoted key, a colon (and a space when indenting), the value. -/
def member (st : Style) (depth : Nat) (k : String) (v : Value) : String :=
  quote st.escapeMarkup k ++ (if st.indent.isSome then ": " else ":") ++ v.render st depth

/-- What comes before an item at `depth`. -/
def open_ (st : Style) (depth : Nat) : String :=
  match st.indent with
  | some ind => newline ind depth
  | none => ""

/-- What comes before the closing bracket of a container at `depth`. -/
def close (st : Style) (depth : Nat) : String :=
  match st.indent with
  | some ind => newline ind depth
  | none => ""
end

/-- The text of a value in a style. -/
def Value.text (st : Style) (v : Value) : String := v.render st 0

/-- A number value from an integer. -/
def Value.int (n : Int) : Value := .number (toString n)

/-- A number value from a natural number. -/
def Value.nat (n : Nat) : Value := .number (toString n)

/-- A string array. -/
def Value.strings (xs : List String) : Value := .array (xs.map .string)

theorem escapeChar_eq_self (markup : Bool) (c : Char) (h1 : c ≠ '"') (h2 : c ≠ '\\')
    (h3 : 0x20 ≤ c.toNat) (h4 : c ≠ '<' ∧ c ≠ '>' ∧ c ≠ '&') (h5 : c.toNat ≠ 0x2028)
    (h6 : c.toNat ≠ 0x2029) : escapeChar markup c = [c] := by
  have hn : c ≠ '\n' := by rintro rfl; simp at h3
  have hr : c ≠ '\r' := by rintro rfl; simp at h3
  have ht : c ≠ '\t' := by rintro rfl; simp at h3
  have hb : c ≠ '\x08' := by rintro rfl; simp at h3
  have hf : c ≠ '\x0c' := by rintro rfl; simp at h3
  simp [escapeChar, h1, h2, hn, hr, ht, hb, hf, h4, h5, h6, Nat.not_lt.mpr h3]

end TreeCatalog.Json
