/-! # Base64

The standard alphabet (`+`, `/`, padded with `=`) and the URL alphabet (`-`, `_`, unpadded) of
RFC 4648. Reading goes four symbols at a time and passes over line breaks (`\r`, `\n`). A padded
text must end in complete groups, with `=` or `==` only at the end; an unpadded one may end in a
group of two or three symbols. Stray bits in a short final group are ignored. A refused text is
reported by the offset of the byte where reading stopped. -/

-- Natural powers are the core `Nat.pow`, whatever other instances are in scope.
attribute [local instance (high)] instPowNat

namespace TreeCatalog.Text.Base64

/-- An alphabet: its two symbols after the letters and digits, and whether it pads. -/
structure Alphabet where
  sym62 : UInt8
  sym63 : UInt8
  padded : Bool
deriving Repr, DecidableEq

/-- The standard alphabet, padded. -/
def standard : Alphabet := ⟨43, 47, true⟩

/-- The URL alphabet, unpadded. -/
def url : Alphabet := ⟨45, 95, false⟩

/-- The value of a symbol. -/
def Alphabet.value? (a : Alphabet) (c : UInt8) : Option Nat :=
  if 65 ≤ c ∧ c ≤ 90 then some (c.toNat - 65)
  else if 97 ≤ c ∧ c ≤ 122 then some (c.toNat - 71)
  else if 48 ≤ c ∧ c ≤ 57 then some (c.toNat + 4)
  else if c = a.sym62 then some 62
  else if c = a.sym63 then some 63
  else none

/-- The symbol of a value below 64. -/
def Alphabet.symbol (a : Alphabet) (v : Nat) : UInt8 :=
  if v < 26 then (65 + v).toUInt8
  else if v < 52 then (71 + v).toUInt8
  else if v < 62 then (v - 4).toUInt8
  else if v = 62 then a.sym62 else a.sym63

/-- Whether a byte is a line break. -/
def isBreak (c : UInt8) : Bool := c == 10 || c == 13

/-- The bytes of a group of `n` symbol values (two to four). -/
def groupBytes (vals : List Nat) : List UInt8 :=
  let v := vals.foldl (fun acc x => acc * 64 + x) 0 * 64 ^ (4 - vals.length)
  let bytes := [(v / 65536 % 256).toUInt8, (v / 256 % 256).toUInt8, (v % 256).toUInt8]
  bytes.take (vals.length - 1)

/-- The rest of a text after line breaks. -/
def skipBreaks (pos : Nat) : List UInt8 → Nat × List UInt8
  | c :: cs => if isBreak c then skipBreaks (pos + 1) cs else (pos, c :: cs)
  | [] => (pos, [])

/-- Reads one group from `pos`, with `vals` the values read so far in it. The result is the bytes
of the group, the position and rest after it, and whether reading is over. -/
def group (a : Alphabet) (vals : List Nat) (pos : Nat) :
    List UInt8 → Except Nat (List UInt8 × Nat × List UInt8 × Bool)
  | [] =>
    if vals.isEmpty then .ok ([], pos, [], true)
    else if vals.length = 1 ∨ a.padded then .error (pos - vals.length)
    else .ok (groupBytes vals, pos, [], true)
  | c :: cs =>
    match a.value? c with
    | some v =>
      if vals.length = 3 then .ok (groupBytes (vals ++ [v]), pos + 1, cs, false)
      else group a (vals ++ [v]) (pos + 1) cs
    | none =>
      if isBreak c then group a vals (pos + 1) cs
      else if !a.padded ∨ c ≠ 61 then .error pos
      else if vals.length < 2 then .error pos
      else
        -- `=` after two or three symbols ends the text
        let afterPad : Except Nat (Nat × List UInt8) :=
          if vals.length = 2 then
            match skipBreaks (pos + 1) cs with
            | (p, []) => .error p
            | (p, d :: ds) => if d = 61 then .ok (p + 1, ds) else .error (p - 1)
          else .ok (pos + 1, cs)
        match afterPad with
        | .error p => .error p
        | .ok (p, rest) =>
          match skipBreaks p rest with
          | (_, []) => .ok (groupBytes vals, p, [], true)
          | (q, _) => .error q

/-- Reads groups until the text is over; `fuel` bounds the number of groups. -/
def groups (a : Alphabet) : Nat → Nat → List UInt8 → Except Nat (List UInt8)
  | 0, _, _ => .ok []
  | fuel + 1, pos, bs =>
    match group a [] pos bs with
    | .error p => .error p
    | .ok (out, pos', rest, finished) =>
      if finished then .ok out
      else (groups a fuel pos' rest).map (out ++ ·)

/-- The bytes a base64 text stands for, or the offset where it is refused. -/
def decode (a : Alphabet) (text : List UInt8) : Except Nat (List UInt8) :=
  groups a (text.length + 1) 0 text

/-- The message for a text refused at an offset. -/
def errorMessage (offset : Nat) : String :=
  "illegal base64 data at input byte " ++ toString offset

/-- The base64 text of bytes. -/
def encode (a : Alphabet) : List UInt8 → List UInt8
  | b0 :: b1 :: b2 :: rest =>
    let v := b0.toNat * 65536 + b1.toNat * 256 + b2.toNat
    [a.symbol (v / 262144), a.symbol (v / 4096 % 64), a.symbol (v / 64 % 64), a.symbol (v % 64)] ++
      encode a rest
  | [b0, b1] =>
    let v := b0.toNat * 65536 + b1.toNat * 256
    [a.symbol (v / 262144), a.symbol (v / 4096 % 64), a.symbol (v / 64 % 64)] ++
      (if a.padded then [61] else [])
  | [b0] =>
    let v := b0.toNat * 65536
    [a.symbol (v / 262144), a.symbol (v / 4096 % 64)] ++ (if a.padded then [61, 61] else [])
  | [] => []

theorem encode_nil (a : Alphabet) : encode a [] = [] := rfl

end TreeCatalog.Text.Base64
