import TreeCatalog.Command.Tree
import TreeCatalog.Text.LowerCase
/-! # Finding the command

The words of the command line pick the command: starting at the root, the first word that is not
a flag (nor the value of one) names a subcommand, which is then searched from with that word
removed. A flag written `--name` or `-x` without `=` is taken to consume the next word unless it is
a boolean flag the current command defines; at this point only the flags a command defines and
inherits are known, not its help flag. A flag that would consume the last word stops the search,
and `--` ends it. The root refuses a first word that names none of its subcommands, suggesting
offered subcommands within two edits of it or starting with it, both compared in lower case. -/

namespace TreeCatalog.Command

/-- Whether a boolean flag of this long name is defined. -/
def boolNamed (flags : List Flag) (name : String) : Bool :=
  flags.any fun f => f.name = name ∧ f.kind = .bool

/-- Whether a boolean flag of this short name is defined. -/
def boolShort (flags : List Flag) (b : UInt8) : Bool :=
  flags.any fun f => (f.short.map (fun c => c.toNat == b.toNat)).getD false ∧ f.kind = .bool

/-- Whether a word is a flag that takes the next word as its value, as far as the search can
tell. -/
def takesValue (flags : List Flag) (s : String) : Bool :=
  if s.contains '=' then false
  else if s.startsWith "--" then !boolNamed flags (s.drop 2).toString
  else
    match s.toUTF8.toList with
    | [45, b] => !boolShort flags b
    | _ => false

/-- The words of a command line that are not flags or flag values, up to `--`. -/
def commandWords (flags : List Flag) : List String → List String
  | [] => []
  | s :: rest =>
    if s = "--" then []
    else if takesValue flags s then
      match rest with
      | _ :: r@(_ :: _) => commandWords flags r
      | _ => []
    else
      let words := commandWords flags rest
      if s ≠ "" ∧ ¬ s.startsWith "-" then s :: words else words

/-- The command line without the first occurrence of the word `x` as a command word. -/
def dropWord (flags : List Flag) (x : String) : List String → List String
  | [] => []
  | s :: rest =>
    if s = "--" then s :: rest
    else if takesValue flags s then
      match rest with
      | v :: r => s :: v :: dropWord flags x r
      | [] => [s]
    else if ¬ s.startsWith "-" ∧ s = x then rest
    else s :: dropWord flags x rest

/-- The flags known to the search at a command. -/
def Cmd.searchFlags (c : Cmd) : List Flag := c.allFlags false

/-- Searches from a command for the one the words name, at most `fuel` levels down; the result
is the command and the words left for it. -/
def descend : Nat → Cmd → List String → Cmd × List String
  | 0, c, args => (c, args)
  | fuel + 1, c, args =>
    match commandWords c.searchFlags args with
    | [] => (c, args)
    | w :: _ =>
      match c.child? w with
      | some sub => descend fuel sub (dropWord c.searchFlags w args)
      | none => (c, args)

/-- The bytes of a word in lower case (the simple lowercase mapping, so the Kelvin sign becomes
`k`). -/
def lowerBytes (s : String) : List UInt8 := (Text.toLower s).toUTF8.toList

/-- The next row of the edit-distance table. `prev` is the row of the shorter prefix, `left` the
cell to the left, `a` the new byte; each cell is the distance between two prefixes. -/
def nextCells (a : UInt8) : List UInt8 → List Nat → Nat → List Nat
  | b :: bs, p :: q :: ps, left =>
    let v := if a = b then p else min (min q left) p + 1
    v :: nextCells a bs (q :: ps) v
  | _, _, _ => []

/-- The edit distance between two byte strings: insertions, deletions and substitutions. -/
def editDistance (s t : List UInt8) : Nat :=
  let last := (s.foldl (fun (acc : List Nat × Nat) a =>
    let i := acc.2 + 1
    (i :: nextCells a t acc.1 i, i)) (List.range (t.length + 1), 0)).1
  last.getD t.length 0

/-- The offered subcommands a mistyped word may have meant, in the order they were added. -/
def suggestions (c : Cmd) (typed : String) : List String :=
  (c.children.filter fun s =>
    s.offered ∧ (editDistance (lowerBytes typed) (lowerBytes s.name) ≤ 2 ∨
      (lowerBytes typed).isPrefixOf (lowerBytes s.name))).map (·.name)

/-- The suggestion lines after the refusal of a word, if there are any. -/
def suggestionText (c : Cmd) (typed : String) : String :=
  match suggestions c typed with
  | [] => ""
  | names => "\n\nDid you mean this?\n" ++ String.join (names.map fun n => "\t" ++ n ++ "\n")

/-- The message refusing an unknown command word. -/
def unknownCommand (word : String) (c : Cmd) : String :=
  "unknown command " ++ Text.Quoted.string word ++ " for " ++ Text.Quoted.string c.path

/-- The command the words name and the words left for it, or the message refusing them. -/
def find (args : List String) : Except String (Cmd × List String) :=
  let (c, rest) := descend 2 .root args
  if c.arity = .open_ ∧ ¬ c.children.isEmpty ∧ c.parent? = none then
    match commandWords c.searchFlags rest with
    | w :: _ => .error (unknownCommand w c ++ suggestionText c w)
    | [] => .ok (c, rest)
  else .ok (c, rest)

theorem editDistance_self_nil : editDistance [] [] = 0 := rfl

theorem find_nil : find [] = .ok (.root, []) := by
  simp [find, descend, commandWords]

end TreeCatalog.Command
