import TreeCatalog.Entry.Basic
import TreeCatalog.Json.Read
import TreeCatalog.Json.Fold
import TreeCatalog.Json.Path
import TreeCatalog.Text.Blank
import TreeCatalog.Text.Decimal
/-! # Reading catalog documents

A document holds one root entry, written either as an object or as an array whose first element
is the root (later elements are ignored). The text is trimmed of blanks; an empty text, an empty
array, or a first byte other than `{` or `[` is refused by the document rules, and otherwise the
whole text must be JSON (a syntax error wins over everything else).

An entry object is read member by member, in order, into a draft:
* keys match the field names `type`, `name`, `size`, `contents` exactly or up to case (see
  `Json.keyMatches`), unknown
  keys are passed over, and a repeated key is read again into what the earlier one left;
* `null` leaves a field as it is, except that it removes the child list;
* a child array is read element by element into the child list already there, so an element
  beyond the current length takes up the value last stored at its place, and `[]` starts afresh;
* `size` must be an integer literal within 64 bits;
* the first value of a wrong type, in text order, is the error, named by the path of keys (as
  written) and array places that leads to it (see `Json.mismatchMessage`). -/

namespace TreeCatalog.Document

open Json

/-- The type a value was to be read as. -/
inductive Target where
  | text
  | int64
  | entries
  | entry
deriving Repr, DecidableEq

/-- The name of a target type in error messages. -/
def Target.name : Target → String
  | .text => "string"
  | .int64 => "int64"
  | .entries => "[]catalog.wireEntry"
  | .entry => "catalog.wireEntry"

/-- A value of the wrong type: what was found, what was wanted, and the path to it. -/
structure TypeError where
  found : String
  target : Target
  path : List Step
deriving Repr, DecidableEq

/-- The message of a type error, under the name of the entry type at the top. -/
def TypeError.message (e : TypeError) : String :=
  mismatchMessage e.found "wireEntry" e.path e.target.name

/-- Why a text is not a catalog document. -/
inductive Problem where
  | malformed (e : SyntaxError)
  | type (e : TypeError)
  | empty
  | emptyArray
  | leading (byte : UInt8)
deriving Repr, DecidableEq

/-- The message of a problem. -/
def Problem.message : Problem → String
  | .malformed e => e.message
  | .type e => e.message
  | .empty => "empty document"
  | .emptyArray => "empty document array"
  | .leading b => "unexpected leading character " ++ Text.Quoted.byte b

/-- The two layouts of a document. -/
inductive Shape where
  | object
  | array
deriving Repr, DecidableEq

/-- The name of a layout. -/
def Shape.name : Shape → String
  | .object => "object"
  | .array => "array"

/-- A read document: its root entry and the layout it was written in. -/
structure Document where
  root : Entry
  shape : Shape
deriving Repr

/-- An entry being read. `slots` is the child list's store, holding every element read at each
place since the list was last started afresh; only the first `used` are the list. -/
structure Draft where
  kind : String := ""
  name : String := ""
  size : Int := 0
  slots : Option (List Draft) := none
  used : Nat := 0
deriving Repr, Inhabited

/-- The fields of an entry object. -/
inductive Field where
  | kind
  | name
  | size
  | contents
deriving Repr, DecidableEq

/-- The key of a field. -/
def Field.key : Field → String
  | .kind => "type"
  | .name => "name"
  | .size => "size"
  | .contents => "contents"

/-- Whether a key names a field, exactly or up to case. -/
def Field.matches (f : Field) (key : String) : Bool := keyMatches f.key key

/-- The field a key names, if any. -/
def fieldOf? (key : String) : Option Field :=
  [Field.kind, .name, .size, .contents].find? (·.matches key)

/-- Reads a value into a text field. -/
def readText (path : List Step) (old : String) : Value → Except TypeError String
  | .null => .ok old
  | .string s => .ok s
  | v => .error ⟨v.kindName, .text, path⟩

/-- Reads a value into the size field. -/
def readSize (path : List Step) (old : Int) : Value → Except TypeError Int
  | .null => .ok old
  | .number lit =>
    match Text.int64? lit with
    | some n => .ok n
    | none => .error ⟨"number " ++ lit, .int64, path⟩
  | v => .error ⟨v.kindName, .int64, path⟩

/-- The first slot of a store and the rest, a fresh draft once the store runs out. -/
def nextSlot : List Draft → Draft × List Draft
  | d :: rest => (d, rest)
  | [] => ({}, [])

mutual
/-- Reads a value into an entry draft; `path` leads to the value. -/
def readEntry (path : List Step) (d : Draft) : Value → Except TypeError Draft
  | .null => .ok d
  | .object ms => readMembers path d ms
  | v => .error ⟨v.kindName, .entry, path⟩

/-- Reads the members of an entry object in order. -/
def readMembers (path : List Step) (d : Draft) : List (String × Value) → Except TypeError Draft
  | [] => .ok d
  | (k, v) :: ms =>
    match fieldOf? k with
    | none => readMembers path d ms
    | some .kind =>
      match readText (path ++ [.member k]) d.kind v with
      | .ok s => readMembers path { d with kind := s } ms
      | .error e => .error e
    | some .name =>
      match readText (path ++ [.member k]) d.name v with
      | .ok s => readMembers path { d with name := s } ms
      | .error e => .error e
    | some .size =>
      match readSize (path ++ [.member k]) d.size v with
      | .ok n => readMembers path { d with size := n } ms
      | .error e => .error e
    | some .contents =>
      match v with
      | .null => readMembers path { d with slots := none, used := 0 } ms
      | .array [] => readMembers path { d with slots := some [], used := 0 } ms
      | .array items =>
        match readSlots (path ++ [.member k]) 0 (d.slots.getD []) items with
        | .ok store => readMembers path { d with slots := some store, used := items.length } ms
        | .error e => .error e
      | other => .error ⟨other.kindName, .entries, path ++ [.member k]⟩

/-- Reads array elements, the first at place `i`, into the slots of a store from its start on:
each element is read into the slot at its place (a fresh draft past the end), and slots past the
last element stay as they are. -/
def readSlots (path : List Step) (i : Nat) (store : List Draft) :
    List Value → Except TypeError (List Draft)
  | [] => .ok store
  | v :: vs =>
    let (slot, rest) := nextSlot store
    match readEntry (path ++ [.place i]) slot v with
    | .ok d => (readSlots path (i + 1) rest vs).map (d :: ·)
    | .error e => .error e
end

mutual
/-- The entry a draft stands for: its child list is the used part of its store. -/
def Draft.toEntry : Draft → Entry
  | ⟨k, n, s, none, _⟩ => ⟨k, n, s, none⟩
  | ⟨k, n, s, some store, used⟩ => ⟨k, n, s, some ((Draft.toEntries store).take used)⟩

/-- The entries of a list of drafts. -/
def Draft.toEntries : List Draft → List Entry
  | [] => []
  | d :: ds => d.toEntry :: Draft.toEntries ds
end

/-- Reads a JSON value as a whole entry. -/
def entryOf (v : Value) : Except Problem Entry :=
  match readEntry [] {} v with
  | .ok d => .ok d.toEntry
  | .error e => .error (.type e)

/-- Reads a catalog document from its bytes. -/
def decode (bytes : List UInt8) : Except Problem Document :=
  let t := Text.trimBytes bytes
  match t with
  | [] => .error .empty
  | b :: _ =>
    if b == 123 then
      match parse t with
      | .error e => .error (.malformed e)
      | .ok v => (entryOf v).map fun root => ⟨root, .object⟩
    else if b == 91 then
      match parse t with
      | .error e => .error (.malformed e)
      | .ok (.array (v :: _)) => (entryOf v).map fun root => ⟨root, .array⟩
      | .ok _ => .error .emptyArray
    else .error (.leading b)

theorem decode_nil : decode [] = .error .empty := by
  simp [decode, Text.trimBytes, Text.dropBlankPrefix, Text.dropBlankSuffix]

end TreeCatalog.Document
