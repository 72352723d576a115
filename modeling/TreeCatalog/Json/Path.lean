/-! # Paths into JSON values

A path leads from the top of a JSON value to a value inside it, one step at a time: a member of
an object by its key as written, or a place in an array by its index. A path is written as its
steps joined by `.`, a key with `~` written `~0` and `/` written `~1`.

A value that cannot be read into the type wanted for it is named in messages by the name of the
type at the top (the root; empty for a type without a name) and the path to it: a value reached
through a member reads as a field of the root, one reached through an array place as a bare path
under the root, and the top value itself as a value of the wanted type. -/

namespace TreeCatalog.Json

/-- A step into a JSON value: a member of an object or a place in an array. -/
inductive Step where
  | member (key : String)
  | place (index : Nat)
deriving Repr, DecidableEq

/-- A member key as written in a path: `~` becomes `~0` and `/` becomes `~1`. -/
def escapeKey (key : String) : String :=
  String.join (key.toList.map fun c =>
    if c = '~' then "~0" else if c = '/' then "~1" else c.toString)

/-- The text of a step in a path. -/
def Step.token : Step → String
  | .member k => escapeKey k
  | .place i => toString i

/-- The text of a path: its steps joined by `.`. -/
def pathText (path : List Step) : String := ".".intercalate (path.map Step.token)

/-- The message of a value that cannot be read into a type: `found` says what the value is
(`string`, `number 1.5`, ...), `root` names the type at the top, `path` leads to the value and
`type` is the type it was to be read as. -/
def mismatchMessage (found root : String) (path : List Step) (type : String) : String :=
  let place := match path.getLast? with
    | none => "Go value"
    | some (.member _) => "Go struct field " ++ root ++ "." ++ pathText path
    | some (.place _) => root ++ "." ++ pathText path
  "json: cannot unmarshal " ++ found ++ " into " ++ place ++ " of type " ++ type

theorem escapeKey_of_plain (key : String) (h : ∀ c ∈ key.toList, c ≠ '~' ∧ c ≠ '/') :
    escapeKey key = String.join (key.toList.map Char.toString) := by
  unfold escapeKey
  congr 1
  apply List.map_congr_left
  intro c hc
  simp [h c hc]

end TreeCatalog.Json
