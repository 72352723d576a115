import TreeCatalog.Json.Value
/-! # Requests and responses

A request is a method, a target (path and query as sent), header fields and an optional body.
Header names are compared without regard to ASCII case, and the first field of a name counts; a
missing field reads as empty. A response is a status, header fields (setting a field replaces an
earlier one of the same name) and a payload: one JSON value, a text, or nothing. -/

namespace TreeCatalog.Http

/-- Whether two header names are the same, ignoring ASCII case. -/
def sameName (a b : String) : Bool :=
  a.toList.map Char.toLower == b.toList.map Char.toLower

/-- A request as it reaches the server. -/
structure Request where
  method : String
  target : String
  headers : List (String × String) := []
  body : Option (List UInt8) := none
deriving Repr

/-- The value of a header field, empty when absent. -/
def Request.header (r : Request) (name : String) : String :=
  match r.headers.find? (fun kv => sameName kv.1 name) with
  | some (_, v) => v
  | none => ""

/-- What a response carries. -/
inductive Payload where
  | json (v : Json.Value)
  | text (s : String)
  | empty
deriving Repr

/-- A response. -/
structure Response where
  status : Nat
  headers : List (String × String) := []
  payload : Payload := .empty
deriving Repr

/-- Header fields with one set, replacing an earlier field of the same name. -/
def setField (hs : List (String × String)) (name value : String) : List (String × String) :=
  hs.filter (fun kv => !sameName kv.1 name) ++ [(name, value)]

/-- The value of a response header field, if set. -/
def Response.field? (r : Response) (name : String) : Option String :=
  (r.headers.find? (fun kv => sameName kv.1 name)).map (·.2)

/-- The content type of JSON responses. -/
def jsonType : String := "application/json; charset=utf-8"

/-- The content type of pages. -/
def pageType : String := "text/html; charset=utf-8"

/-- A JSON response on top of the header fields set so far. -/
def jsonResponse (hs : List (String × String)) (status : Nat) (v : Json.Value) : Response :=
  ⟨status, setField hs "Content-Type" jsonType, .json v⟩

/-- The body of an error: an object with the message under `error`. -/
def errorBody (msg : String) : Json.Value := .object [("error", .string msg)]

/-- An error response on top of the header fields set so far. -/
def errorResponse (hs : List (String × String)) (status : Nat) (msg : String) : Response :=
  jsonResponse hs status (errorBody msg)

theorem setField_has (hs : List (String × String)) (name value : String) :
    (name, value) ∈ setField hs name value := by
  simp [setField]

end TreeCatalog.Http
