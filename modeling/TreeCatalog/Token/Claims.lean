import TreeCatalog.Json.Value
import TreeCatalog.Json.Fold
import TreeCatalog.Json.Path
import TreeCatalog.Json.Number
import TreeCatalog.Text.Quoted
import TreeCatalog.Text.Decimal
import TreeCatalog.Text.Utf8
/-! # Token claims

The claims of a token are a JSON object with the registered claims `iss`, `sub`, `aud`, `exp`,
`nbf`, `iat`, `jti` and the agent's `role`. Members are read in order, keys matching the claim
names exactly or up to case, unknown keys passed over, and a repeated key read again; `null`
leaves a text claim as it is and removes a date.

The first member that cannot be read, in text order, is the error:
* a text claim of another type;
* an audience that is not a string or an array of strings, or that holds a number too large for
  a double anywhere inside it;
* a date that is not a number or a string holding a number literal, or is too large for a
  double. A date is read as a double and counts in whole seconds, the fraction cut off
  downwards. -/

namespace TreeCatalog.Token

open Json

/-- The claims of a token. Dates are seconds since the epoch. -/
structure Claims where
  issuer : String := ""
  subject : String := ""
  audience : List String := []
  expiresAt : Option Int := none
  notBefore : Option Int := none
  issuedAt : Option Int := none
  id : String := ""
  role : String := ""
deriving Repr, DecidableEq

/-- The seconds from issue to expiry, when both are known, counted in 64 bits. -/
def Claims.lifetime (c : Claims) : Option Int :=
  match c.expiresAt, c.issuedAt with
  | some e, some i => some (Text.wrap64 (e - i))
  | _, _ => none

/-- The claims a token object may carry. -/
inductive Claim where
  | issuer
  | subject
  | audience
  | expiresAt
  | notBefore
  | issuedAt
  | id
  | role
deriving Repr, DecidableEq

/-- The key of a claim. -/
def Claim.key : Claim → String
  | .issuer => "iss"
  | .subject => "sub"
  | .audience => "aud"
  | .expiresAt => "exp"
  | .notBefore => "nbf"
  | .issuedAt => "iat"
  | .id => "jti"
  | .role => "role"

/-- The claim a key names, if any. -/
def claimOf? (key : String) : Option Claim :=
  [Claim.issuer, .subject, .audience, .expiresAt, .notBefore, .issuedAt, .id, .role].find?
    (fun c => keyMatches c.key key)

/-- The whole seconds of a date given as a number literal. The literal is read as a double and
split into a whole part and nanoseconds (see `Decimal.wholeAndNanos`); a whole part outside the
64-bit range becomes the least 64-bit value, and negative nanoseconds borrow a second, so the
result is the second the instant falls in. -/
def secondsOf (d : Decimal) : Int :=
  let (whole, nanos) := d.wholeAndNanos
  let whole :=
    if -9223372036854775808 ≤ whole ∧ whole < 9223372036854775808 then whole
    else -9223372036854775808
  whole + nanos / 1000000000

/-- The seconds of a date whose number text is `lit`. -/
def dateOfNumber (lit : String) : Except String Int :=
  match Decimal.ofLiteral? lit with
  | none => .error ("could not convert json number value to float: strconv.ParseFloat: parsing " ++
      Text.Quoted.string lit ++ ": invalid syntax")
  | some d =>
    if d.overflows then
      .error ("could not convert json number value to float: strconv.ParseFloat: parsing " ++
        Text.Quoted.string lit ++ ": value out of range")
    else .ok (secondsOf d)

/-- Reads a date claim, whose value is written as `written`; `none` is an absent date. A string
must hold a number literal; one that does not is named by its text as written. -/
def readDate (written : String) : Value → Except String (Option Int)
  | .null => .ok none
  | .number lit => (dateOfNumber lit).map some
  | .string s =>
    if isNumberLiteral s then (dateOfNumber s).map some
    else .error ("could not parse NumericData: " ++
      mismatchMessage ("string " ++ written) "" [] "json.Number" ++ ": invalid syntax")
  | v => .error ("could not parse NumericData: " ++ mismatchMessage v.kindName "" [] "json.Number")

/-- The message of a claim whose value is not a string; the claim is named by its key as written
in the token, under the name of the claims type. -/
def textTypeError (key : String) (v : Value) : String :=
  mismatchMessage v.kindName "Claims" [.member key] "string"

mutual
/-- The first number in a value, in text order, too large for a double: its literal and the
steps that lead to it. -/
def overflowIn : Value → Option (String × List Step)
  | .number lit =>
    match Decimal.ofLiteral? lit with
    | some d => if d.overflows then some (lit, []) else none
    | none => none
  | .array items => overflowInItems 0 items
  | .object ms => overflowInMembers ms
  | _ => none

/-- The first number too large for a double among array items, the first at place `i`. -/
def overflowInItems (i : Nat) : List Value → Option (String × List Step)
  | [] => none
  | v :: vs =>
    match overflowIn v with
    | some (lit, path) => some (lit, .place i :: path)
    | none => overflowInItems (i + 1) vs

/-- The first number too large for a double among object members. -/
def overflowInMembers : List (String × Value) → Option (String × List Step)
  | [] => none
  | (k, v) :: ms =>
    match overflowIn v with
    | some (lit, path) => some (lit, .member k :: path)
    | none => overflowInMembers ms
end

/-- The message of a number too large for a double met while reading a value of any shape, whose
type at the top has no name. -/
def overflowMessage (lit : String) (path : List Step) : String :=
  mismatchMessage ("number " ++ lit) "" path "float64"

/-- The strings of an audience array, unless one item is not a string. -/
def audienceItems : List Value → Option (List String)
  | [] => some []
  | .string s :: rest => (audienceItems rest).map (s :: ·)
  | _ => none

/-- Reads the audience claim; `none` leaves it as it is. The value is first read as plain JSON,
where a number too large for a double stops it. -/
def readAudience (v : Value) : Except String (Option (List String)) :=
  match overflowIn v with
  | some (lit, path) => .error (overflowMessage lit path)
  | none =>
    match v with
    | .null => .ok none
    | .string s => .ok (some [s])
    | .array items =>
      match audienceItems items with
      | some xs => .ok (some xs)
      | none => .error "invalid type for claim"
    | _ => .error "invalid type for claim"

/-- Reads a text claim into `set`; `null` leaves it as it is. -/
def readText (claims : Claims) (key : String) (v : Value) (set : Claims → String → Claims) :
    Except String Claims :=
  match v with
  | .null => .ok claims
  | .string s => .ok (set claims s)
  | other => .error (textTypeError key other)

/-- Reads one member into the claims. -/
def readMember (claims : Claims) (key : String) (v : Value) (written : String) :
    Except String Claims :=
  match claimOf? key with
  | none => .ok claims
  | some .issuer => readText claims key v fun cl s => { cl with issuer := s }
  | some .subject => readText claims key v fun cl s => { cl with subject := s }
  | some .id => readText claims key v fun cl s => { cl with id := s }
  | some .role => readText claims key v fun cl s => { cl with role := s }
  | some .audience =>
    (readAudience v).map fun
      | some xs => { claims with audience := xs }
      | none => claims
  | some .expiresAt => (readDate written v).map fun d => { claims with expiresAt := d }
  | some .notBefore => (readDate written v).map fun d => { claims with notBefore := d }
  | some .issuedAt => (readDate written v).map fun d => { claims with issuedAt := d }

/-- Reads members in order, each with the text of its value as written; the first member that
cannot be read stops it. -/
def readMembers (claims : Claims) : List (String × Value × List UInt8) → Except String Claims
  | [] => .ok claims
  | (k, v, written) :: rest =>
    match readMember claims k v (Text.Utf8.decode written) with
    | .ok claims' => readMembers claims' rest
    | .error e => .error e

/-- The claims a JSON value holds, given the members of an object with their texts as written,
or the message of why it holds none. -/
def readClaims (v : Value) (written : List (String × Value × List UInt8)) :
    Except String Claims :=
  match v with
  | .null => .ok {}
  | .object _ => readMembers {} written
  | v => .error (mismatchMessage v.kindName "" [] "server.JWTClaims")

theorem readClaims_null : readClaims .null [] = .ok {} := rfl

end TreeCatalog.Token
