import TreeCatalog.Token.Claims
import TreeCatalog.Json.Read
import TreeCatalog.Json.Value
import TreeCatalog.Text.Base64
import TreeCatalog.Text.Utf8
import TreeCatalog.Digest.Hmac
/-! # Signed tokens

A token is three unpadded URL-base64 segments separated by dots: a JSON header, the JSON claims,
and an HMAC-SHA-256 signature of the first two segments (as written) under a shared secret. It is
checked in this order, and the first failure is the answer:
1. three segments; the header decodes and is JSON; the claims decode and are read;
2. the header names a known signing algorithm (`alg`, a string), and it is HS256;
3. the signature decodes and matches;
4. the claims hold: an expiry is present and still ahead, a not-before time (if any) has come,
   and the issuer is present and the expected one. A date too late for the clock wraps around
   to the past. All failures of this step are reported
   together, separated by commas. -/

namespace TreeCatalog.Token

open Json

/-- Why a token is refused. -/
inductive Refusal where
  | malformed (detail : String)
  | unverifiable (detail : String)
  | signature (detail : String)
  | claims (problems : List String)
deriving Repr, DecidableEq

/-- The message of a refusal. -/
def Refusal.message : Refusal → String
  | .malformed d => "token is malformed: " ++ d
  | .unverifiable d => "token is unverifiable: " ++ d
  | .signature d => "token signature is invalid: " ++ d
  | .claims ps => "token has invalid claims: " ++ ", ".intercalate ps

/-- The signing algorithms that exist, whether or not they are accepted. -/
def knownAlgorithms : List String :=
  ["HS256", "HS384", "HS512", "RS256", "RS384", "RS512", "ES256", "ES384", "ES512", "PS256",
    "PS384", "PS512", "EdDSA", "none"]

/-- The only accepted algorithm. -/
def accepted : String := "HS256"

/-- The bytes a segment stands for. -/
def decodeSegment (seg : String) : Except String (List UInt8) :=
  match Text.Base64.decode Text.Base64.url seg.toUTF8.toList with
  | .ok bs => .ok bs
  | .error n => .error (Text.Base64.errorMessage n)

/-- The segment of bytes. -/
def encodeSegment (bs : List UInt8) : String :=
  Text.Utf8.decode (Text.Base64.encode Text.Base64.url bs)

/-- The value of the last member named `key` of an object. -/
def lastMember (key : String) : Value → Option Value
  | .object ms => (ms.filter (·.1 == key)).getLast?.map (·.2)
  | _ => none

/-- The last second since the epoch a clock reading holds as a later time. A reading counts
seconds from the start of year 1 in 64 bits, so a date past this second wraps around to a time
long gone. -/
def lastSecond : Int := 9223372036854775807 - 62135596800

/-- Whether the date `t` (seconds) comes after `now` (nanoseconds) on the clock. -/
def isAhead (t now : Int) : Bool := now < t * 1000000000 ∧ t ≤ lastSecond

/-- The problems of claims at `now` (nanoseconds) for an expected issuer. -/
def claimProblems (c : Claims) (issuer : String) (now : Int) : List String :=
  let exp := match c.expiresAt with
    | none => ["token is missing required claim: exp claim is required"]
    | some t => if isAhead t now then [] else ["token is expired"]
  let nbf := match c.notBefore with
    | some t => if isAhead t now then ["token is not valid yet"] else []
    | none => []
  let iss :=
    if c.issuer = "" then ["token is missing required claim: iss claim is required"]
    else if c.issuer ≠ issuer then ["token has invalid issuer"] else []
  exp ++ nbf ++ iss

/-- The header and claims of a token, before its signature is looked at. -/
def unverified (header claims : String) : Except Refusal (Value × Claims) := do
  let hb ← (decodeSegment header).mapError fun e =>
    Refusal.malformed ("could not base64 decode header: " ++ e)
  let hv ← match parse hb with
    | .ok (.object ms) =>
      match overflowIn (.object ms) with
      | some (lit, path) =>
        throw (Refusal.malformed ("could not JSON decode header: " ++ overflowMessage lit path))
      | none => pure (Value.object ms)
    | .ok .null => pure (Value.object [])
    | .ok v => throw (Refusal.malformed ("could not JSON decode header: " ++
        mismatchMessage v.kindName "" [] "map[string]interface \x7b\x7d"))
    | .error e => throw (Refusal.malformed ("could not JSON decode header: " ++ e.message))
  let cb ← (decodeSegment claims).mapError fun e =>
    Refusal.malformed ("could not base64 decode claim: " ++ e)
  let cv ← (parse cb).mapError fun e =>
    Refusal.malformed ("could not JSON decode claim: " ++ e.message)
  let c ← (readClaims cv (objectMembers cb)).mapError fun e =>
    Refusal.malformed ("could not JSON decode claim: " ++ e)
  pure (hv, c)

/-- Checks a token against a secret and an expected issuer at `now` (nanoseconds), giving its
claims. -/
def verify (secret : List UInt8) (issuer : String) (now : Int) (token : String) :
    Except Refusal Claims :=
  match token.splitOn "." with
  | [header, claims, signature] => do
    let (hv, c) ← unverified header claims
    let alg ← match lastMember "alg" hv with
      | some (.string a) =>
        if knownAlgorithms.contains a then pure a
        else throw (Refusal.unverifiable "signing method (alg) is unavailable")
      | _ => throw (Refusal.unverifiable "signing method (alg) is unspecified")
    if alg ≠ accepted then throw (Refusal.signature ("signing method " ++ alg ++ " is invalid"))
    let sig ← (decodeSegment signature).mapError fun e =>
      Refusal.malformed ("could not base64 decode signature: " ++ e)
    let expected := Digest.hmacSha256 secret (header ++ "." ++ claims).toUTF8.toList
    if sig ≠ expected then throw (Refusal.signature "signature is invalid")
    match claimProblems c issuer now with
    | [] => pure c
    | ps => throw (Refusal.claims ps)
  | _ => .error (.malformed "token contains an invalid number of segments")

/-- The JSON of claims as they are signed: registered claims in their order, empty texts and
absent dates left out. -/
def claimsValue (c : Claims) : Value :=
  let text (k v : String) : List (String × Value) := if v = "" then [] else [(k, .string v)]
  let date (k : String) : Option Int → List (String × Value)
    | some t => [(k, Value.int t)]
    | none => []
  let aud : List (String × Value) := match c.audience with
    | [] => []
    | [a] => [("aud", .string a)]
    | xs => [("aud", Value.strings xs)]
  .object (text "iss" c.issuer ++ text "sub" c.subject ++ aud ++ date "exp" c.expiresAt ++
    date "nbf" c.notBefore ++ date "iat" c.issuedAt ++ text "jti" c.id ++ text "role" c.role)

/-- The header of a token signed with HS256. -/
def signedHeader : Value := .object [("alg", .string accepted), ("typ", .string "JWT")]

/-- A token carrying `claims`, signed with HS256 under `secret`. -/
def sign (secret : List UInt8) (claims : Claims) : String :=
  let body := encodeSegment (signedHeader.text .web).toUTF8.toList ++ "." ++
    encodeSegment ((claimsValue claims).text .web).toUTF8.toList
  body ++ "." ++ encodeSegment (Digest.hmacSha256 secret body.toUTF8.toList)

theorem claimProblems_ok (c : Claims) (issuer : String) (now t : Int)
    (he : c.expiresAt = some t) (hnow : now < t * 1000000000) (ht : t ≤ lastSecond)
    (hnbf : c.notBefore = none) (hi : c.issuer = issuer) (hne : issuer ≠ "") :
    claimProblems c issuer now = [] := by
  simp [claimProblems, isAhead, he, hnbf, hi, hne, hnow, ht]

end TreeCatalog.Token
