import TreeCatalog.Text.Blank
/-! # Client addresses

Requests are attributed to a client by address. Forwarding headers are trusted: the first of
`X-Forwarded-For` and `X-Real-IP` that is a comma-separated list of IP addresses (each trimmed)
names the client by its first item, as written; otherwise the peer address of the connection
counts. An IP address is four dotted decimal fields below 256 without leading zeros, or eight
colon-separated groups of at most four hexadecimal digits, one run of zero groups written `::`,
the last two groups possibly written as an IPv4 address; zones are not addresses. -/

namespace TreeCatalog.Http

/-- Whether a text is a dotted IPv4 address. -/
def isIpv4 (s : List Char) : Bool :=
  let fields := (String.ofList s).splitOn "."
  fields.length = 4 && fields.all fun f =>
    let cs := f.toList
    !cs.isEmpty && cs.length ≤ 3 && cs.all Char.isDigit &&
      (cs.length = 1 || cs.head? != some '0') &&
      cs.foldl (fun n c => n * 10 + (c.toNat - 48)) 0 ≤ 255

/-- Whether a character is a hexadecimal digit. -/
def isHexChar (c : Char) : Bool :=
  c.isDigit || ('a' ≤ c && c ≤ 'f') || ('A' ≤ c && c ≤ 'F')

/-- Reads IPv6 groups from `s`, `filled` bytes of the address being written so far and
`ellipsis` telling whether `::` was met; at most `fuel` groups. -/
def ipv6Groups (fuel : Nat) (s : List Char) (filled : Nat) (ellipsis : Bool) : Bool :=
  match fuel with
  | 0 => false
  | fuel + 1 =>
    let digits := s.takeWhile isHexChar
    let rest := s.dropWhile isHexChar
    if digits.isEmpty ∨ 4 < digits.length then false
    else if rest.head? = some '.' then
      (ellipsis ∨ filled = 12) ∧ filled + 4 ≤ 16 ∧ isIpv4 s ∧
        (filled + 4 = 16 ∨ ellipsis) ∧ ¬ (filled + 4 = 16 ∧ ellipsis)
    else
      let filled := filled + 2
      let finish (rest : List Char) (ellipsis : Bool) : Bool :=
        rest.isEmpty ∧ (if filled < 16 then ellipsis else !ellipsis)
      match rest with
      | [] => finish [] ellipsis
      | [':'] => false
      | ':' :: ':' :: more =>
        if ellipsis then false
        else if more.isEmpty then finish [] true
        else if 16 ≤ filled then false
        else ipv6Groups fuel more filled true
      | ':' :: more => if 16 ≤ filled then false else ipv6Groups fuel more filled ellipsis
      | _ => false

/-- Whether a text is an IPv6 address without a zone. -/
def isIpv6 (s : List Char) : Bool :=
  if s.contains '%' then false else
  match s with
  | ':' :: ':' :: [] => true
  | ':' :: ':' :: rest => ipv6Groups (rest.length + 1) rest 0 true
  | _ => ipv6Groups (s.length + 1) s 0 false

/-- Whether a text is an IP address: its first `.`, `:` or `%` decides the family. -/
def isIp (s : String) : Bool :=
  match s.toList.find? (fun c => c = '.' ∨ c = ':' ∨ c = '%') with
  | some '.' => isIpv4 s.toList
  | some ':' => isIpv6 s.toList
  | _ => false

/-- The client a forwarding header names: its first item, when every item is an address. -/
def forwardedClient (header : String) : Option String :=
  if header = "" then none else
  let items := (header.splitOn ",").map Text.trim
  if items.all isIp then items.head? else none

/-- The peer address of every connection the server sees. -/
def peerAddress : String := "192.0.2.1"

/-- The client a request is attributed to, from its forwarding headers. -/
def clientOf (forwardedFor realIp : String) : String :=
  (forwardedClient forwardedFor <|> forwardedClient realIp).getD peerAddress

theorem clientOf_plain : clientOf "" "" = peerAddress := by
  simp [clientOf, forwardedClient]

end TreeCatalog.Http
