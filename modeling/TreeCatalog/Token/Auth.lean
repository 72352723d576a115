import TreeCatalog.Token.Signed
/-! # Authentication

Callers prove who they are with the agent's API key or with a token the agent signed. Tokens carry
a role: readers may list, view and search catalogs; admins (and API-key callers) may also create
them. A token is accepted only when it verifies under the agent's secret, was issued by the agent,
and carries one of the two roles. -/

namespace TreeCatalog.Token

/-- The issuer written into every token the agent signs and required of every token it accepts. -/
def agentIssuer : String := "storcat-agent"

/-- The roles a token may carry. -/
inductive Role where
  | admin
  | reader
deriving Repr, DecidableEq

/-- The name of a role in tokens. -/
def Role.name : Role → String
  | .admin => "admin"
  | .reader => "reader"

/-- The role a name stands for. -/
def Role.ofName? (s : String) : Option Role :=
  if s = "admin" then some .admin else if s = "reader" then some .reader else none

/-- Whether a name is a role. -/
def validRole (s : String) : Bool := (Role.ofName? s).isSome

/-- What the agent authenticates with: its API key and its token secret. -/
structure Credentials where
  apiKey : String
  secret : String
deriving Repr

/-- Whether a key is the agent's API key (an empty key never is). -/
def Credentials.acceptsKey (c : Credentials) (key : String) : Bool := key != "" && key == c.apiKey

/-- The claims of a token the agent accepts at `now` (nanoseconds), or why it is refused. -/
def Credentials.check (c : Credentials) (token : String) (now : Int) : Except String Claims :=
  match verify c.secret.toUTF8.toList agentIssuer now token with
  | .error r => .error r.message
  | .ok claims => if validRole claims.role then .ok claims else .error "invalid token role"

/-- A token for `subject` with `role`, issued at `now` and valid for `ttl` (nanoseconds); `id` is
its unique identifier. Times in the token are whole seconds, rounded down. -/
def Credentials.issue (c : Credentials) (subject role : String) (ttl now : Int) (id : String) :
    Except String String :=
  if !validRole role then .error ("unknown role " ++ role) else
  let second : Int := 1000000000
  .ok (sign c.secret.toUTF8.toList
    { issuer := agentIssuer, subject := subject, expiresAt := some ((now + ttl) / second),
      issuedAt := some (now / second), id := id, role := role })

theorem acceptsKey_empty (c : Credentials) : c.acceptsKey "" = false := by
  simp [Credentials.acceptsKey]

end TreeCatalog.Token
