import TreeCatalog.Http.Message
import TreeCatalog.Http.Target
import TreeCatalog.Http.Address
import TreeCatalog.Http.Limiter
import TreeCatalog.Json.Stream
import TreeCatalog.Json.Read
import TreeCatalog.Json.Fold
import TreeCatalog.Settings.Config
import TreeCatalog.Token.Auth
import TreeCatalog.Guard
import TreeCatalog.Wire
/-! # The HTTP API

The server answers requests one at a time, keeping the rate limiter's memory and the disk between
them. A request goes through these stages, and the first that answers ends it:
1. routing: a path with a trailing slash that names an endpoint without it is redirected there
   (301 for GET, 307 for POST), before anything else;
2. the request id (`X-Request-ID`, or a fresh one) is echoed;
3. CORS: the allowed origin is named (`*` when only `*` is configured, else the request's origin
   if listed), and an `OPTIONS` request is answered 204;
4. rate limiting per client address, answered 429;
5. an unknown path or method is answered 404 as text;
6. under `/api`, unless access is open: the caller shows the API key or a valid token (the
   `Authorization` header, less a `Bearer ` prefix, else the `token` query parameter), else 401;
   creating a catalog with a token needs the admin role, else 403;
7. the endpoint itself. Paths it is given must be allowed by the guard (403, or 400 for a blank
   path). Failures of the catalog are answered by kind: access denied 403, a missing document
   404, a broken document 422, input/output on a missing file 404, anything else 500.

The host endpoints (metrics, host information, streamed creation) report facts of the machine
and are outside this model: serving one of them gives no response. -/

namespace TreeCatalog.Http

open Json

/-- The agent's version. -/
def version : String := "1.0.0"

/-- The endpoints of the server. -/
inductive Endpoint where
  | health
  | metrics
  | info
  | listCatalogs
  | createCatalog
  | streamCreate
  | loadDocument
  | renderedPath
  | rendered
  | search
deriving Repr, DecidableEq

/-- The method and path of an endpoint. -/
def Endpoint.key : Endpoint → String × String
  | .health => ("GET", "/health")
  | .metrics => ("GET", "/metrics")
  | .info => ("GET", "/api/info")
  | .listCatalogs => ("GET", "/api/catalogs")
  | .createCatalog => ("POST", "/api/catalogs")
  | .streamCreate => ("POST", "/api/catalogs/stream")
  | .loadDocument => ("GET", "/api/catalogs/document")
  | .renderedPath => ("GET", "/api/catalogs/rendered-path")
  | .rendered => ("GET", "/api/catalogs/rendered")
  | .search => ("GET", "/api/search")

/-- Every endpoint. -/
def endpoints : List Endpoint :=
  [.health, .metrics, .info, .listCatalogs, .createCatalog, .streamCreate, .loadDocument,
    .renderedPath, .rendered, .search]

/-- Whether an endpoint is under `/api`, where callers must authenticate. -/
def Endpoint.guarded : Endpoint → Bool
  | .health | .metrics => false
  | _ => true

/-- Whether an endpoint creates catalogs, which token holders may do only as admins. -/
def Endpoint.creates : Endpoint → Bool
  | .createCatalog | .streamCreate => true
  | _ => false

/-- Where a request goes. -/
inductive Route where
  | endpoint (e : Endpoint)
  | redirect
  | unknown
deriving Repr, DecidableEq

/-- The endpoint of a method and path. -/
def endpointOf? (method path : String) : Option Endpoint :=
  endpoints.find? (fun e => e.key = (method, path))

/-- The path without its last character. -/
def dropLastChar (s : String) : String := String.ofList s.toList.dropLast

/-- Routes a method and a decoded path. -/
def route (method path : String) : Route :=
  match endpointOf? method path with
  | some e => .endpoint e
  | none =>
    let hasTree := endpoints.any (fun e => e.key.1 = method)
    if hasTree ∧ path ≠ "/" ∧ path.endsWith "/" ∧
        (endpointOf? method (dropLastChar path)).isSome
    then .redirect else .unknown

/-- Whether a byte stays as it is in an escaped path. -/
def keepsInPath (c : UInt8) : Bool :=
  (97 ≤ c && c ≤ 122) || (65 ≤ c && c ≤ 90) || (48 ≤ c && c ≤ 57) ||
    [45, 95, 46, 126, 36, 38, 43, 44, 47, 58, 59, 61, 64].contains c

/-- A path with the bytes that need it written as `%XX`. -/
def escapePath (p : String) : String :=
  let hex (n : Nat) : Char := "0123456789ABCDEF".toList.getD n '0'
  String.ofList (p.toUTF8.toList.flatMap fun b =>
    if keepsInPath b then [Char.ofNat b.toNat] else ['%', hex (b.toNat / 16), hex (b.toNat % 16)])

/-- Text escaped for an attribute of a link. -/
def linkEscape (s : String) : String :=
  String.ofList (s.toList.flatMap fun
    | '&' => "&amp;".toList
    | '<' => "&lt;".toList
    | '>' => "&gt;".toList
    | '"' => "&#34;".toList
    | '\x27' => "&#39;".toList
    | c => [c])

/-- The characters kept in a forwarded prefix. -/
def keepsInPrefix (c : Char) : Bool :=
  ('a' ≤ c ∧ c ≤ 'z') || ('A' ≤ c ∧ c ≤ 'Z') || ('0' ≤ c ∧ c ≤ '9') || c = '/' ||
    c = '-'

/-- Runs of slashes made single. -/
def squeezeSlashes : List Char → List Char
  | '/' :: '/' :: rest => squeezeSlashes ('/' :: rest)
  | c :: rest => c :: squeezeSlashes rest
  | [] => []

/-- The directory part of a path: everything up to and including its last `/`. -/
def dirPart (p : String) : String := String.ofList (p.toList.reverse.dropWhile (· ≠ '/')).reverse

/-- Whether a location starts with `//` and a host name, so that it leaves this server. -/
def namesHost (s : String) : Bool :=
  match s.toList with
  | '/' :: '/' :: c :: _ => c ≠ '/'
  | _ => false

/-- The location a redirect names for a path: the escaped path, made absolute against the
directory of the path itself when it is relative, cleaned of `.`, `..` and repeated slashes (a
trailing slash kept), then the query. A location naming a host is left as it is. -/
def redirectLocation (newPath querySuffix : String) : String :=
  let escaped := escapePath newPath
  if namesHost escaped then escaped ++ querySuffix else
  let joined := if escaped.startsWith "/" then escaped else dirPart newPath ++ escaped
  let cleaned := Path.clean joined
  let cleaned := if joined.endsWith "/" ∧ ¬ cleaned.endsWith "/" then cleaned ++ "/" else cleaned
  cleaned ++ querySuffix

/-- The redirect of a path with a trailing slash to the path without it. A forwarded prefix
(cleaned, unsafe characters dropped) goes in front. -/
def redirectResponse (req : Request) (t : Target) : Response :=
  let prefixHeader := Path.clean (req.header "X-Forwarded-Prefix")
  let p := if prefixHeader = "." then t.path
    else String.ofList (squeezeSlashes (prefixHeader.toList.filter keepsInPrefix)) ++ "/" ++ t.path
  let newPath := if 1 < p.length ∧ p.endsWith "/" then dropLastChar p else p ++ "/"
  let url := redirectLocation newPath t.querySuffix
  if req.method = "GET" then
    ⟨301, [("Location", url), ("Content-Type", pageType)],
      .text ("<a href=\"" ++ linkEscape url ++ "\">Moved Permanently</a>.\n\n")⟩
  else ⟨307, [("Location", url)], .empty⟩

/-- The server's state. -/
structure Server where
  config : Settings.Config
  guard : Guard
  limiter : Limiter
  disk : Disk.Disk
  faults : Walk.Faults := {}

/-- A server for settings over a disk. -/
def Server.new (config : Settings.Config) (disk : Disk.Disk) (faults : Walk.Faults := {}) :
    Server :=
  ⟨config, Guard.make disk config.allowedPaths, Limiter.new config.rateLimit, disk, faults⟩

/-- The credentials callers are checked against. -/
def Server.credentials (s : Server) : Token.Credentials := ⟨s.config.apiKey, s.config.jwtSecret⟩

/-- Who a caller proved to be. -/
inductive Caller where
  | anyone
  | keyHolder
  | bearer (claims : Token.Claims)

/-- The token a request presents. -/
def presentedToken (req : Request) (t : Target) : String :=
  let auth := req.header "Authorization"
  if auth ≠ "" then
    if auth.startsWith "Bearer " then String.ofList (auth.toList.drop 7) else auth
  else t.query "token"

/-- The header fields of CORS for a request's origin. -/
def corsFields (origins : List String) (origin : String) (hs : List (String × String)) :
    List (String × String) :=
  let hs :=
    if origins = ["*"] then setField hs "Access-Control-Allow-Origin" "*"
    else if origins.contains origin then setField hs "Access-Control-Allow-Origin" origin
    else hs
  let hs := setField hs "Access-Control-Allow-Methods" "GET, POST, OPTIONS"
  let hs := setField hs "Access-Control-Allow-Headers"
    "Origin, Content-Type, Authorization, X-Request-ID"
  let hs := setField hs "Access-Control-Allow-Credentials" "true"
  setField hs "Access-Control-Max-Age" "86400"

/-- The status a catalog failure is answered with. -/
def statusFor (f : Fault) : Nat :=
  match f.core with
  | .accessDenied => 403
  | .notFound _ => 404
  | .parse _ _ => 422
  | .io _ _ c => if c.missing then 404 else 500
  | _ => 500

/-- The answer to a catalog failure. -/
def faultResponse (hs : List (String × String)) (f : Fault) : Response :=
  errorResponse hs (statusFor f) f.message

/-- A path the guard allows, made absolute, or the answer refusing it. -/
def Server.allowed (s : Server) (hs : List (String × String)) (p : String) :
    Except Response String :=
  match s.guard.resolve s.disk p with
  | .ok a => .ok a
  | .error .accessDenied => .error (errorResponse hs 403 Fault.accessDenied.message)
  | .error f => .error (errorResponse hs 400 f.message)

/-- The absolute form of a path from a request that may be used, as `allowed`; the path may be
bytes that are not UTF-8. -/
def Server.allowedOs (s : Server) (hs : List (String × String)) (p : Disk.OsPath) :
    Except Response Disk.OsPath :=
  match s.guard.resolveOs s.disk p with
  | .ok a => .ok a
  | .error .accessDenied => .error (errorResponse hs 403 Fault.accessDenied.message)
  | .error f => .error (errorResponse hs 400 f.message)

/-- Reads one text field of a creation request. -/
def readField (old : String) : Value → Option String
  | .null => some old
  | .string s => some s
  | _ => none

/-- Reads the members of a creation request in order; none at a value of the wrong type. -/
def requestMembers (r : Store.Request) : List (String × Value) → Option Store.Request
  | [] => some r
  | (k, v) :: rest =>
    let next : Option Store.Request :=
      if keyMatches "title" k then (readField r.title v).map fun x => { r with title := x }
      else if keyMatches "directoryPath" k then
        (readField r.directoryPath v).map fun x => { r with directoryPath := x }
      else if keyMatches "outputRoot" k then
        (readField r.outputRoot v).map fun x => { r with outputRoot := x }
      else if keyMatches "outputDirectory" k then
        (readField r.outputDirectory v).map fun x => { r with outputDirectory := x }
      else if keyMatches "copyToDirectory" k then
        (readField r.copyToDirectory v).map fun x => { r with copyToDirectory := x }
      else some r
    next.bind fun r' => requestMembers r' rest

/-- The creation request a body holds: its first JSON value, read as a request object. -/
def creationRequest (body : Option (List UInt8)) : Option Store.Request := do
  let bytes ← body
  let first ← leadingValue bytes
  match parse first with
  | .error _ => none
  | .ok .null => some {}
  | .ok (.object ms) => requestMembers {} ms
  | .ok _ => none

/-- The creation request with every path it names allowed and made absolute. -/
def Server.allowedRequest (s : Server) (hs : List (String × String)) (r : Store.Request) :
    Except Response Store.Request := do
  let dir ← s.allowed hs r.directoryPath
  let out ← if r.outputDirectory = "" then pure "" else s.allowed hs r.outputDirectory
  let copy ← if r.copyToDirectory = "" then pure "" else s.allowed hs r.copyToDirectory
  pure { r with directoryPath := dir, outputDirectory := out, copyToDirectory := copy }

/-- Creates a catalog. -/
def Server.create (s : Server) (hs : List (String × String)) (req : Request) (now : Int) :
    Server × Response :=
  match creationRequest req.body with
  | none => (s, errorResponse hs 400 "invalid request body")
  | some r =>
    match r.problem with
    | some msg => (s, errorResponse hs 400 msg)
    | none =>
      match s.allowedRequest hs r with
      | .error resp => (s, resp)
      | .ok r =>
        let o := Store.create s.disk s.faults now r
        let s := { s with disk := o.disk }
        match o.result with
        | .ok c => (s, jsonResponse hs 201 (Wire.created c))
        | .error f => (s, faultResponse hs f)

/-- Answers with a value computed from an allowed path, or with the failure; none when computing
it waits for ever. -/
def Server.withPath (s : Server) (hs : List (String × String)) (p : Disk.OsPath)
    (k : Disk.OsPath → Except Fault Value) : Option Response :=
  match s.allowedOs hs p with
  | .error resp => some resp
  | .ok a =>
    match k a with
    | .ok v => some (jsonResponse hs 200 v)
    | .error (.waits _) => none
    | .error f => some (faultResponse hs f)

/-- The path a query key gives, as the bytes the request spelled. -/
def queryPath (t : Target) (key : String) : Disk.OsPath := Disk.OsPath.ofBytes (t.queryBytes key)

/-- Runs an endpoint for a caller who passed the checks. -/
def Server.handle (s : Server) (e : Endpoint) (req : Request) (t : Target)
    (hs : List (String × String)) (now : Int) : Server × Option Response :=
  let d := s.disk
  match e with
  | .health =>
    (s, some (jsonResponse hs 200 (.object [("status", .string "ok"),
      ("timestamp", .string (Clock.rfc3339 now)), ("version", .string version)])))
  | .metrics | .info | .streamCreate => (s, none)
  | .createCatalog => let (s', r) := s.create hs req now; (s', some r)
  | .listCatalogs =>
    (s, s.withPath hs (s.config.catalogDirFor (queryPath t "dir")) fun dir =>
      (Store.listCatalogs d dir).map fun cs =>
        .object [("directory", .string dir.shown), ("catalogs", .array (cs.map Wire.summary))])
  | .loadDocument =>
    (s, s.withPath hs (queryPath t "path") fun p =>
      (Store.loadDocument d p).map fun doc =>
        .object [("path", .string p.shown), ("shape", .string doc.shape.name),
          ("catalog", Wire.entry doc.root)])
  | .renderedPath =>
    (s, s.withPath hs (queryPath t "path") fun p =>
      (Store.resolveRenderedPath d p).map fun h => .object [("path", .string h)])
  | .rendered =>
    match s.allowedOs hs (queryPath t "path") with
    | .error resp => (s, some resp)
    | .ok p =>
      match Store.readRendered d p with
      | .ok page => (s, some ⟨200, setField hs "Content-Type" pageType, .text page⟩)
      | .error (.waits _) => (s, none)
      | .error f => (s, some (faultResponse hs f))
  | .search =>
    let term := t.query "term"
    if term = "" then (s, some (errorResponse hs 400 "term is required")) else
    (s, s.withPath hs (s.config.catalogDirFor (queryPath t "dir")) fun dir =>
      (Search.searchDirectory d term dir).map fun hits =>
        .object [("term", .string term), ("directory", .string dir.shown),
          ("count", Value.nat hits.length), ("results", .array (hits.map Wire.hit))])

/-- Checks the caller of a guarded endpoint, answering 401 or 403 when refused. -/
def Server.authenticate (s : Server) (e : Endpoint) (req : Request) (t : Target)
    (hs : List (String × String)) (now : Int) : Except Response Caller :=
  if !e.guarded || s.config.openAccess then .ok .anyone else
  let token := presentedToken req t
  if token = "" then .error (errorResponse hs 401 "missing authentication token")
  else if s.credentials.acceptsKey token then .ok .keyHolder
  else
    match s.credentials.check token now with
    | .error _ => .error (errorResponse hs 401 "invalid authentication token")
    | .ok claims =>
      if e.creates ∧ claims.role ≠ Token.Role.admin.name then
        .error (errorResponse hs 403 "admin role required")
      else .ok (.bearer claims)

/-- The client a request comes from, named by its forwarding headers. -/
def Request.client (req : Request) : String :=
  clientOf (req.header "X-Forwarded-For") (req.header "X-Real-IP")

/-- The header fields every answer past routing carries: the request id (the request's own, else
`freshId`) and the CORS fields. -/
def Server.baseHeaders (s : Server) (req : Request) (freshId : String) : List (String × String) :=
  let given := req.header "X-Request-ID"
  corsFields s.config.allowedOrigins (req.header "Origin")
    [("X-Request-ID", if given = "" then freshId else given)]

/-- Serves one request at `now` (nanoseconds) with `run` as the endpoints' handler: the stages in
front of the endpoints answer first, and `run` answers only a request that passes them all.
`freshId` is the request id used when the request brings none. -/
def Server.serveWith (s : Server)
    (run : Server → Endpoint → Request → Target → List (String × String) → Int →
      Server × Option Response)
    (req : Request) (now : Int) (freshId : String) : Server × Option Response :=
  let t := Target.parse req.target
  match route req.method t.path with
  | .redirect => (s, some (redirectResponse req t))
  | r =>
    let hs := s.baseHeaders req freshId
    if req.method = "OPTIONS" then (s, some ⟨204, hs, .empty⟩) else
    let (limiter, allowed) := s.limiter.allow req.client now
    let s := { s with limiter := limiter }
    if !allowed then (s, some (errorResponse hs 429 "rate limit exceeded")) else
    match r with
    | .endpoint e =>
      match s.authenticate e req t hs now with
      | .error resp => (s, some resp)
      | .ok _ => run s e req t hs now
    | _ => (s, some ⟨404, setField hs "Content-Type" "text/plain", .text "404 page not found"⟩)

/-- Serves one request at `now` (nanoseconds); `freshId` is the request id used when the request
brings none. The result is the server after it and the response, none for a host endpoint and
for a request whose handler never returns. -/
def Server.serve (s : Server) (req : Request) (now : Int) (freshId : String) :
    Server × Option Response :=
  s.serveWith Server.handle req now freshId

theorem route_listCatalogs : route "GET" "/api/catalogs" = .endpoint .listCatalogs := by
  decide

end TreeCatalog.Http
