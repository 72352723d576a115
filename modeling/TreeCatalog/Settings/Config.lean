import TreeCatalog.Settings.Dotenv
import TreeCatalog.Disk.Basic
import TreeCatalog.Text.Blank
import TreeCatalog.Text.Decimal
/-! # Settings

The agent is configured by environment variables, completed by an environment file: the file
named by `ENV_FILE`, else `.env`. The file only fills in variables the environment does not
already have (an empty value counts as set), and a file that cannot be read or parsed adds
nothing. A variable that is unset or empty takes its default. Integers are decimal literals within
64 bits (anything else takes the default); durations are given in whole seconds and held in
nanoseconds, overflowing as machine integers do; lists are split at commas and each item trimmed.

A port outside `1 ..= 65535` is refused; fewer than one search worker means one. Without an API
key access is open; with one, a missing token secret is the API key. -/

namespace TreeCatalog.Settings

/-- A process environment: names bound to values, the first binding of a name counting. -/
abbrev Env := List (String × String)

/-- The agent's settings. Durations are in nanoseconds. -/
structure Config where
  port : Int
  host : String
  readTimeout : Int
  writeTimeout : Int
  apiKey : String
  jwtSecret : String
  allowedOrigins : List String
  rateLimit : Int
  allowedPaths : List String
  logLevel : String
  logFormat : String
  catalogDir : String
  searchWorkers : Int
  infoCacheTtl : Int
  openAccess : Bool := false
  envFile : String := ""
deriving Repr

/-- Nanoseconds in a second. -/
def second : Int := 1000000000

/-- The value of a variable, unless it is unset or empty. -/
def Env.text? (env : Env) (key : String) : Option String :=
  match env.lookup key with
  | some v => if v = "" then none else some v
  | none => none

/-- A text setting. -/
def Env.text (env : Env) (key dflt : String) : String := (env.text? key).getD dflt

/-- An integer setting: the variable when it is a decimal literal within 64 bits. -/
def Env.int (env : Env) (key : String) (dflt : Int) : Int :=
  match env.text? key with
  | some v => (Text.int64? v).getD dflt
  | none => dflt

/-- A duration setting given in seconds, in nanoseconds. -/
def Env.seconds (env : Env) (key : String) (dflt : Int) : Int :=
  Text.wrap64 (env.int key dflt * second)

/-- A list setting: the items between commas, each trimmed, empty ones kept. -/
def Env.list (env : Env) (key : String) (dflt : List String) : List String :=
  match env.text? key with
  | some v => (v.splitOn ",").map Text.trim
  | none => dflt

/-- The environment file to read. -/
def envFileOf (env : Env) : String := env.text "ENV_FILE" ".env"

/-- Whether a binding can be put into an environment: a name, and a value without a NUL. -/
def settable (kv : String × String) : Bool := kv.1 ≠ "" && !kv.2.contains '\x00'

/-- The final bindings of assignments given newest first: the newest of each name. -/
def newest : List (String × String) → List (String × String)
  | [] => []
  | (k, v) :: rest => (k, v) :: (newest rest).filter (·.1 ≠ k)

/-- The environment after reading the environment file `file` from the disk: the file's
bindings for names the environment lacks are added behind it. -/
def withFile (d : Disk.Disk) (env : Env) (file : String) : Env :=
  match d.readFile file with
  | .error _ => env
  | .ok bytes =>
    match Dotenv.read bytes with
    | .error _ => env
    | .ok assigned =>
      env ++ (newest assigned).filter fun kv => settable kv && (env.lookup kv.1).isNone

/-- The settings an environment gives, without the checks. -/
def fromEnv (env : Env) (envFile : String) : Config where
  port := env.int "PORT" 8092
  host := env.text "HOST" "0.0.0.0"
  readTimeout := env.seconds "READ_TIMEOUT_SECONDS" 30
  writeTimeout := env.seconds "WRITE_TIMEOUT_SECONDS" 300
  apiKey := env.text "API_KEY" ""
  jwtSecret := env.text "JWT_SECRET" ""
  allowedOrigins := env.list "ALLOWED_ORIGINS" ["*"]
  rateLimit := env.int "RATE_LIMIT_RPS" 100
  allowedPaths := env.list "ALLOWED_PATHS" ["*"]
  logLevel := env.text "LOG_LEVEL" "info"
  logFormat := env.text "LOG_FORMAT" "json"
  catalogDir := env.text "CATALOG_DIR" "."
  searchWorkers := env.int "SEARCH_WORKERS" 4
  infoCacheTtl := env.seconds "INFO_CACHE_SECONDS" 5
  envFile := envFile

/-- Settings with the checks applied: the port range, at least one worker, and the access rule. -/
def Config.settle (c : Config) : Except String Config :=
  if c.port ≤ 0 ∨ 65535 < c.port then .error ("invalid PORT " ++ toString c.port)
  else
    let c := { c with searchWorkers := max c.searchWorkers 1 }
    if c.apiKey = "" then .ok { c with openAccess := true }
    else if c.jwtSecret = "" then .ok { c with jwtSecret := c.apiKey }
    else .ok c

/-- Loads the settings from an environment and the environment file on a disk. -/
def load (d : Disk.Disk) (env : Env) : Except String Config :=
  let file := envFileOf env
  (fromEnv (withFile d env file) file).settle

/-- Fixed settings for tests: a known API key and token secret, everything allowed. -/
def testing : Config where
  port := 8092
  host := "0.0.0.0"
  readTimeout := 30 * second
  writeTimeout := 300 * second
  apiKey := "test-api-key"
  jwtSecret := "test-jwt-secret"
  allowedOrigins := ["*"]
  rateLimit := 100
  allowedPaths := ["*"]
  logLevel := "info"
  logFormat := "json"
  catalogDir := "."
  searchWorkers := 4
  infoCacheTtl := 5 * second

/-- The address the server listens on. -/
def Config.addr (c : Config) : String := c.host ++ ":" ++ toString c.port

/-- The catalog directory a request names, or the configured one when it names none. -/
def Config.catalogDirFor (c : Config) (dir : Disk.OsPath) : Disk.OsPath :=
  if Text.trim dir.shown = "" then .text c.catalogDir else dir

theorem settle_port (c c' : Config) (h : c.settle = .ok c') : 0 < c'.port ∧ c'.port ≤ 65535 := by
  unfold Config.settle at h
  split at h
  · simp at h
  · rename_i hp
    dsimp only at h
    split at h
    · cases h; dsimp only; omega
    · split at h <;> (cases h; dsimp only; omega)

end TreeCatalog.Settings
