import TreeCatalog.Command.Run
import TreeCatalog.Disk.Write
/-! # The program

Runs a command line. The catalog model works on a disk held in memory, so the program first
reads into one the files the command line names: every argument that is a readable file, the
rendering beside it, and the environment file. Directories are not read from the real file
system here, so a directory appears holding only the files read this way. The environment is
the configuration's variables and the names the environment file refers to. What the command
prints goes to the output and error streams, and a failed run exits with status 1. -/

namespace TreeCatalog.Command

/-- The environment variables the configuration reads. -/
def configKeys : List String :=
  ["PORT", "HOST", "READ_TIMEOUT_SECONDS", "WRITE_TIMEOUT_SECONDS", "API_KEY", "JWT_SECRET",
   "ALLOWED_ORIGINS", "RATE_LIMIT_RPS", "ALLOWED_PATHS", "LOG_LEVEL", "LOG_FORMAT", "CATALOG_DIR",
   "SEARCH_WORKERS", "INFO_CACHE_SECONDS", "ENV_FILE"]

/-- Whether a character may stand in a variable name. -/
def nameChar (c : Char) : Bool := c.isAlphanum ∨ c = '_'

/-- The names a text refers to as `$NAME`, `$\x7bNAME\x7d` or `$(NAME`. -/
def referencedNames : List Char → List String
  | [] => []
  | '$' :: rest =>
    let body := match rest with
      | '\x7b' :: r | '(' :: r => r
      | r => r
    let name := body.takeWhile nameChar
    (if name.isEmpty then [] else [String.ofList name]) ++ referencedNames rest
  | _ :: rest => referencedNames rest

/-- The physical place of a path on the in-memory disk, whose working directory is the root. -/
def placeOf (p : String) : List String := Path.parts (Path.clean ("/" ++ p))

/-- The files worth reading for a command line: each argument, its rendering when it names a
document, and the environment file. -/
def wanted (args : List String) (envFile : String) : List String :=
  (args.flatMap fun a => if a.endsWith ".json" then [a, Store.renderedPathFor a] else [a]) ++
    [envFile]

/-- Reads the files a command line names into a disk, skipping those that cannot be read. -/
def readDisk (paths : List String) : IO Disk.Disk := do
  let mut d : Disk.Disk := { root := .dir [], cwd := "/" }
  for p in paths do
    try
      let bytes ← IO.FS.readBinFile p
      d := d.plant (placeOf p) (.file bytes.toList bytes.size 0)
    catch _ => pure ()
  return d

/-- The values of the named environment variables that are set. -/
def readEnv (names : List String) : IO Settings.Env := do
  let mut env : Settings.Env := []
  for k in names.eraseDups do
    match ← IO.getEnv k with
    | some v => env := env ++ [(k, v)]
    | none => pure ()
  return env

end TreeCatalog.Command

open TreeCatalog in
/-- Runs the command line and prints what it printed; status 1 when it failed. -/
def main (args : List String) : IO UInt32 := do
  let env ← Command.readEnv Command.configKeys
  let envFile := Settings.envFileOf env
  let d ← Command.readDisk (Command.wanted args envFile)
  let named := match d.readFile envFile with
    | .ok bytes => Command.referencedNames (Text.Utf8.decode bytes).toList
    | .error _ => []
  let env ← Command.readEnv (Command.configKeys ++ named)
  match Command.run d env args with
  | none =>
    IO.eprintln "Error: this command is not available in this build"
    return 1
  | some o =>
    IO.print o.stdout
    IO.eprint o.stderr
    return if o.failure.isSome then 1 else 0
