import TreeCatalog.Command.Find
import TreeCatalog.Command.Help
import TreeCatalog.Settings.Config
import TreeCatalog.Store.Documents
import TreeCatalog.Render.Outline
import TreeCatalog.Size.Format
import TreeCatalog.Wire
/-! # Running a command line

A command line runs in stages, and the first that fails ends it with its message on the error
stream: finding the command (an unknown word also points to the root's help), reading its flags,
then, unless the help or version flag asks for text, checking its positional arguments, loading
the configuration, and last the command's own work. A command that does nothing of its own prints
its help. The commands run here read catalogs: `show` prints one as a tree (or its stored
rendering), `search` prints the entries of a directory's catalogs whose names contain a term, and
`list` prints a directory's catalogs; `help` prints the help of a command path. The commands that
write files, serve or print completion scripts are outside this model: running one gives no
outcome. -/

namespace TreeCatalog.Command

open Settings

/-- Why a run failed: a fault of the catalog, or a plain message. -/
inductive Failure where
  | fault (f : Fault)
  | message (text : String)
deriving Repr

/-- The message of a failure. -/
def Failure.text : Failure → String
  | .fault f => f.message
  | .message t => t

/-- What a run printed on its output and error streams, and how it failed, if it did. -/
structure Outcome where
  stdout : String := ""
  stderr : String := ""
  failure : Option Failure := none
deriving Repr

/-- The outcome of a failure: its message after `Error: ` on the error stream. -/
def Outcome.failed (f : Failure) : Outcome :=
  { stderr := "Error: " ++ f.text ++ "\n", failure := some f }

/-- The outcome of a plain message of failure. -/
def Outcome.refused (text : String) : Outcome := .failed (.message text)

/-- The outcome of a step of the catalog that printed `text` or failed. -/
def Outcome.ofStep : Except Fault String → Outcome
  | .ok text => { stdout := text }
  | .error f => .failed (.fault f)

/-- The outcome of printing a command's help. -/
def helpOutcome (c : Cmd) (ready : Bool) : Option Outcome := some { stdout := helpText c ready }

/-- Whether a word can be shown between backquotes: no backquote, no control character but tab,
and no byte order mark. -/
def backquotable (s : String) : Bool :=
  s.toList.all fun c => ¬ ((c.toNat < 0x20 ∧ c ≠ '\t') ∨ c = '\x60' ∨ c.toNat = 0x7f ∨
    c.toNat = 0xfeff)

/-- A list of words as the unknown-topic message shows them: bracketed, each between backquotes
when it can be, else quoted. -/
def wordList (words : List String) : String :=
  "[" ++ " ".intercalate (words.map fun w =>
    if backquotable w then "\x60" ++ w ++ "\x60" else Text.Quoted.string w) ++ "]"

/-- What `help` prints for a command path: that command's help, or for an unknown path a notice
and the root's usage (whose help flag is not yet set up). -/
def helpTopic (topic : List String) : Option Outcome :=
  match find topic with
  | .ok (c, _) => helpOutcome c true
  | .error _ =>
    some { stdout := "Unknown help topic " ++ wordList topic ++ "\n" ++ usageText .root false }

/-- The message of a wrong number of positional arguments, if it is wrong. -/
def arityProblem (c : Cmd) (args : List String) : Option String :=
  match c.arity, args with
  | .exactly n, _ =>
    if args.length = n then none
    else some ("accepts " ++ toString n ++ " arg(s), received " ++ toString args.length)
  | .none_, w :: _ => some (unknownCommand w c)
  | _, _ => none

/-- The summary line under a printed tree. -/
def treeFooter (root : Entry) : String :=
  "\n" ++ Size.text root.size ++ " used in " ++ toString root.countDirectories ++
    " directories, " ++ toString root.countFiles ++ " files\n"

/-- What `show` prints: the catalog's tree and summary, or its stored rendering. -/
def showCatalog (d : Disk.Disk) (path : String) (depth : Int) (rendered : Bool) :
    Except Fault String :=
  if rendered then
    (Store.resolveRenderedPath d path).bind fun html => Store.readRendered d html
  else
    (Store.loadDocument d path).map fun doc =>
      Render.outline doc.root depth ++ treeFooter doc.root

/-- One line of search results: size column, then the name (a directory's ending in `/`). -/
def hitLine (h : Search.Hit) : String :=
  let name := if h.kind = Entry.directoryKind ∧ ¬ h.fullName.endsWith "/" then h.fullName ++ "/"
    else h.fullName
  "  " ++ Size.column h.size ++ " " ++ name ++ "\n"

/-- Search results grouped under their catalog's name; a heading starts whenever the catalog
file changes from the line before. -/
def hitLines (current : String) : List Search.Hit → String
  | [] => ""
  | h :: hs =>
    (if h.catalogFilePath ≠ current then "\n" ++ h.catalog ++ "\n" else "") ++ hitLine h ++
      hitLines h.catalogFilePath hs

/-- The printed search results for a term. -/
def hitsText (term : String) (hits : List Search.Hit) : String :=
  if hits.isEmpty then "No entries match " ++ Text.Quoted.string term ++ "\n"
  else
    toString hits.length ++ " matches for " ++ Text.Quoted.string term ++ "\n" ++
      hitLines "" hits

/-- The search results as an indented JSON array. -/
def hitsJson (hits : List Search.Hit) : String :=
  (Json.Value.array (hits.map Wire.hit)).text .pretty ++ "\n"

/-- One line of the catalog list: name, title, size, modification minute, and a note when there
is no rendering. -/
def summaryLine (s : Store.Summary) : String :=
  "  " ++ padRight 24 s.name ++ " " ++ padRight 32 s.title ++ " " ++
    Size.padLeft 6 (Size.text s.size) ++ "  " ++ Clock.minuteText s.modified ++
    (if s.hasHtml then "" else "  (no rendering)") ++ "\n"

/-- The printed list of a directory's catalogs. -/
def summariesText (dir : String) (ss : List Store.Summary) : String :=
  if ss.isEmpty then "No catalogs in " ++ dir ++ "\n"
  else toString ss.length ++ " catalogs in " ++ dir ++ "\n\n" ++ String.join (ss.map summaryLine)

/-- The first positional argument (the checks before ensure there is one). -/
def firstArg (p : Parsed) : String := p.positional.headD ""

/-- A command's own work, once its arguments are checked and the configuration is loaded. -/
def work (d : Disk.Disk) (cfg : Config) (c : Cmd) (p : Parsed) : Option Outcome :=
  match c with
  | .show => some (.ofStep (showCatalog d (firstArg p) (p.int "depth") (p.flag "rendered")))
  | .search =>
    let dir := cfg.catalogDirFor (p.text "dir")
    some (.ofStep ((Search.searchDirectory d (firstArg p) dir).map fun hits =>
      if p.flag "json" then hitsJson hits else hitsText (firstArg p) hits))
  | .list =>
    let dir := cfg.catalogDirFor (p.text "dir")
    some (.ofStep ((Store.listCatalogs d dir).map (summariesText dir.shown)))
  | .help => helpTopic p.positional
  | _ => none

/-- Runs a found command on the words left for it. -/
def execute (d : Disk.Disk) (env : Env) (c : Cmd) (args : List String) : Option Outcome :=
  match parseArgs (c.allFlags true) args with
  | .error e => some (.refused e)
  | .ok p =>
    if p.flag "help" then helpOutcome c true
    else if c = .root ∧ p.flag "version" then some { stdout := versionLine }
    else if ¬ c.runnable then helpOutcome c true
    else
      match arityProblem c p.positional with
      | some e => some (.refused e)
      | none =>
        match load d env with
        | .error e => some (.refused ("failed to load config: " ++ e))
        | .ok cfg => work d cfg c p

/-- The words that ask for shell completion candidates, which this model does not give. -/
def completionRequest (args : List String) : Bool :=
  match commandWords Cmd.root.searchFlags args with
  | w :: _ => w = "__complete" ∨ w = "__completeNoDesc"
  | [] => false

/-- Runs the program on a command line, with the disk and the environment it sees. The result is
what it printed and how it failed, or `none` for work this model leaves out. -/
def run (d : Disk.Disk) (env : Env) (args : List String) : Option Outcome :=
  if completionRequest args then none else
  match find args with
  | .error e =>
    some { Outcome.refused e with
      stderr := "Error: " ++ e ++ "\nRun \x27" ++ programName ++ " --help\x27 for usage.\n" }
  | .ok (c, rest) => execute d env c rest

theorem run_nil (d : Disk.Disk) (env : Env) :
    run d env [] = some { stdout := helpText .root true } := by
  simp [run, completionRequest, commandWords, find_nil, execute, parseArgs_nil, Parsed.flag,
    Parsed.get?, helpOutcome, Cmd.runnable]

end TreeCatalog.Command
