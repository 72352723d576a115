import TreeCatalog.Command.Flags
/-! # The command tree

The program's commands, each with its name, its usage pattern, its descriptions, the flags it
defines, the positional arguments it accepts and its subcommands. The root only groups the others:
run bare it prints its help. Beside the commands the program defines, the tree holds `help`,
which prints the help of a command path, and `completion`, whose subcommands print shell
completion scripts. A command lists its subcommands in the order they were added; help text shows
them sorted by name. -/

namespace TreeCatalog.Command

/-- A command of the program. -/
inductive Cmd where
  | root
  | serve
  | create
  | search
  | list
  | show
  | keygen
  | token
  | help
  | completion
  | bash
  | fish
  | powershell
  | zsh
deriving Repr, DecidableEq

/-- How many positional arguments a command takes. -/
inductive Arity where
  /-- Any number; a command with subcommands refuses an unknown first word. -/
  | open_
  | exactly (n : Nat)
  | none_
deriving Repr, DecidableEq

/-- The name the program is run by. -/
def programName : String := "storcat-agent"

/-- The program's version. -/
def programVersion : String := "1.0.0"

namespace Cmd

/-- The usage pattern: the name, then what follows it. -/
def use : Cmd → String
  | .root => programName
  | .serve => "serve"
  | .create => "create <directory>"
  | .search => "search <term>"
  | .list => "list"
  | .show => "show <catalog.json>"
  | .keygen => "keygen"
  | .token => "token"
  | .help => "help [command]"
  | .completion => "completion"
  | .bash => "bash"
  | .fish => "fish"
  | .powershell => "powershell"
  | .zsh => "zsh"

/-- The name of a command: the first word of its usage pattern. -/
def name (c : Cmd) : String := (c.use.splitOn " ").headD ""

/-- The one-line description. -/
def short : Cmd → String
  | .root => "Catalog directory trees and search the catalogs"
  | .serve => "Run the HTTP API"
  | .create => "Catalog a directory tree"
  | .search => "Find entries by name across every catalog in a directory"
  | .list => "List the catalogs in a directory"
  | .show => "Print a catalog as a tree"
  | .keygen => "Generate an API key"
  | .token => "Issue a JWT signed with the configured secret"
  | .help => "Help about any command"
  | .completion => "Generate the autocompletion script for the specified shell"
  | .bash => "Generate the autocompletion script for bash"
  | .fish => "Generate the autocompletion script for fish"
  | .powershell => "Generate the autocompletion script for powershell"
  | .zsh => "Generate the autocompletion script for zsh"

/-- The longer description help shows, empty when the one-line one serves. -/
def long : Cmd → String
  | .root =>
    programName ++ " walks a directory tree and writes a catalog of it as a\n" ++
    "JSON document plus an HTML tree rendering. Catalogs saved in a directory\n" ++
    "can be listed, viewed and searched by name, from the command line or\n" ++
    "over the HTTP API started by \"serve\"."
  | .create =>
    "Walk a directory and write <name>.json and <name>.html describing it.\n" ++
    "Hidden entries and symlinks are left out. Subdirectories that cannot be\n" ++
    "read are kept as empty directories and reported as warnings."
  | .search =>
    "Match term case-insensitively against the names of all entries in all\n" ++
    "catalogs of a directory. Catalogs that cannot be parsed are skipped."
  | .show =>
    "Print the tree stored in a catalog document. With --rendered the\n" ++
    "sibling HTML rendering is printed instead."
  | .help =>
    "Help provides help for any command in the application.\n" ++
    "Simply type " ++ programName ++ " help [path to command] for full details."
  | .completion =>
    "Generate the autocompletion script for " ++ programName ++ " for the specified shell.\n" ++
    "See each sub-command" ++ "\x27" ++ "s help for details on how to use the generated script.\n"
  | .bash =>
    "Generate the autocompletion script for the bash shell.\n\n" ++
    "This script depends on the \x27bash-completion\x27 package.\n" ++
    "If it is not installed already, you can install it via your OS\x27s package manager.\n\n" ++
    "To load completions in your current shell session:\n\n" ++
    "\tsource <(" ++ programName ++ " completion bash)\n\n" ++
    "To load completions for every new session, execute once:\n\n" ++
    "#### Linux:\n\n" ++
    "\t" ++ programName ++ " completion bash > /etc/bash_completion.d/" ++ programName ++ "\n\n" ++
    "#### macOS:\n\n" ++
    "\t" ++ programName ++ " completion bash > $(brew --prefix)/etc/bash_completion.d/" ++
      programName ++ "\n\n" ++
    "You will need to start a new shell for this setup to take effect.\n"
  | .zsh =>
    "Generate the autocompletion script for the zsh shell.\n\n" ++
    "If shell completion is not already enabled in your environment you will need\n" ++
    "to enable it.  You can execute the following once:\n\n" ++
    "\techo \"autoload -U compinit; compinit\" >> ~/.zshrc\n\n" ++
    "To load completions in your current shell session:\n\n" ++
    "\tsource <(" ++ programName ++ " completion zsh)\n\n" ++
    "To load completions for every new session, execute once:\n\n" ++
    "#### Linux:\n\n" ++
    "\t" ++ programName ++ " completion zsh > \"$\x7bfpath[1]\x7d/_" ++ programName ++ "\"\n\n" ++
    "#### macOS:\n\n" ++
    "\t" ++ programName ++ " completion zsh > $(brew --prefix)/share/zsh/site-functions/_" ++
      programName ++ "\n\n" ++
    "You will need to start a new shell for this setup to take effect.\n"
  | .fish =>
    "Generate the autocompletion script for the fish shell.\n\n" ++
    "To load completions in your current shell session:\n\n" ++
    "\t" ++ programName ++ " completion fish | source\n\n" ++
    "To load completions for every new session, execute once:\n\n" ++
    "\t" ++ programName ++ " completion fish > ~/.config/fish/completions/" ++ programName ++
      ".fish\n\n" ++
    "You will need to start a new shell for this setup to take effect.\n"
  | .powershell =>
    "Generate the autocompletion script for powershell.\n\n" ++
    "To load completions in your current shell session:\n\n" ++
    "\t" ++ programName ++ " completion powershell | Out-String | Invoke-Expression\n\n" ++
    "To load completions for every new session, add the output of the above command\n" ++
    "to your powershell profile.\n"
  | _ => ""

/-- The subcommands, in the order they were added. -/
def children : Cmd → List Cmd
  | .root => [.serve, .create, .search, .list, .show, .keygen, .token, .help, .completion]
  | .completion => [.bash, .zsh, .fish, .powershell]
  | _ => []

/-- The command a subcommand belongs to. -/
def parent? : Cmd → Option Cmd
  | .root => none
  | .bash | .fish | .powershell | .zsh => some .completion
  | _ => some .root

/-- The words that lead to a command, starting with the program name. -/
def path : Cmd → String
  | .root => programName
  | .bash => programName ++ " completion bash"
  | .fish => programName ++ " completion fish"
  | .powershell => programName ++ " completion powershell"
  | .zsh => programName ++ " completion zsh"
  | c => programName ++ " " ++ c.name

/-- Whether a command does something of its own; the others print their help. -/
def runnable : Cmd → Bool
  | .root | .completion => false
  | _ => true

/-- The positional arguments a command takes. -/
def arity : Cmd → Arity
  | .root | .help => .open_
  | .create | .search | .show => .exactly 1
  | _ => .none_

/-- Whether a command's usage line leaves out `[flags]`: the script printers take none worth
showing there. -/
def bareUseLine : Cmd → Bool
  | .bash | .fish | .powershell | .zsh => true
  | _ => false

/-- Whether a command is offered among the subcommands of its parent: it does something or has
subcommands that are offered, and it is not `help`. -/
def offered : Cmd → Bool
  | .help => false
  | _ => true

/-- The subcommand of a command with exactly this name. -/
def child? (c : Cmd) (word : String) : Option Cmd :=
  c.children.find? (·.name = word)

end Cmd

/-- The flag every command inherits from the root. -/
def verboseFlag : Flag :=
  { name := "verbose", short := some 'v', kind := .bool,
    usage := "log at debug level regardless of LOG_LEVEL" }

/-- The help flag of a command. -/
def helpFlag (c : Cmd) : Flag :=
  { name := "help", short := some 'h', kind := .bool, usage := "help for " ++ c.name }

/-- The root's version flag; `-v` is taken, so it has no short name. -/
def versionFlag : Flag :=
  { name := "version", kind := .bool, usage := "version for " ++ programName }

/-- The flags a command defines itself. -/
def Cmd.ownFlags : Cmd → List Flag
  | .root => [verboseFlag]
  | .create =>
    [{ name := "name", short := some 'n', kind := .text,
       usage := "output base name (default: directory name)" },
     { name := "title", short := some 't', kind := .text,
       usage := "title of the HTML rendering (default: base name)" },
     { name := "out-dir", short := some 'o', kind := .text,
       usage := "where to write the outputs (default: the cataloged directory)" },
     { name := "copy-to", kind := .text, usage := "also copy both outputs into this directory" }]
  | .search =>
    [{ name := "dir", short := some 'd', kind := .text,
       usage := "catalog directory (default: CATALOG_DIR)" },
     { name := "json", kind := .bool, usage := "print results as JSON" }]
  | .list =>
    [{ name := "dir", short := some 'd', kind := .text,
       usage := "catalog directory (default: CATALOG_DIR)" }]
  | .show =>
    [{ name := "depth", short := some 'L', kind := .int,
       usage := "maximum directory depth to print (0 for all)", default := "0" },
     { name := "rendered", kind := .bool, usage := "print the HTML rendering" }]
  | .keygen => [{ name := "save", kind := .bool, usage := "write the key to the .env file" }]
  | .token =>
    [{ name := "subject", kind := .text, usage := "subject claim identifying the token holder",
       default := "cli" },
     { name := "role", kind := .text,
       usage := "role claim: admin may create catalogs, reader may only read",
       default := "admin" },
     { name := "ttl", kind := .duration, usage := "token lifetime", default := "24h0m0s" }]
  | .bash | .fish | .powershell | .zsh =>
    [{ name := "no-descriptions", kind := .bool, usage := "disable completion descriptions" }]
  | _ => []

/-- The flags a command inherits from the commands above it. -/
def Cmd.inheritedFlags (c : Cmd) : List Flag :=
  if c = .root then [] else [verboseFlag]

/-- Flags in name order. -/
def byName (flags : List Flag) : List Flag :=
  flags.mergeSort fun a b => decide (a.name ≤ b.name)

/-- The flags a command shows as its own: those it defines, with the help flag (and, on the root,
the version flag) once they are set up, which happens when the command runs or its help is
asked for. -/
def Cmd.localFlags (c : Cmd) (ready : Bool) : List Flag :=
  byName (c.ownFlags ++ (if ready then [helpFlag c] else []) ++
    (if ready ∧ c = .root then [versionFlag] else []))

/-- Every flag a command accepts. -/
def Cmd.allFlags (c : Cmd) (ready : Bool) : List Flag := c.localFlags ready ++ c.inheritedFlags

theorem child_name (c : Cmd) (word : String) (sub : Cmd) (h : c.child? word = some sub) :
    sub.name = word := by
  unfold Cmd.child? at h
  have := List.find?_some h
  simpa using this

end TreeCatalog.Command
