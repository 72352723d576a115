import TreeCatalog.Command.Tree
import TreeCatalog.Text.Blank
/-! # Help text

A command's help is its longer description (or its one-line one), then its usage: how it is
invoked, its subcommands with their descriptions, its own flags, the flags it inherits, and a
pointer to the help of the subcommands. A flag table gives each flag its names, the kind of value
it takes (none for a boolean), its usage and any default other than the zero value, with the
usages lined up one column past the longest name part. -/

namespace TreeCatalog.Command

/-- The text without blanks at its end. -/
def trimEnd (s : String) : String := String.ofList (s.toList.reverse.dropWhile Text.isBlank).reverse

/-- The text padded with spaces on the right to `width` characters. -/
def padRight (width : Nat) (s : String) : String :=
  s ++ String.ofList (List.replicate (width - s.length) ' ')

/-- The word naming the value a flag takes. -/
def FlagKind.valueName : FlagKind → String
  | .bool => ""
  | .int => "int"
  | .text => "string"
  | .duration => "duration"

/-- The names part of a flag's line: its short and long names, then the kind of value. -/
def Flag.namesPart (f : Flag) : String :=
  let names := match f.short with
    | some c => "  -" ++ c.toString ++ ", --" ++ f.name
    | none => "      --" ++ f.name
  if f.kind.valueName = "" then names else names ++ " " ++ f.kind.valueName

/-- Whether a flag's default is the zero value of its kind, which help leaves unsaid. -/
def Flag.zeroDefault (f : Flag) : Bool :=
  match f.kind with
  | .bool => f.default = "" ∨ f.default = "false"
  | .int => f.default = "" ∨ f.default = "0"
  | .text => f.default = ""
  | .duration => f.default = "" ∨ f.default = "0" ∨ f.default = "0s"

/-- The usage part of a flag's line, with its default when that is not the zero value (a text
default quoted). -/
def Flag.usagePart (f : Flag) : String :=
  if f.zeroDefault then f.usage
  else if f.kind = .text then f.usage ++ " (default " ++ Text.Quoted.string f.default ++ ")"
  else f.usage ++ " (default " ++ f.default ++ ")"

/-- The lines of a flag table, each ending in a line break. The usage of every line starts three
columns past the longest names part. -/
def flagTable (flags : List Flag) : String :=
  let widest := (flags.map (·.namesPart.length)).foldl max 0
  String.join (flags.map fun f =>
    f.namesPart ++ String.ofList (List.replicate (widest - f.namesPart.length + 3) ' ') ++
      f.usagePart ++ "\n")

/-- How a runnable command is invoked: its path with its arguments, then `[flags]` since every
subcommand accepts at least the inherited ones (the script printers leave it out). -/
def Cmd.useLine (c : Cmd) : String :=
  let useText := match c.parent? with
    | some p => p.path ++ " " ++ c.use
    | none => c.use
  if c.bareUseLine ∨ (c.allFlags true).isEmpty then useText else useText ++ " [flags]"

/-- The subcommands offered by a command, in name order, with `help` among them. -/
def Cmd.listed (c : Cmd) : List Cmd :=
  c.children.mergeSort fun a b => decide (a.name ≤ b.name)

/-- Whether a command has subcommands to offer. -/
def Cmd.offersSubcommands (c : Cmd) : Bool := c.children.any (·.offered)

/-- The usage of a command; `ready` says whether its help flag is set up. -/
def usageText (c : Cmd) (ready : Bool) : String :=
  let subs := c.offersSubcommands
  let local_ := c.localFlags ready
  let inherited := c.inheritedFlags
  "Usage:" ++
  (if c.runnable then "\n  " ++ c.useLine else "") ++
  (if subs then "\n  " ++ c.path ++ " [command]" else "") ++
  (if subs then
    "\n\nAvailable Commands:" ++
      String.join (c.listed.map fun s => "\n  " ++ padRight 11 s.name ++ " " ++ s.short)
   else "") ++
  (if local_.isEmpty then "" else "\n\nFlags:\n" ++ trimEnd (flagTable local_)) ++
  (if inherited.isEmpty then "" else "\n\nGlobal Flags:\n" ++ trimEnd (flagTable inherited)) ++
  (if subs then
    "\n\nUse \"" ++ c.path ++ " [command] --help\" for more information about a command."
   else "") ++
  "\n"

/-- The help of a command: its description, a blank line, its usage. -/
def helpText (c : Cmd) (ready : Bool) : String :=
  let about := trimEnd (if c.long = "" then c.short else c.long)
  (if about = "" then "" else about ++ "\n\n") ++
  (if c.runnable ∨ ¬ c.children.isEmpty then usageText c ready else "")

/-- The line printed for the version flag. -/
def versionLine : String := programName ++ " version " ++ programVersion ++ "\n"

theorem padRight_length (width : Nat) (s : String) :
    (padRight width s).length = max width s.length := by
  simp [padRight, String.length_append]
  omega

end TreeCatalog.Command
