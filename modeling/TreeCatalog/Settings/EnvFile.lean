import TreeCatalog.Disk.Write
import TreeCatalog.Fault
import TreeCatalog.Text.Blank
import TreeCatalog.Text.Utf8
/-! # Updating an environment file

Setting variables in an environment file keeps its other lines as they are: every line that
starts with `KEY=` becomes `KEY=value`, keys that no line held go in front, blank lines at the end
are dropped, and the text ends with one line break. A file that cannot be read counts as empty;
one that cannot be written is an error. -/

namespace TreeCatalog.Settings

/-- A line with `key=` replaced by the update for the first key it starts with. -/
def updateLine (updates : List (String × String)) (line : String) : String :=
  match updates.find? (fun kv => line.startsWith (kv.1 ++ "=")) with
  | some (k, v) => k ++ "=" ++ v
  | none => line

/-- The text of an environment file after setting `updates`. -/
def updatedText (existing : String) (updates : List (String × String)) : String :=
  let lines := existing.splitOn "\n"
  let missing := updates.filter fun kv => !lines.any (·.startsWith (kv.1 ++ "="))
  let lines := missing.map (fun kv => kv.1 ++ "=" ++ kv.2) ++ lines.map (updateLine updates)
  let lines := (lines.reverse.dropWhile (fun l => Text.trim l = "")).reverse
  "\n".intercalate lines ++ "\n"

/-- Sets `updates` in the environment file `file` on a disk, stamping it `now`. -/
def updateEnvFile (d : Disk.Disk) (file : String) (updates : List (String × String)) (now : Int) :
    Disk.Disk × Except Cause Unit :=
  let existing := match d.readFile file with
    | .ok bytes => Text.Utf8.decode bytes
    | .error _ => ""
  let text := updatedText existing updates
  match d.openCreate file false now Disk.maxLinks with
  | .error e => (d, .error (.within "failed to write .env file" (.sys (.onPath "open" file e))))
  | .ok (d', phys) => (d'.setContents phys text.toUTF8.toList now, .ok ())

end TreeCatalog.Settings
