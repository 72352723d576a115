/-! # Slash-separated paths, lexically

Paths are strings with `/` as separator. Cleaning reads a path as a list of components: empty
components and `.` disappear, `..` removes the component before it unless that is itself `..`,
and at the root `..` stays at the root. Nothing here looks at a disk: links are not followed. -/

namespace TreeCatalog.Path

/-- Whether the path starts at the root. -/
def isAbs (p : String) : Bool := p.startsWith "/"

/-- The non-empty components of a path, `.` included. -/
def parts (p : String) : List String := (p.splitOn "/").filter (· ≠ "")

/-- Fold one component into a cleaned stack (most recent component first). -/
def push (rooted : Bool) (stack : List String) (c : String) : List String :=
  if c = "." then stack
  else if c = ".." then
    match stack with
    | top :: rest => if top = ".." then ".." :: stack else rest
    | [] => if rooted then [] else [".."]
  else c :: stack

/-- The cleaned components of a path, root first. -/
def cleanParts (rooted : Bool) (cs : List String) : List String :=
  (cs.foldl (push rooted) []).reverse

/-- The shortest lexically equal path: `.` for an empty result, `/` for the bare root. -/
def clean (p : String) : String :=
  let rooted := isAbs p
  let body := "/".intercalate (cleanParts rooted (parts p))
  if rooted then "/" ++ body else if body = "" then "." else body

/-- The path of the given elements joined by `/` and cleaned; empty elements are ignored and
nothing at all gives the empty path. -/
def join (elems : List String) : String :=
  match elems.filter (· ≠ "") with
  | [] => ""
  | es => clean ("/".intercalate es)

/-- The last component, trailing slashes ignored: `.` for the empty path and `/` for one made of
slashes only. -/
def base (p : String) : String :=
  if p = "" then "." else
    let trimmed := String.ofList (p.toList.reverse.dropWhile (· = '/')).reverse
    if trimmed = "" then "/" else (trimmed.splitOn "/").getLastD trimmed

/-- Everything before the last slash, cleaned: `.` when there is no slash. -/
def dir (p : String) : String :=
  let before := (p.toList.reverse.dropWhile (· ≠ '/')).reverse
  clean (String.ofList before)

/-- The absolute form of `p` against the working directory `cwd` (itself absolute and clean). -/
def abs (cwd p : String) : String :=
  if isAbs p then clean p else join [cwd, p]

/-- Drop the common leading components of two component lists. -/
def dropCommon : List String → List String → List String × List String
  | b :: bs, t :: ts => if b = t then dropCommon bs ts else (b :: bs, t :: ts)
  | bs, ts => (bs, ts)

/-- The path that leads from `base` to `target`, both read lexically; none when one is absolute
and the other is not, or when the way back would have to climb out of a `..`. -/
def rel (basePath target : String) : Option String :=
  let b := clean basePath
  let t := clean target
  if b = t then some "." else
    if isAbs b ≠ isAbs t then none else
      let bs := if b = "." then [] else parts b
      let ts := parts t
      match dropCommon bs ts with
      | (rest, down) =>
        if rest.head? = some ".." then none
        else some ("/".intercalate (rest.map (fun _ => "..") ++ down))

theorem rel_self (p : String) : rel p p = some "." := by simp [rel]

end TreeCatalog.Path
