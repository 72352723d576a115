import TreeCatalog.Disk.Basic
import TreeCatalog.Fault
import TreeCatalog.Text.Blank
/-! # Allowed roots

A guard holds the roots below which paths may be used, or allows everything (no roots given, or a
`*` among them; roots after the `*` are not looked at, empty ones are passed over). Roots and
checked paths are compared by where they physically are: the path is made absolute and cleaned,
the longest prefix of it that exists is resolved through its links, and the missing rest is put
back on. A path is allowed when that physical place is a root or lies below one (a root's text
followed by `/`). Resolving a path gives its absolute, cleaned form (not the physical one), or
refuses a blank path or one outside the roots. A path given as bytes that are not UTF-8 is
compared byte for byte, its components from the first stray byte on counting as missing. -/

namespace TreeCatalog

open Disk

/-- How many links resolving a path for the guard may follow. -/
def guardLinks : Nat := 255

/-- The physical form of an existing absolute path, links resolved, or none. -/
def Disk.Disk.evalLinks (d : Disk) (p : String) : Option String :=
  match walk d.root true guardLinks [] (components p) with
  | .ok phys =>
    match d.root.at? phys with
    | some _ => some ("/" ++ "/".intercalate phys)
    | none => none
  | .error _ => none

/-- Resolves the longest existing prefix of the components `cs` of a clean absolute path; the
components after it are put back on. -/
def realFrom (d : Disk) (absPath : String) : List String → List String → String
  | [], rest => Path.join ("/" :: rest)
  | c :: up, rest =>
    let current := "/" ++ "/".intercalate (c :: up).reverse
    match d.evalLinks current with
    | some resolved => Path.join (resolved :: rest)
    | none => realFrom d absPath up (c :: rest)

/-- The physical place of an absolute path: links resolved in its longest existing prefix. -/
def realPath (d : Disk) (absPath : String) : String :=
  let clean := Path.clean absPath
  match d.evalLinks clean with
  | some resolved => resolved
  | none => realFrom d clean (Path.parts clean).reverse.tail ((Path.parts clean).getLast?.toList)

/-- The allowed roots, or everything. -/
structure Guard where
  roots : List String
  allowAll : Bool
deriving Repr

/-- The roots of a list of allowed paths, up to a `*`, and whether a `*` was met. -/
def scanRoots (d : Disk) : List String → List String × Bool
  | [] => ([], false)
  | p :: ps =>
    if p = "*" then ([], true)
    else if p = "" then scanRoots d ps
    else
      let (rs, all) := scanRoots d ps
      (realPath d (Path.abs d.cwd p) :: rs, all)

/-- The guard of a list of allowed paths. -/
def Guard.make (d : Disk) (paths : List String) : Guard :=
  let (rs, star) := scanRoots d paths
  ⟨rs, paths.isEmpty || star⟩

/-- The roots as shown to clients: `/` when everything is allowed. -/
def Guard.shown (g : Guard) : List String := if g.allowAll then ["/"] else g.roots

/-- Whether a path may be used. -/
def Guard.allows (g : Guard) (d : Disk) (p : String) : Bool :=
  g.allowAll ||
    let r := realPath d (Path.abs d.cwd p)
    g.roots.any fun root => r = root || r.startsWith (root ++ "/")

/-- The physical place, as bytes, of an absolute clean path given by its components `cs` as
bytes. Components from the first one that is not UTF-8 on exist nowhere, so they are put back on
below the physical place of the text before them. -/
def realBytes (d : Disk) (cs : List (List UInt8)) : List UInt8 :=
  let pre := cs.takeWhile Text.Utf8.valid
  let post := cs.drop pre.length
  let base := Text.Utf8.encode (realPath d ("/" ++ "/".intercalate (pre.map Text.Utf8.decode)))
  if post.isEmpty then base else (if base = [47] then [] else base) ++ post.flatMap (47 :: ·)

/-- Whether an absolute clean path given as bytes may be used; its physical place is compared
byte for byte with the roots. -/
def Guard.allowsBytes (g : Guard) (d : Disk) (abs : List UInt8) : Bool :=
  g.allowAll ||
    let r := realBytes d (byteParts abs)
    g.roots.any fun root =>
      let rb := Text.Utf8.encode root
      r = rb || (rb ++ [47]).isPrefixOf r

/-- The absolute form of a path that may be used. -/
def Guard.resolve (g : Guard) (d : Disk) (p : String) : Except Fault String :=
  if Text.trim p = "" then .error (.plain "path is required")
  else
    let a := Path.abs d.cwd p
    if g.allows d a then .ok a else .error .accessDenied

/-- The absolute form of a path that may be used, for a path that may be given as bytes. -/
def Guard.resolveOs (g : Guard) (d : Disk) : OsPath → Except Fault OsPath
  | .text s => (g.resolve d s).map .text
  | .raw bs =>
    if Text.trim (Text.Utf8.decode bs) = "" then .error (.plain "path is required") else
    let a := absBytes d.cwd bs
    let allowed :=
      if Text.Utf8.valid a then g.allows d (Text.Utf8.decode a) else g.allowsBytes d a
    if allowed then .ok (OsPath.ofBytes a) else .error .accessDenied

theorem Guard.allows_of_allowAll (g : Guard) (d : Disk) (p : String) (h : g.allowAll = true) :
    g.allows d p = true := by
  simp [Guard.allows, h]

end TreeCatalog
