import TreeCatalog.Disk.Write
import TreeCatalog.Walk
import TreeCatalog.Document.Encode
import TreeCatalog.Render.Page
import TreeCatalog.Store.Documents
import TreeCatalog.Text.Blank
import TreeCatalog.Text.Quoted
/-! # Creating a catalog

A request names the directory to catalogue, the base name of the outputs, and optionally a title,
an output directory (else the catalogued directory) and a directory to copy the outputs to. The
base name must be a plain file name. Creating catalogues the directory, then, holding the lock file
`.<base>.lock` of the output directory (created empty if missing, and left in place), writes the
document `<base>.json` and the page `<base>.html` there, each through a temporary file renamed over
the target; then copies both, the same way, to the copy directory. Every failure is reported under
"failed to create catalog". -/

namespace TreeCatalog.Store

open Disk

/-- What to catalogue and where to put the outputs. -/
structure Request where
  title : String := ""
  directoryPath : String := ""
  outputRoot : String := ""
  outputDirectory : String := ""
  copyToDirectory : String := ""
deriving Repr

/-- Why a request is refused, if it is. -/
def Request.problem (r : Request) : Option String :=
  if Text.trim r.directoryPath = "" then some "directoryPath is required"
  else if Text.trim r.outputRoot = "" then some "outputRoot is required"
  else if r.outputRoot.any (fun c => c = '/' ∨ c = '\\') ∨ r.outputRoot = "." ∨ r.outputRoot = ".."
  then some ("outputRoot " ++ Text.Quoted.string r.outputRoot ++ " must be a plain file name")
  else none

/-- The check of a request as a fault. -/
def Request.validate (r : Request) : Except Fault Unit :=
  match r.problem with
  | some msg => .error (.plain msg)
  | none => .ok ()

/-- Where a created catalog was written and what it holds. -/
structure Created where
  jsonPath : String
  htmlPath : String
  fileCount : Nat
  totalSize : Int
  /-- The copies of the document and the page, when a copy directory was given. -/
  copies : Option (String × String)
  warnings : List Walk.Warning
deriving Repr

/-- Writes `data` to `path` through a temporary file in the same directory renamed over it. On
failure the temporary file is gone again. -/
def atomicWrite (d : Disk) (path : String) (data : List UInt8) (now : Int) : Disk × Except Cause Unit :=
  match d.createTemp (Path.dir path) now with
  | .error (tmp, e) => (d, .error (.within "failed to create temp file" (.sys (.onPath "open" tmp e))))
  | .ok (d1, tmp, phys) =>
    let d2 := d1.setContents phys data now
    match d2.rename tmp path with
    | .ok d3 => (d3, .ok ())
    | .error e =>
      (d2.remove phys,
        .error (.within ("failed to rename temp file to " ++ path) (.sys (.onPair "rename" tmp path e))))

/-- Copies the file `src` to `dst`, replacing `dst` through a temporary file. -/
def copyFile (d : Disk) (src dst : String) (now : Int) : Disk × Except Cause Unit :=
  match d.readFile src with
  | .error (.opening e) => (d, .error (.within ("failed to open " ++ src) (.sys (.onPath "open" src e))))
  | .error (.reading e) => (d, .error (.within ("failed to read " ++ src) (.sys (.onPath "read" src e))))
  -- the sources are the outputs just written in place by renaming, never named pipes
  | .error .waits => (d, .error (.within ("failed to open " ++ src) (.plain "waiting for a writer")))
  | .ok bytes => atomicWrite d dst bytes now

/-- The lock file guarding the outputs named `base` in `dir`. -/
def lockPath (dir base : String) : String := Path.join [dir, "." ++ base ++ ".lock"]

/-- Takes the output lock and writes each file in order. -/
def writeOutputs (d : Disk) (dir base : String) (files : List (String × List UInt8)) (now : Int) :
    Disk × Except Fault Unit :=
  let lock := lockPath dir base
  match d.openCreate lock false now maxLinks with
  | .error e =>
    (d, .error (.io .write lock
      (.within ("failed to acquire lock on " ++ lock) (.sys (.onPath "open" lock e)))))
  | .ok (d1, _) =>
    files.foldl (fun (acc : Disk × Except Fault Unit) (path, data) =>
      match acc with
      | (dk, .ok ()) =>
        match atomicWrite dk path data now with
        | (dk', .ok ()) => (dk', .ok ())
        | (dk', .error c) => (dk', .error (.io .write path c))
      | failed => failed) (d1, .ok ())

/-- Copies the outputs to the copy directory of the request, if it names one. -/
def copyOutputs (d : Disk) (req : Request) (jsonPath htmlPath : String) (now : Int) :
    Disk × Except Fault (Option (String × String)) :=
  if req.copyToDirectory = "" then (d, .ok none) else
    let copyJson := Path.join [req.copyToDirectory, req.outputRoot ++ documentExt]
    let copyHtml := Path.join [req.copyToDirectory, req.outputRoot ++ renderedExt]
    match copyFile d jsonPath copyJson now with
    | (d1, .error c) => (d1, .error (.io .copy copyJson c))
    | (d1, .ok ()) =>
      match copyFile d1 htmlPath copyHtml now with
      | (d2, .error c) => (d2, .error (.io .copy copyHtml c))
      | (d2, .ok ()) => (d2, .ok (some (copyJson, copyHtml)))

/-- The outcome of creating: the disk after it, the progress names, and the result. -/
structure Outcome where
  disk : Disk
  progress : List String
  result : Except Fault Created

/-- Creates the catalog a request asks for, with files stamped `now`. -/
def createRaw (d : Disk) (faults : Walk.Faults) (now : Int) (req : Request) : Outcome :=
  match req.validate with
  | .error f => ⟨d, [], .error f⟩
  | .ok () =>
    match Walk.build d faults req.directoryPath with
    | .error f => ⟨d, [], .error f⟩
    | .ok built =>
      let title := if Text.trim req.title = "" then req.outputRoot else req.title
      let document := Document.encode built.root
      let page := Render.page built.root title
      let outDir := if req.outputDirectory = "" then req.directoryPath else req.outputDirectory
      let jsonPath := Path.join [outDir, req.outputRoot ++ documentExt]
      let htmlPath := Path.join [outDir, req.outputRoot ++ renderedExt]
      match writeOutputs d outDir req.outputRoot
          [(jsonPath, document.toUTF8.toList), (htmlPath, page.toUTF8.toList)] now with
      | (d1, .error f) => ⟨d1, built.progress, .error f⟩
      | (d1, .ok ()) =>
        match copyOutputs d1 req jsonPath htmlPath now with
        | (d2, .error f) => ⟨d2, built.progress, .error f⟩
        | (d2, .ok copies) =>
          ⟨d2, built.progress, .ok ⟨jsonPath, htmlPath, built.root.countFiles, built.root.size,
            copies, built.warnings⟩⟩

/-- Creates the catalog a request asks for; every failure is reported under
"failed to create catalog". -/
def create (d : Disk) (faults : Walk.Faults) (now : Int) (req : Request) : Outcome :=
  let o := createRaw d faults now req
  match o.result with
  | .ok _ => o
  | .error f => { o with result := .error (.within "failed to create catalog" f) }

theorem problem_of_blank_directory (r : Request) (h : Text.trim r.directoryPath = "") :
    r.problem = some "directoryPath is required" := by
  simp [Request.problem, h]

end TreeCatalog.Store
