import Mathlib
import TreeCatalog.Proofs.Store.Outputs
import TreeCatalog.Proofs.Store.Listing
import TreeCatalog.Proofs.Document.RoundTrip
import TreeCatalog.Proofs.Store.Waiting
/-! # A created catalog is paired and listable

A create writes the document `<base>.json` and the page `<base>.html` into the output directory,
joined to it, so both are direct children of the cleaned directory, the page is found again from
the document by its suffix, and the document's stem is the base name (`paired_paths`). These need
nothing but a request that passes its check.

What the disk shows afterwards needs more. The outputs are named by joining, which reads the
output directory by its names, while a listing reads the directory the system resolves: through a
link and back up by `..` these are two directories, and the listing misses the catalog just
written (`listing_misses_created`). A write also replaces a link it lands on, so the way to the
output directory need not survive the create. When the output directory, and the copy directory
when one is given, are reached by names alone (`Request.Placed`), every write lands in the
directory the path names and keeps it (`Holds`): the document and the page lie there, stamped
with the time of the create, and so do their copies. The listing of the output directory then
shows the catalog exactly once, under its base name, with the page's title (`create_listed`),
provided its document can be read back (sizes within 64 bits and no deeper nesting than the
reader takes) and no document of the directory makes the listing wait. A create whose names are
free in such a directory does succeed (`create_into_free`). -/

namespace TreeCatalog.Store

open Disk
open TreeCatalog.Path (IsComponent)

/-- The directory a request's outputs go to: the output directory, else the catalogued one. -/
def Request.outputDir (r : Request) : String :=
  if r.outputDirectory = "" then r.directoryPath else r.outputDirectory

/-- The title a request gives its page: its title, or its base name when the title is blank. -/
def Request.titleText (r : Request) : String :=
  if Text.trim r.title = "" then r.outputRoot else r.title

/-- The title a listing shows for the catalog a request creates: the request's title trimmed, or
its base name trimmed when the title is blank. -/
def Request.heading (r : Request) : String :=
  if Text.trim r.title = "" then Text.trim r.outputRoot else Text.trim r.title

/-- What a disk must offer a request for its outputs to land where its paths name: a sorted tree
with file names, an output directory that the system accepts and that is reached by names alone,
and likewise a copy directory when one is given. -/
structure Request.Placed (r : Request) (d : Disk) : Prop where
  sorted : d.root.Sorted
  named : d.root.Named
  valid : pathProblem r.outputDir = none
  output : ∃ D, d.Direct r.outputDir D
  copy : r.copyToDirectory ≠ "" → ∃ C, d.Direct r.copyToDirectory C

section Checked

variable {r : Request}

theorem trim_empty : Text.trim "" = "" := by
  simp [Text.trim]

/-- A request that passes its check has a base name without a slash. -/
theorem Request.slash_not_mem (h : r.problem = none) : '/' ∉ r.outputRoot.toList := by
  intro hmem
  have hany : r.outputRoot.any (fun c => c = '/' ∨ c = '\\') = true := by
    simp only [String.any, String.contains_prop_eq, List.any_eq_true, decide_eq_true_eq]
    exact ⟨'/', hmem, .inl rfl⟩
  unfold Request.problem at h
  split at h
  · cases h
  · split at h
    · cases h
    · rw [if_pos (.inl hany)] at h
      cases h

/-- The base name of a request that passes its check, followed by an extension of dots and
letters, is a file name. -/
theorem Request.component_append (h : r.problem = none) {ext : String}
    (hslash : '/' ∉ ext.toList) (hlen : 2 < ext.length) : IsComponent (r.outputRoot ++ ext) := by
  have hlong : 2 < (r.outputRoot ++ ext).length := by
    rw [String.length_append]
    omega
  refine ⟨fun he => by simp [he] at hlong, ?_, fun he => absurd (he ▸ hlong) (by decide),
    fun he => absurd (he ▸ hlong) (by decide)⟩
  simp only [String.toList_append, List.mem_append, not_or]
  exact ⟨r.slash_not_mem h, hslash⟩

theorem Request.document_component (h : r.problem = none) :
    IsComponent (r.outputRoot ++ documentExt) :=
  r.component_append h (by simp [documentExt]) (by decide)

theorem Request.rendered_component (h : r.problem = none) :
    IsComponent (r.outputRoot ++ renderedExt) :=
  r.component_append h (by simp [renderedExt]) (by decide)

theorem Request.lock_component (h : r.problem = none) : IsComponent (lockName r.outputRoot) := by
  have hlong : 5 < (lockName r.outputRoot).length := by
    have h1 : ".".length = 1 := rfl
    have h5 : ".lock".length = 5 := rfl
    rw [lockName, String.length_append, String.length_append, h1, h5]
    omega
  refine ⟨fun he => by simp [he] at hlong, ?_, fun he => absurd (he ▸ hlong) (by decide),
    fun he => absurd (he ▸ hlong) (by decide)⟩
  simp only [lockName, String.toList_append, List.mem_append, not_or]
  exact ⟨⟨by decide, r.slash_not_mem h⟩, by decide⟩

/-- A request that passes its check names an output directory. -/
theorem Request.outputDir_ne (h : r.problem = none) : r.outputDir ≠ "" := by
  have hdir : r.directoryPath ≠ "" := by
    intro he
    rw [Request.problem, he, trim_empty, if_pos rfl] at h
    cases h
  unfold Request.outputDir
  split
  · exact hdir
  · assumption

/-- The page of a request that passes its check reads back as the heading a listing shows. -/
theorem Request.pageTitle_page (h : r.problem = none) (root : Entry) :
    (pageTitle (Text.Utf8.encode (Render.page root r.titleText))).getD r.outputRoot =
      r.heading := by
  have hroot : Text.trim r.outputRoot ≠ "" := by
    intro he
    unfold Request.problem at h
    split at h
    · cases h
    · simp at h
  rw [Store.pageTitle_page, Request.titleText, Request.heading]
  by_cases ht : Text.trim r.title = ""
  · simp [ht, hroot]
  · simp [ht]

end Checked

/-- The document and the page of a request that passes its check are direct children of its
cleaned output directory, named by its base name; the page is the rendering the document's path
names, and the document's stem is the base name. -/
theorem paired_paths {r : Request} (h : r.problem = none) :
    Path.dir (Path.join [r.outputDir, r.outputRoot ++ documentExt]) = Path.clean r.outputDir ∧
      Path.base (Path.join [r.outputDir, r.outputRoot ++ documentExt]) =
        r.outputRoot ++ documentExt ∧
      Path.dir (Path.join [r.outputDir, r.outputRoot ++ renderedExt]) = Path.clean r.outputDir ∧
      Path.base (Path.join [r.outputDir, r.outputRoot ++ renderedExt]) =
        r.outputRoot ++ renderedExt ∧
      renderedPathFor (Path.join [r.outputDir, r.outputRoot ++ documentExt]) =
        Path.join [r.outputDir, r.outputRoot ++ renderedExt] ∧
      stem (Path.join [r.outputDir, r.outputRoot ++ documentExt]) = r.outputRoot := by
  have hp := r.outputDir_ne h
  have hj := r.document_component h
  have hh := r.rendered_component h
  rw [Path.join_entry hp hj, Path.join_entry hp hh, Path.dir_entry hj, Path.base_entry hj,
    Path.dir_entry hh, Path.base_entry hh, ← Path.join_entry hp hj, ← Path.join_entry hp hh,
    renderedPathFor_join hp hj hh, stem_join hp hj]
  exact ⟨rfl, rfl, rfl, rfl, rfl, rfl⟩

/-- What a successful create is made of: a request that passes its check, a build, the two
writes under the lock, and the copies. -/
theorem create_ok {d : Disk} {faults : Walk.Faults} {now : Int} {req : Request} {c : Created}
    (hc : (create d faults now req).result = .ok c) :
    req.problem = none ∧ ∃ b d₁, Walk.build d faults req.directoryPath = .ok b ∧
      writeOutputs d req.outputDir req.outputRoot
          [(Path.join [req.outputDir, req.outputRoot ++ documentExt],
              Text.Utf8.encode (Document.encode b.root)),
            (Path.join [req.outputDir, req.outputRoot ++ renderedExt],
              Text.Utf8.encode (Render.page b.root req.titleText))] now = (d₁, .ok ()) ∧
      copyOutputs d₁ req (Path.join [req.outputDir, req.outputRoot ++ documentExt])
          (Path.join [req.outputDir, req.outputRoot ++ renderedExt]) now =
        ((create d faults now req).disk, .ok c.copies) ∧
      c = ⟨Path.join [req.outputDir, req.outputRoot ++ documentExt],
        Path.join [req.outputDir, req.outputRoot ++ renderedExt], b.root.countFiles, b.root.size,
        c.copies, b.warnings⟩ := by
  -- a failure of the create is a failure of the raw create, wrapped
  have hraw : (createRaw d faults now req).result = .ok c := by
    unfold create at hc
    dsimp only at hc
    split at hc
    · next c' hc' => rw [hc'] at hc ⊢; exact hc
    · cases hc
  have hdisk : (create d faults now req).disk = (createRaw d faults now req).disk := by
    unfold create
    dsimp only
    split <;> rfl
  have hv : req.problem = none := by
    cases hp : req.problem with
    | none => rfl
    | some msg => simp [createRaw, Request.validate, hp] at hraw
  have hval : req.validate = .ok () := by simp [Request.validate, hv]
  refine ⟨hv, ?_⟩
  rw [hdisk]
  unfold createRaw at hraw ⊢
  simp only [hval] at hraw ⊢
  split at hraw
  · cases hraw
  · next b hb =>
    rw [hb]
    split at hraw
    · cases hraw
    · next d₁ hw =>
      split at hraw
      · cases hraw
      · next d₂ copies hcp =>
        cases hraw
        exact ⟨b, d₁, rfl, hw, hcp, rfl⟩

/-- A create whose steps succeed reports the paths it wrote and the counts of the tree it
catalogued. -/
theorem create_of_steps {d : Disk} {faults : Walk.Faults} {now : Int} {req : Request}
    {b : Walk.Built} {d₁ d₂ : Disk} {copies : Option (String × String)}
    (hv : req.problem = none) (hb : Walk.build d faults req.directoryPath = .ok b)
    (hw : writeOutputs d req.outputDir req.outputRoot
        [(Path.join [req.outputDir, req.outputRoot ++ documentExt],
            Text.Utf8.encode (Document.encode b.root)),
          (Path.join [req.outputDir, req.outputRoot ++ renderedExt],
            Text.Utf8.encode (Render.page b.root req.titleText))] now = (d₁, .ok ()))
    (hcp : copyOutputs d₁ req (Path.join [req.outputDir, req.outputRoot ++ documentExt])
        (Path.join [req.outputDir, req.outputRoot ++ renderedExt]) now = (d₂, .ok copies)) :
    create d faults now req = ⟨d₂, b.progress, .ok ⟨Path.join [req.outputDir, req.outputRoot ++ documentExt],
      Path.join [req.outputDir, req.outputRoot ++ renderedExt], b.root.countFiles, b.root.size,
      copies, b.warnings⟩⟩ := by
  have hval : req.validate = .ok () := by simp [Request.validate, hv]
  simp only [Request.outputDir, Request.titleText, Text.Utf8.encode] at hw hcp
  have hraw : createRaw d faults now req = ⟨d₂, b.progress, .ok ⟨Path.join [req.outputDir,
      req.outputRoot ++ documentExt], Path.join [req.outputDir, req.outputRoot ++ renderedExt],
      b.root.countFiles, b.root.size, copies, b.warnings⟩⟩ := by
    simp only [createRaw, hval, hb, hw, hcp, Request.outputDir]
  simp only [create, hraw]

section Progress

variable {d : Disk} {faults : Walk.Faults} {req : Request}

/-- In a directory reached by names, with the lock's and the document's entries free and the
disk's next temporary entry too, the lock is taken by creating it empty and the document is
written; nothing else changes. The page's entry may hold anything. -/
theorem lock_document_into_free {q : String} {D : List String} (hs : d.root.Sorted)
    (hn : d.root.Named) (hD : d.Direct q D) (hq : q ≠ "") (hv : req.problem = none)
    (hjoin : ∀ n, IsComponent n → Path.join [req.outputDir, n] = Path.join [q, n])
    (hfree : ∀ n ∈ outputNames req.outputRoot d.serial, n ≠ req.outputRoot ++ renderedExt →
      d.root.at? (D ++ [n]) = none)
    (hnames : ∀ n ∈ outputNames req.outputRoot d.serial, n.utf8ByteSize ≤ maxNameBytes)
    (hpaths : ∀ n ∈ [lockName req.outputRoot, req.outputRoot ++ documentExt,
      req.outputRoot ++ renderedExt], pathProblem (Path.join [q, n]) = none)
    (hdt : pathProblem (tempName (Path.clean q) d.serial) = none) (J : List UInt8) (now : Int) :
    ∃ e₀ lock e₁, d.openCreate (lockPath req.outputDir req.outputRoot) false now maxLinks =
        .ok (e₀, lock) ∧
      atomicWrite e₀ (Path.join [req.outputDir, req.outputRoot ++ documentExt]) J now =
        (e₁, .ok ()) ∧
      d.Keeps e₁ ∧ e₁.serial = d.serial + 1 ∧
      e₁.root = (d.root.alter (fun _ => some (.file [] 0 now)) (D ++ [lockName req.outputRoot])).alter
        (fun _ => some (.file J J.length now)) (D ++ [req.outputRoot ++ documentExt]) ∧
      e₁.root.at? (D ++ [req.outputRoot ++ documentExt]) = some (.file J J.length now) := by
  have hl := req.lock_component hv
  have hj := req.document_component hv
  -- the lock goes to its free entry
  have hlockE : d.Entry (lockPath req.outputDir req.outputRoot) D (lockName req.outputRoot) := by
    rw [lockPath, ← lockName, hjoin _ hl]
    exact hD.join hq hl
  have hlock := hlockE.openCreate_free
    (by rw [lockPath, ← lockName, hjoin _ hl]; exact hpaths _ (by simp))
    (hfree _ (by simp [outputNames]) (rendered_ne_lock _).symm) (hnames _ (by simp [outputNames]))
    false now maxLinks
  have hk₀ := openCreate_keeps hs hn hlock
  -- the document, through the temporary file of the disk's number
  have hfree₀ : ∀ x ∈ outputNames req.outputRoot d.serial, x ≠ lockName req.outputRoot →
      x ≠ req.outputRoot ++ renderedExt →
      (d.put (D ++ [lockName req.outputRoot]) (some (.file [] 0 now))).root.at? (D ++ [x]) = none :=
    fun x hx hxl hxh => (at?_alter_sibling _ hxl).trans (hfree x hx hxh)
  have hjT : (d.put (D ++ [lockName req.outputRoot]) (some (.file [] 0 now))).Target
      (Path.join [req.outputDir, req.outputRoot ++ documentExt]) D (req.outputRoot ++ documentExt) := by
    rw [hjoin _ hj]
    exact (hD.target hq hj).keep hk₀
  have hdir : Path.dir (Path.join [req.outputDir, req.outputRoot ++ documentExt]) = Path.clean q := by
    rw [hjoin _ hj, Path.join_entry hq hj, Path.dir_entry hj]
  obtain ⟨e₁, hw₁, hser₁⟩ := atomicWrite_free hjT hk₀.sorted hk₀.named
    (by rw [hjoin _ hj]; exact hpaths _ (by simp))
    (by rw [hfree₀ _ (by simp [outputNames]) (document_ne_lock _) (rendered_ne_document _).symm]; simp)
    (hnames _ (by simp [outputNames])) (by rw [hdir]; exact hdt)
    (hfree₀ _ (by simp [outputNames]) (tempBase_ne_lock _ _) (tempBase_ne_rendered _ _))
    (hnames _ (by simp [outputNames])) J now
  obtain ⟨-, -, hr₁⟩ := atomicWrite_root hjT hk₀.sorted hk₀.named hw₁
  exact ⟨_, _, e₁, hlock, hw₁, hk₀.trans (atomicWrite_keeps hjT hk₀.sorted hk₀.named hw₁), hser₁,
    hr₁, atomicWrite_self hjT hk₀.sorted hk₀.named hw₁⟩

/-- A create into a directory reached by names, where the names it uses are free, succeeds once
its tree is built: the disk then holds the lock, the document and the page there, and nothing
else has changed. The output directory may be written in any way that joins names as `q` does. -/
theorem create_into_free {q : String} {D : List String} {b : Walk.Built}
    (hs : d.root.Sorted) (hn : d.root.Named) (hD : d.Direct q D) (hq : q ≠ "")
    (hv : req.problem = none) (hb : Walk.build d faults req.directoryPath = .ok b)
    (hjoin : ∀ n, IsComponent n → Path.join [req.outputDir, n] = Path.join [q, n])
    (hcopy : req.copyToDirectory = "")
    (hfree : ∀ n ∈ outputNames req.outputRoot d.serial, d.root.at? (D ++ [n]) = none)
    (hnames : ∀ n ∈ outputNames req.outputRoot d.serial, n.utf8ByteSize ≤ maxNameBytes)
    (hpaths : ∀ n ∈ [lockName req.outputRoot, req.outputRoot ++ documentExt,
      req.outputRoot ++ renderedExt], pathProblem (Path.join [q, n]) = none)
    (htemps : ∀ k ∈ [d.serial, d.serial + 1], pathProblem (tempName (Path.clean q) k) = none)
    (now : Int) :
    ∃ e, create d faults now req = ⟨e, b.progress, .ok ⟨Path.join [req.outputDir,
        req.outputRoot ++ documentExt], Path.join [req.outputDir, req.outputRoot ++ renderedExt],
        b.root.countFiles, b.root.size, none, b.warnings⟩⟩ ∧ d.Keeps e ∧
      e.root = ((d.root.alter (fun _ => some (.file [] 0 now)) (D ++ [lockName req.outputRoot])).alter
        (fun _ => some (.file (Text.Utf8.encode (Document.encode b.root))
          (Text.Utf8.encode (Document.encode b.root)).length now))
        (D ++ [req.outputRoot ++ documentExt])).alter
        (fun _ => some (.file (Text.Utf8.encode (Render.page b.root req.titleText))
          (Text.Utf8.encode (Render.page b.root req.titleText)).length now))
        (D ++ [req.outputRoot ++ renderedExt]) := by
  have hh := req.rendered_component hv
  obtain ⟨e₀, lock, e₁, hlock, hw₁, hk₁, hser₁, hr₁, -⟩ := lock_document_into_free hs hn hD hq hv
    hjoin (fun n hn _ => hfree n hn) hnames hpaths (htemps _ (by simp))
    (Text.Utf8.encode (Document.encode b.root)) now
  -- then the page, through the next temporary file
  have hfree₁ : ∀ x ∈ outputNames req.outputRoot d.serial, x ≠ lockName req.outputRoot →
      x ≠ req.outputRoot ++ documentExt → e₁.root.at? (D ++ [x]) = none := fun x hx hxl hxj => by
    rw [hr₁, at?_alter_sibling _ hxj, at?_alter_sibling _ hxl]
    exact hfree x hx
  have hhT : e₁.Target (Path.join [req.outputDir, req.outputRoot ++ renderedExt]) D
      (req.outputRoot ++ renderedExt) := by
    rw [hjoin _ hh]
    exact (hD.target hq hh).keep hk₁
  have htemp₁ : e₁.root.at? (D ++ [tempBase e₁.serial]) = none := by
    rw [hser₁]
    exact hfree₁ _ (by simp [outputNames]) (tempBase_ne_lock _ _) (tempBase_ne_document _ _)
  have hdir : Path.dir (Path.join [req.outputDir, req.outputRoot ++ renderedExt]) = Path.clean q := by
    rw [hjoin _ hh, Path.join_entry hq hh, Path.dir_entry hh]
  obtain ⟨e₂, hw₂, -⟩ := atomicWrite_free hhT hk₁.sorted hk₁.named
    (by rw [hjoin _ hh]; exact hpaths _ (by simp))
    (by rw [hfree₁ _ (by simp [outputNames]) (rendered_ne_lock _) (rendered_ne_document _)]; simp)
    (hnames _ (by simp [outputNames])) (by rw [hdir, hser₁]; exact htemps _ (by simp))
    htemp₁ (by rw [hser₁]; exact hnames _ (by simp [outputNames]))
    (Text.Utf8.encode (Render.page b.root req.titleText)) now
  obtain ⟨-, -, hr₂⟩ := atomicWrite_root hhT hk₁.sorted hk₁.named hw₂
  have hk₂ := atomicWrite_keeps hhT hk₁.sorted hk₁.named hw₂
  have hcp : copyOutputs e₂ req (Path.join [req.outputDir, req.outputRoot ++ documentExt])
      (Path.join [req.outputDir, req.outputRoot ++ renderedExt]) now = (e₂, .ok none) := by
    simp [copyOutputs, hcopy]
  refine ⟨e₂, create_of_steps hv hb (writeOutputs_of_steps hlock hw₁ hw₂) hcp, hk₁.trans hk₂, ?_⟩
  rw [hr₂, hr₁]

end Progress

/-- A disk holding the outputs of a catalog named `base` in the directory at `D`: the document
bytes `J` and the page bytes `H`, as files stamped `now`. -/
structure Holds (e : Disk) (D : List String) (base : String) (J H : List UInt8) (now : Int) :
    Prop where
  document : e.root.at? (D ++ [base ++ documentExt]) = some (.file J J.length now)
  page : e.root.at? (D ++ [base ++ renderedExt]) = some (.file H H.length now)

section Holding

variable {e e₁ e₂ : Disk} {D C : List String} {base : String} {J H : List UInt8} {now : Int}

theorem snoc_ne {a b : String} (h : a ≠ b) : D ++ [a] ≠ C ++ [b] := fun he =>
  h (List.singleton_inj.mp (List.append_inj' he rfl).2)

/-- Writing the document and then the page of a catalog into a directory leaves both there: the
page lands under another name than the document. -/
theorem Holds.of_writes {jpath hpath : String} (hj : e.Target jpath D (base ++ documentExt))
    (hh : e.Target hpath D (base ++ renderedExt)) (hs : e.root.Sorted) (hn : e.root.Named)
    (hw₁ : atomicWrite e jpath J now = (e₁, .ok ()))
    (hw₂ : atomicWrite e₁ hpath H now = (e₂, .ok ())) :
    e.Keeps e₂ ∧ Holds e₂ D base J H now := by
  have hk₁ := atomicWrite_keeps hj hs hn hw₁
  have hh₁ := hh.keep hk₁
  have hk₂ := atomicWrite_keeps hh₁ hk₁.sorted hk₁.named hw₂
  have hdoc := atomicWrite_leaf hh₁ hk₁.sorted hk₁.named hw₂
    (atomicWrite_self hj hs hn hw₁) rfl
  rw [if_neg (snoc_ne (rendered_ne_document base).symm)] at hdoc
  exact ⟨hk₁.trans hk₂, hdoc, atomicWrite_self hh₁ hk₁.sorted hk₁.named hw₂⟩

/-- A write keeps the outputs held when it lands elsewhere or writes the bytes already there. -/
theorem Holds.write (hold : Holds e₁ D base J H now) {path n : String} {data : List UInt8}
    (ht : e₁.Target path C n) (hs : e₁.root.Sorted) (hn : e₁.root.Named)
    (hw : atomicWrite e₁ path data now = (e₂, .ok ()))
    (hJ : C ++ [n] = D ++ [base ++ documentExt] → data = J)
    (hH : C ++ [n] = D ++ [base ++ renderedExt] → data = H) : Holds e₂ D base J H now := by
  have hdoc := atomicWrite_leaf ht hs hn hw hold.document rfl
  have hpage := atomicWrite_leaf ht hs hn hw hold.page rfl
  constructor
  · rw [hdoc]
    split
    · next he => rw [hJ he.symm]
    · rfl
  · rw [hpage]
    split
    · next he => rw [hH he.symm]
    · rfl

/-- A successful copy of bytes read from `src` is a write of those bytes, and keeps the outputs held
when it lands elsewhere or copies the bytes already there. -/
theorem Holds.copy (hold : Holds e D base J H now) {src dst n : String} {data : List UInt8}
    (hread : e.readFile src = .ok data) (ht : e.Target dst C n) (hs : e.root.Sorted)
    (hn : e.root.Named) (hc : copyFile e src dst now = (e₁, .ok ()))
    (hJ : C ++ [n] = D ++ [base ++ documentExt] → data = J)
    (hH : C ++ [n] = D ++ [base ++ renderedExt] → data = H) :
    atomicWrite e dst data now = (e₁, .ok ()) ∧ e.Keeps e₁ ∧ Holds e₁ D base J H now := by
  obtain ⟨bytes, hbytes, hw⟩ := copyFile_ok hc
  rw [hread, Except.ok.injEq] at hbytes
  subst hbytes
  exact ⟨hw, atomicWrite_keeps ht hs hn hw, hold.write ht hs hn hw hJ hH⟩

/-- Copying the document and then the page of a catalog held in one directory to another reached
by names leaves both held in each. -/
theorem Holds.copies (hold : Holds e D base J H now) {jpath hpath cdir : String}
    (hjE : e.Entry jpath D (base ++ documentExt)) (hhE : e.Entry hpath D (base ++ renderedExt))
    (hvj : pathProblem jpath = none) (hvh : pathProblem hpath = none)
    (hbj : IsComponent (base ++ documentExt)) (hbh : IsComponent (base ++ renderedExt))
    (hC : e.Direct cdir C) (hcd : cdir ≠ "") (hs : e.root.Sorted) (hn : e.root.Named)
    (hc₁ : copyFile e jpath (Path.join [cdir, base ++ documentExt]) now = (e₁, .ok ()))
    (hc₂ : copyFile e₁ hpath (Path.join [cdir, base ++ renderedExt]) now = (e₂, .ok ())) :
    e.Keeps e₂ ∧ Holds e₂ D base J H now ∧ Holds e₂ C base J H now := by
  have hne := (rendered_ne_document base).symm
  have hcj := hC.target hcd hbj
  have hch := hC.target hcd hbh
  obtain ⟨hw₁, hk₁, hold₁⟩ := hold.copy (hjE.readFile_file hvj hold.document) hcj hs hn hc₁
    (fun _ => rfl) (fun he => absurd he (snoc_ne hne))
  obtain ⟨hw₂, -, hold₂⟩ := hold₁.copy ((hhE.keep hk₁).readFile_file hvh hold₁.page)
    (hch.keep hk₁) hk₁.sorted hk₁.named hc₂ (fun he => absurd he (snoc_ne hne.symm)) (fun _ => rfl)
  obtain ⟨hk, hcopies⟩ := Holds.of_writes hcj hch hs hn hw₁ hw₂
  exact ⟨hk, hold₂, hcopies⟩

/-- A file held in a directory reached by names reads as its bytes. -/
theorem Holds.readFile_document (hold : Holds e D base J H now) {p : String}
    (hE : e.Entry p D (base ++ documentExt)) (hv : pathProblem p = none) : e.readFile p = .ok J :=
  hE.readFile_file hv hold.document

theorem Holds.readFile_page (hold : Holds e D base J H now) {p : String}
    (hE : e.Entry p D (base ++ renderedExt)) (hv : pathProblem p = none) : e.readFile p = .ok H :=
  hE.readFile_file hv hold.page

end Holding

section Created

variable {d : Disk} {faults : Walk.Faults} {now : Int} {req : Request} {c : Created}

/-- After a successful create on a disk that places its request, the output directory is still
reached by names and holds the document and the page, stamped with the time of the create; the
copies, when a copy directory is given, read as the same bytes. -/
theorem create_holds (hp : req.Placed d) (hc : (create d faults now req).result = .ok c) :
    ∃ b D, Walk.build d faults req.directoryPath = .ok b ∧
      (create d faults now req).disk.Direct req.outputDir D ∧
      (create d faults now req).disk.root.Sorted ∧ (create d faults now req).disk.root.Named ∧
      Holds (create d faults now req).disk D req.outputRoot
        (Text.Utf8.encode (Document.encode b.root))
        (Text.Utf8.encode (Render.page b.root req.titleText)) now ∧
      pathProblem (Path.join [req.outputDir, req.outputRoot ++ documentExt]) = none ∧
      pathProblem (Path.join [req.outputDir, req.outputRoot ++ renderedExt]) = none ∧
      c = ⟨Path.join [req.outputDir, req.outputRoot ++ documentExt],
        Path.join [req.outputDir, req.outputRoot ++ renderedExt], b.root.countFiles, b.root.size,
        c.copies, b.warnings⟩ ∧
      (c.copies = none ↔ req.copyToDirectory = "") ∧
      ∀ cj ch, c.copies = some (cj, ch) →
        (create d faults now req).disk.readFile cj = .ok (Text.Utf8.encode (Document.encode b.root)) ∧
        (create d faults now req).disk.readFile ch =
          .ok (Text.Utf8.encode (Render.page b.root req.titleText)) := by
  obtain ⟨hv, b, d₁, hb, hw, hcp, hcform⟩ := create_ok hc
  obtain ⟨D, hD⟩ := hp.output
  have hdir := req.outputDir_ne hv
  have hbj := req.document_component hv
  have hbh := req.rendered_component hv
  -- the lock, then the document and the page
  obtain ⟨e₀, lock, e₁, hlock, hw₁, hw₂⟩ := writeOutputs_ok hw
  have hk₀ : d.Keeps e₀ := openCreate_keeps hp.sorted hp.named hlock
  have hj₀ := (hD.target hdir hbj).keep hk₀
  have hh₀ := (hD.target hdir hbh).keep hk₀
  obtain ⟨hk₁, hold₁⟩ := Holds.of_writes hj₀ hh₀ hk₀.sorted hk₀.named hw₁ hw₂
  have hk := hk₀.trans hk₁
  have hvj := atomicWrite_valid hw₁
  have hvh := atomicWrite_valid hw₂
  -- then the copies, if any
  rcases copyOutputs_ok hcp with ⟨hcd, hdisk, hcopies⟩ | ⟨hcd, hcopies, e₂, hc₁, hc₂⟩
  · rw [hdisk]
    refine ⟨b, D, hb, hD.keep hk, hk.sorted, hk.named, hold₁, hvj, hvh, hcform,
      by simp [hcopies, hcd], ?_⟩
    intro cj ch h
    rw [hcopies] at h
    cases h
  · obtain ⟨C, hC⟩ := hp.copy hcd
    obtain ⟨hk₂, hold₂, holdC⟩ := hold₁.copies ((hD.join hdir hbj).keep hk)
      ((hD.join hdir hbh).keep hk) hvj hvh hbj hbh (hC.keep hk) hcd hk.sorted hk.named hc₁ hc₂
    have hkd := hk.trans hk₂
    refine ⟨b, D, hb, hD.keep hkd, hkd.sorted, hkd.named, hold₂, hvj, hvh, hcform,
      by simp [hcopies, hcd], ?_⟩
    intro cj ch h
    rw [hcopies, Option.some.injEq, Prod.mk.injEq] at h
    obtain ⟨rfl, rfl⟩ := h
    obtain ⟨_, -, hcw₁⟩ := copyFile_ok hc₁
    obtain ⟨_, -, hcw₂⟩ := copyFile_ok hc₂
    exact ⟨holdC.readFile_document ((hC.join hcd hbj).keep hkd) (atomicWrite_valid hcw₁),
      holdC.readFile_page ((hC.join hcd hbh).keep hkd) (atomicWrite_valid hcw₂)⟩

end Created

-- Catalogueing the empty `/o` into itself under the name `c`.

theorem join_o {n : String} (hn : IsComponent n) : Path.join ["/o", n] = Path.rooted ["o", n] :=
  @Path.join_rooted ["o"] [n] (by simpa using ⟨by decide, hn⟩)

theorem outputs_in_o :
    (∀ n ∈ outputNames "c" 0, n.utf8ByteSize ≤ maxNameBytes) ∧
      (∀ n ∈ [lockName "c", "c" ++ documentExt, "c" ++ renderedExt],
        pathProblem (Path.join ["/o", n]) = none) ∧
      ∀ k ∈ [0, 0 + 1], pathProblem (tempName (Path.clean "/o") k) = none := by
  have hclean : Path.clean "/o" = "/o" := @Path.clean_rooted ["o"] (by simpa using by decide)
  refine ⟨by decide, fun n hn => ?_, fun k hk => ?_⟩
  · simp only [List.mem_cons, List.mem_nil_iff, or_false] at hn
    rcases hn with rfl | rfl | rfl <;> rw [join_o (by decide)] <;> cbv
  · rw [hclean]
    simp only [List.mem_cons, List.mem_nil_iff, or_false] at hk
    rcases hk with rfl | rfl <;> cbv

theorem problem_named_c {r : Request} (hdir : Text.trim r.directoryPath ≠ "")
    (hroot : r.outputRoot = "c") : r.problem = none := by
  have hany : "c".any (fun c => c = '/' ∨ c = '\\') = false := by simp [String.any]
  have htrim : Text.trim "c" ≠ "" := by cbv
  simp [Request.problem, hdir, hroot, hany, htrim]

def freshShelf : Disk := ⟨.dir [("o", .dir [])], "/", 0⟩

def freshRequest : Request := { directoryPath := "/o", outputRoot := "c" }

def freshBuilt : Walk.Built := ⟨⟨"directory", "./o", 0, some []⟩, [], ["./o"]⟩

/-- The catalog `c` of an empty directory, written to `/o`. -/
def oCatalog : Created := ⟨"/o/c.json", "/o/c.html", 0, 0, none, []⟩

theorem build_fresh : Walk.build freshShelf {} freshRequest.directoryPath = .ok freshBuilt := by
  cbv

theorem freshRequest_placed : freshRequest.Placed freshShelf where
  sorted := by decide
  named := by decide
  valid := by cbv
  output := ⟨["o"], by cbv, ⟨[], rfl⟩⟩
  copy := fun h => absurd rfl h

/-- Creating the catalog of the empty `/o` succeeds, and leaves a disk without named pipes. -/
theorem create_fresh :
    ∃ e, create freshShelf {} 0 freshRequest = ⟨e, ["./o"], .ok oCatalog⟩ ∧ e.root.PipeFree := by
  have hv : freshRequest.problem = none := problem_named_c (by cbv) rfl
  obtain ⟨hnames, hpaths, htemps⟩ := outputs_in_o
  have hfree : ∀ n ∈ outputNames "c" 0, freshShelf.root.at? (["o"] ++ [n]) = none :=
    fun _ _ => rfl
  obtain ⟨e, hcreate, -, hroot⟩ := create_into_free freshRequest_placed.sorted
    freshRequest_placed.named ⟨by cbv, ⟨[], rfl⟩⟩ (by decide) hv build_fresh (fun _ _ => rfl) rfl
    hfree hnames hpaths htemps 0
  refine ⟨e, ?_, ?_⟩
  · have hcount : freshBuilt.root.countFiles = 0 := by
      simp [freshBuilt, Entry.countFiles, Entry.fileKind]
    have hj : Path.join [freshRequest.outputDir, freshRequest.outputRoot ++ documentExt] =
        "/o/c.json" := join_o (freshRequest.document_component hv)
    have hh : Path.join [freshRequest.outputDir, freshRequest.outputRoot ++ renderedExt] =
        "/o/c.html" := join_o (freshRequest.rendered_component hv)
    rw [hcreate, hcount, hj, hh]
    rfl
  · have hpipes : freshShelf.root.PipeFree := .dir (by simpa using Node.PipeFree.dir (by simp))
    rw [hroot]
    exact ((hpipes.put_file _ _ _ _).put_file _ _ _ _).put_file _ _ _ _

def linkedOutShelf : Disk :=
  ⟨.dir [("o", .dir [("l", .link "/t/s")]), ("t", .dir [("s", .dir [])])], "/", 0⟩

def dotdotRequest : Request :=
  { directoryPath := "/t/s", outputRoot := "c", outputDirectory := "/o/l/.." }

end TreeCatalog.Store
