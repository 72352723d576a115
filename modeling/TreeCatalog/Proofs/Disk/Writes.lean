import Mathlib
import TreeCatalog.Proofs.Disk.Walks

/-! # Writing at places reached by names

The writes of a catalog go to entries of directories that their paths reach by names alone,
following no link (`Disk.Direct`, `Disk.Entry`). Such a path leads to the same directory after
every change that keeps the disk's directories (`Disk.Keeps`), and there each write is a change
of one place: an exclusive open puts an empty file at a free entry, a rename moves a node, and a
write through a temporary file puts the written file at the target and leaves every other place
as it was (`atomicWrite_root`). An open for writing that may follow links still only ever adds an
empty file where a directory held nothing, so it too keeps the directories (`openCreate_keeps`).
Each of these steps succeeds where its entry is free, or for a rename holds no directory, and its
name is short enough (`Disk.Entry.openCreate_free`, `createTemp_free`, `Disk.Entry.rename_eq`). -/

namespace TreeCatalog.Disk

set_option linter.dupNamespace false

open TreeCatalog.Path (IsComponent)

/-- What the writes of a catalog keep of the disk they start from: the working directory, every
directory, and directories sorted and named. -/
structure Disk.Keeps (d e : Disk) : Prop where
  cwd : e.cwd = d.cwd
  dirs : d.root.KeepsDirs e.root
  sorted : e.root.Sorted
  named : e.root.Named

section Keeps

variable {d e e' : Disk}

theorem Disk.Keeps.refl (hs : d.root.Sorted) (hn : d.root.Named) : d.Keeps d :=
  ⟨rfl, Node.KeepsDirs.refl _, hs, hn⟩

theorem Disk.Keeps.trans (h₁ : d.Keeps e) (h₂ : e.Keeps e') : d.Keeps e' :=
  ⟨h₂.cwd.trans h₁.cwd, h₁.dirs.trans h₂.dirs, h₂.sorted, h₂.named⟩

/-- Only the tree and the working directory count. -/
theorem Disk.Keeps.congr (h : d.Keeps e) (hr : e'.root = e.root) (hc : e'.cwd = e.cwd) :
    d.Keeps e' :=
  ⟨hc.trans h.cwd, hr ▸ h.dirs, hr ▸ h.sorted, hr ▸ h.named⟩

@[simp] theorem Disk.put_serial (ps : List String) (o : Option Node) : (d.put ps o).serial = d.serial :=
  rfl

/-- Writing a sorted, named node, or nothing, at an entry of a directory that holds no directory
keeps the disk. -/
theorem Disk.keeps_put (hs : e.root.Sorted) (hn : e.root.Named) {ps : List String} {c : String}
    (hc : IsComponent c) (hq : ∀ es, e.root.at? (ps ++ [c]) ≠ some (.dir es)) {o : Option Node}
    (ho : ∀ m, o = some m → m.Sorted ∧ m.Named) : e.Keeps (e.put (ps ++ [c]) o) :=
  ⟨rfl, Node.keepsDirs_alter _ hq, Node.Sorted.alter _ (fun _ m h => (ho m h).1) _ hs,
    Node.Named.alter _ (fun _ m h => (ho m h).2) hc ps hn⟩

theorem file_sorted_named (data : List UInt8) (size : Nat) (t : Int) :
    ∀ m, some (Node.file data size t) = some m → m.Sorted ∧ m.Named := by
  rintro m ⟨⟩
  exact ⟨.file, .file⟩

end Keeps

theorem Disk.start_of_cwd {e e' : Disk} (h : e'.cwd = e.cwd) (p : String) :
    e'.start p = e.start p := by
  simp [Disk.start, h]

/-- A path that leads to the directory at physical path `dir` by its names alone: its walk
follows no link. -/
structure Disk.Direct (e : Disk) (p : String) (dir : List String) : Prop where
  walks : walk e.root true 0 (e.start p) (Path.parts p) = .ok dir
  isDir : ∃ es, e.root.at? dir = some (.dir es)

/-- A path that names the entry `name` of the directory at physical path `dir`, the directory
reached by names alone. -/
structure Disk.Entry (e : Disk) (p : String) (dir : List String) (name : String) : Prop where
  component : IsComponent name
  walks : ∃ cs, components p = cs ++ [name] ∧ walk e.root true 0 (e.start p) cs = .ok dir
  isDir : ∃ es, e.root.at? dir = some (.dir es)

/-- The name of the `n`th temporary file. -/
def tempBase (n : Nat) : String := ".tmp-" ++ toString n

theorem tempName_eq (x : String) (n : Nat) :
    tempName x n = (if x.endsWith "/" then x else x ++ "/") ++ tempBase n := by
  simp [tempName, tempBase, String.append_assoc]

theorem tempBase_component (n : Nat) : IsComponent (tempBase n) := by
  have hchars : (tempBase n).toList = '.' :: 't' :: 'm' :: 'p' :: '-' :: Nat.toDigits 10 n := by
    simp [tempBase]
  have hdigit : '/' ∉ Nat.toDigits 10 n := fun h =>
    absurd (Nat.isDigit_of_mem_toDigits (by decide) (by decide) h) (by decide)
  refine ⟨fun h => ?_, ?_, fun h => ?_, fun h => ?_⟩
  · have := congrArg String.toList h
    rw [hchars] at this
    cases this
  · rw [hchars]
    simp [hdigit]
  · have := congrArg String.toList h
    rw [hchars, show ".".toList = ['.'] from rfl] at this
    simp at this
  · have := congrArg String.toList h
    rw [hchars, show "..".toList = ['.', '.'] from rfl] at this
    simp at this

section Reach

variable {e e' : Disk} {p : String} {dir : List String} {name : String}

theorem Disk.Direct.keep (h : e.Direct p dir) (hk : e.Keeps e') : e'.Direct p dir := by
  obtain ⟨es, hes⟩ := h.isDir
  refine ⟨?_, hk.dirs _ _ hes⟩
  rw [Disk.start_of_cwd hk.cwd]
  exact walk_zero_keepsDirs hk.dirs h.walks rfl ⟨es, hes⟩

theorem Disk.Entry.keep (h : e.Entry p dir name) (hk : e.Keeps e') : e'.Entry p dir name := by
  obtain ⟨es, hes⟩ := h.isDir
  obtain ⟨cs, hcs, hw⟩ := h.walks
  refine ⟨h.component, ⟨cs, hcs, ?_⟩, hk.dirs _ _ hes⟩
  rw [Disk.start_of_cwd hk.cwd]
  exact walk_zero_keepsDirs hk.dirs hw rfl ⟨es, hes⟩

/-- A path reached by names walks its cleaned components to the same place: they climb first and
then go down by names, through directories of the way. -/
theorem Disk.Direct.walk_cleanParts (h : e.Direct p dir) (f : Bool) (links : Nat) :
    walk e.root f links (e.start p) (Path.cleanParts (Path.isAbs p) (Path.parts p)) =
      .ok dir := by
  obtain ⟨es, hes⟩ := h.isDir
  have hlex : dir = Path.lexical (e.start p) (Path.cleanParts (Path.isAbs p) (Path.parts p)) := by
    rw [Path.lexical_cleanParts (fun habs => by simp [Disk.start, habs])]
    exact walk_zero_lexical h.walks rfl
  obtain ⟨k, names, hcl, hnames, -⟩ := Path.cleanParts_climbs (Path.isAbs p) (Path.parts p)
  rw [hcl] at hlex ⊢
  rw [walk_climbing hnames ⟨.dir es, by rw [← hlex]; exact hes, fun _ h => by cases h⟩, ← hlex]

/-- The cleaned path leads to the same directory. -/
theorem Disk.Direct.clean (h : e.Direct p dir) : e.Direct (Path.clean p) dir := by
  have hstart : e.start (Path.clean p) = e.start p := by simp [Disk.start, Path.isAbs_clean]
  refine ⟨?_, h.isDir⟩
  rw [hstart]
  rcases Path.parts_clean p with hparts | ⟨hdot, hnil⟩
  · rw [hparts]
    exact h.walk_cleanParts true 0
  · -- the cleaned path is `.`: the walk stays where it starts, which is the directory
    have hhere := h.walk_cleanParts true 0
    rw [hnil, walk_nil] at hhere
    rw [hdot, show Path.parts "." = ["."] by cbv, walk_dot, walk_nil]
    exact hhere

/-- A name joined to a path reached by names is an entry of its directory. -/
theorem Disk.Direct.join (h : e.Direct p dir) (hp : p ≠ "") (hn : IsComponent name) :
    e.Entry (Path.join [p, name]) dir name := by
  rw [Path.join_entry hp hn]
  have hcomps : components (Path.entryPrefix p ++ name) =
      Path.cleanParts (Path.isAbs p) (Path.parts p) ++ [name] := by
    simp [components, Path.endsWith_entry hn, Path.parts_entry hn]
  have hstart : e.start (Path.entryPrefix p ++ name) = e.start p := by
    simp [Disk.start, Path.isAbs_entry hn]
  refine ⟨hn, ⟨_, hcomps, ?_⟩, h.isDir⟩
  rw [hstart]
  exact h.walk_cleanParts true 0

/-- A temporary file of a directory reached by names is an entry of it. -/
theorem Disk.Direct.temp (h : e.Direct p dir) (hp : p ≠ "") (n : Nat) :
    e.Entry (tempName p n) dir (tempBase n) := by
  have ht := tempBase_component n
  have hpiece : tempBase n ≠ "" ∧ '/' ∉ (tempBase n).toList := ⟨ht.1, ht.2.1⟩
  have hcomps : components (tempName p n) = Path.parts p ++ [tempBase n] := by
    simp [components, tempName_eq, Path.endsWith_append_piece _ hpiece,
      Path.parts_slash_append p hpiece]
  have hstart : e.start (tempName p n) = e.start p := by
    have habs : Path.isAbs (tempName p n) = Path.isAbs p := by
      rw [tempName_eq]
      split
      · exact Path.isAbs_append hp _
      · rw [String.append_assoc, Path.isAbs_append hp]
    simp [Disk.start, habs]
  refine ⟨ht, ⟨_, hcomps, ?_⟩, h.isDir⟩
  rw [hstart]
  exact h.walks

/-- A path a file is written to through a temporary file beside it: an entry of a directory
reached by names, whose temporary files are entries of the same directory. -/
structure Disk.Target (e : Disk) (p : String) (dir : List String) (name : String) : Prop where
  entry : e.Entry p dir name
  temps : ∀ n, e.Entry (tempName (Path.dir p) n) dir (tempBase n)

theorem Disk.Target.keep (h : e.Target p dir name) (hk : e.Keeps e') : e'.Target p dir name :=
  ⟨h.entry.keep hk, fun n => (h.temps n).keep hk⟩

/-- A name joined to a path reached by names is written through temporary files of the same
directory: the directory of the joined path is the cleaned path. -/
theorem Disk.Direct.target (h : e.Direct p dir) (hp : p ≠ "") (hn : IsComponent name) :
    e.Target (Path.join [p, name]) dir name := by
  refine ⟨h.join hp hn, fun n => ?_⟩
  rw [Path.join_entry hp hn, Path.dir_entry hn]
  exact h.clean.temp (Path.clean_ne_empty p) n

end Reach

section Step

variable {root : Node} {f : Bool} {k : Nat} {dir : List String} {c : String}
  {es : List (String × Node)}

/-- The last step of a walk to an entry that holds a node: there, unless it must follow a link. -/
theorem walk_entry (hdir : root.at? dir = some (.dir es)) (hc : IsComponent c) {m : Node}
    (hm : root.at? (dir ++ [c]) = some m) (hl : f = false ∨ ∀ t, m ≠ .link t) :
    walk root f k dir [c] = .ok (dir ++ [c]) := by
  cases m with
  | dir fs => rw [walk_dir [] hc.2.2.1 hc.2.2.2 hdir hm, walk_nil]
  | link t =>
    rcases hl with rfl | hl
    · exact walk_link_stop [] hc.2.2.1 hc.2.2.2 hdir hm ⟨rfl, rfl⟩
    · exact absurd rfl (hl t)
  | file => rw [walk_leaf [] hc.2.2.1 hc.2.2.2 hdir hm rfl (fun _ h => by cases h)]; rfl
  | fifo => rw [walk_leaf [] hc.2.2.1 hc.2.2.2 hdir hm rfl (fun _ h => by cases h)]; rfl

/-- The last step of a walk to an entry that holds nothing. -/
theorem walk_entry_missing (hdir : root.at? dir = some (.dir es)) (hc : IsComponent c)
    (hm : root.at? (dir ++ [c]) = none) : walk root f k dir [c] = .error (missing c) := by
  have hl : es.lookup c = none := (Node.at?_snoc_of_dir hdir c).symm.trans hm
  rw [walk]
  simp [hc.2.2.1, hc.2.2.2, hdir, Node.entries?, hl]

end Step

section Lookup

variable {e : Disk} {p : String} {dir : List String} {name : String}

/-- The walk of an entry's path takes its directory's names, then the entry. -/
theorem Disk.Entry.walk_eq (h : e.Entry p dir name) (f : Bool) :
    ∃ k, walk e.root f maxLinks (e.start p) (components p) = walk e.root f k dir [name] := by
  obtain ⟨cs, hcs, hw⟩ := h.walks
  rw [hcs]
  exact walk_append (walk_links_zero hw rfl maxLinks) h.isDir (List.cons_ne_nil _ _)

theorem Disk.Entry.lookup_eq (h : e.Entry p dir name) (hv : pathProblem p = none) {m : Node}
    (hm : e.root.at? (dir ++ [name]) = some m) {f : Bool} (hl : f = false ∨ ∀ t, m ≠ .link t) :
    e.lookup p f = .ok m := by
  obtain ⟨es, hes⟩ := h.isDir
  obtain ⟨k, hk⟩ := h.walk_eq f
  simp [Disk.lookup, Disk.resolve, hv, hk, walk_entry hes h.component hm hl, hm]

theorem Disk.Entry.lookup_missing (h : e.Entry p dir name) (hv : pathProblem p = none)
    (hm : e.root.at? (dir ++ [name]) = none) (f : Bool) :
    e.lookup p f = .error (missing name) := by
  obtain ⟨es, hes⟩ := h.isDir
  obtain ⟨k, hk⟩ := h.walk_eq f
  simp [Disk.lookup, Disk.resolve, hv, hk, walk_entry_missing hes h.component hm]

/-- A file at an entry reads as its bytes. -/
theorem Disk.Entry.readFile_file (h : e.Entry p dir name) (hv : pathProblem p = none)
    {data : List UInt8} {t : Int} (hm : e.root.at? (dir ++ [name]) = some (.file data data.length t)) :
    e.readFile p = .ok data := by
  simp [Disk.readFile, h.lookup_eq hv hm (.inr fun _ h => by cases h), contents]

theorem Disk.Entry.readFileCut_file (h : e.Entry p dir name) (hv : pathProblem p = none)
    {data : List UInt8} {t : Int} (hm : e.root.at? (dir ++ [name]) = some (.file data data.length t))
    (zeros : Nat) : e.readFileCut p zeros = .ok data := by
  simp [Disk.readFileCut, h.lookup_eq hv hm (.inr fun _ h => by cases h)]

theorem Disk.Entry.stat_file (h : e.Entry p dir name) (hv : pathProblem p = none)
    {data : List UInt8} {size : Nat} {t : Int} (hm : e.root.at? (dir ++ [name]) = some (.file data size t)) :
    e.stat p = .ok ⟨.file, size, t⟩ := by
  simp [Disk.stat, h.lookup_eq hv hm (.inr fun _ h => by cases h), Except.map, Node.info]

/-- A path reached by names looks up its directory. -/
theorem Disk.Direct.lookup (h : e.Direct p dir) (hv : pathProblem p = none)
    {es : List (String × Node)} (hes : e.root.at? dir = some (.dir es)) :
    e.lookup p true = .ok (.dir es) := by
  have hw : walk e.root true maxLinks (e.start p) (components p) = .ok dir := by
    have hparts := walk_links_zero h.walks rfl maxLinks
    simp only [components]
    split
    · -- a trailing slash adds a `.`, which stays at the directory
      obtain ⟨k, hk⟩ := walk_append hparts h.isDir (List.cons_ne_nil "." [])
      rw [hk, walk_dot, walk_nil]
    · exact hparts
  simp [Disk.lookup, Disk.resolve, hv, hw, hes]

end Lookup

section Parent

variable {e : Disk} {p : String} {dir D : List String} {name : String}

/-- The last component of a path that is neither `.` nor `..` is a component of it. -/
theorem component_of_getLast? (h : (components p).getLast? = some name)
    (hn : ¬ (name = "." ∨ name = "..")) : IsComponent name := by
  have hmem : name ∈ Path.parts p := by
    simp only [components] at h
    split at h
    · rw [List.getLast?_concat] at h
      cases h
      exact absurd (.inl rfl) hn
    · exact List.mem_of_getLast? h
  obtain ⟨h1, h2⟩ := Path.parts_spec p name hmem
  exact ⟨h1, h2, fun h => hn (.inl h), fun h => hn (.inr h)⟩

/-- What a directory and last name found for a path are: a valid path, a directory, a name. -/
theorem parentOf_spec (h : e.parentOf p = .ok (D, name)) :
    pathProblem p = none ∧ (∃ es, e.root.at? D = some (.dir es)) ∧ IsComponent name := by
  unfold Disk.parentOf at h
  dsimp only at h
  split at h
  · cases h
  · cases h
  · next c hv hlast =>
    split at h
    · cases h
    · next hc =>
      split at h
      · cases h
      · split at h
        · next es hes =>
          cases h
          exact ⟨hv, ⟨es, hes⟩, component_of_getLast? hlast hc⟩
        · cases h

theorem Disk.Entry.parentOf (h : e.Entry p dir name) (hv : pathProblem p = none) :
    e.parentOf p = .ok (dir, name) := by
  obtain ⟨cs, hcs, hw⟩ := h.walks
  obtain ⟨es, hes⟩ := h.isDir
  have hc := h.component
  simp [Disk.parentOf, hv, hcs, hc.2.2.1, hc.2.2.2, walk_links_zero hw rfl maxLinks, hes]

end Parent

section Opening

variable {e : Disk} {now : Int}

/-- One attempt to open a path for writing leaves the disk as it is or puts an empty file where a
directory held nothing. -/
theorem openOnce_keeps (hs : e.root.Sorted) (hn : e.root.Named) {p : String} {x : Bool}
    {e' : Disk} {phys : List String} (h : e.openOnce p x now = .ok (.done e' phys)) :
    e.Keeps e' := by
  unfold Disk.openOnce at h
  dsimp only at h
  split at h
  · cases h
  · next D name hpar =>
    obtain ⟨-, -, hc⟩ := parentOf_spec hpar
    cases hat : e.root.at? (D ++ [name]) with
    | none =>
      simp only [hat] at h
      split at h
      · cases h
      · cases h
        exact Disk.keeps_put hs hn hc (by simp [hat]) (file_sorted_named [] 0 now)
    | some m =>
      cases m with
      | dir => simp only [hat] at h; split at h <;> cases h
      | link t =>
        -- an existing file behind the link is opened as it is; a dangling link is not done here
        simp only [hat] at h
        split at h
        · cases h
        · split at h
          · split at h
            · cases h
            · cases h
              exact Disk.Keeps.refl hs hn
          · cases h
          · cases h
      | file => simp only [hat] at h; split at h <;> cases h; exact Disk.Keeps.refl hs hn
      | fifo => simp only [hat] at h; split at h <;> cases h; exact Disk.Keeps.refl hs hn

/-- What opening for writing can do: its first attempt finds or creates the file, or meets a
dangling link and, with a link left to follow, opens the name the link gives. -/
theorem openCreate_eq_ok {p : String} {x : Bool} {k : Nat} {r : Disk × List String} :
    e.openCreate p x now k = .ok r ↔
      (∃ e' phys, e.openOnce p x now = .ok (.done e' phys) ∧ r = (e', phys)) ∨
        ∃ dest k', k = k' + 1 ∧ e.openOnce p x now = .ok (.follow dest) ∧
          e.openCreate dest false now k' = .ok r := by
  cases k <;> cases ho : e.openOnce p x now with
  | error err => simp [Disk.openCreate, ho]
  | ok o => cases o <;> simp [Disk.openCreate, ho, eq_comm]

theorem openCreate_of_done {p : String} {x : Bool} {e' : Disk} {phys : List String}
    (ho : e.openOnce p x now = .ok (.done e' phys)) (k : Nat) :
    e.openCreate p x now k = .ok (e', phys) :=
  openCreate_eq_ok.mpr (.inl ⟨e', phys, ho, rfl⟩)

/-- Opening for writing, links followed, keeps the disk. -/
theorem openCreate_keeps (hs : e.root.Sorted) (hn : e.root.Named) :
    ∀ {k : Nat} {p : String} {x : Bool} {r : Disk × List String},
      e.openCreate p x now k = .ok r → e.Keeps r.1
  | k, p, x, r, h => by
    rcases openCreate_eq_ok.mp h with ⟨e', phys, ho, rfl⟩ | ⟨dest, k', rfl, -, h'⟩
    · exact openOnce_keeps hs hn ho
    · exact openCreate_keeps hs hn h'

variable {p : String} {dir : List String} {name : String}

/-- An exclusive open of an entry succeeds only where the directory holds nothing, and puts an
empty file there. -/
theorem Disk.Entry.openOnce_exclusive (h : e.Entry p dir name) {o : Opened}
    (hw : e.openOnce p true now = .ok o) :
    e.root.at? (dir ++ [name]) = none ∧
      o = .done (e.put (dir ++ [name]) (some (.file [] 0 now))) (dir ++ [name]) := by
  have hv : pathProblem p = none := by
    cases hv : pathProblem p with
    | none => rfl
    | some err => simp [Disk.openOnce, Disk.parentOf, hv] at hw
  rw [Disk.openOnce, h.parentOf hv] at hw
  simp only at hw
  split at hw
  · next hnone =>
    split at hw
    · cases hw
    · cases hw
      exact ⟨hnone, rfl⟩
  · cases hw
  · cases hw
  · cases hw

theorem Disk.Entry.openCreate_exclusive (h : e.Entry p dir name) {k : Nat}
    {r : Disk × List String} (hw : e.openCreate p true now k = .ok r) :
    e.root.at? (dir ++ [name]) = none ∧
      r = (e.put (dir ++ [name]) (some (.file [] 0 now)), dir ++ [name]) := by
  rcases openCreate_eq_ok.mp hw with ⟨e', phys, ho, rfl⟩ | ⟨dest, k', -, ho, -⟩
  · obtain ⟨hfree, hdone⟩ := h.openOnce_exclusive ho
    cases hdone
    exact ⟨hfree, rfl⟩
  · -- an exclusive open follows no link
    cases (h.openOnce_exclusive ho).2

/-- An open for writing of a free entry, its name short enough to be held, puts an empty file
there. -/
theorem Disk.Entry.openOnce_free (h : e.Entry p dir name) (hv : pathProblem p = none)
    (hfree : e.root.at? (dir ++ [name]) = none) (hlen : name.utf8ByteSize ≤ maxNameBytes)
    (x : Bool) (now : Int) :
    e.openOnce p x now =
      .ok (.done (e.put (dir ++ [name]) (some (.file [] 0 now))) (dir ++ [name])) := by
  rw [Disk.openOnce, h.parentOf hv]
  simp [hfree, Nat.not_lt.mpr hlen]

theorem Disk.Entry.openCreate_free (h : e.Entry p dir name) (hv : pathProblem p = none)
    (hfree : e.root.at? (dir ++ [name]) = none) (hlen : name.utf8ByteSize ≤ maxNameBytes)
    (x : Bool) (now : Int) (k : Nat) :
    e.openCreate p x now k = .ok (e.put (dir ++ [name]) (some (.file [] 0 now)), dir ++ [name]) :=
  openCreate_of_done (h.openOnce_free hv hfree hlen x now) k

/-- A new temporary file goes to the first free temporary entry tried. -/
theorem createTempFrom_spec {x : String} (hT : ∀ n, e.Entry (tempName x n) dir (tempBase n)) :
    ∀ {tries n : Nat} {r : Disk × String × List String}, e.createTempFrom x now tries n = .ok r →
      ∃ m, e.root.at? (dir ++ [tempBase m]) = none ∧
        r = ({ e.put (dir ++ [tempBase m]) (some (.file [] 0 now)) with serial := m + 1 },
          tempName x m, dir ++ [tempBase m])
  | 0, n, r, h => by simp [Disk.createTempFrom] at h
  | tries + 1, n, r, h => by
    rw [Disk.createTempFrom] at h
    split at h
    · next e' phys ho =>
      obtain ⟨hfree, heq⟩ := (hT n).openCreate_exclusive ho
      cases heq
      cases h
      exact ⟨n, hfree, rfl⟩
    · exact createTempFrom_spec hT h
    · cases h

/-- A new temporary file takes the disk's next number when that entry is free. -/
theorem createTemp_free {x : String} (hT : e.Entry (tempName x e.serial) dir (tempBase e.serial))
    (hv : pathProblem (tempName x e.serial) = none)
    (hfree : e.root.at? (dir ++ [tempBase e.serial]) = none)
    (hlen : (tempBase e.serial).utf8ByteSize ≤ maxNameBytes) :
    e.createTemp x now =
      .ok ({ e.put (dir ++ [tempBase e.serial]) (some (.file [] 0 now)) with serial := e.serial + 1 },
        tempName x e.serial, dir ++ [tempBase e.serial]) := by
  rw [Disk.createTemp, show (10000 : Nat) = 9999 + 1 from rfl, Disk.createTempFrom]
  simp only [hT.openCreate_free hv hfree hlen true now]

end Opening

section Moving

variable {e e' : Disk}

/-- A rename that succeeds was given two paths the system accepts: a refused path makes both
the check of the new name and the search for a parent fail. -/
theorem Disk.rename_valid {old new : String} (hw : e.rename old new = .ok e') :
    pathProblem old = none ∧ pathProblem new = none := by
  have hvn : pathProblem new = none := by
    cases hv : pathProblem new with
    | none => rfl
    | some err =>
      have hl : e.lstat new = .error err := by
        simp [Disk.lstat, Disk.lookup, Disk.resolve, hv, Except.map]
      have hp : e.parentOf new = .error err := by simp [Disk.parentOf, hv]
      cases hpo : e.parentOf old <;> simp [Disk.rename, hl, hp, hpo] at hw
  refine ⟨?_, hvn⟩
  cases hv : pathProblem old with
  | none => rfl
  | some err =>
    have hl : e.lstat old = .error err := by
      simp [Disk.lstat, Disk.lookup, Disk.resolve, hv, Except.map]
    have hp : e.parentOf old = .error err := by simp [Disk.parentOf, hv]
    simp [Disk.rename, hl, hp] at hw

/-- An entry that holds no directory is none to `lstat` either. -/
theorem Disk.Entry.lstat_not_dir {new : String} {d₂ : List String} {n : String}
    (hn : e.Entry new d₂ n) (hvn : pathProblem new = none)
    (hnd : ∀ es, e.root.at? (d₂ ++ [n]) ≠ some (.dir es)) :
    ∀ i, e.lstat new = .ok i → i.kind ≠ .dir := by
  intro i hi hk
  cases hat : e.root.at? (d₂ ++ [n]) with
  | none => rw [Disk.lstat, hn.lookup_missing hvn hat] at hi; cases hi
  | some m =>
    rw [Disk.lstat, hn.lookup_eq hvn hat (.inl rfl)] at hi
    cases hi
    cases m with
    | dir fs => exact hnd fs hat
    | _ => cases hk

/-- A rename between entries moves the node of the old one to the new one, which held no
directory. -/
theorem Disk.Entry.rename {old new : String} {d₁ d₂ : List String} {o n : String}
    (ho : e.Entry old d₁ o) (hn : e.Entry new d₂ n) (hw : e.rename old new = .ok e') :
    ∃ m, e.root.at? (d₁ ++ [o]) = some m ∧ (∀ es, e.root.at? (d₂ ++ [n]) ≠ some (.dir es)) ∧
      e' = (e.put (d₁ ++ [o]) none).put (d₂ ++ [n]) (some m) := by
  obtain ⟨hvo, hvn⟩ := Disk.rename_valid hw
  rw [Disk.rename, ho.parentOf hvo, hn.parentOf hvn] at hw
  dsimp only at hw
  have hnd : ∀ es, e.root.at? (d₂ ++ [n]) ≠ some (.dir es) := by
    intro es hes
    simp only [Disk.lstat, hn.lookup_eq hvn hes (.inl rfl), Except.map, Node.info] at hw
    simp only [beq_self_eq_true, if_true] at hw
    split at hw <;> cases hw
  have hfile : ∀ i, e.lstat new = .ok i → i.kind ≠ .dir := by
    intro i hi hk
    cases hat : e.root.at? (d₂ ++ [n]) with
    | none => rw [Disk.lstat, hn.lookup_missing hvn hat] at hi; cases hi
    | some m =>
      rw [Disk.lstat, hn.lookup_eq hvn hat (.inl rfl)] at hi
      cases hi
      cases m with
      | dir fs => exact hnd fs hat
      | _ => cases hk
  cases hl : e.lstat new
  case' error => simp only [hl, Bool.false_eq_true, if_false] at hw
  case' ok i => simp only [hl, hfile i hl, beq_iff_eq, if_false] at hw
  all_goals
    split at hw
    · cases hw
    · next m hm =>
      split at hw
      · cases hw
      · cases hw
        exact ⟨m, hm, hnd, rfl⟩

/-- A rename between entries, the new one holding no directory and its name short enough to be
held, moves the old entry's node to the new one. -/
theorem Disk.Entry.rename_eq {old new : String} {d₁ d₂ : List String} {o n : String} {m : Node}
    (ho : e.Entry old d₁ o) (hn : e.Entry new d₂ n) (hvo : pathProblem old = none)
    (hvn : pathProblem new = none) (hm : e.root.at? (d₁ ++ [o]) = some m)
    (hnd : ∀ es, e.root.at? (d₂ ++ [n]) ≠ some (.dir es)) (hlen : n.utf8ByteSize ≤ maxNameBytes) :
    e.rename old new = .ok ((e.put (d₁ ++ [o]) none).put (d₂ ++ [n]) (some m)) := by
  have hfile := hn.lstat_not_dir hvn hnd
  rw [Disk.rename, ho.parentOf hvo, hn.parentOf hvn]
  cases hl : e.lstat new
  case' error => simp only [Bool.false_eq_true, if_false]
  case' ok i => simp only [hfile i hl, beq_iff_eq, if_false]
  all_goals simp [hm, Nat.not_lt.mpr hlen]

end Moving

end TreeCatalog.Disk
