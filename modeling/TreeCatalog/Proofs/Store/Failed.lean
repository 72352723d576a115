import Mathlib
import TreeCatalog.Proofs.Store.Created

/-! # What a failed create leaves behind

A create writes its two outputs one after the other, each through a temporary file renamed over
it, and copies them afterwards. No step undoes an earlier one, so the outputs are not written as a
pair: when the page's rename fails, for instance onto a directory of the page's name, the document
has already been replaced. Nor is the lock harmless: opened for writing, links followed, a lock
that is a link to a missing output creates that output empty (`create_failed_changes_outputs`).

What does hold is that every single write is atomic. A write that fails leaves the tree as it was,
its temporary file removed again (`atomicWrite_error_root`), and opening the lock, when its entry
is no link, at most creates the empty lock file (`Disk.Entry.openCreate_unlinked`). So on a disk
that places the request, a create that fails before its copies leaves the page and every
temporary file as they were, and the document as it was unless the page's write is what failed;
a create whose copy fails leaves both outputs written in full (`create_failed_outputs`). -/

namespace TreeCatalog.Disk

set_option linter.dupNamespace false

open TreeCatalog.Path (IsComponent)

section Reach

variable {e : Disk}

/-- A rename onto an entry that holds a directory is refused, the target existing. -/
theorem Disk.Entry.rename_onto_dir {old new : String} {d₁ d₂ : List String} {o n : String}
    {m : Node} {es : List (String × Node)} (ho : e.Entry old d₁ o) (hn : e.Entry new d₂ n)
    (hvo : pathProblem old = none) (hvn : pathProblem new = none)
    (hm : e.root.at? (d₁ ++ [o]) = some m) (hd : e.root.at? (d₂ ++ [n]) = some (.dir es)) :
    e.rename old new = .error .alreadyExists := by
  have hnew : e.lstat new = .ok ⟨.dir, 4096, 0⟩ := by
    simp [Disk.lstat, hn.lookup_eq hvn hd (.inl rfl), Except.map, Node.info]
  have hold : e.lstat old = .ok m.info := by
    simp [Disk.lstat, ho.lookup_eq hvo hm (.inl rfl), Except.map]
  simp [Disk.rename, hnew, hold]

/-- A walk that reaches a directory following no link goes on from there with the same budget
for links. -/
theorem walk_append_zero {root : Node} {f : Bool} {links : Nat} {here cs r ds : List String}
    (hw : walk root true links here cs = .ok r) (h0 : links = 0)
    (hr : ∃ es, root.at? r = some (.dir es)) (k : Nat) :
    walk root f k here (cs ++ ds) = walk root f k r ds := by
  obtain ⟨esr, hesr⟩ := hr
  fun_induction walk root true links here cs with
  | case1 links here =>
    cases hw
    rfl
  | case2 links here cs ih => rw [List.cons_append, walk_dot]; exact ih hw h0
  | case3 links here cs _ ih => rw [List.cons_append, walk_dotdot]; exact ih hw h0
  | case4 => cases hw
  | case5 => cases hw
  | case6 links here c cs hc1 hc2 es hes target hl hstop => simp at hstop
  | case7 => cases hw
  | case8 => cases hw
  | case9 => cases h0
  | case10 links here c cs hc1 hc2 es hes fs hl ih =>
    rw [List.cons_append, walk_dir _ hc1 hc2 (at?_of_bind_entries hes) (at?_snoc_of_lookup hes hl)]
    exact ih hw h0
  | case11 links here c cs hc1 hc2 es hes n hnl hnd hl hcs =>
    cases hw
    rw [at?_snoc_of_lookup hes hl] at hesr
    cases hesr
    exact absurd rfl (hnd _)
  | case12 => cases hw

variable {p : String} {dir : List String} {name : String}

/-- Looking up, links followed, an entry that is a link to a free name of its own directory finds
that name missing. -/
theorem Disk.Entry.resolve_dangling (h : e.Entry p dir name) (hv : pathProblem p = none)
    {t : String} (hl : e.root.at? (dir ++ [name]) = some (.link t)) (ht : IsComponent t)
    (habs : Path.isAbs t = false) (hcomps : components t = [t])
    (hfree : e.root.at? (dir ++ [t]) = none) : e.resolve p true = .error (missing t) := by
  obtain ⟨cs, hcs, hw⟩ := h.walks
  obtain ⟨es, hes⟩ := h.isDir
  have hc := h.component
  simp only [Disk.resolve, hv, hcs]
  rw [walk_append_zero hw rfl ⟨es, hes⟩, show maxLinks = 39 + 1 from rfl,
    walk_link_follow [] hc.2.2.1 hc.2.2.2 hes hl (by simp) ht.1, habs, hcomps, List.append_nil]
  exact walk_entry_missing hes ht hfree

end Reach

section Lock

variable {e : Disk} {p : String} {dir : List String} {name : String} {now : Int}

/-- An open that succeeds was given a path the system accepts. -/
theorem Disk.openOnce_valid {x : Bool} {o : Opened} (hw : e.openOnce p x now = .ok o) :
    pathProblem p = none := by
  cases hv : pathProblem p with
  | none => rfl
  | some err => simp [Disk.openOnce, Disk.parentOf, hv] at hw

/-- Opening an entry that holds no link, not exclusively, finds it as it is, or creates an empty
file where nothing was. -/
theorem Disk.Entry.openOnce_unlinked (h : e.Entry p dir name)
    (hnl : ∀ t, e.root.at? (dir ++ [name]) ≠ some (.link t)) {o : Opened}
    (hw : e.openOnce p false now = .ok o) :
    o = .done e (dir ++ [name]) ∨ (e.root.at? (dir ++ [name]) = none ∧
      o = .done (e.put (dir ++ [name]) (some (.file [] 0 now))) (dir ++ [name])) := by
  rw [Disk.openOnce, h.parentOf (Disk.openOnce_valid hw)] at hw
  simp only [Bool.false_eq_true, if_false] at hw
  split at hw
  · next hnone =>
    split at hw
    · cases hw
    · cases hw
      exact .inr ⟨hnone, rfl⟩
  · cases hw
  · next t ht => exact absurd ht (hnl t)
  · cases hw
    exact .inl rfl

theorem Disk.Entry.openCreate_unlinked (h : e.Entry p dir name)
    (hnl : ∀ t, e.root.at? (dir ++ [name]) ≠ some (.link t)) {k : Nat} {r : Disk × List String}
    (hw : e.openCreate p false now k = .ok r) :
    r = (e, dir ++ [name]) ∨ (e.root.at? (dir ++ [name]) = none ∧
      r = (e.put (dir ++ [name]) (some (.file [] 0 now)), dir ++ [name])) := by
  rcases openCreate_eq_ok.mp hw with ⟨e', phys, ho, rfl⟩ | ⟨dest, k', -, ho, -⟩
  · rcases h.openOnce_unlinked hnl ho with hop | ⟨hfree, hop⟩ <;> cases hop
    · exact .inl rfl
    · exact .inr ⟨hfree, rfl⟩
  · -- the open finds or creates the file at once, following no link
    rcases h.openOnce_unlinked hnl ho with hop | ⟨-, hop⟩ <;> cases hop

/-- Opening, not exclusively, an entry that is a link to a free name of its own directory goes on
to that name. -/
theorem Disk.Entry.openOnce_dangling (h : e.Entry p dir name) (hv : pathProblem p = none)
    {t : String} (hl : e.root.at? (dir ++ [name]) = some (.link t)) (ht : IsComponent t)
    (habs : Path.isAbs t = false) (hcomps : components t = [t])
    (hfree : e.root.at? (dir ++ [t]) = none) (hlen : t.utf8ByteSize ≤ maxNameBytes) :
    e.openOnce p false now = .ok (.follow (physText dir ++ "/" ++ t)) := by
  have hmiss : missing t = .noEntry := by simp [missing, Nat.not_lt.mpr hlen]
  rw [Disk.openOnce, h.parentOf hv]
  simp [hl, h.resolve_dangling hv hl ht habs hcomps hfree, hmiss, habs]

/-- Opening such an entry creates an empty file under the name it links to. -/
theorem Disk.Entry.openCreate_dangling (h : e.Entry p dir name) (hv : pathProblem p = none)
    {t : String} (hl : e.root.at? (dir ++ [name]) = some (.link t)) (ht : IsComponent t)
    (habs : Path.isAbs t = false) (hcomps : components t = [t])
    (hfree : e.root.at? (dir ++ [t]) = none) (hlen : t.utf8ByteSize ≤ maxNameBytes)
    (hE : e.Entry (physText dir ++ "/" ++ t) dir t)
    (hvt : pathProblem (physText dir ++ "/" ++ t) = none) (k : Nat) :
    e.openCreate p false now (k + 1) =
      .ok (e.put (dir ++ [t]) (some (.file [] 0 now)), dir ++ [t]) := by
  rw [Disk.openCreate, h.openOnce_dangling hv hl ht habs hcomps hfree hlen]
  exact hE.openCreate_free hvt hfree hlen false now k

/-- Opening an entry that holds no link changes no other entry of its directory. -/
theorem Disk.Entry.openCreate_unlinked_frame (h : e.Entry p dir name)
    (hnl : ∀ t, e.root.at? (dir ++ [name]) ≠ some (.link t)) {k : Nat} {e₀ : Disk}
    {l : List String} (hw : e.openCreate p false now k = .ok (e₀, l)) :
    e₀.cwd = e.cwd ∧ ∀ x, x ≠ name → e₀.root.at? (dir ++ [x]) = e.root.at? (dir ++ [x]) := by
  rcases h.openCreate_unlinked hnl hw with hr | ⟨-, hr⟩
  · cases hr
    exact ⟨rfl, fun _ _ => rfl⟩
  · cases hr
    exact ⟨rfl, fun x hx => Store.at?_alter_sibling _ hx⟩

end Lock

end TreeCatalog.Disk

namespace TreeCatalog.Store

open Disk
open TreeCatalog.Path (IsComponent)

section Writes

variable {e e' : Disk} {path : String} {dir : List String} {name : String} {data : List UInt8}
  {now : Int}

/-- A failed write through a temporary file leaves the tree as it was: the temporary file, once
made, is removed again. -/
theorem atomicWrite_error_root (ht : e.Target path dir name) (hs : e.root.Sorted) {c : Cause}
    (hw : atomicWrite e path data now = (e', .error c)) : e'.root = e.root ∧ e'.cwd = e.cwd := by
  unfold atomicWrite at hw
  split at hw
  · cases hw
    exact ⟨rfl, rfl⟩
  · next d1 tmp phys hc =>
    obtain ⟨m, hfree, hr⟩ := createTempFrom_spec ht.temps hc
    simp only [Prod.mk.injEq] at hr
    obtain ⟨rfl, rfl, rfl⟩ := hr
    dsimp only at hw
    split at hw
    · cases hw
    · cases hw
      refine ⟨?_, rfl⟩
      simp only [Disk.remove, Disk.put, Disk.setContents]
      rw [Node.alter_alter_some, Node.alter_remove_put _ _ hs hfree]

/-- A failed copy leaves the tree as it was. -/
theorem copyFile_error_root (ht : e.Target path dir name) (hs : e.root.Sorted) {src : String}
    {c : Cause} (hw : copyFile e src path now = (e', .error c)) :
    e'.root = e.root ∧ e'.cwd = e.cwd := by
  unfold copyFile at hw
  split at hw
  · cases hw
    exact ⟨rfl, rfl⟩
  · cases hw
    exact ⟨rfl, rfl⟩
  · cases hw
    exact ⟨rfl, rfl⟩
  · exact atomicWrite_error_root ht hs hw

/-- A write onto an entry that holds a directory fails at the rename, once its temporary file is
made and filled, and leaves the tree as it was. -/
theorem atomicWrite_onto_dir (ht : e.Target path dir name) (hs : e.root.Sorted)
    (hn : e.root.Named) (hv : pathProblem path = none) {es : List (String × Node)}
    (hd : e.root.at? (dir ++ [name]) = some (.dir es))
    (hvt : pathProblem (tempName (Path.dir path) e.serial) = none)
    (hfree : e.root.at? (dir ++ [tempBase e.serial]) = none)
    (htlen : (tempBase e.serial).utf8ByteSize ≤ maxNameBytes) (data : List UInt8) (now : Int) :
    ∃ e', atomicWrite e path data now = (e', .error (.within ("failed to rename temp file to " ++ path)
        (.sys (.onPair "rename" (tempName (Path.dir path) e.serial) path .alreadyExists)))) ∧
      e'.root = e.root ∧ e'.cwd = e.cwd := by
  obtain ⟨es₀, hes₀⟩ := ht.entry.isDir
  let F : Node := .file data data.length now
  let q := dir ++ [tempBase e.serial]
  let e₁ : Disk := { e.put q (some (.file [] 0 now)) with serial := e.serial + 1 }
  have hd2 : (e.root.alter (fun _ => some (.file [] 0 now)) q).alter (fun _ => some F) q =
      e.root.alter (fun _ => some F) q := Node.alter_alter_some _ _ _ _
  have hk : e.Keeps (e₁.setContents q data now) :=
    (Disk.keeps_put hs hn (tempBase_component _) (by simp [hfree])
      (file_sorted_named data data.length now)).congr hd2 rfl
  have hF : (e₁.setContents q data now).root.at? q = some F := by
    simp only [e₁, Disk.setContents, Disk.put]
    rw [hd2]
    exact Node.at?_alter_self _ _ hes₀
  -- the target is no temporary entry: that one is free
  have hname : name ≠ tempBase e.serial := fun h => by
    rw [h, hfree] at hd
    cases hd
  have hd' : (e₁.setContents q data now).root.at? (dir ++ [name]) = some (.dir es) := by
    simp only [e₁, Disk.setContents, Disk.put]
    rw [hd2, at?_alter_sibling _ hname]
    exact hd
  have hren := ((ht.temps e.serial).keep hk).rename_onto_dir (ht.entry.keep hk) hvt hv hF hd'
  simp only [e₁, q] at hren
  refine ⟨(e₁.setContents q data now).remove q, ?_, ?_, rfl⟩
  · rw [atomicWrite, createTemp_free (ht.temps e.serial) hvt hfree htlen]
    simp only [hren]
    rfl
  · simp only [e₁, Disk.remove, Disk.put, Disk.setContents]
    rw [hd2, Node.alter_remove_put F _ hs hfree]

end Writes


section Steps

variable {e e' : Disk} {now : Int}

/-- A failed write of two outputs failed to take the lock, or took it and failed at the first
write, or at the second after the first succeeded; the fault names the path that failed. -/
theorem writeOutputs_error {p base a b : String} {da db : List UInt8} {f : Fault}
    (hw : writeOutputs e p base [(a, da), (b, db)] now = (e', .error f)) :
    (e' = e ∧ ∃ c, f = .io .write (lockPath p base) c) ∨
      ∃ e₀ lock, e.openCreate (lockPath p base) false now maxLinks = .ok (e₀, lock) ∧
        ((∃ c, atomicWrite e₀ a da now = (e', .error c) ∧ f = .io .write a c) ∨
          ∃ e₁ c, atomicWrite e₀ a da now = (e₁, .ok ()) ∧
            atomicWrite e₁ b db now = (e', .error c) ∧ f = .io .write b c) := by
  unfold writeOutputs at hw
  dsimp only at hw
  split at hw
  · cases hw
    exact .inl ⟨rfl, _, rfl⟩
  · next e₀ lock hlock =>
    refine .inr ⟨e₀, lock, hlock, ?_⟩
    simp only [List.foldl_cons, List.foldl_nil] at hw
    -- a failed write is carried to the end of the fold unchanged
    cases ha : atomicWrite e₀ a da now with
    | mk e₁ ra =>
      cases ra with
      | error c =>
        simp only [ha] at hw
        cases hw
        exact .inl ⟨c, rfl, rfl⟩
      | ok u =>
        cases hb : atomicWrite e₁ b db now with
        | mk e₂ rb =>
          cases rb with
          | error c =>
            simp only [ha, hb] at hw
            cases hw
            exact .inr ⟨e₁, c, rfl, hb, rfl⟩
          | ok v =>
            simp only [ha, hb] at hw
            cases hw

/-- A failed copy of the outputs failed at the document's copy, or at the page's after the
document's succeeded; the fault is a copy fault naming the copy that failed. -/
theorem copyOutputs_error {req : Request} {j h : String} {f : Fault}
    (hw : copyOutputs e req j h now = (e', .error f)) :
    req.copyToDirectory ≠ "" ∧
      ((∃ c, copyFile e j (Path.join [req.copyToDirectory, req.outputRoot ++ documentExt]) now =
          (e', .error c) ∧
          f = .io .copy (Path.join [req.copyToDirectory, req.outputRoot ++ documentExt]) c) ∨
        ∃ e₁ c, copyFile e j (Path.join [req.copyToDirectory, req.outputRoot ++ documentExt]) now =
            (e₁, .ok ()) ∧
          copyFile e₁ h (Path.join [req.copyToDirectory, req.outputRoot ++ renderedExt]) now =
            (e', .error c) ∧
          f = .io .copy (Path.join [req.copyToDirectory, req.outputRoot ++ renderedExt]) c) := by
  unfold copyOutputs at hw
  split at hw
  · cases hw
  · next hc =>
    refine ⟨hc, ?_⟩
    dsimp only at hw
    split at hw
    · next e₁ c h₁ =>
      cases hw
      exact .inl ⟨c, h₁, rfl⟩
    · next e₁ h₁ =>
      split at hw
      · next e₂ c h₂ =>
        cases hw
        exact .inr ⟨e₁, c, h₁, h₂, rfl⟩
      · cases hw

theorem Request.validate_error {req : Request} {f : Fault} (h : req.validate = .error f) :
    ∃ msg, req.problem = some msg ∧ f = .plain msg := by
  unfold Request.validate at h
  split at h
  · next msg hp =>
    cases h
    exact ⟨msg, hp, rfl⟩
  · cases h

/-- A build fails only where the root cannot be looked up or is of no kind it catalogues: the
fault is a `stat` of the root. -/
theorem Walk.build_error {d : Disk} {faults : Walk.Faults} {rootPath : String} {f : Fault}
    (h : Walk.build d faults rootPath = .error f) :
    ∃ c, f = .io .stat (Path.abs d.cwd rootPath) c := by
  unfold Walk.build at h
  dsimp only at h
  split at h
  · cases h
    exact ⟨_, rfl⟩
  · split at h
    · cases h
    · cases h
      exact ⟨_, rfl⟩

variable {d : Disk} {faults : Walk.Faults} {req : Request}

/-- A failed create, before its context text: a refused request or a failed build, which write
nothing and are no copy faults, or failed writes of the outputs, or a failed copy after them. -/
theorem createRaw_error {ps : List String} {f : Fault}
    (h : createRaw d faults now req = ⟨e, ps, .error f⟩) :
    (e = d ∧ f.isCopyFailure = false) ∨
      ∃ b, req.problem = none ∧ Walk.build d faults req.directoryPath = .ok b ∧
        (writeOutputs d req.outputDir req.outputRoot
            [(Path.join [req.outputDir, req.outputRoot ++ documentExt],
                Text.Utf8.encode (Document.encode b.root)),
              (Path.join [req.outputDir, req.outputRoot ++ renderedExt],
                Text.Utf8.encode (Render.page b.root req.titleText))] now = (e, .error f) ∨
          ∃ d₁, writeOutputs d req.outputDir req.outputRoot
              [(Path.join [req.outputDir, req.outputRoot ++ documentExt],
                  Text.Utf8.encode (Document.encode b.root)),
                (Path.join [req.outputDir, req.outputRoot ++ renderedExt],
                  Text.Utf8.encode (Render.page b.root req.titleText))] now = (d₁, .ok ()) ∧
            copyOutputs d₁ req (Path.join [req.outputDir, req.outputRoot ++ documentExt])
              (Path.join [req.outputDir, req.outputRoot ++ renderedExt]) now = (e, .error f)) := by
  unfold createRaw at h
  split at h
  · next f₀ hval =>
    cases h
    obtain ⟨msg, -, rfl⟩ := Request.validate_error hval
    exact .inl ⟨rfl, rfl⟩
  · next hval =>
    have hv : req.problem = none := by
      cases hp : req.problem with
      | none => rfl
      | some msg => simp [Request.validate, hp] at hval
    split at h
    · next f₀ hb =>
      cases h
      obtain ⟨c, rfl⟩ := Walk.build_error hb
      exact .inl ⟨rfl, rfl⟩
    · next b hb =>
      dsimp only at h
      refine .inr ⟨b, hv, hb, ?_⟩
      simp only [Request.outputDir, Request.titleText, Text.Utf8.encode]
      split at h
      · next d₁ f₁ hw =>
        cases h
        exact .inl hw
      · next d₁ hw =>
        split at h
        · next d₂ f₂ hcp =>
          cases h
          exact .inr ⟨d₁, hw, hcp⟩
        · cases h

/-- A failed create is a failed raw create under "failed to create catalog", with its disk. -/
theorem create_error {f : Fault} (hc : (create d faults now req).result = .error f) :
    ∃ f', f = .within "failed to create catalog" f' ∧
      createRaw d faults now req =
        ⟨(create d faults now req).disk, (create d faults now req).progress, .error f'⟩ := by
  unfold create at hc ⊢
  generalize createRaw d faults now req = o at hc ⊢
  obtain ⟨e, ps, r⟩ := o
  cases r with
  | ok c => cases hc
  | error f' =>
    cases hc
    exact ⟨f', rfl, rfl⟩

/-- Writing two outputs fails at the second when the lock is taken and the first write succeeds. -/
theorem writeOutputs_of_second_error {p base a b : String} {da db : List UInt8} {e₀ e₁ : Disk}
    {lock : List String} {c : Cause}
    (hlock : e.openCreate (lockPath p base) false now maxLinks = .ok (e₀, lock))
    (h₁ : atomicWrite e₀ a da now = (e₁, .ok ())) (h₂ : atomicWrite e₁ b db now = (e', .error c)) :
    writeOutputs e p base [(a, da), (b, db)] now = (e', .error (.io .write b c)) := by
  simp [writeOutputs, hlock, h₁, h₂]

/-- A create whose writes fail reports their fault under "failed to create catalog", with the
disk the writes left. -/
theorem create_of_write_error {b : Walk.Built} {d₁ : Disk} {f : Fault} (hv : req.problem = none)
    (hb : Walk.build d faults req.directoryPath = .ok b)
    (hw : writeOutputs d req.outputDir req.outputRoot
        [(Path.join [req.outputDir, req.outputRoot ++ documentExt],
            Text.Utf8.encode (Document.encode b.root)),
          (Path.join [req.outputDir, req.outputRoot ++ renderedExt],
            Text.Utf8.encode (Render.page b.root req.titleText))] now = (d₁, .error f)) :
    create d faults now req = ⟨d₁, b.progress, .error (.within "failed to create catalog" f)⟩ := by
  have hval : req.validate = .ok () := by simp [Request.validate, hv]
  simp only [Request.outputDir, Request.titleText, Text.Utf8.encode] at hw
  have hraw : createRaw d faults now req = ⟨d₁, b.progress, .error f⟩ := by
    simp only [createRaw, hval, hb, hw]
  simp only [create, hraw]

end Steps

section Outputs

variable {d e e' : Disk} {D C : List String} {base outDir : String} {J H : List UInt8} {now : Int}

theorem Holds.of_root (hold : Holds e D base J H now) (hr : e'.root = e.root) :
    Holds e' D base J H now :=
  ⟨hr ▸ hold.document, hr ▸ hold.page⟩

/-- A failed write of the outputs into a directory reached by names, its lock entry no link, is
no copy fault and changes no entry of the directory but the lock's and the document's. The
document changes only when it was written before the page's write failed. -/
theorem writeOutputs_error_spares (hs : d.root.Sorted) (hn : d.root.Named)
    (hD : d.Direct outDir D) (hdir : outDir ≠ "") (hl : IsComponent (lockName base))
    (hbj : IsComponent (base ++ documentExt)) (hbh : IsComponent (base ++ renderedExt))
    (hlock : ∀ t, d.root.at? (D ++ [lockName base]) ≠ some (.link t)) {f : Fault}
    (hw : writeOutputs d outDir base [(Path.join [outDir, base ++ documentExt], J),
      (Path.join [outDir, base ++ renderedExt], H)] now = (e, .error f)) :
    f.isCopyFailure = false ∧
      (∀ x, x ≠ lockName base → x ≠ base ++ documentExt →
        e.root.at? (D ++ [x]) = d.root.at? (D ++ [x])) ∧
      (e.root.at? (D ++ [base ++ documentExt]) = d.root.at? (D ++ [base ++ documentExt]) ∨
        (∃ c, f = .io .write (Path.join [outDir, base ++ renderedExt]) c) ∧
          e.root.at? (D ++ [base ++ documentExt]) = some (.file J J.length now)) := by
  have hlockE : d.Entry (lockPath outDir base) D (lockName base) := by
    rw [lockPath, ← lockName]
    exact hD.join hdir hl
  rcases writeOutputs_error hw with ⟨rfl, c, rfl⟩ | ⟨e₀, l, hopen, hfail⟩
  · -- the lock was not taken
    exact ⟨rfl, fun _ _ _ => rfl, .inl rfl⟩
  · have hk₀ := openCreate_keeps hs hn hopen
    obtain ⟨-, hframe₀⟩ := hlockE.openCreate_unlinked_frame hlock hopen
    have hjT := (hD.target hdir hbj).keep hk₀
    rcases hfail with ⟨c, ha, rfl⟩ | ⟨e₁, c, ha, hb, rfl⟩
    · -- the document's write failed: the tree is the one with the lock
      have hr := (atomicWrite_error_root hjT hk₀.sorted ha).1
      exact ⟨rfl, fun x hx _ => by rw [hr, hframe₀ x hx], .inl (by rw [hr, hframe₀ _ (document_ne_lock _)])⟩
    · -- the page's write failed once the document was written
      have hk₁ := atomicWrite_keeps hjT hk₀.sorted hk₀.named ha
      have hhT := (hD.target hdir hbh).keep (hk₀.trans hk₁)
      have hr := (atomicWrite_error_root hhT hk₁.sorted hb).1
      obtain ⟨-, -, hr₁⟩ := atomicWrite_root hjT hk₀.sorted hk₀.named ha
      refine ⟨rfl, fun x hx hxj => ?_, .inr ⟨⟨c, rfl⟩, ?_⟩⟩
      · rw [hr, hr₁, at?_alter_sibling _ hxj, hframe₀ x hx]
      · rw [hr]
        exact atomicWrite_self hjT hk₀.sorted hk₀.named ha

/-- A failed copy of outputs held in a directory, to a directory reached by names, is a copy
fault and leaves them held: the copy that failed changed nothing, and one that succeeded wrote
the same bytes wherever it landed on an output. -/
theorem Holds.copyOutputs_failed {req : Request} (hold : Holds e D req.outputRoot J H now)
    {jpath hpath : String} (hjE : e.Entry jpath D (req.outputRoot ++ documentExt))
    (hvj : pathProblem jpath = none) (hbj : IsComponent (req.outputRoot ++ documentExt))
    (hbh : IsComponent (req.outputRoot ++ renderedExt)) (hC : e.Direct req.copyToDirectory C)
    (hs : e.root.Sorted) (hn : e.root.Named) {f : Fault}
    (hcp : copyOutputs e req jpath hpath now = (e', .error f)) :
    f.isCopyFailure = true ∧ Holds e' D req.outputRoot J H now := by
  obtain ⟨hcd, hfail⟩ := copyOutputs_error hcp
  have hne := (rendered_ne_document req.outputRoot).symm
  have hcj := hC.target hcd hbj
  rcases hfail with ⟨c, hc₁, rfl⟩ | ⟨e₁, c, hc₁, hc₂, rfl⟩
  · exact ⟨rfl, hold.of_root (copyFile_error_root hcj hs hc₁).1⟩
  · -- the document's copy wrote the document's bytes
    obtain ⟨-, hk₁, hold₁⟩ := hold.copy (hjE.readFile_file hvj hold.document) hcj hs hn hc₁
      (fun _ => rfl) (fun he => absurd he (snoc_ne hne))
    exact ⟨rfl, hold₁.of_root (copyFile_error_root ((hC.target hcd hbh).keep hk₁) hk₁.sorted hc₂).1⟩

end Outputs

section PageTaken

variable {d : Disk} {faults : Walk.Faults} {req : Request}

/-- A create into a directory reached by names whose page name is taken by a directory, its other
names free, takes the lock, writes the document, and then fails at the page's rename: the fault
is a write of the page, and the disk keeps the lock and the new document. -/
theorem create_onto_page_dir {q : String} {D : List String} {b : Walk.Built}
    {es : List (String × Node)} (hs : d.root.Sorted) (hn : d.root.Named) (hD : d.Direct q D)
    (hq : q ≠ "") (hv : req.problem = none) (hb : Walk.build d faults req.directoryPath = .ok b)
    (hjoin : ∀ n, IsComponent n → Path.join [req.outputDir, n] = Path.join [q, n])
    (hfree : ∀ n ∈ outputNames req.outputRoot d.serial, n ≠ req.outputRoot ++ renderedExt →
      d.root.at? (D ++ [n]) = none)
    (hpage : d.root.at? (D ++ [req.outputRoot ++ renderedExt]) = some (.dir es))
    (hnames : ∀ n ∈ outputNames req.outputRoot d.serial, n.utf8ByteSize ≤ maxNameBytes)
    (hpaths : ∀ n ∈ [lockName req.outputRoot, req.outputRoot ++ documentExt,
      req.outputRoot ++ renderedExt], pathProblem (Path.join [q, n]) = none)
    (htemps : ∀ k ∈ [d.serial, d.serial + 1], pathProblem (tempName (Path.clean q) k) = none)
    (now : Int) :
    ∃ e, create d faults now req = ⟨e, b.progress, .error (.within "failed to create catalog"
        (.io .write (Path.join [req.outputDir, req.outputRoot ++ renderedExt])
          (.within ("failed to rename temp file to " ++
              Path.join [req.outputDir, req.outputRoot ++ renderedExt])
            (.sys (.onPair "rename" (tempName (Path.clean q) (d.serial + 1))
              (Path.join [req.outputDir, req.outputRoot ++ renderedExt]) .alreadyExists)))))⟩ ∧
      e.root = (d.root.alter (fun _ => some (.file [] 0 now)) (D ++ [lockName req.outputRoot])).alter
        (fun _ => some (.file (Text.Utf8.encode (Document.encode b.root))
          (Text.Utf8.encode (Document.encode b.root)).length now))
        (D ++ [req.outputRoot ++ documentExt]) ∧
      e.root.at? (D ++ [req.outputRoot ++ documentExt]) =
        some (.file (Text.Utf8.encode (Document.encode b.root))
          (Text.Utf8.encode (Document.encode b.root)).length now) := by
  have hh := req.rendered_component hv
  obtain ⟨e₀, lock, e₁, hlock, hw₁, hk₁, hser₁, hr₁, hdoc₁⟩ := lock_document_into_free hs hn hD hq hv
    hjoin hfree hnames hpaths (htemps _ (by simp)) (Text.Utf8.encode (Document.encode b.root)) now
  have hhT : e₁.Target (Path.join [req.outputDir, req.outputRoot ++ renderedExt]) D
      (req.outputRoot ++ renderedExt) := by
    rw [hjoin _ hh]
    exact (hD.target hq hh).keep hk₁
  -- the lock and the document changed neither the page's directory nor the next temporary entry
  have hd₁ : e₁.root.at? (D ++ [req.outputRoot ++ renderedExt]) = some (.dir es) := by
    rw [hr₁, at?_alter_sibling _ (rendered_ne_document _), at?_alter_sibling _ (rendered_ne_lock _)]
    exact hpage
  have htemp₁ : e₁.root.at? (D ++ [tempBase e₁.serial]) = none := by
    rw [hr₁, hser₁, at?_alter_sibling _ (tempBase_ne_document _ _),
      at?_alter_sibling _ (tempBase_ne_lock _ _)]
    exact hfree _ (by simp [outputNames]) (tempBase_ne_rendered _ _)
  have hdir : Path.dir (Path.join [req.outputDir, req.outputRoot ++ renderedExt]) = Path.clean q := by
    rw [hjoin _ hh, Path.join_entry hq hh, Path.dir_entry hh]
  obtain ⟨e₂, hw₂, hr₂, -⟩ := atomicWrite_onto_dir hhT hk₁.sorted hk₁.named
    (by rw [hjoin _ hh]; exact hpaths _ (by simp)) hd₁ (by rw [hdir, hser₁]; exact htemps _ (by simp))
    htemp₁ (by rw [hser₁]; exact hnames _ (by simp [outputNames]))
    (Text.Utf8.encode (Render.page b.root req.titleText)) now
  rw [hdir, hser₁] at hw₂
  exact ⟨e₂, create_of_write_error hv hb (writeOutputs_of_second_error hlock hw₁ hw₂),
    hr₂.trans hr₁, hr₂ ▸ hdoc₁⟩

-- Catalogueing the empty `/r` as `c` into `/o`, where `c.html` is a directory.

def pageDirShelf : Disk := ⟨.dir [("o", .dir [("c.html", .dir [])]), ("r", .dir [])], "/", 0⟩

def cIntoO : Request := { directoryPath := "/r", outputRoot := "c", outputDirectory := "/o" }

def emptyBuilt : Walk.Built := ⟨⟨"directory", "./r", 0, some []⟩, [], ["./r"]⟩

/-- The fault of the page's rename onto the directory `/o/c.html`. -/
def pageDirFault : Fault :=
  .within "failed to create catalog" (.io .write "/o/c.html"
    (.within "failed to rename temp file to /o/c.html"
      (.sys (.onPair "rename" "/o/.tmp-1" "/o/c.html" .alreadyExists))))

theorem cIntoO_outputDir : cIntoO.outputDir = "/o" := rfl

theorem cIntoO_placed : cIntoO.Placed pageDirShelf where
  sorted := by decide
  named := by decide
  valid := by cbv
  output := ⟨["o"], by cbv, ⟨_, rfl⟩⟩
  copy := fun h => absurd rfl h

theorem create_pageDir :
    ∃ e, create pageDirShelf {} 0 cIntoO = ⟨e, ["./r"], .error pageDirFault⟩ ∧
      e.root.at? ["o", "c.json"] = some (.file (Text.Utf8.encode (Document.encode emptyBuilt.root))
        (Text.Utf8.encode (Document.encode emptyBuilt.root)).length 0) := by
  have hv : cIntoO.problem = none := problem_named_c (by cbv) rfl
  have hb : Walk.build pageDirShelf {} cIntoO.directoryPath = .ok emptyBuilt := by cbv
  have hclean : Path.clean "/o" = "/o" := @Path.clean_rooted ["o"] (by simpa using by decide)
  obtain ⟨hnames, hpaths, htemps⟩ := outputs_in_o
  obtain ⟨e, hc, -, hdoc⟩ := create_onto_page_dir cIntoO_placed.sorted
    cIntoO_placed.named (D := ["o"]) ⟨by cbv, ⟨_, rfl⟩⟩ (by decide) hv hb
    (fun _ _ => rfl) (by decide) rfl hnames hpaths htemps 0
  refine ⟨e, ?_, hdoc⟩
  have hpage : Path.rooted ["o", cIntoO.outputRoot ++ renderedExt] = "/o/c.html" := by cbv
  have htemp : tempName "/o" (pageDirShelf.serial + 1) = "/o/.tmp-1" := by cbv
  have hmsg : "failed to rename temp file to " ++ "/o/c.html" =
      "failed to rename temp file to /o/c.html" := by cbv
  rw [hc, cIntoO_outputDir, join_o (cIntoO.rendered_component hv), hclean, hpage, htemp,
    hmsg]
  rfl

/-- Writing two outputs fails at the first when the lock is taken and the first write fails. -/
theorem writeOutputs_of_first_error {e e' e₀ : Disk} {now : Int} {p base a b : String}
    {da db : List UInt8} {lock : List String} {c : Cause}
    (hlock : e.openCreate (lockPath p base) false now maxLinks = .ok (e₀, lock))
    (h₁ : atomicWrite e₀ a da now = (e', .error c)) :
    writeOutputs e p base [(a, da), (b, db)] now = (e', .error (.io .write a c)) := by
  simp [writeOutputs, hlock, h₁]

-- The same create into `/o` where `c.json` is a directory and the lock `.c.lock` a link to the
-- missing `c.html`.

def lockLinkShelf : Disk :=
  ⟨.dir [("o", .dir [(".c.lock", .link "c.html"), ("c.json", .dir [])]), ("r", .dir [])], "/", 0⟩

/-- The fault of the document's rename onto the directory `/o/c.json`. -/
def lockLinkFault : Fault :=
  .within "failed to create catalog" (.io .write "/o/c.json"
    (.within "failed to rename temp file to /o/c.json"
      (.sys (.onPair "rename" "/o/.tmp-0" "/o/c.json" .alreadyExists))))

theorem create_lockLink :
    ∃ e, create lockLinkShelf {} 0 cIntoO = ⟨e, ["./r"], .error lockLinkFault⟩ ∧
      e.root.at? ["o", "c.html"] = some (.file [] 0 0) := by
  have hv : cIntoO.problem = none := problem_named_c (by cbv) rfl
  have hb : Walk.build lockLinkShelf {} cIntoO.directoryPath = .ok emptyBuilt := by cbv
  have hclean : Path.clean "/o" = "/o" := @Path.clean_rooted ["o"] (by simpa using by decide)
  obtain ⟨hnames, hpaths, htemps⟩ := outputs_in_o
  have hs : lockLinkShelf.root.Sorted := by decide
  have hn : lockLinkShelf.root.Named := by decide
  have hD : lockLinkShelf.Direct cIntoO.outputDir ["o"] := ⟨by cbv, ⟨_, rfl⟩⟩
  have hdir := cIntoO.outputDir_ne hv
  have hj := cIntoO.document_component hv
  have hh := cIntoO.rendered_component hv
  -- the lock is a link to the page's free name: opening it creates the page, empty
  have hlockE : lockLinkShelf.Entry (lockPath cIntoO.outputDir cIntoO.outputRoot) ["o"]
      (lockName cIntoO.outputRoot) := by
    rw [lockPath, ← lockName]
    exact hD.join hdir (cIntoO.lock_component hv)
  have hpage : physText ["o"] ++ "/" ++ (cIntoO.outputRoot ++ renderedExt) =
      Path.join [cIntoO.outputDir, cIntoO.outputRoot ++ renderedExt] := by
    rw [cIntoO_outputDir, join_o hh]
    cbv
  have hcomps : components (cIntoO.outputRoot ++ renderedExt) = [cIntoO.outputRoot ++ renderedExt] := by
    show components "c.html" = ["c.html"]
    have hparts : Path.parts "c.html" = ["c.html"] := by
      simpa using @Path.parts_intercalate ["c.html"] (by simp)
    have hends : "c.html".endsWith "/" = false := by cbv
    simp only [components, hparts, hends]
    rfl
  have hlock : lockLinkShelf.openCreate (lockPath cIntoO.outputDir cIntoO.outputRoot) false 0
      maxLinks = .ok (lockLinkShelf.put (["o"] ++ [cIntoO.outputRoot ++ renderedExt])
        (some (.file [] 0 0)), ["o"] ++ [cIntoO.outputRoot ++ renderedExt]) :=
    hlockE.openCreate_dangling
      (by rw [lockPath, ← lockName, cIntoO_outputDir]; exact hpaths _ (by simp [cIntoO]))
      (by cbv) hh (by cbv) hcomps (by cbv) (by decide) (by rw [hpage]; exact hD.join hdir hh)
      (by rw [hpage, cIntoO_outputDir]; exact hpaths _ (by simp [cIntoO])) 39
  have hk₀ := openCreate_keeps hs hn hlock
  -- then the document's rename fails onto the directory `c.json`, and nothing is undone
  have hdirj : Path.dir (Path.join [cIntoO.outputDir, cIntoO.outputRoot ++ documentExt]) = "/o" := by
    rw [Path.join_entry hdir hj, Path.dir_entry hj, cIntoO_outputDir, hclean]
  obtain ⟨e₁, hw₁, hr₁, -⟩ := atomicWrite_onto_dir ((hD.target hdir hj).keep hk₀) hk₀.sorted
    hk₀.named (by rw [cIntoO_outputDir]; exact hpaths _ (by simp [cIntoO]))
    (by simp only [Disk.put]; rw [at?_alter_sibling _ (rendered_ne_document _).symm]; cbv)
    (by rw [hdirj, Disk.put_serial, ← hclean]; exact htemps _ (by simp [lockLinkShelf]))
    (by simp only [Disk.put]; rw [at?_alter_sibling _ (tempBase_ne_rendered _ _)]; cbv)
    (by decide) (Text.Utf8.encode (Document.encode emptyBuilt.root)) 0
  have hjson : Path.rooted ["o", cIntoO.outputRoot ++ documentExt] = "/o/c.json" := by cbv
  have htemp : tempName "/o" (lockLinkShelf.put (["o"] ++ [cIntoO.outputRoot ++ renderedExt])
      (some (.file [] 0 0))).serial = "/o/.tmp-0" := by cbv
  have hmsg : "failed to rename temp file to " ++ "/o/c.json" =
      "failed to rename temp file to /o/c.json" := by cbv
  refine ⟨e₁, ?_, ?_⟩
  · rw [create_of_write_error hv hb (writeOutputs_of_first_error hlock hw₁), hdirj, cIntoO_outputDir,
      join_o hj, hjson, htemp, hmsg]
    rfl
  · have hes : lockLinkShelf.root.at? ["o"] =
        some (.dir [(".c.lock", .link "c.html"), ("c.json", .dir [])]) := rfl
    rw [hr₁]
    exact Node.at?_alter_self _ (cIntoO.outputRoot ++ renderedExt) hes

end PageTaken

section Created

variable {d : Disk} {faults : Walk.Faults} {now : Int} {req : Request} {D : List String}

end Created

end TreeCatalog.Store
