import Mathlib
import TreeCatalog.Store.Create
import TreeCatalog.Proofs.Disk.Writes
/-! # Writing the outputs of a catalog

Every output of a catalog reaches the disk through `atomicWrite`: a temporary file beside the
target, filled and renamed over it. When the target is an entry of a directory reached by names
(`Disk.Target`), a write that succeeds is the tree with the file put at the entry and nothing
else changed (`atomicWrite_root`): the temporary file is gone again, every directory stays, and a
file anywhere else stays where it was (`atomicWrite_leaf`).

Such a write succeeds when the target holds no directory and the temporary file of the disk's
next number is free (`atomicWrite_free`). `writeOutputs` takes the lock and then writes the
document and the page in that order; `copyOutputs` copies both to the copy directory, each one
read back from where it was just written. The lemmas at the end say what a success of each of
them is made of, and which names they use: the lock's, the outputs' and the temporary files'
names all end differently, so none of them is another. -/

namespace TreeCatalog.Store

open Disk

section Atomic

variable {e e' : Disk} {path : String} {dir : List String} {name : String} {data : List UInt8}
  {now : Int}

/-- A successful write through a temporary file was given a path the system accepts: the final
rename looked it up. -/
theorem atomicWrite_valid (hw : atomicWrite e path data now = (e', .ok ())) :
    pathProblem path = none := by
  unfold atomicWrite at hw
  split at hw
  · cases hw
  · dsimp only at hw
    split at hw
    · next hren => exact (Disk.rename_valid hren).2
    · cases hw

/-- A successful write of a file to a target puts the written file at the target's entry, which
held no directory, and changes nothing else: the temporary file is gone again. -/
theorem atomicWrite_root (ht : e.Target path dir name) (hs : e.root.Sorted) (hn : e.root.Named)
    (hw : atomicWrite e path data now = (e', .ok ())) :
    (∀ es, e.root.at? (dir ++ [name]) ≠ some (.dir es)) ∧ e'.cwd = e.cwd ∧
      e'.root = e.root.alter (fun _ => some (.file data data.length now)) (dir ++ [name]) := by
  obtain ⟨es, hes⟩ := ht.entry.isDir
  unfold atomicWrite at hw
  split at hw
  · cases hw
  · next d1 tmp phys hc =>
    obtain ⟨m, hfree, hr⟩ := createTempFrom_spec ht.temps hc
    simp only [Prod.mk.injEq] at hr
    obtain ⟨rfl, rfl, rfl⟩ := hr
    dsimp only at hw
    split at hw
    · next d3 hren =>
      cases hw
      -- the temporary file, once filled, is the only change before the rename
      let F : Node := .file data data.length now
      let q := dir ++ [tempBase m]
      have hd2 : (e.root.alter (fun _ => some (.file [] 0 now)) q).alter (fun _ => some F) q =
          e.root.alter (fun _ => some F) q := Node.alter_alter_some _ _ _ _
      have hk : e.Keeps (({ e.put q (some (.file [] 0 now)) with serial := m + 1 } : Disk).setContents
          q data now) :=
        (Disk.keeps_put hs hn (tempBase_component m) (by simp [hfree])
          (file_sorted_named data data.length now)).congr hd2 rfl
      obtain ⟨m', hm', hnd, hd3⟩ := ((ht.temps m).keep hk).rename (ht.entry.keep hk) hren
      have hF : m' = F := by
        have hself := Node.at?_alter_self (fun _ => some F) (tempBase m) hes
        simp only [Disk.setContents, Disk.put] at hm'
        rw [hd2] at hm'
        exact Option.some.inj (hm'.symm.trans hself)
      subst hF hd3
      refine ⟨fun fs hfs => ?_, rfl, ?_⟩
      · obtain ⟨fs', hfs'⟩ := hk.dirs _ _ hfs
        exact hnd fs' hfs'
      · simp only [Disk.put, Disk.setContents]
        rw [hd2, Node.alter_remove_put F (tempBase m) hs hfree]
    · cases hw

/-- A successful write keeps what the writes of a catalog keep. -/
theorem atomicWrite_keeps (ht : e.Target path dir name) (hs : e.root.Sorted) (hn : e.root.Named)
    (hw : atomicWrite e path data now = (e', .ok ())) : e.Keeps e' := by
  obtain ⟨hnd, hc, hr⟩ := atomicWrite_root ht hs hn hw
  exact (Disk.keeps_put hs hn ht.entry.component hnd
    (file_sorted_named data data.length now)).congr hr hc

/-- After a successful write the target's entry holds the written bytes, stamped with the time
of the write. -/
theorem atomicWrite_self (ht : e.Target path dir name) (hs : e.root.Sorted) (hn : e.root.Named)
    (hw : atomicWrite e path data now = (e', .ok ())) :
    e'.root.at? (dir ++ [name]) = some (.file data data.length now) := by
  obtain ⟨es, hes⟩ := ht.entry.isDir
  rw [(atomicWrite_root ht hs hn hw).2.2]
  exact Node.at?_alter_self _ name hes

/-- A write leaves every other file in place; a file at the target itself is replaced by the
written one. -/
theorem atomicWrite_leaf (ht : e.Target path dir name) (hs : e.root.Sorted) (hn : e.root.Named)
    (hw : atomicWrite e path data now = (e', .ok ())) {ys : List String} {m : Node}
    (hy : e.root.at? ys = some m) (hm : m.entries? = none) :
    e'.root.at? ys = some (if ys = dir ++ [name] then .file data data.length now else m) := by
  split
  · next he =>
    subst he
    exact atomicWrite_self ht hs hn hw
  · next hne =>
    obtain ⟨hnd, -, hr⟩ := atomicWrite_root ht hs hn hw
    rw [hr]
    exact Node.at?_alter_of_leaf _ ht.entry.isDir hnd hy hm hne

/-- Writing one entry of a directory leaves its other entries as they were. -/
theorem at?_alter_sibling (g : Option Node → Option Node) {n : Node} {D : List String}
    {a c : String} (h : a ≠ c) : (n.alter g (D ++ [c])).at? (D ++ [a]) = n.at? (D ++ [a]) := by
  have hup : ¬ (D ++ [a]) <+: D := fun hp => by simpa using hp.length_le
  have hdown : ¬ (D ++ [c]) <+: D ++ [a] := fun hp =>
    h (List.singleton_inj.mp (List.append_inj' (hp.eq_of_length (by simp)) rfl).2).symm
  exact Node.at?_alter_of_diverge g c hup hdown

/-- A write through a temporary file succeeds on a target that holds no directory, its name
short enough to be held, when the temporary entry of the disk's next number is free; the next
write then tries the number after it. -/
theorem atomicWrite_free (ht : e.Target path dir name) (hs : e.root.Sorted) (hn : e.root.Named)
    (hv : pathProblem path = none) (hnd : ∀ es, e.root.at? (dir ++ [name]) ≠ some (.dir es))
    (hlen : name.utf8ByteSize ≤ maxNameBytes)
    (hvt : pathProblem (tempName (Path.dir path) e.serial) = none)
    (hfree : e.root.at? (dir ++ [tempBase e.serial]) = none)
    (htlen : (tempBase e.serial).utf8ByteSize ≤ maxNameBytes) (data : List UInt8) (now : Int) :
    ∃ e', atomicWrite e path data now = (e', .ok ()) ∧ e'.serial = e.serial + 1 := by
  obtain ⟨es, hes⟩ := ht.entry.isDir
  let F : Node := .file data data.length now
  let q := dir ++ [tempBase e.serial]
  let e₁ : Disk := { e.put q (some (.file [] 0 now)) with serial := e.serial + 1 }
  -- the filled temporary file is the only change, and the node the rename moves
  have hd2 : (e.root.alter (fun _ => some (.file [] 0 now)) q).alter (fun _ => some F) q =
      e.root.alter (fun _ => some F) q := Node.alter_alter_some _ _ _ _
  have hk : e.Keeps (e₁.setContents q data now) :=
    (Disk.keeps_put hs hn (tempBase_component _) (by simp [hfree])
      (file_sorted_named data data.length now)).congr hd2 rfl
  have hF : (e₁.setContents q data now).root.at? q = some F := by
    simp only [e₁, Disk.setContents, Disk.put]
    rw [hd2]
    exact Node.at?_alter_self _ _ hes
  have hnd' : ∀ fs, (e₁.setContents q data now).root.at? (dir ++ [name]) ≠ some (.dir fs) := by
    intro fs hfs
    simp only [e₁, Disk.setContents, Disk.put] at hfs
    rw [hd2] at hfs
    by_cases hname : name = tempBase e.serial
    · subst hname
      rw [Node.at?_alter_self _ _ hes] at hfs
      simp [F] at hfs
    · rw [at?_alter_sibling _ hname] at hfs
      exact hnd fs hfs
  have hren := ((ht.temps e.serial).keep hk).rename_eq (ht.entry.keep hk) hvt hv hF hnd' hlen
  refine ⟨((e₁.setContents q data now).put q none).put (dir ++ [name]) (some F), ?_, rfl⟩
  simp only [e₁, q] at hren
  rw [atomicWrite, createTemp_free (ht.temps e.serial) hvt hfree htlen]
  simp only [hren]
  rfl

end Atomic

section Steps

variable {e e' : Disk} {now : Int}

/-- A successful copy read the source and wrote its bytes to the destination. -/
theorem copyFile_ok {src dst : String} (hw : copyFile e src dst now = (e', .ok ())) :
    ∃ bytes, e.readFile src = .ok bytes ∧ atomicWrite e dst bytes now = (e', .ok ()) := by
  unfold copyFile at hw
  split at hw
  · cases hw
  · cases hw
  · cases hw
  · next bytes hread => exact ⟨bytes, hread, hw⟩

/-- Writing two outputs succeeds when the lock is taken and both writes succeed, in order. -/
theorem writeOutputs_ok {p base a b : String} {da db : List UInt8}
    (hw : writeOutputs e p base [(a, da), (b, db)] now = (e', .ok ())) :
    ∃ e₀ lock e₁, e.openCreate (lockPath p base) false now maxLinks = .ok (e₀, lock) ∧
      atomicWrite e₀ a da now = (e₁, .ok ()) ∧ atomicWrite e₁ b db now = (e', .ok ()) := by
  unfold writeOutputs at hw
  dsimp only at hw
  split at hw
  · cases hw
  · next e₀ lock hlock =>
    simp only [List.foldl_cons, List.foldl_nil] at hw
    -- a failed write is carried to the end of the fold unchanged
    cases ha : atomicWrite e₀ a da now with
    | mk e₁ ra =>
      cases ra with
      | error c => simp only [ha] at hw; cases hw
      | ok u =>
        cases hb : atomicWrite e₁ b db now with
        | mk e₂ rb =>
          cases rb with
          | error c => simp only [ha, hb] at hw; cases hw
          | ok v =>
            simp only [ha, hb] at hw
            cases hw
            exact ⟨e₀, lock, e₁, hlock, ha, hb⟩

theorem writeOutputs_of_steps {p base a b : String} {da db : List UInt8} {e₀ e₁ : Disk}
    {lock : List String} (hlock : e.openCreate (lockPath p base) false now maxLinks = .ok (e₀, lock))
    (h₁ : atomicWrite e₀ a da now = (e₁, .ok ())) (h₂ : atomicWrite e₁ b db now = (e', .ok ())) :
    writeOutputs e p base [(a, da), (b, db)] now = (e', .ok ()) := by
  simp [writeOutputs, hlock, h₁, h₂]

/-- Copying succeeds with no copies when no copy directory is given, and otherwise when both
copies succeed, the document first. -/
theorem copyOutputs_ok {req : Request} {j h : String} {copies : Option (String × String)}
    (hw : copyOutputs e req j h now = (e', .ok copies)) :
    (req.copyToDirectory = "" ∧ e' = e ∧ copies = none) ∨
      (req.copyToDirectory ≠ "" ∧
        copies = some (Path.join [req.copyToDirectory, req.outputRoot ++ documentExt],
          Path.join [req.copyToDirectory, req.outputRoot ++ renderedExt]) ∧
        ∃ e₁, copyFile e j (Path.join [req.copyToDirectory, req.outputRoot ++ documentExt]) now =
            (e₁, .ok ()) ∧
          copyFile e₁ h (Path.join [req.copyToDirectory, req.outputRoot ++ renderedExt]) now =
            (e', .ok ())) := by
  unfold copyOutputs at hw
  split at hw
  · next hc =>
    cases hw
    exact .inl ⟨hc, rfl, rfl⟩
  · next hc =>
    dsimp only at hw
    split at hw
    · cases hw
    · next e₁ h₁ =>
      split at hw
      · cases hw
      · next e₂ h₂ =>
        cases hw
        exact .inr ⟨hc, rfl, e₁, h₁, h₂⟩

end Steps

section Names

/-! The lock, the document, the page and the temporary files of a catalog never share a name:
their names end in different characters, and a temporary file's in a digit. -/

theorem getLast?_append_name (s : String) {t : String} (ht : t ≠ "") :
    (s ++ t).toList.getLast? = t.toList.getLast? := by
  rw [String.toList_append, List.getLast?_append_of_ne_nil _ (by simpa using ht)]

theorem append_ne_append {s s' t t' : String} (ht : t ≠ "") (ht' : t' ≠ "")
    (h : t.toList.getLast? ≠ t'.toList.getLast?) : s ++ t ≠ s' ++ t' := fun he =>
  h (by rw [← getLast?_append_name s ht, ← getLast?_append_name s' ht', he])

theorem getLast?_tempBase (n : Nat) : ∃ c, (tempBase n).toList.getLast? = some c ∧ c.isDigit := by
  have hchars : (tempBase n).toList = ['.', 't', 'm', 'p', '-'] ++ Nat.toDigits 10 n := by
    simp [tempBase]
  obtain ⟨c, hc⟩ := Option.ne_none_iff_exists'.mp
    (List.getLast?_eq_none_iff.not.mpr (Nat.toDigits_ne_nil (b := 10) (n := n)))
  refine ⟨c, ?_, Nat.isDigit_of_mem_toDigits (by decide) (by decide) (List.mem_of_getLast? hc)⟩
  rw [hchars, List.getLast?_append_of_ne_nil _ Nat.toDigits_ne_nil, hc]

theorem tempBase_ne_append (n : Nat) {s t : String}
    (ht : t.toList.getLast?.any (fun c => !c.isDigit)) : tempBase n ≠ s ++ t := by
  intro he
  obtain ⟨c, hc, hd⟩ := getLast?_tempBase n
  have hne : t ≠ "" := fun h => by simp [h] at ht
  rw [he, getLast?_append_name s hne] at hc
  simp [hc, hd] at ht

/-- The name of the lock of the outputs named `base`. -/
def lockName (base : String) : String := "." ++ base ++ ".lock"

/-- The names a create of `base` uses in its output directory, with temporary files numbered
from `n`. -/
def outputNames (base : String) (n : Nat) : List String :=
  [lockName base, base ++ documentExt, base ++ renderedExt, tempBase n, tempBase (n + 1)]

theorem document_ne_lock (base : String) : base ++ documentExt ≠ lockName base :=
  append_ne_append (by decide) (by decide) (by decide)

theorem rendered_ne_lock (base : String) : base ++ renderedExt ≠ lockName base :=
  append_ne_append (by decide) (by decide) (by decide)

theorem rendered_ne_document (base : String) : base ++ renderedExt ≠ base ++ documentExt :=
  append_ne_append (by decide) (by decide) (by decide)

theorem tempBase_ne_lock (n : Nat) (base : String) : tempBase n ≠ lockName base :=
  tempBase_ne_append n (by decide)

theorem tempBase_ne_document (n : Nat) (base : String) : tempBase n ≠ base ++ documentExt :=
  tempBase_ne_append n (by decide)

theorem tempBase_ne_rendered (n : Nat) (base : String) : tempBase n ≠ base ++ renderedExt :=
  tempBase_ne_append n (by decide)

end Names

end TreeCatalog.Store
