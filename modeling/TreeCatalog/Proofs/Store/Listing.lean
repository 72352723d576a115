import Mathlib
import TreeCatalog.Proofs.Disk.Writes
import TreeCatalog.Proofs.Render.Title
/-! # What a listing shows of a document in place

`listCatalogs` reads a directory, keeps the entries that are documents, joins each name to the
directory and summarizes the paths it can read; a read that waits holds the listing up
(`summaries_of_settled`). In a sorted tree with file names, the entries of a directory reached
by names have distinct names, and joining distinct file names to one path gives distinct paths,
so in a directory whose documents never wait a document that can be summarized is listed exactly
once (`listCatalogs_filter_path`).

A document `n.json` whose rendering `n.html` is a file beside it is summarized under the name
`n`, with the rendering's title or else `n`, and the size and time of the document's file
(`summarize_paired`): the rendering's path is found again from the document's path by the
suffix alone (`renderedPathFor_join`). -/

namespace TreeCatalog.Store

open Disk
open TreeCatalog.Path (IsComponent)

section Names

theorem endsWith_append (s t : String) : (s ++ t).endsWith t = true := by
  rw [String.endsWith, String.Slice.endsWith_string_iff, String.copy_toSlice]
  exact ⟨s.toList, by simp⟩

/-- Removing a suffix that was appended gives back what it was appended to. -/
theorem dropSuffix_append (s t : String) : dropSuffix (s ++ t) t = s := by
  rw [dropSuffix, if_pos (endsWith_append s t)]
  apply String.toList_inj.mp
  simp [← String.length_toList]

variable {p n : String}

/-- The rendering of a document joined to a directory is the rendering's name joined to it. -/
theorem renderedPathFor_join (hp : p ≠ "") (hj : IsComponent (n ++ documentExt))
    (hh : IsComponent (n ++ renderedExt)) :
    renderedPathFor (Path.join [p, n ++ documentExt]) = Path.join [p, n ++ renderedExt] := by
  rw [Path.join_entry hp hj, Path.join_entry hp hh, renderedPathFor, ← String.append_assoc,
    dropSuffix_append, String.append_assoc]

/-- The name of a document joined to a directory is what stands before its extension. -/
theorem stem_join (hp : p ≠ "") (hj : IsComponent (n ++ documentExt)) :
    stem (Path.join [p, n ++ documentExt]) = n := by
  rw [stem, Path.join_entry hp hj, Path.base_entry hj, dropSuffix_append]

end Names

section Summary

variable {e : Disk} {p : String} {D : List String} {n : String}

/-- A summary names the path it was asked for. -/
theorem summarize_path {q : String} {s : Summary} (h : summarize e q = .ok s) : s.path = q := by
  unfold summarize at h
  split at h
  · cases h
  · split at h
    · cases h
    · dsimp only at h
      split at h
      · cases ht : readTitle e (renderedPathFor q) <;>
          simp only [ht, Except.map, reduceCtorEq, Except.ok.injEq] at h
        rw [← h]
      · cases h
        rfl

/-- A document file that is an entry of a directory reached by names loads as what its bytes
decode to. -/
theorem loadDocument_file {q : String} {N : String} (hE : e.Entry q D N)
    (hv : pathProblem q = none) {jb : List UInt8} {t : Int}
    (hf : e.root.at? (D ++ [N]) = some (.file jb jb.length t)) {doc : Document.Document}
    (hdoc : Document.decode jb = .ok doc) : loadDocument e q = .ok doc := by
  simp [loadDocument, hE.readFileCut_file hv hf, Except.mapError, hdoc]

/-- A document file beside a rendering file, in a directory reached by names, is summarized
under its stem with the rendering's title (else the stem), the document file's size and time,
and a rendering. -/
theorem summarize_paired (hD : e.Direct p D) (hp : p ≠ "") (hj : IsComponent (n ++ documentExt))
    (hh : IsComponent (n ++ renderedExt))
    (hvj : pathProblem (Path.join [p, n ++ documentExt]) = none)
    (hvh : pathProblem (Path.join [p, n ++ renderedExt]) = none)
    {jb hb : List UInt8} {t t' : Int}
    (hjf : e.root.at? (D ++ [n ++ documentExt]) = some (.file jb jb.length t))
    (hhf : e.root.at? (D ++ [n ++ renderedExt]) = some (.file hb hb.length t'))
    {doc : Document.Document} (hdoc : Document.decode jb = .ok doc) :
    summarize e (Path.join [p, n ++ documentExt]) =
      .ok ⟨Path.join [p, n ++ documentExt], n, (pageTitle hb).getD n, jb.length, t, true⟩ := by
  have hJ := hD.join hp hj
  have hH := hD.join hp hh
  have hload := loadDocument_file hJ hvj hjf hdoc
  have htitle : readTitle e (Path.join [p, n ++ renderedExt]) = .ok (pageTitle hb) := by
    simp [readTitle, hH.readFileCut_file hvh hhf]
  simp only [summarize, hJ.stat_file hvj hjf, hload, stem_join hp hj, renderedPathFor_join hp hj hh,
    hH.stat_file hvh hhf, htitle, Except.map]

end Summary

section Listed

variable {e : Disk} {p : String} {D : List String}

/-- The paths of the documents of a directory reached by names: its entries that are no
directories and whose names end in the document extension, joined to it. -/
theorem listDocuments_direct (hD : e.Direct p D) (hv : pathProblem p = none)
    {es : List (String × Node)} (hes : e.root.at? D = some (.dir es)) :
    listDocuments e p = .ok (es.filterMap fun x =>
      if x.2.info.kind ≠ .dir ∧ x.1.endsWith documentExt then some (Path.join [p, x.1])
      else none) := by
  simp only [listDocuments, Disk.readDir, hD.lookup hv hes, shown_text, List.filterMap_map]
  rfl

/-- The document paths of a directory of distinct file names are distinct. -/
theorem nodup_documents (hp : p ≠ "") {es : List (String × Node)}
    (horder : es.Pairwise fun a b => a.1 < b.1) (hnames : ∀ x ∈ es, IsComponent x.1) :
    (es.filterMap fun x =>
      if x.2.info.kind ≠ .dir ∧ x.1.endsWith documentExt then some (Path.join [p, x.1])
      else none).Nodup := by
  have hmem := List.Pairwise.and_mem.mp horder
  refine List.Pairwise.filterMap _ ?_ hmem
  rintro a a' ⟨ha, ha', hlt⟩ b hb b' hb' heq
  split at hb <;> split at hb' <;> simp only [Option.some.injEq, reduceCtorEq] at hb hb'
  subst hb hb'
  rw [Path.join_entry hp (hnames a ha), Path.join_entry hp (hnames a' ha')] at heq
  exact absurd (Path.entryPrefix_append_inj heq) (ne_of_lt hlt)

section Summaries

variable {q : String} {qs : List String}

theorem summaries_cons_ok {s : Summary} (h : summarize e q = .ok s) :
    summaries e (q :: qs) = (summaries e qs).map (s :: ·) := by
  rw [summaries, h]

theorem summaries_cons_waits {r : String} (h : summarize e q = .error (.waits r)) :
    summaries e (q :: qs) = .error (.waits r) := by
  rw [summaries, h]

theorem summaries_cons_skip {f : Fault} (h : summarize e q = .error f) (hf : ∀ r, f ≠ .waits r) :
    summaries e (q :: qs) = summaries e qs := by
  rw [summaries, h]
  cases f
  case waits r => exact absurd rfl (hf r)
  all_goals rfl

/-- Summarizing fails only by waiting. -/
theorem summaries_error {f : Fault} (h : summaries e qs = .error f) : ∃ r, f = .waits r := by
  induction qs with
  | nil => cases h
  | cons q qs ih =>
    cases hq : summarize e q with
    | ok s =>
      rw [summaries_cons_ok hq] at h
      cases hr : summaries e qs <;> simp only [hr, Except.map, reduceCtorEq, Except.error.injEq] at h
      exact ih (h ▸ hr)
    | error f' =>
      by_cases hw : ∃ r, f' = .waits r
      · obtain ⟨r, rfl⟩ := hw
        rw [summaries_cons_waits hq] at h
        exact ⟨r, (Except.error.inj h).symm⟩
      · rw [summaries_cons_skip hq fun r hr => hw ⟨r, hr⟩] at h
        exact ih h

/-- Summarizing paths none of which waits keeps the summaries that can be given, in order. -/
theorem summaries_of_settled (h : ∀ q ∈ qs, ∀ r, summarize e q ≠ .error (.waits r)) :
    summaries e qs = .ok (qs.filterMap fun q => (summarize e q).toOption) := by
  induction qs with
  | nil => rfl
  | cons q qs ih =>
    have ih' := ih fun q' hq' => h q' (List.mem_cons_of_mem _ hq')
    cases hq : summarize e q with
    | ok s => simp [summaries_cons_ok hq, ih', Except.map, Except.toOption, hq]
    | error f =>
      rw [summaries_cons_skip hq fun r hr => h q List.mem_cons_self r (hr ▸ hq), ih']
      simp [Except.toOption, hq]

end Summaries

/-- No document of the directory `p` makes a listing of it wait. -/
def Settled (e : Disk) (p : OsPath) : Prop :=
  ∀ paths, listDocuments e p = .ok paths → ∀ q ∈ paths, ∀ r, summarize e q ≠ .error (.waits r)

/-- A listing whose documents never wait summarizes each document path it can and leaves out the
others. -/
theorem listCatalogs_of_settled {p : OsPath} (h : Settled e p) :
    listCatalogs e p = (listDocuments e p).map fun paths =>
      paths.filterMap fun q => (summarize e q).toOption := by
  unfold listCatalogs
  cases hl : listDocuments e p with
  | error f => rfl
  | ok paths => exact summaries_of_settled (h paths hl)

/-- A document of a directory reached by names, in a sorted tree with file names, that can be
summarized is listed exactly once, by that summary. -/
theorem listCatalogs_filter_path (hs : e.root.Sorted) (hn : e.root.Named) (hD : e.Direct p D)
    (hv : pathProblem p = none) (hp : p ≠ "") (hset : Settled e p) {N : String} {m : Node}
    (hm : e.root.at? (D ++ [N]) = some m) (hkind : m.info.kind ≠ .dir)
    (hdoc : N.endsWith documentExt = true) {s : Summary}
    (hsum : summarize e (Path.join [p, N]) = .ok s) :
    ∃ ss, listCatalogs e p = .ok ss ∧ ss.filter (fun x => x.path = Path.join [p, N]) = [s] := by
  obtain ⟨es, hes⟩ := hD.isDir
  have hsorted := hs.at? hes
  have hnamed := hn.at? hes
  cases hsorted with
  | dir horder _ =>
  cases hnamed with
  | dir hnames _ =>
  set J := Path.join [p, N]
  set paths := es.filterMap fun x =>
    if x.2.info.kind ≠ .dir ∧ x.1.endsWith documentExt then some (Path.join [p, x.1]) else none
  have hJ : J ∈ paths := by
    have hNm : (N, m) ∈ es := by
      rw [Node.at?_snoc_of_dir hes] at hm
      exact Disk.mem_of_lookup hm
    exact List.mem_filterMap.mpr ⟨(N, m), hNm, by simp [hkind, hdoc, J]⟩
  have honce : paths.filter (fun q => decide (q = J)) = [J] := by
    rw [List.filter_eq, List.count_eq_one_of_mem (nodup_documents hp horder hnames) hJ]
    rfl
  -- a summary names its path, so keeping the summaries of `J` keeps the paths equal to `J`
  have hkeep : ∀ q, (summarize e q).toOption.filter (fun x => decide (x.path = J)) =
      if decide (q = J) = true then (summarize e q).toOption else none := by
    intro q
    cases hq : summarize e q with
    | error f => simp [Except.toOption]
    | ok s' => simp [Except.toOption, Option.filter, summarize_path hq]
  refine ⟨_, by simp only [listCatalogs_of_settled hset, listDocuments_direct hD hv hes, Except.map]; rfl, ?_⟩
  rw [List.filter_filterMap, List.filterMap_congr fun q _ => hkeep q, ← List.filterMap_filter,
    honce]
  simp [hsum, Except.toOption]

end Listed

end TreeCatalog.Store
