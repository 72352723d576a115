import Mathlib
import TreeCatalog.Guard
import TreeCatalog.Disk.Write
import TreeCatalog.Proofs.Path.Rooted
import TreeCatalog.Proofs.Walk.Names

/-! # What the guard allows

The guard compares physical places. The place of a path is found on its cleaned absolute form:
the longest prefix that resolves is resolved, links followed, and the components after it are put
back on as written (`realPath_longest`); the root always resolves. On a disk whose directories
list file names a place is a cleaned absolute path (`realPath_rooted`). A place is allowed when it
is a root's place or starts with the root's place and a slash, and on cleaned absolute paths that
is the root's components beginning the place's components (`within_rooted_iff`), with one
exception: a root placed at `/` followed by a slash is `//`, which no cleaned path starts with, so
such a root admits `/` alone. The guard therefore decides component-wise containment of places,
the root of the disk apart, and resolves a path that is not blank to its absolute form exactly
when it allows it (`allows_iff_place_beneath`).

A link whose target does not exist yet ends the resolved prefix like a missing name, so a path
through it is placed where the link stands, while creating a file there makes the target
(`allows_dangling_link_escape`). -/

namespace TreeCatalog

open Disk

namespace Path

/-- A path lies at or below `root` when the root's components begin its components. -/
def Beneath (root p : String) : Prop := parts root <+: parts p

/-- Components joined after others continue the path of the others. -/
theorem rooted_append {rs ts : List String} (hr : rs ≠ []) (ht : ts ≠ []) :
    rooted (rs ++ ts) = rooted rs ++ "/" ++ "/".intercalate ts := by
  simp only [rooted, String.intercalate_append_of_ne_nil hr ht, String.append_assoc]

/-- The character after the root's slash starts the first component, so it is no slash. -/
theorem not_startsWith_slash_slash {cs : List String} (hc : ∀ c ∈ cs, c ≠ "" ∧ '/' ∉ c.toList) :
    (rooted cs).startsWith "//" = false := by
  rw [Bool.eq_false_iff, ne_eq, String.startsWith_string_iff, toList_rooted]
  rintro ⟨t, ht⟩
  cases cs with
  | nil => simp at ht
  | cons c cs =>
    obtain ⟨hne, hslash⟩ := hc c (List.mem_cons_self ..)
    obtain ⟨a, as, ha⟩ := List.exists_cons_of_ne_nil (by simpa using hne : c.toList ≠ [])
    have hstart : ∃ u, ['/'].intercalate ((c :: cs).map String.toList) = c.toList ++ u := by
      cases cs with
      | nil => exact ⟨[], by simp⟩
      | cons c' cs =>
        exact ⟨['/'] ++ ['/'].intercalate ((c' :: cs).map String.toList), by
          rw [List.map_cons, List.intercalate_cons_of_ne_nil (by simp), List.append_assoc]⟩
    obtain ⟨u, hu⟩ := hstart
    have : ('/' :: '/' :: []) ++ t = '/' :: (c.toList ++ u) := by
      rw [← hu]; simpa using ht
    rw [ha] at this
    simp only [List.cons_append, List.nil_append, List.cons.injEq] at this
    exact hslash (ha ▸ this.2.1 ▸ List.mem_cons_self ..)

/-- For cleaned absolute paths, being a root's text or starting with it and a slash is having the
root's components first, except that the root of the disk admits only itself. -/
theorem within_rooted_iff {rs cs : List String} (hr : ∀ c ∈ rs, c ≠ "" ∧ '/' ∉ c.toList)
    (hc : ∀ c ∈ cs, c ≠ "" ∧ '/' ∉ c.toList) :
    (rooted cs = rooted rs || (rooted cs).startsWith (rooted rs ++ "/")) = true ↔
      rs <+: cs ∧ (rs = [] → cs = []) := by
  constructor
  · intro h
    rcases Bool.or_eq_true_iff.mp h with heq | hpre
    · have hcs : cs = rs := by
        have := congrArg parts (of_decide_eq_true heq)
        rwa [parts_rooted hc, parts_rooted hr] at this
      exact ⟨hcs ▸ List.prefix_refl _, fun h => hcs.trans h⟩
    · -- the components after the root's slash are the path's own components
      obtain ⟨t, ht⟩ := String.startsWith_string_iff.mp hpre
      have hsplit : rooted cs = rooted rs ++ "/" ++ String.ofList t := by
        apply String.toList_inj.mp
        simp [← ht]
      have hparts : cs = rs ++ parts (String.ofList t) := by
        have := congrArg parts hsplit
        rwa [parts_append_slash, parts_rooted hc, parts_rooted hr] at this
      refine ⟨hparts ▸ List.prefix_append _ _, fun hnil => ?_⟩
      subst hnil
      have hss := not_startsWith_slash_slash hc
      rw [show rooted [] ++ "/" = "//" from rfl] at hpre
      rw [hpre] at hss
      cases hss
  · rintro ⟨⟨ts, rfl⟩, hroot⟩
    by_cases ht : ts = []
    · subst ht
      simp
    · have hr' : rs ≠ [] := fun h => ht (by simpa [h] using hroot h)
      rw [rooted_append hr' ht]
      refine Bool.or_eq_true_iff.mpr (Or.inr (String.startsWith_string_iff.mpr ?_))
      simp only [String.toList_append]
      exact List.prefix_append _ _

/-- An absolute path joined with more elements is a cleaned absolute path. -/
theorem join_of_isAbs {q : String} (hq : isAbs q = true) (rest : List String) :
    ∃ cs, (∀ c ∈ cs, IsComponent c) ∧ join (q :: rest) = rooted cs := by
  obtain ⟨t, ht⟩ := (isAbs_iff q).mp hq
  have hne : q ≠ "" := fun h => by simp [h] at ht
  have hfilter : (q :: rest).filter (· ≠ "") = q :: rest.filter (· ≠ "") := by
    simp [hne]
  have habs : isAbs ("/".intercalate (q :: rest.filter (· ≠ ""))) = true := by
    refine (isAbs_iff _).mpr ?_
    cases hr : rest.filter (· ≠ "") with
    | nil => exact ⟨t, by simp [ht]⟩
    | cons r rs => exact ⟨t ++ ("/" ++ "/".intercalate (r :: rs)).toList, by
        rw [String.intercalate_cons_of_ne_nil (by simp), String.append_assoc,
          String.toList_append, ht, List.cons_append]⟩
  rw [join, hfilter]
  exact ⟨_, components_cleanParts _, clean_of_isAbs habs⟩

/-- A path of one non-empty element is that element cleaned. -/
theorem join_singleton {r : String} (h : r ≠ "") : join [r] = clean r := by
  simp [join, h]

/-- Made absolute against an absolute working directory, an absolute form stays as it is. -/
theorem abs_idem {cwd : String} (hcwd : isAbs cwd = true) (p : String) :
    abs cwd (abs cwd p) = abs cwd p := by
  obtain ⟨cs, hcs, habs⟩ := abs_eq_rooted hcwd p
  rw [habs, abs, if_pos (isAbs_rooted cs), clean_rooted hcs]

end Path

/-- The components of a physical path that leads to a node of a disk whose directories list file
names are file names. -/
theorem Disk.Node.Named.components_of_at? {n m : Node} (hn : n.Named) :
    ∀ {ps : List String}, n.at? ps = some m → ∀ c ∈ ps, Path.IsComponent c := by
  intro ps
  induction ps generalizing n with
  | nil => simp
  | cons c cs ih =>
    intro h x hx
    cases n with
    | dir es =>
      simp only [Node.at?] at h
      split at h
      · next child hc =>
        cases hn with
        | dir names sub =>
          rcases List.mem_cons.mp hx with rfl | hx
          · exact names _ (mem_of_lookup hc)
          · exact ih (sub _ (mem_of_lookup hc)) h x hx
      · cases h
    | _ => simp [Node.at?] at h

section Places

/-- The root of the disk resolves to itself. -/
theorem evalLinks_slash (d : Disk) : d.evalLinks "/" = some "/" := by
  have hcomps : components "/" = [] := by cbv
  simp [Disk.Disk.evalLinks, hcomps, walk_nil, Node.at?]

/-- A resolved path is the cleaned path of the physical components it leads to. -/
theorem evalLinks_rooted {d : Disk} (hn : d.root.Named) {p r : String}
    (h : d.evalLinks p = some r) : ∃ cs, (∀ c ∈ cs, Path.IsComponent c) ∧ r = Path.rooted cs := by
  unfold Disk.Disk.evalLinks at h
  split at h
  · next phys _ =>
    split at h
    · next m hm =>
      cases h
      exact ⟨phys, hn.components_of_at? hm, rfl⟩
    · cases h
  · cases h

/-- Resolving upwards from any prefix ends in a cleaned absolute path. -/
theorem realFrom_rooted {d : Disk} (hn : d.root.Named) (a : String) :
    ∀ (pre rest : List String), ∃ cs, (∀ c ∈ cs, Path.IsComponent c) ∧
      realFrom d a pre rest = Path.rooted cs := by
  intro pre
  induction pre with
  | nil => intro rest; exact Path.join_of_isAbs (by cbv) rest
  | cons c up ih =>
    intro rest
    simp only [realFrom]
    split
    · next resolved hres =>
      obtain ⟨cs, hcs, rfl⟩ := evalLinks_rooted hn hres
      exact Path.join_of_isAbs (Path.isAbs_rooted cs) rest
    · exact ih (c :: rest)

/-- On a disk whose directories list file names, the physical place of a path is a cleaned
absolute path. -/
theorem realPath_rooted {d : Disk} (hn : d.root.Named) (p : String) :
    ∃ cs, (∀ c ∈ cs, Path.IsComponent c) ∧ realPath d p = Path.rooted cs := by
  dsimp only [realPath]
  split
  · next resolved hres => exact evalLinks_rooted hn hres
  · exact realFrom_rooted hn _ _ _

/-- Resolving upwards from the prefix `pre` (most recent component first) of the components
`cs`, when no longer prefix resolves, ends at the longest prefix that does, with the rest of the
components put back on. -/
theorem realFrom_longest {d : Disk} (a : String) {cs : List String} :
    ∀ (pre rest : List String), pre.reverse ++ rest = cs →
      (∀ j, pre.length < j → j ≤ cs.length → d.evalLinks (Path.rooted (cs.take j)) = none) →
      ∃ k ≤ pre.length, ∃ r, d.evalLinks (Path.rooted (cs.take k)) = some r ∧
        (∀ j, k < j → j ≤ cs.length → d.evalLinks (Path.rooted (cs.take j)) = none) ∧
        realFrom d a pre rest = Path.join (r :: cs.drop k) := by
  intro pre
  induction pre with
  | nil =>
    -- at the root, which always resolves
    intro rest hsplit hnone
    simp only [List.reverse_nil, List.nil_append] at hsplit
    subst hsplit
    exact ⟨0, le_rfl, "/", evalLinks_slash d, hnone, rfl⟩
  | cons c up ih =>
    intro rest hsplit hnone
    have htake : cs.take (up.length + 1) = (c :: up).reverse := by
      rw [← hsplit, List.take_left' (by simp)]
    have hdrop : cs.drop (up.length + 1) = rest := by
      rw [← hsplit, List.drop_left' (by simp)]
    have hcurrent : "/" ++ "/".intercalate (c :: up).reverse =
        Path.rooted (cs.take (up.length + 1)) := by rw [htake]; rfl
    simp only [realFrom, hcurrent]
    split
    · next resolved hres =>
      exact ⟨up.length + 1, le_rfl, resolved, hres, hnone, by rw [hdrop]⟩
    · next hres =>
      -- this prefix does not resolve either, so the search goes on one component up
      have hnone' : ∀ j, up.length < j → j ≤ cs.length →
          d.evalLinks (Path.rooted (cs.take j)) = none := by
        intro j hj hjc
        rcases Nat.lt_or_ge (up.length + 1) j with hlt | hge
        · exact hnone j (by simpa using hlt) hjc
        · rw [show j = up.length + 1 by omega]
          exact hres
      obtain ⟨k, hk, r, hr, hmax, heq⟩ := ih (c :: rest) (by simpa using hsplit) hnone'
      exact ⟨k, by simp; omega, r, hr, hmax, heq⟩

/-- The physical place of a cleaned absolute path: its longest prefix that resolves, resolved,
with the components after it put back on. -/
theorem realPath_longest {d : Disk} (hn : d.root.Named) {cs : List String}
    (hcs : ∀ c ∈ cs, Path.IsComponent c) :
    ∃ k ≤ cs.length, ∃ r, d.evalLinks (Path.rooted (cs.take k)) = some r ∧
      (∀ j, k < j → j ≤ cs.length → d.evalLinks (Path.rooted (cs.take j)) = none) ∧
      realPath d (Path.rooted cs) = Path.join (r :: cs.drop k) := by
  have hparts := Path.parts_rooted fun c hc => ⟨(hcs c hc).1, (hcs c hc).2.1⟩
  dsimp only [realPath]
  rw [Path.clean_rooted hcs, hparts]
  split
  · next resolved hres =>
    -- the whole path resolves: nothing is put back on
    obtain ⟨rs, hrs, rfl⟩ := evalLinks_rooted hn hres
    have hne : Path.rooted rs ≠ "" := fun h => by simpa [h] using Path.toList_rooted rs
    refine ⟨cs.length, le_rfl, _, by rw [List.take_length]; exact hres,
      fun j hj hjc => absurd hjc (by omega), ?_⟩
    rw [List.drop_length, Path.join_singleton hne, Path.clean_rooted hrs]
  · next hres =>
    rcases List.eq_nil_or_concat cs with rfl | ⟨init, last, rfl⟩
    · have hslash : d.evalLinks (Path.rooted []) = some "/" := evalLinks_slash d
      rw [hslash] at hres
      cases hres
    · rw [List.concat_eq_append] at hres ⊢
      have hnone : ∀ j, init.reverse.length < j → j ≤ (init ++ [last]).length →
          d.evalLinks (Path.rooted ((init ++ [last]).take j)) = none := by
        intro j hj hjc
        simp only [List.length_reverse, List.length_append, List.length_singleton] at hj hjc
        rw [show j = (init ++ [last]).length by simp; omega, List.take_length]
        exact hres
      obtain ⟨k, hk, r, hr, hmax, heq⟩ :=
        realFrom_longest (Path.rooted (init ++ [last])) init.reverse [last] (by simp) hnone
      refine ⟨k, by simp at hk ⊢; omega, r, hr, hmax, ?_⟩
      simpa using heq

/-- The test the guard makes of a place against a root's place, on cleaned absolute paths: the
place lies at or below the root, and a root at `/` admits only `/` itself. -/
theorem within_iff_beneath {r q : String}
    (hr : ∃ rs, (∀ c ∈ rs, Path.IsComponent c) ∧ r = Path.rooted rs)
    (hq : ∃ qs, (∀ c ∈ qs, Path.IsComponent c) ∧ q = Path.rooted qs) :
    (q = r || q.startsWith (r ++ "/")) = true ↔ Path.Beneath r q ∧ (r = "/" → q = "/") := by
  obtain ⟨rs, hrs, rfl⟩ := hr
  obtain ⟨qs, hqs, rfl⟩ := hq
  have hrs' : ∀ c ∈ rs, c ≠ "" ∧ '/' ∉ c.toList := fun c hc => ⟨(hrs c hc).1, (hrs c hc).2.1⟩
  have hqs' : ∀ c ∈ qs, c ≠ "" ∧ '/' ∉ c.toList := fun c hc => ⟨(hqs c hc).1, (hqs c hc).2.1⟩
  rw [Path.within_rooted_iff hrs' hqs', Path.Beneath, Path.parts_rooted hrs',
    Path.parts_rooted hqs', Path.rooted_eq_slash_iff hrs', Path.rooted_eq_slash_iff hqs']

end Places

namespace Guard

variable {d : Disk}

/-- Without a `*`, the roots are the physical places of the non-empty allowed paths, in order. -/
theorem scanRoots_of_star_not_mem (d : Disk) :
    ∀ {L : List String}, "*" ∉ L →
      scanRoots d L = ((L.filter (· ≠ "")).map fun a => realPath d (Path.abs d.cwd a), false)
  | [], _ => rfl
  | p :: ps, h => by
    have hp : p ≠ "*" := fun he => h (he ▸ List.mem_cons_self ..)
    have ih := scanRoots_of_star_not_mem d (L := ps) fun hm => h (List.mem_cons_of_mem _ hm)
    by_cases he : p = ""
    · simp [scanRoots, he, ih]
    · simp [scanRoots, hp, he, ih]

/-- A guard of allowed paths, some given and none of them `*`, checks against their places. -/
theorem make_of_star_not_mem (d : Disk) {L : List String} (hL : L ≠ []) (hs : "*" ∉ L) :
    Guard.make d L =
      ⟨(L.filter (· ≠ "")).map fun a => realPath d (Path.abs d.cwd a), false⟩ := by
  have hempty : L.isEmpty = false := by simpa using hL
  simp [Guard.make, scanRoots_of_star_not_mem d hs, hempty]

/-- A guard given allowed paths, some of them and none `*`, allows a path exactly when its
physical place lies at or below the place of a non-empty allowed path, where a root placed at `/`
admits only `/` itself; a path that is not blank resolves to its absolute form when allowed and
is refused as outside the list otherwise. -/
theorem allows_iff_place_beneath (hn : d.root.Named) (hcwd : Path.isAbs d.cwd = true)
    {L : List String} (hL : L ≠ []) (hs : "*" ∉ L) (p : String) :
    ((Guard.make d L).allows d p = true ↔
      ∃ a ∈ L, a ≠ "" ∧
        Path.Beneath (realPath d (Path.abs d.cwd a)) (realPath d (Path.abs d.cwd p)) ∧
        (realPath d (Path.abs d.cwd a) = "/" → realPath d (Path.abs d.cwd p) = "/")) ∧
    (Text.trim p ≠ "" → (Guard.make d L).resolve d p =
      if (Guard.make d L).allows d p then .ok (Path.abs d.cwd p) else .error .accessDenied) := by
  refine ⟨?_, fun hp => ?_⟩
  · rw [make_of_star_not_mem d hL hs]
    simp only [Guard.allows, Bool.false_or, List.any_eq_true, List.mem_map, List.mem_filter,
      decide_eq_true_eq]
    constructor
    · rintro ⟨_, ⟨a, ⟨ha, hne⟩, rfl⟩, hwithin⟩
      exact ⟨a, ha, hne,
        (within_iff_beneath (realPath_rooted hn _) (realPath_rooted hn _)).mp hwithin⟩
    · rintro ⟨a, ha, hne, hbeneath⟩
      exact ⟨_, ⟨a, ⟨ha, hne⟩, rfl⟩,
        (within_iff_beneath (realPath_rooted hn _) (realPath_rooted hn _)).mpr hbeneath⟩
  · -- the check is made of the absolute form, which is its own absolute form
    have hallows :
        (Guard.make d L).allows d (Path.abs d.cwd p) = (Guard.make d L).allows d p := by
      simp only [Guard.allows, Path.abs_idem hcwd]
    simp only [Guard.resolve, if_neg hp, hallows]

end Guard

/-- A directory `/a` holding a link `l` to `/o/n`, which does not exist yet, beside `/o`. -/
def danglingDisk : Disk :=
  ⟨.dir [("a", .dir [("l", .link "/o/n")]), ("o", .dir [])], "/", 0⟩

theorem danglingDisk_named : danglingDisk.root.Named := by decide

/-- The guard of `/a`, at the dangling link. -/
theorem allows_iff_place_beneath_dangling :
    danglingDisk.root.Named ∧ Path.isAbs danglingDisk.cwd = true ∧ ["/a"] ≠ [] ∧
      "*" ∉ ["/a"] ∧
      (((Guard.make danglingDisk ["/a"]).allows danglingDisk "/a/l" = true ↔
        ∃ a ∈ ["/a"], a ≠ "" ∧
          Path.Beneath (realPath danglingDisk (Path.abs danglingDisk.cwd a))
            (realPath danglingDisk (Path.abs danglingDisk.cwd "/a/l")) ∧
          (realPath danglingDisk (Path.abs danglingDisk.cwd a) = "/" →
            realPath danglingDisk (Path.abs danglingDisk.cwd "/a/l") = "/")) ∧
      (Text.trim "/a/l" ≠ "" → (Guard.make danglingDisk ["/a"]).resolve danglingDisk "/a/l" =
        if (Guard.make danglingDisk ["/a"]).allows danglingDisk "/a/l" then
          .ok (Path.abs danglingDisk.cwd "/a/l") else .error .accessDenied)) :=
  ⟨danglingDisk_named, by cbv, by simp, by simp,
    Guard.allows_iff_place_beneath danglingDisk_named (by cbv) (by simp) (by simp) "/a/l"⟩

/-- A link in an allowed directory to a file that does not exist yet leads out of it: the guard
whose only root is `/a` allows the link, taking it for a name below `/a`, yet opening it to create
a file makes `/o/n`, which is not below `/a`. -/
theorem allows_dangling_link_escape :
    (Guard.make danglingDisk ["/a"]).roots = ["/a"] ∧
      (Guard.make danglingDisk ["/a"]).allows danglingDisk "/a/l" = true ∧
      (danglingDisk.openCreate "/a/l" false 0 maxLinks).map Prod.snd = .ok ["o", "n"] ∧
      ¬ ["a"] <+: ["o", "n"] :=
  ⟨by cbv, by cbv, by cbv, by decide⟩

end TreeCatalog
