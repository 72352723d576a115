import Mathlib
import TreeCatalog.Search
import TreeCatalog.Proofs.Entry.Tree

/-! # A search of a tree is a filter of its pre-order

A search of one document walks its tree with a visitor that always goes on into the children
(`collect`), so the walk folds the visits over the pre-order (`Entry.walk_eq_foldl_preorder`). The
visitor passes over bare wrappers before it tests a name, but a bare wrapper has an empty name,
so that test alone decides: the hits are those of the named entries whose lower-cased names
contain the term, in pre-order (`searchTree_eq_filter_preorder`). -/

namespace TreeCatalog.Search

/-- Whether a search for `term`, already in lower case, reports an entry: its name is not empty
and, lower-cased, contains the term. -/
def Reports (term : String) (e : Entry) : Bool :=
  e.name != "" && containsText (Text.toLower e.name) term

variable {catalog path term : String}

theorem name_of_isBareWrapper {e : Entry} (h : e.isBareWrapper = true) : e.name = "" := by
  simp only [Entry.isBareWrapper, Bool.and_eq_true, beq_iff_eq] at h
  exact h.1

/-- A search's visit adds the entry's hit exactly when the search reports the entry, and always
goes on into the children. -/
theorem collect_eq (hits : List Hit) (e : Entry) :
    collect catalog path term hits e =
      (if Reports term e then hits ++ [hitOf catalog path e] else hits, true) := by
  unfold collect
  by_cases hb : e.isBareWrapper = true
  · -- a bare wrapper has no name, so it is not reported either
    have hr : Reports term e = false := by simp [Reports, name_of_isBareWrapper hb]
    simp [hb, hr]
  · rw [if_neg hb]
    split <;> simp_all [Reports]

/-- Visiting a list of entries in turn adds the hits of the reported ones, in order. -/
theorem foldl_collect (xs : List Entry) (hits : List Hit) :
    xs.foldl (fun hs x => (collect catalog path term hs x).1) hits =
      hits ++ (xs.filter (Reports term)).map (hitOf catalog path) := by
  induction xs generalizing hits with
  | nil => simp
  | cons x xs ih =>
    rw [List.foldl_cons, ih, collect_eq]
    by_cases hx : Reports term x = true <;> simp [hx]

/-- A search of a tree reports, in pre-order, exactly the entries whose name is not empty and,
lower-cased, contains the term: the children of every entry are searched, whether it matched or
not, and a bare wrapper is never reported. -/
theorem searchTree_eq_filter_preorder (root : Entry) (term catalog path : String) :
    searchTree root term catalog path =
      (root.preorder.filter fun e => e.name != "" && containsText (Text.toLower e.name) term).map
        (hitOf catalog path) := by
  rw [searchTree, Entry.walk_eq_foldl_preorder _ (fun hs e => by rw [collect_eq]), foldl_collect,
    List.nil_append]
  rfl

end TreeCatalog.Search
