import Mathlib

/-! # Memories keyed by name

The rate limiter and the cache keep what they know of each key in a list of pairs: an update puts
the key's new entry in front and drops its older ones. Looking a key up after such an update, and
runs of calls whose clock readings never go back. -/

namespace TreeCatalog

variable {β : Type}

/-- Dropping a key's entries hides that key and leaves every other key as it was. -/
theorem lookup_filter_ne (l : List (String × β)) (key k : String) :
    (l.filter fun e => e.1 ≠ key).lookup k = if k = key then none else l.lookup k := by
  induction l with
  | nil => simp
  | cons e l ih =>
    obtain ⟨k', v⟩ := e
    by_cases hk : k' = key
    · -- the key's own entry is dropped
      subst hk
      rw [List.filter_cons, if_neg (by simp), ih]
      by_cases h : k = k' <;> simp [h, List.lookup_cons, beq_false_of_ne]
    · rw [List.filter_cons, if_pos (by simpa using hk)]
      by_cases h : k = k'
      · subst h; simp [hk]
      · rw [List.lookup_cons, List.lookup_cons, beq_false_of_ne h]
        exact ih

/-- After replacing a key's entries by one, the key finds it and every other key finds what it
found before. -/
theorem lookup_cons_filter_ne (l : List (String × β)) (key k : String) (v : β) :
    ((key, v) :: l.filter fun e => e.1 ≠ key).lookup k = if k = key then some v else l.lookup k := by
  by_cases h : k = key
  · subst h; simp
  · rw [List.lookup_cons, beq_false_of_ne h, lookup_filter_ne, if_neg h, if_neg h]

/-- In a list with one entry per key, keeping the entries whose values pass a test keeps a key's
entry exactly when its value passes. -/
theorem lookup_filter_value {l : List (String × β)} (hl : (l.map Prod.fst).Nodup) (q : β → Bool)
    (k : String) : (l.filter fun e => q e.2).lookup k = (l.lookup k).filter q := by
  induction l with
  | nil => rfl
  | cons e l ih =>
    obtain ⟨k', v⟩ := e
    rw [List.map_cons, List.nodup_cons] at hl
    have ih' := ih hl.2
    by_cases h : k = k'
    · -- the entry of the key itself; no later entry has the key
      subst h
      have hnone : l.lookup k = none := by
        rw [List.lookup_eq_none_iff]
        intro p hp
        have hmem : p.1 ∈ l.map Prod.fst := List.mem_map_of_mem (f := Prod.fst) hp
        have hne : p.1 ≠ k := fun he => hl.1 (he ▸ hmem)
        exact bne_iff_ne.mpr (Ne.symm hne)
      by_cases hq : q v = true
      · simp [hq, Option.filter]
      · simp only [List.filter_cons, hq, Bool.false_eq_true, if_false, ih', hnone]
        simp [hq, Option.filter]
    · by_cases hq : q v = true
      · simp only [List.filter_cons, hq, if_true]
        rw [List.lookup_cons, List.lookup_cons, beq_false_of_ne h]
        exact ih'
      · simp only [List.filter_cons, hq, Bool.false_eq_true, if_false, ih']
        rw [List.lookup_cons, beq_false_of_ne h]

/-- Calls whose clock readings never go back. -/
def Chronological (calls : List (β × Int)) : Prop := calls.Pairwise fun a b => a.2 ≤ b.2

instance (calls : List (β × Int)) : Decidable (Chronological calls) :=
  inferInstanceAs (Decidable (List.Pairwise _ calls))

theorem Chronological.of_snoc {calls : List (β × Int)} {c : β × Int}
    (hc : Chronological (calls ++ [c])) : Chronological calls ∧ ∀ a ∈ calls, a.2 ≤ c.2 := by
  obtain ⟨hcalls, -, hlast⟩ := List.pairwise_append.mp hc
  exact ⟨hcalls, fun a ha => hlast a ha c (List.mem_singleton_self c)⟩

end TreeCatalog
