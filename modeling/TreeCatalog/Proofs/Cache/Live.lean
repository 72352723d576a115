import Mathlib
import TreeCatalog.Cache
import TreeCatalog.Proofs.Keyed

/-! # The cache gives exactly the live values

A run of calls on a cache (stores with the default or their own lifetime, fetches, fetches
through a producer, removals of one key or of all, and background sweeps) is recorded as what each
call did (`Effect`): a store of a value at an instant with a lifetime, a removal, or nothing. A
fetch through a producer stores only when it called its producer and the producer gave a value.

A value is live under a key after a history when the history's latest store of the key is
followed by nothing that touches the key and its expiry has not passed (`LiveIn`). Every call
changes later fetches only of the keys it touches, and leaves them what it stored
(`get_run`); so over every run at clock readings that never go back, a fetch gives exactly the
live value (`cache_live_values`). Sweeps change no fetch, and a producer that fails leaves the
cache as it was.

The expiry is the instant of the store plus the lifetime in 64-bit nanoseconds: a lifetime that
carries it past the year 2262 wraps it to a time long gone, and the value is never found
(`get_wrapped_expiry`). -/

namespace TreeCatalog.Cache

variable {α ε : Type}

/-- A call on a cache; a fetch through a producer carries the producer. -/
inductive Call (α ε : Type) where
  | set (key : String) (v : α)
  | setWithTTL (key : String) (v : α) (ttl : Int)
  | get (key : String)
  | getOrSet (key : String) (produce : Unit → Except ε α)
  | delete (key : String)
  | clear
  | cleanup

/-- What a call did to the values: stored one under a key at an instant with a lifetime, removed
one key or all of them, or kept them. -/
inductive Effect (α : Type) where
  | store (key : String) (v : α) (time ttl : Int)
  | remove (key : String)
  | removeAll
  | keep
deriving DecidableEq, Repr

/-- Whether an effect changes what a key holds. -/
def Effect.touches (key : String) : Effect α → Bool
  | .store k _ _ _ => k = key
  | .remove k => k = key
  | .removeAll => true
  | .keep => false

/-- The value an effect leaves live at `t`: a store's value until its expiry has passed. -/
def Effect.live (t : Int) : Effect α → Option α
  | .store _ v s d => if t > Text.wrap64 (s + d) then none else some v
  | _ => none

/-- Makes a call at `now`: the cache after it and what it did. -/
def Call.run (c : Cache α) (now : Int) : Call α ε → Cache α × Effect α
  | .set k v => (c.set k v now, .store k v now c.ttl)
  | .setWithTTL k v d => (c.setFor k v d now, .store k v now d)
  | .get _ => (c, .keep)
  | .getOrSet k f =>
    match c.getOrSet k f now with
    | (c', true, .ok v) => (c', .store k v now c.ttl)
    | (c', _, _) => (c', .keep)
  | .delete k => (c.delete k, .remove k)
  | .clear => (c.clear, .removeAll)
  | .cleanup => (c.cleanup now, .keep)

/-- One more call: the cache after it, and the effects so far with its own. -/
def step (acc : Cache α × List (Effect α)) (call : Call α ε × Int) : Cache α × List (Effect α) :=
  ((Call.run acc.1 call.2 call.1).1, acc.2 ++ [(Call.run acc.1 call.2 call.1).2])

/-- Calls made in order from a cache, each at its clock reading: the cache after them and what
each did. -/
def runCalls (c : Cache α) (calls : List (Call α ε × Int)) : Cache α × List (Effect α) :=
  calls.foldl step (c, [])

/-- What a history leaves live under a key at `t`: the value the latest effect touching the key
leaves live. -/
def answer (effects : List (Effect α)) (key : String) (t : Int) : Option α :=
  match effects.reverse.find? (·.touches key) with
  | some e => e.live t
  | none => none

/-- `v` is live under `key` at `t` after a history: the history's latest store of the key stored
`v`, nothing after it touches the key (no store of it, no removal of it, no clearing), and its
expiry has not passed. -/
def LiveIn (effects : List (Effect α)) (key : String) (t : Int) (v : α) : Prop :=
  ∃ pre post s d, effects = pre ++ .store key v s d :: post ∧
    (∀ e ∈ post, e.touches key = false) ∧ t ≤ Text.wrap64 (s + d)

/-- One item per key. -/
def Keyed (c : Cache α) : Prop := (c.items.map Prod.fst).Nodup

section Fetch

variable (c : Cache α) (key : String) (t : Int)

theorem get_setFor_eq (k : String) (v : α) (d now : Int) :
    (c.setFor k v d now).get key t =
      if key = k then (if t > Text.wrap64 (now + d) then none else some v) else c.get key t := by
  unfold setFor get
  rw [lookup_cons_filter_ne]
  by_cases h : key = k <;> simp [h]

theorem get_delete (k : String) : (c.delete k).get key t = if key = k then none else c.get key t := by
  unfold delete get
  rw [lookup_filter_ne]
  by_cases h : key = k <;> simp [h]

theorem get_clear : c.clear.get key t = none := rfl

/-- A sweep at `u` drops only items that no fetch from `u` on finds. -/
theorem get_cleanup (hc : c.Keyed) {u : Int} (hu : u ≤ t) : (c.cleanup u).get key t = c.get key t := by
  have hl := lookup_filter_value hc (fun item : CacheItem α => decide ¬ u > item.expiry) key
  unfold cleanup get
  dsimp only at hl ⊢
  rw [hl]
  cases c.items.lookup key with
  | none => rfl
  | some item =>
    by_cases hx : u ≤ item.expiry
    · simp [Option.filter, hx]
    · have ht : item.expiry < t := by omega
      simp [Option.filter, hx, ht]

end Fetch

section Calls

variable {c : Cache α}

theorem keyed_setFor (hc : c.Keyed) (k : String) (v : α) (d now : Int) :
    (c.setFor k v d now).Keyed := by
  unfold Keyed setFor
  rw [List.map_cons, List.nodup_cons]
  refine ⟨by simp, ?_⟩
  exact hc.sublist ((List.filter_sublist).map _)

/-- A fetch through a producer either keeps the cache or stores what the producer gave. -/
theorem run_getOrSet (c : Cache α) (k : String) (f : Unit → Except ε α) (now : Int) :
    Call.run c now (.getOrSet k f) = (c, .keep) ∨
      ∃ v, Call.run c now (.getOrSet k f) = (c.set k v now, .store k v now c.ttl) := by
  cases hget : c.get k now with
  | some v => left; simp [Call.run, getOrSet, hget]
  | none =>
    cases hf : f () with
    | ok v => right; exact ⟨v, by simp [Call.run, getOrSet, hget, hf]⟩
    | error e => left; simp [Call.run, getOrSet, hget, hf]

theorem keyed_run (hc : c.Keyed) (now : Int) (call : Call α ε) : (Call.run c now call).1.Keyed := by
  cases call with
  | set k v => exact keyed_setFor hc k v _ now
  | setWithTTL k v d => exact keyed_setFor hc k v d now
  | get k => exact hc
  | getOrSet k f =>
    rcases run_getOrSet c k f now with h | ⟨v, h⟩ <;> rw [h]
    · exact hc
    · exact keyed_setFor hc k v _ now
  | delete k => exact hc.sublist ((List.filter_sublist).map _)
  | clear => exact List.nodup_nil
  | cleanup => exact hc.sublist ((List.filter_sublist).map _)

theorem ttl_run (now : Int) (call : Call α ε) : (Call.run c now call).1.ttl = c.ttl := by
  cases call with
  | getOrSet k f => rcases run_getOrSet c k f now with h | ⟨v, h⟩ <;> simp [h, set, setFor]
  | _ => rfl

/-- The step: a call made at `now` leaves every later fetch of a key it touched what it left
live, and every other fetch as it was. -/
theorem get_run (hc : c.Keyed) (call : Call α ε) {now t : Int} (ht : now ≤ t) (key : String) :
    (Call.run c now call).1.get key t =
      if (Call.run c now call).2.touches key then (Call.run c now call).2.live t
      else c.get key t := by
  cases call with
  | set k v =>
    simp only [Call.run, set, get_setFor_eq, Effect.touches, Effect.live]
    by_cases h : key = k <;> simp [h, Ne.symm]
  | setWithTTL k v d =>
    simp only [Call.run, get_setFor_eq, Effect.touches, Effect.live]
    by_cases h : key = k <;> simp [h, Ne.symm]
  | get k => rfl
  | getOrSet k f =>
    rcases run_getOrSet c k f now with h | ⟨v, h⟩ <;> rw [h]
    · simp [Effect.touches]
    · simp only [set, get_setFor_eq, Effect.touches, Effect.live]
      by_cases h : key = k <;> simp [h, Ne.symm]
  | delete k =>
    simp only [Call.run, get_delete, Effect.touches, Effect.live]
    by_cases h : key = k <;> simp [h, Ne.symm]
  | clear => rfl
  | cleanup => exact get_cleanup c key t hc ht

end Calls

theorem answer_snoc (effects : List (Effect α)) (e : Effect α) (key : String) (t : Int) :
    answer (effects ++ [e]) key t = if e.touches key then e.live t else answer effects key t := by
  unfold answer
  rw [List.reverse_append, List.reverse_singleton, List.singleton_append, List.find?_cons]
  cases e.touches key <;> rfl

/-- The history's answer is a live value, and every live value is its answer. -/
theorem answer_eq_some_iff (effects : List (Effect α)) (key : String) (t : Int) (v : α) :
    answer effects key t = some v ↔ LiveIn effects key t v := by
  unfold answer
  constructor
  · intro h
    split at h
    · next e he =>
      obtain ⟨htouch, as, bs, hrev, has⟩ := List.find?_eq_some_iff_append.mp he
      cases e with
      | store k w s d =>
        simp only [Effect.touches, decide_eq_true_eq] at htouch
        subst htouch
        simp only [Effect.live] at h
        split at h
        · cases h
        · next hs =>
          cases h
          refine ⟨bs.reverse, as.reverse, s, d, ?_, ?_, by omega⟩
          · rw [← List.reverse_reverse effects, hrev]; simp
          · intro x hx
            simpa using has x (List.mem_reverse.mp hx)
      | _ => simp [Effect.live] at h
    · cases h
  · rintro ⟨pre, post, s, d, rfl, hpost, hs⟩
    have hfind : (pre ++ Effect.store key v s d :: post).reverse.find? (·.touches key) =
        some (.store key v s d) := by
      rw [List.find?_eq_some_iff_append]
      refine ⟨by simp [Effect.touches], post.reverse, pre.reverse, by simp, ?_⟩
      intro x hx
      simp [hpost x (List.mem_reverse.mp hx)]
    rw [hfind]
    simp only [Effect.live]
    rw [if_neg (by omega)]

/-- A cache that agrees with a history from `now` on: one item per key, the default lifetime
`ttl`, and every fetch at a reading from `now` on answered as the history says. -/
structure Agrees (c : Cache α) (ttl : Int) (effects : List (Effect α)) (now : Int) : Prop where
  keyed : c.Keyed
  ttl_eq : c.ttl = ttl
  get_eq : ∀ key t, now ≤ t → c.get key t = answer effects key t

theorem Agrees.mono {c : Cache α} {ttl : Int} {effects : List (Effect α)} {now now' : Int}
    (h : Agrees c ttl effects now) (hle : now ≤ now') : Agrees c ttl effects now' :=
  ⟨h.keyed, h.ttl_eq, fun key t ht => h.get_eq key t (le_trans hle ht)⟩

theorem agrees_empty (ttl now : Int) : Agrees (Cache.empty ttl : Cache α) ttl [] now :=
  ⟨List.nodup_nil, rfl, fun _ _ _ => rfl⟩

/-- A call at a reading not before `now` keeps the cache agreeing with the history that records
it, from its own reading on. -/
theorem Agrees.run {c : Cache α} {ttl : Int} {effects : List (Effect α)} {now : Int}
    (h : Agrees c ttl effects now) (call : Call α ε) {t : Int} (ht : now ≤ t) :
    Agrees (Call.run c t call).1 ttl (effects ++ [(Call.run c t call).2]) t := by
  refine ⟨keyed_run h.keyed t call, by rw [ttl_run, h.ttl_eq], fun key t' ht' => ?_⟩
  rw [get_run h.keyed call ht' key, answer_snoc, h.get_eq key t' (le_trans ht ht')]

theorem runCalls_snoc (c : Cache α) (calls : List (Call α ε × Int)) (call : Call α ε × Int) :
    c.runCalls (calls ++ [call]) = step (c.runCalls calls) call := by
  simp [runCalls, List.foldl_append]

/-- The run: after calls at readings that never go back, the cache agrees with what they did,
from the last reading on. -/
theorem agrees_runCalls (ttl : Int) {calls : List (Call α ε × Int)} (hc : Chronological calls)
    {now : Int} (hnow : ∀ c ∈ calls, c.2 ≤ now) :
    Agrees ((Cache.empty ttl).runCalls calls).1 ttl ((Cache.empty ttl).runCalls calls).2 now := by
  induction calls using List.reverseRecOn generalizing now with
  | nil => exact agrees_empty ttl now
  | append_singleton calls call ih =>
    obtain ⟨hcalls, hbefore⟩ := hc.of_snoc
    rw [runCalls_snoc]
    exact ((ih hcalls hbefore).run call.1 le_rfl).mono (hnow call (by simp))

/-- A producer that fails leaves the cache as it was, whether or not it was called. -/
theorem getOrSet_error (c : Cache α) (key : String) {f : Unit → Except ε α} {e : ε}
    (hf : f () = .error e) (now : Int) : (c.getOrSet key f now).1 = c := by
  cases hget : c.get key now with
  | some v => simp [getOrSet, hget]
  | none => simp [getOrSet, hget, hf]

/-- The cache gives exactly the live values. Over every run of calls at clock readings that never
go back, a fetch at a reading not before them finds `v` under a key exactly when the run's latest
store of the key stored `v`, nothing after it touched the key, and its expiry (the instant of the
store plus its lifetime, in 64-bit nanoseconds) has not passed. A sweep changes no such fetch, and
a fetch whose producer fails leaves the cache as it was. -/
theorem cache_live_values (ttl : Int) (calls : List (Call α ε × Int)) (hc : Chronological calls)
    (t : Int) (ht : ∀ c ∈ calls, c.2 ≤ t) :
    (∀ key v, ((Cache.empty ttl).runCalls calls).1.get key t = some v ↔
        LiveIn ((Cache.empty ttl).runCalls calls).2 key t v) ∧
      (∀ u ≤ t, ∀ key,
        (((Cache.empty ttl).runCalls calls).1.cleanup u).get key t =
          ((Cache.empty ttl).runCalls calls).1.get key t) ∧
      (∀ key (f : Unit → Except ε α) e, f () = .error e →
        (((Cache.empty ttl).runCalls calls).1.getOrSet key f t).1 =
          ((Cache.empty ttl).runCalls calls).1) := by
  have hagree := agrees_runCalls ttl hc ht
  refine ⟨fun key v => ?_, fun u hu key => get_cleanup _ key t hagree.keyed hu,
    fun key f e hf => getOrSet_error _ key hf t⟩
  rw [hagree.get_eq key t le_rfl, answer_eq_some_iff]

/-- Calls on a cache with a lifetime of ten: a store, a fetch through a producer that fails, a
removal and a sweep. -/
def sampleCalls : List (Call Nat String × Int) :=
  [(.set "a" 1, 0), (.getOrSet "b" fun _ => .error "down", 1), (.setWithTTL "b" 2 100, 2),
    (.delete "a", 3), (.cleanup, 4)]

theorem cache_live_values_sample :
    Chronological sampleCalls ∧ (∀ c ∈ sampleCalls, c.2 ≤ 5) ∧
      ((∀ key v, ((Cache.empty 10).runCalls sampleCalls).1.get key 5 = some v ↔
          LiveIn ((Cache.empty 10).runCalls sampleCalls).2 key 5 v) ∧
        (∀ u ≤ 5, ∀ key,
          (((Cache.empty 10).runCalls sampleCalls).1.cleanup u).get key 5 =
            ((Cache.empty 10).runCalls sampleCalls).1.get key 5) ∧
        (∀ key (f : Unit → Except String Nat) e, f () = .error e →
          (((Cache.empty 10).runCalls sampleCalls).1.getOrSet key f 5).1 =
            ((Cache.empty 10).runCalls sampleCalls).1)) :=
  ⟨by decide, by decide, cache_live_values 10 sampleCalls (by decide) 5 (by decide)⟩

/-- A lifetime of nine billion billion nanoseconds (about 285 years) given in 2027 carries the
expiry past the 64-bit clock; it wraps to a time long gone, and the value stored is never found,
though nothing touched it and the fetch comes a nanosecond after the store. -/
theorem get_wrapped_expiry :
    ((Cache.empty 60000000000).runCalls
        [((.setWithTTL "a" 1 9000000000000000000 : Call Nat String), 1800000000000000000)]).2 =
      [.store "a" 1 1800000000000000000 9000000000000000000] ∧
    ((Cache.empty 60000000000).runCalls
        [((.setWithTTL "a" 1 9000000000000000000 : Call Nat String), 1800000000000000000)]).1.get
        "a" 1800000000000000001 = none ∧
    (1800000000000000001 : Int) ≤ 1800000000000000000 + 9000000000000000000 := by
  decide

end TreeCatalog.Cache
