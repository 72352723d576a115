import Mathlib
import TreeCatalog.Http.Limiter
import TreeCatalog.Proofs.Keyed

/-! # The limiter is a sliding window

A run of requests is a list of clients with the clock readings they arrive at, the readings never
going back (`Chronological`). The limiter forgets an instant of a client only on that client's
own requests, and only once it lies a whole window behind; so it forgets nothing that could still
count. From every reading on, what it remembers of a client and still counts is what it allowed
that client and still counts (`Remembers`, kept by every request and so by every run,
`remembers_serve`).

Hence a request is allowed exactly when fewer than `limit` of its client's allowed requests lie
less than a window before it (`allow_iff_counted`); no window of one second holds more of one
client's allowed requests than the limit (`within_length_le`); and the requests of other clients
change no answer a client gets (`serve_filter_client`). -/

namespace TreeCatalog.Http

namespace Limiter

/-- The instants the limiter remembers of a client. -/
def log (l : Limiter) (key : String) : List Int := (l.seen.lookup key).getD []

/-- One request served: the limiter after it, and the allowed requests with it when allowed. -/
def receive (acc : Limiter × List (String × Int)) (c : String × Int) :
    Limiter × List (String × Int) :=
  ((acc.1.allow c.1 c.2).1, if (acc.1.allow c.1 c.2).2 then acc.2 ++ [c] else acc.2)

/-- Requests served in order: the limiter after them and the requests it allowed. -/
def serve (l : Limiter) (calls : List (String × Int)) : Limiter × List (String × Int) :=
  calls.foldl receive (l, [])

end Limiter

/-- The allowed requests of a client that count at `now`: those less than a window old. -/
def counted (granted : List (String × Int)) (key : String) (now : Int) : List (String × Int) :=
  granted.filter fun c => c.1 = key ∧ now - window < c.2

/-- The allowed requests of a client in the window of one second that ends at `now`. -/
def within (granted : List (String × Int)) (key : String) (now : Int) : List (String × Int) :=
  granted.filter fun c => c.1 = key ∧ now - window < c.2 ∧ c.2 ≤ now

section Allow

variable (l : Limiter) (key : String) (now : Int)

theorem allow_limit : (l.allow key now).1.limit = l.limit := by
  unfold Limiter.allow
  dsimp only
  split <;> rfl

theorem allow_eq_true_iff :
    (l.allow key now).2 = true ↔
      (((l.log key).filter fun t => now - window < t).length : Int) < l.limit := by
  unfold Limiter.allow Limiter.log
  dsimp only
  split
  · next h => simpa using h
  · next h => simpa using h

/-- A request keeps of its client's instants those less than a window old, and itself when
allowed; other clients' instants stay. -/
theorem log_allow (k : String) :
    (l.allow key now).1.log k =
      if k = key then
        ((l.log key).filter fun t => now - window < t) ++
          (if (l.allow key now).2 then [now] else [])
      else l.log k := by
  unfold Limiter.allow Limiter.log
  dsimp only
  split <;> rw [lookup_cons_filter_ne] <;> split <;> simp_all

end Allow

/-- Counting at a later reading what counted at an earlier one is counting at the later one. -/
theorem filter_window_filter {t t' : Int} (h : t ≤ t') (xs : List Int) :
    ((xs.filter fun s => t - window < s).filter fun s => t' - window < s) =
      xs.filter fun s => t' - window < s := by
  rw [List.filter_filter]
  apply List.filter_congr
  intro s _
  by_cases hs : t' - window < s
  · have hs' : t - window < s := by omega
    simp [hs, hs']
  · simp [hs]

theorem counted_snoc (granted : List (String × Int)) (c : String × Int) (key : String) (t : Int) :
    counted (granted ++ [c]) key t =
      counted granted key t ++ (if c.1 = key ∧ t - window < c.2 then [c] else []) := by
  unfold counted
  rw [List.filter_append]
  by_cases hc : c.1 = key ∧ t - window < c.2 <;> simp [hc]

theorem counted_of_ne (granted : List (String × Int)) {k key : String} (h : k ≠ key) (t : Int) :
    counted (granted ++ [(key, t)]) k = counted granted k := by
  funext t'
  rw [counted_snoc]
  simp [Ne.symm h]

/-- What the limiter remembers of each client and still counts at any reading from `now` on is
what it allowed that client and still counts then. -/
def Remembers (l : Limiter) (granted : List (String × Int)) (now : Int) : Prop :=
  ∀ key t, now ≤ t →
    ((l.log key).filter fun s => t - window < s) = (counted granted key t).map Prod.snd

theorem Remembers.mono {l : Limiter} {granted : List (String × Int)} {now now' : Int}
    (hr : Remembers l granted now) (h : now ≤ now') : Remembers l granted now' :=
  fun key t ht => hr key t (le_trans h ht)

theorem remembers_new (limit now : Int) : Remembers (Limiter.new limit) [] now := by
  intro key t _
  simp [Limiter.log, Limiter.new, counted]

/-- A limiter that remembers the allowed requests decides a request by counting them. -/
theorem Remembers.allow_iff {l : Limiter} {granted : List (String × Int)} {now : Int}
    (hr : Remembers l granted now) (key : String) :
    (l.allow key now).2 = true ↔ ((counted granted key now).length : Int) < l.limit := by
  rw [allow_eq_true_iff, hr key now le_rfl, List.length_map]

/-- The step: a request at a reading not before `now` keeps the limiter remembering, from its
own reading on. -/
theorem Remembers.receive {l : Limiter} {granted : List (String × Int)} {now : Int}
    (hr : Remembers l granted now) {key : String} {t : Int} (ht : now ≤ t) :
    Remembers (Limiter.receive (l, granted) (key, t)).1 (Limiter.receive (l, granted) (key, t)).2 t := by
  intro k t' ht'
  have hr' := hr.mono ht
  simp only [Limiter.receive]
  rw [log_allow]
  by_cases hk : k = key
  · -- the client of the request: what counted at `t` and still counts, then the request
    subst hk
    rw [if_pos rfl, List.filter_append, filter_window_filter ht', hr' k t' ht']
    cases (l.allow k t).2 <;> by_cases hw : t' - window < t <;> simp [counted_snoc, hw]
  · rw [if_neg hk, hr' k t' (le_trans ht' le_rfl)]
    cases (l.allow key t).2 <;> simp [counted_of_ne granted hk]

section Run

variable {limit : Int}

theorem serve_snoc (l : Limiter) (calls : List (String × Int)) (c : String × Int) :
    l.serve (calls ++ [c]) = Limiter.receive (l.serve calls) c := by
  simp [Limiter.serve, List.foldl_append]

theorem serve_limit (l : Limiter) (calls : List (String × Int)) : (l.serve calls).1.limit = l.limit := by
  induction calls using List.reverseRecOn with
  | nil => rfl
  | append_singleton calls c ih => rw [serve_snoc, Limiter.receive, allow_limit, ih]

/-- The run: after chronological requests, the limiter remembers what it allowed, from the last
reading on. -/
theorem remembers_serve {calls : List (String × Int)} (hc : Chronological calls) {now : Int}
    (hnow : ∀ c ∈ calls, c.2 ≤ now) :
    Remembers ((Limiter.new limit).serve calls).1 ((Limiter.new limit).serve calls).2 now := by
  induction calls using List.reverseRecOn generalizing now with
  | nil => exact remembers_new limit now
  | append_singleton calls c ih =>
    obtain ⟨hcalls, hbefore⟩ := hc.of_snoc
    have hr := ih hcalls hbefore
    rw [serve_snoc]
    exact (hr.receive le_rfl).mono (hnow c (by simp))

/-- A request is allowed exactly when fewer than `limit` of its client's allowed requests lie
less than a window before it. -/
theorem allow_iff_counted {calls : List (String × Int)} {key : String} {now : Int}
    (hc : Chronological (calls ++ [(key, now)])) :
    (((Limiter.new limit).serve calls).1.allow key now).2 = true ↔
      ((counted ((Limiter.new limit).serve calls).2 key now).length : Int) < limit := by
  obtain ⟨hcalls, hbefore⟩ := hc.of_snoc
  rw [(remembers_serve hcalls hbefore).allow_iff, serve_limit]
  rfl

/-- No window of one second holds more of one client's allowed requests than the limit. -/
theorem within_length_le {calls : List (String × Int)} (hc : Chronological calls) (key : String)
    (t : Int) : ((within ((Limiter.new limit).serve calls).2 key t).length : Int) ≤ max limit 0 := by
  induction calls using List.reverseRecOn with
  | nil => simp [Limiter.serve, within]
  | append_singleton calls c ih =>
    obtain ⟨k, s⟩ := c
    have ih' := ih hc.of_snoc.1
    rw [serve_snoc]
    simp only [Limiter.receive]
    cases hallowed : (((Limiter.new limit).serve calls).1.allow k s).2 with
    | false => simpa using ih'
    | true =>
      rw [if_pos rfl, within, List.filter_append]
      by_cases hin : k = key ∧ t - window < s ∧ s ≤ t
      · -- the new request lies in the window: the earlier ones in it counted when it came
        obtain ⟨rfl, hlo, hhi⟩ := hin
        have hlt := (allow_iff_counted hc).mp hallowed
        have hsub : (within ((Limiter.new limit).serve calls).2 k t).length ≤
            (counted ((Limiter.new limit).serve calls).2 k s).length := by
          apply List.Sublist.length_le
          apply List.monotone_filter_right
          intro x hx
          simp only [decide_eq_true_eq] at hx ⊢
          exact ⟨hx.1, by omega⟩
        rw [← within]
        simp only [List.filter_cons, List.filter_nil, decide_eq_true_eq, hlo, hhi, and_self,
          if_true, List.length_append, List.length_singleton]
        omega
      · rw [← within]
        simp only [List.filter_cons, List.filter_nil, decide_eq_true_eq, if_neg hin,
          List.append_nil]
        exact ih'

theorem counted_filter_client (granted : List (String × Int)) (key : String) (t : Int) :
    counted (granted.filter fun c => c.1 = key) key t = counted granted key t := by
  unfold counted
  rw [List.filter_filter]
  apply List.filter_congr
  intro c _
  by_cases h : c.1 = key <;> simp [h]

/-- Serving only one client's requests allows that client what serving everyone's allows it. -/
theorem serve_filter_client {calls : List (String × Int)} (hc : Chronological calls)
    (key : String) :
    ((Limiter.new limit).serve (calls.filter fun c => c.1 = key)).2 =
      ((Limiter.new limit).serve calls).2.filter fun c => c.1 = key := by
  induction calls using List.reverseRecOn with
  | nil => rfl
  | append_singleton calls c ih =>
    obtain ⟨k, t⟩ := c
    have ih' := ih hc.of_snoc.1
    rw [List.filter_append, serve_snoc]
    by_cases hk : k = key
    · -- a request of the client: both runs decide it by the same count
      subst hk
      have hsub : Chronological ((calls.filter fun c => c.1 = k) ++ [(k, t)]) :=
        hc.sublist ((List.filter_sublist).append_right _)
      have hsame : (((Limiter.new limit).serve (calls.filter fun c => c.1 = k)).1.allow k t).2 =
          (((Limiter.new limit).serve calls).1.allow k t).2 := by
        rw [Bool.eq_iff_iff, allow_iff_counted hsub, allow_iff_counted hc, ih',
          counted_filter_client]
      simp only [List.filter_cons, List.filter_nil, decide_true, if_true, serve_snoc,
        Limiter.receive, hsame, ih']
      split <;> simp [List.filter_append]
    · simp only [List.filter_cons, List.filter_nil, decide_eq_true_eq, if_neg hk,
        List.append_nil, Limiter.receive]
      rw [ih']
      split <;> simp [List.filter_append, hk]

/-- The limiter is an exact sliding window: a request is allowed exactly when fewer than `limit`
of its client's allowed requests lie less than a window before it; so no window of one second
ever holds more than `max limit 0` of a client's allowed requests; and the requests of other
clients change no answer a client gets. -/
theorem limiter_sliding_window (limit : Int) (calls : List (String × Int)) (key : String)
    (now : Int) (hc : Chronological (calls ++ [(key, now)])) :
    ((((Limiter.new limit).serve calls).1.allow key now).2 = true ↔
        ((counted ((Limiter.new limit).serve calls).2 key now).length : Int) < limit) ∧
      (∀ k t, ((within ((Limiter.new limit).serve (calls ++ [(key, now)])).2 k t).length : Int) ≤
        max limit 0) ∧
      (((Limiter.new limit).serve (calls.filter fun c => c.1 = key)).1.allow key now).2 =
        (((Limiter.new limit).serve calls).1.allow key now).2 := by
  have hcalls := hc.of_snoc.1
  have hsub : Chronological ((calls.filter fun c => c.1 = key) ++ [(key, now)]) :=
    hc.sublist ((List.filter_sublist).append_right _)
  refine ⟨allow_iff_counted hc, within_length_le hc, ?_⟩
  rw [Bool.eq_iff_iff, allow_iff_counted hsub, allow_iff_counted hc,
    serve_filter_client hcalls, counted_filter_client]

/-- Two requests of `a` fill the window; the third is refused while they count, and a request a
window after the first is allowed again, whatever `b` does in between. -/
theorem limiter_sliding_window_pair :
    Chronological ([("a", 0), ("a", 1), ("a", 2), ("b", 3)] ++ [("a", 1000000000)]) ∧
      (((((Limiter.new 2).serve [("a", 0), ("a", 1), ("a", 2), ("b", 3)]).1.allow "a"
          1000000000).2 = true ↔
        ((counted ((Limiter.new 2).serve [("a", 0), ("a", 1), ("a", 2), ("b", 3)]).2 "a"
          1000000000).length : Int) < 2) ∧
      (∀ k t, ((within ((Limiter.new 2).serve
          ([("a", 0), ("a", 1), ("a", 2), ("b", 3)] ++ [("a", 1000000000)])).2 k t).length : Int) ≤
        max 2 0) ∧
      (((Limiter.new 2).serve ([("a", 0), ("a", 1), ("a", 2), ("b", 3)].filter
          fun c => c.1 = "a")).1.allow "a" 1000000000).2 =
        (((Limiter.new 2).serve [("a", 0), ("a", 1), ("a", 2), ("b", 3)]).1.allow "a"
          1000000000).2) :=
  ⟨by decide, limiter_sliding_window 2 _ "a" 1000000000 (by decide)⟩

example : ((Limiter.new 2).serve [("a", 0), ("a", 1), ("a", 2), ("b", 3), ("a", 1000000000)]).2 =
    [("a", 0), ("a", 1), ("b", 3), ("a", 1000000000)] := by
  decide

end Run

end TreeCatalog.Http
