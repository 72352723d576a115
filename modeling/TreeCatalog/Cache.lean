import TreeCatalog.Text.Decimal
/-! # A cache of short-lived values

Values are kept under keys until their expiry: an item stored at `now` with a lifetime `ttl`
(nanoseconds, possibly negative) expires at `now + ttl`, and is found only while the clock has not
passed that instant. Instants are 64-bit counts of nanoseconds since the epoch, so an expiry past
the year 2262 wraps around to a time long gone. Storing under a key replaces what it held. Fetching through a producer calls
the producer only when nothing live is found, and stores what it produces with the default
lifetime; a producer that fails stores nothing. A sweep drops the items that have expired. -/

namespace TreeCatalog

/-- A stored value and the instant it expires (nanoseconds since the epoch). -/
structure CacheItem (α : Type) where
  value : α
  expiry : Int
deriving Repr

/-- A cache: the items by key and the default lifetime in nanoseconds. -/
structure Cache (α : Type) where
  items : List (String × CacheItem α) := []
  ttl : Int
deriving Repr

namespace Cache

variable {α : Type}

/-- An empty cache with a default lifetime. -/
def empty (ttl : Int) : Cache α := ⟨[], ttl⟩

/-- The cache with `key` holding `v` for `ttl` nanoseconds from `now`. -/
def setFor (c : Cache α) (key : String) (v : α) (ttl now : Int) : Cache α :=
  { c with items := (key, ⟨v, Text.wrap64 (now + ttl)⟩) :: c.items.filter (·.1 ≠ key) }

/-- The cache with `key` holding `v` for the default lifetime. -/
def set (c : Cache α) (key : String) (v : α) (now : Int) : Cache α := c.setFor key v c.ttl now

/-- The live value under `key` at `now`. -/
def get (c : Cache α) (key : String) (now : Int) : Option α :=
  match c.items.lookup key with
  | some item => if now > item.expiry then none else some item.value
  | none => none

/-- The live value under `key`, else what `produce` gives, stored for the default lifetime. The
flag tells whether the producer was called. -/
def getOrSet {ε : Type} (c : Cache α) (key : String) (produce : Unit → Except ε α) (now : Int) :
    Cache α × Bool × Except ε α :=
  match c.get key now with
  | some v => (c, false, .ok v)
  | none =>
    match produce () with
    | .ok v => (c.set key v now, true, .ok v)
    | .error e => (c, true, .error e)

/-- The cache without `key`. -/
def delete (c : Cache α) (key : String) : Cache α :=
  { c with items := c.items.filter (·.1 ≠ key) }

/-- The cache with nothing in it. -/
def clear (c : Cache α) : Cache α := { c with items := [] }

/-- The cache after a sweep at `now`: the items whose expiry has passed are dropped. The cache runs
such a sweep in the background every minute. -/
def cleanup (c : Cache α) (now : Int) : Cache α :=
  { c with items := c.items.filter fun p => ¬ now > p.2.expiry }

theorem get_setFor (c : Cache α) (key : String) (v : α) (ttl now : Int) (h : 0 ≤ ttl)
    (hlo : -9223372036854775808 ≤ now) (hhi : now + ttl < 9223372036854775808) :
    (c.setFor key v ttl now).get key now = some v := by
  simp only [setFor, get, List.lookup_cons, beq_self_eq_true,
    Text.wrap64_of_range (now + ttl) (by omega) hhi]
  simp
  omega

end Cache

end TreeCatalog
