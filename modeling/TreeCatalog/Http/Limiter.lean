/-! # Request rate limiting

Each client may make `limit` requests in any window of one second. The limiter remembers, per
client, the instants of its recent allowed requests; a request is allowed when fewer than `limit`
of them lie strictly inside the window ending now, and is then remembered. A limit of zero or
less allows nothing. -/

namespace TreeCatalog.Http

/-- Nanoseconds in the limiting window. -/
def window : Int := 1000000000

/-- A limiter: the number of requests allowed per window and the allowed instants by client. -/
structure Limiter where
  limit : Int
  seen : List (String × List Int) := []
deriving Repr

/-- A limiter that has seen nothing. -/
def Limiter.new (limit : Int) : Limiter := ⟨limit, []⟩

/-- Decides one request of a client at `now`, returning the limiter after it. -/
def Limiter.allow (l : Limiter) (key : String) (now : Int) : Limiter × Bool :=
  let recent := ((l.seen.lookup key).getD []).filter (fun t => now - window < t)
  let others := l.seen.filter (·.1 ≠ key)
  if l.limit ≤ recent.length then ({ l with seen := (key, recent) :: others }, false)
  else ({ l with seen := (key, recent ++ [now]) :: others }, true)

theorem allow_nonpositive (l : Limiter) (key : String) (now : Int) (h : l.limit ≤ 0) :
    (l.allow key now).2 = false := by
  unfold Limiter.allow
  simp only
  rw [if_pos (by omega)]

end TreeCatalog.Http
