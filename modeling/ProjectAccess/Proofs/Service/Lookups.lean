/-
The ways a lookup through a service can go.

Without a cache the store is asked and nothing is left behind. With one, either the
cache has the answer, or the store is asked and the cache is told what it said, if it
said anything. The equations here say so with the operations of the cache, so that what
is known of those (`Proofs.Cache.Entries`) applies, and `lookup` is not unfolded again.
-/
import ProjectAccess.Service

namespace ProjectAccess

namespace Service

variable {s : Service} {clock : Cache.Readings} {store : MemberKey → Lookup} {key : MemberKey}

/-- Without a cache a lookup is a question to the store. -/
theorem lookup_of_uncached (hcache : s.cache = none) :
    s.lookup clock store key = (store key, s) := by
  unfold lookup beginLookup
  rw [hcache]
  rfl

variable {c c' : Cache} {membership : Option Membership} {ticket : Ticket}

/-- A hit is answered by the cache. -/
theorem lookup_of_hit (hcache : s.cache = some c)
    (hbegin : c.begin clock.begun key = (.hit membership, c')) :
    s.lookup clock store key
      = (.ok membership, { s with cache := some c' }.note [.count (.cache true)]) := by
  unfold lookup beginLookup
  rw [hcache]
  dsimp only
  rw [hbegin]

/-- After a miss the cache is told what the store said. -/
theorem lookup_of_miss (hcache : s.cache = some c)
    (hbegin : c.begin clock.begun key = (.miss ticket, c'))
    (hstore : store key = .ok membership) :
    s.lookup clock store key
      = (.ok membership,
          { s with cache := some (c'.finish clock.stored clock.swept ticket membership) }.note
            [.count (.cache false)]) := by
  unfold lookup beginLookup
  rw [hcache]
  dsimp only
  rw [hbegin]
  dsimp only
  rw [hstore]
  rfl

/-- If the store fails the cache is told nothing. -/
theorem lookup_of_failure {error : StoreError} (hcache : s.cache = some c)
    (hbegin : c.begin clock.begun key = (.miss ticket, c')) (hstore : store key = .error error) :
    s.lookup clock store key
      = (.error error, { s with cache := some c' }.note [.count (.cache false)]) := by
  unfold lookup beginLookup
  rw [hcache]
  dsimp only
  rw [hbegin]
  dsimp only
  rw [hstore]
  rfl

end Service

end ProjectAccess
