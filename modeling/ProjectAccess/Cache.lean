/-
A cache of memberships in front of a store.

An entry counts until its time to live has passed; that there is no membership is
remembered like a membership. A lookup that misses is a thing of two moments: it
begins, and when the store has answered it finishes and leaves an entry. Every
invalidation starts a new generation, and a lookup that finishes in another
generation than the one in which it began leaves nothing. Generations are told apart
by a word, which starts over when it has counted through. Entries that expired are
dropped when they are looked up, and all of them with every 256th entry that is
left.
-/
import ProjectAccess.Membership

namespace ProjectAccess

/-- What a store said about a membership, and until when that counts. -/
structure CacheEntry where
  membership : Option Membership
  expires : Nat
  deriving DecidableEq

/-- A lookup that has begun. -/
structure Ticket where
  key : MemberKey
  generation : UInt64
  deriving DecidableEq, Repr

/-- What the store said of late. Times are counted in milliseconds. -/
structure Cache where
  ttl : Nat
  entries : List (MemberKey × CacheEntry)
  /-- The number of invalidations so far, up to the size of a word. -/
  generation : UInt64
  /-- The number of entries that lookups have left, up to the size of a word. -/
  inserts : UInt64
  deriving DecidableEq

namespace Cache

/-- All expired entries are dropped once in so many that are left. -/
def sweepInterval : UInt64 := 256

/-- A cache without entries. -/
def new (ttl : Nat) : Cache := ⟨ttl, [], 0, 0⟩

/-- The number of entries. -/
def size (c : Cache) : Nat := c.entries.length

/-- The entry for a user and a project. -/
def entry? (c : Cache) (key : MemberKey) : Option CacheEntry := c.entries.lookup key

/-- The cache without the entries for which a condition holds. -/
def drop (c : Cache) (covered : MemberKey → CacheEntry → Bool) : Cache :=
  { c with entries := c.entries.filter fun (key, entry) => !covered key entry }

/-- The cache without the entry for a user and a project. -/
def erase (c : Cache) (key : MemberKey) : Cache := c.drop fun k _ => k == key

/-- The cache with an entry, in place of any for the same user and project. -/
def put (c : Cache) (key : MemberKey) (entry : CacheEntry) : Cache :=
  { c with entries := (key, entry) :: (c.erase key).entries }

/-- Drops every entry that has expired. -/
def purge (now : Nat) (c : Cache) : Cache := c.drop fun _ entry => entry.expires ≤ now

-- ================================================================ lookups

/-- What the clock shows in the course of a lookup: when it begins, when it stores an
entry, and when it sweeps. -/
structure Readings where
  begun : Nat
  stored : Nat
  swept : Nat
  deriving DecidableEq, Repr

/-- A clock that does not advance. -/
def Readings.still (now : Nat) : Readings := ⟨now, now, now⟩

/-- How a lookup begins. -/
inductive Beginning where
  /-- The cache has the answer. -/
  | hit (membership : Option Membership)
  /-- The store has to be asked. -/
  | miss (ticket : Ticket)
  deriving DecidableEq

/-- Begins a lookup. -/
def begin (now : Nat) (key : MemberKey) (c : Cache) : Beginning × Cache :=
  match c.entry? key with
  | some entry =>
    if now < entry.expires then (.hit entry.membership, c)
    else (.miss ⟨key, c.generation⟩, c.erase key)
  | none => (.miss ⟨key, c.generation⟩, c)

/-- Finishes a lookup with the answer of the store. The clock is read when the entry is
stored, and again if it is time to sweep. -/
def finish (stored swept : Nat) (ticket : Ticket) (membership : Option Membership) (c : Cache) :
    Cache :=
  let filled := c.put ticket.key ⟨membership, stored + c.ttl⟩
  let kept := if c.generation = ticket.generation then filled else filled.erase ticket.key
  let counted := { kept with inserts := c.inserts + 1 }
  if c.inserts % sweepInterval = sweepInterval - 1 then counted.purge swept else counted

-- =========================================================== invalidation

/-- What an invalidation covers. -/
inductive Scope where
  | member (key : MemberKey)
  | project (id : ProjectId)
  | all
  deriving DecidableEq, Repr

/-- The scope covers the user and the project. -/
def Scope.covers (scope : Scope) (key : MemberKey) : Bool :=
  match scope with
  | .member k => k == key
  | .project id => id == key.projectId
  | .all => true

/-- Forgets what the scope covers, also what lookups that have begun will learn. -/
def invalidate (scope : Scope) (c : Cache) : Cache :=
  { c.drop fun key _ => scope.covers key with generation := c.generation + 1 }

end Cache

end ProjectAccess
