/-
A gate over a directory, with or without a cache in between.

A lookup goes through the cache if there is one. It may be taken in its two steps,
with anything happening in between, or at once; gates are answered at once. All that
is noted goes into the journal.
-/
import ProjectAccess.Cache
import ProjectAccess.Directory
import ProjectAccess.Gate

namespace ProjectAccess

/-- Policies and memberships, and what was noted about their use. -/
structure Service where
  catalog : Catalog
  registry : Registry
  directory : Directory := .empty
  cache : Option Cache := none
  journal : Journal := {}

namespace Service

/-- The gate of the service. -/
def gate (s : Service) : Gate := ⟨s.catalog, s.registry, Directory.backend⟩

/-- The service with notes more in the journal. -/
def note (notes : List Note) (s : Service) : Service :=
  { s with journal := s.journal.append notes }

-- ================================================================ lookups

/-- How a lookup through the cache begins. -/
inductive Beginning where
  /-- The cache has the answer. -/
  | hit (membership : Option Membership)
  /-- The store has to be asked. There is a ticket if the cache wants to know. -/
  | miss (ticket : Option Ticket)

/-- Begins a lookup. -/
def beginLookup (now : Nat) (key : MemberKey) (s : Service) : Beginning × Service :=
  match s.cache with
  | none => (.miss none, s)
  | some cache =>
    match cache.begin now key with
    | (.hit membership, cache) =>
      (.hit membership, { s with cache := some cache }.note [.count (.cache true)])
    | (.miss ticket, cache) =>
      (.miss (some ticket), { s with cache := some cache }.note [.count (.cache false)])

/-- Finishes a lookup with what the store said. Failures are not remembered. -/
def finishLookup (stored : Nat) (ticket : Option Ticket) (result : Lookup) (s : Service)
    (swept : Nat := stored) : Service :=
  match ticket, result with
  | some ticket, .ok membership =>
    { s with cache := s.cache.map (·.finish stored swept ticket membership) }
  | _, _ => s

/-- The directory as a store. It always answers. -/
def store (s : Service) : MemberKey → Lookup := fun key => .ok (s.directory.lookup key)

/-- Looks up a membership in a store, unless the cache has it. -/
def lookup (clock : Cache.Readings) (store : MemberKey → Lookup) (key : MemberKey) (s : Service) :
    Lookup × Service :=
  match s.beginLookup clock.begun key with
  | (.hit membership, s) => (.ok membership, s)
  | (.miss ticket, s) =>
    let result := store key
    (result, s.finishLookup clock.stored ticket result clock.swept)

/-- Invalidates what the cache holds, if there is one. -/
def invalidate (scope : Cache.Scope) (s : Service) : Service :=
  { s with cache := s.cache.map (·.invalidate scope) }

/-- Drops what has expired from the cache, if there is one. -/
def purge (now : Nat) (s : Service) : Service :=
  { s with cache := s.cache.map (·.purge now) }

-- ================================================================== gates

/-- Writes the notes of a reply into the journal. -/
def settle {α : Type} (reply : Reply α) (s : Service) : Reply α × Service :=
  (reply, s.note reply.notes)

/-- Answers an inquiry with a store behind the cache. -/
def answer {α : Type} (clock : Cache.Readings) (store : MemberKey → Lookup)
    (inquiry : Inquiry α) (s : Service) : Reply α × Service :=
  match inquiry with
  | .finished reply => s.settle reply
  | .waiting key resume =>
    let (result, s) := s.lookup clock store key
    s.settle (resume result)

/-- Whether the subject may do the action on the resource. -/
def authorize (clock : Cache.Readings) (subject : Subject) (resource : Resource) (action : Action)
    (s : Service) : Reply Decision × Service :=
  s.answer clock s.store (s.gate.authorize subject resource action)

/-- What the subject may do in the project. -/
def permissionsFor (clock : Cache.Readings) (subject : Subject) (project : Project) (s : Service) :
    Reply PermissionSet × Service :=
  s.answer clock s.store (s.gate.permissionsFor subject project)

end Service

end ProjectAccess
