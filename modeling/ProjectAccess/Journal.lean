/-
What the library reports about its work: counters and log events.

A note is one increment of a counter or one event. The journal keeps all notes in
the order in which they were made; totals are counted from it.
-/
import ProjectAccess.Decision
import ProjectAccess.Failure
import ProjectAccess.Resource

namespace ProjectAccess

-- =============================================================== counters

/-- What a membership lookup found. -/
inductive LookupOutcome where
  | member
  | none
  | error
  deriving DecidableEq, Repr

/-- The word for the outcome of a lookup. -/
def LookupOutcome.name : LookupOutcome → String
  | .member => "member"
  | .none => "none"
  | .error => "error"

/-- What is counted. -/
inductive Counter where
  /-- Decisions of the gate. -/
  | decisions (decision : Decision)
  /-- Lookups made for a subject. -/
  | lookups (outcome : LookupOutcome)
  /-- Lookups that the cache did or did not answer. -/
  | cache (hit : Bool)
  deriving DecidableEq, Repr

namespace Counter

/-- The name under which a family of counters is published. -/
def name : Counter → String
  | .decisions _ => "trellis_authz_decisions_total"
  | .lookups _ => "trellis_authz_membership_lookups_total"
  | .cache _ => "trellis_authz_membership_cache_total"

/-- What tells the counters of a family apart. -/
def labels : Counter → List (String × String)
  | .decisions d => [("reason", d.reason.name), ("outcome", d.outcome)]
  | .lookups outcome => [("outcome", outcome.name)]
  | .cache hit => [("result", if hit then "hit" else "miss")]

end Counter

-- ================================================================= events

/-- How urgent an event is. -/
inductive Level where
  | debug
  | info
  | warn
  deriving DecidableEq, Repr

/-- The word for a level. -/
def Level.name : Level → String
  | .debug => "DEBUG"
  | .info => "INFO"
  | .warn => "WARN"

/-- The value of a field of an event. -/
inductive FieldValue where
  | text (value : String)
  | flag (value : Bool)
  deriving DecidableEq, Repr

/-- The value as it stands in a line of the log. -/
def FieldValue.render : FieldValue → String
  | .text value => value
  | .flag value => if value then "true" else "false"

/-- Something worth a line in the log. -/
inductive Event where
  /-- The gate decided. -/
  | decided (subject : Subject) (type : ResourceType) (action : Action) (decision : Decision)
  /-- Nothing guards the action. -/
  | unguarded (type : ResourceType) (action : Action)
  /-- The store could not say whether the subject is a member. -/
  | lookupFailed (error : StoreError) (backend : String) (project : ProjectId)
  /-- A catalog was read from a file. -/
  | catalogLoaded (path : String)
  /-- Memberships are cached for that many milliseconds. -/
  | cacheEnabled (ttl : Nat)
  deriving DecidableEq, Repr

namespace Event

/-- How urgent the event is. -/
def level : Event → Level
  | .decided .. => .debug
  | .unguarded .. => .warn
  | .lookupFailed .. => .warn
  | .catalogLoaded _ => .info
  | .cacheEnabled _ => .info

/-- What happened. -/
def message : Event → String
  | .decided .. => "authorization decision"
  | .unguarded .. => "no policy bound; denying"
  | .lookupFailed .. => "membership lookup failed"
  | .catalogLoaded _ => "loaded permission catalog"
  | .cacheEnabled _ => "membership cache enabled"

/-- The particulars. -/
def fields : Event → List (String × FieldValue)
  | .decided subject type action decision =>
    [("subject", .text subject.kind.name), ("resource_type", .text type), ("action", .text action),
      ("reason", .text decision.reason.name), ("allow", .flag decision.allow)]
  | .unguarded type action => [("resource_type", .text type), ("action", .text action)]
  | .lookupFailed error backend project =>
    [("error", .text error.message), ("backend", .text backend), ("project_id", .text project.text)]
  | .catalogLoaded path => [("path", .text path)]
  | .cacheEnabled ttl => [("ttl_ms", .text (toString ttl))]

/-- The line of the log for the event. -/
def line (e : Event) : String :=
  let particulars := e.fields.map fun (name, value) => " " ++ name ++ "=" ++ value.render
  e.level.name ++ " " ++ e.message ++ String.join particulars

end Event

-- ================================================================ journal

/-- An increment of a counter, or an event. -/
inductive Note where
  | count (counter : Counter)
  | report (event : Event)
  deriving DecidableEq, Repr

/-- All notes that were made, the last first. -/
structure Journal where
  latestFirst : List Note := []
  deriving DecidableEq, Repr

namespace Journal

/-- The journal with notes more, given in order. -/
def append (j : Journal) (notes : List Note) : Journal := ⟨notes.reverse ++ j.latestFirst⟩

/-- The notes in order. -/
def notes (j : Journal) : List Note := j.latestFirst.reverse

/-- The events in order. -/
def events (j : Journal) : List Event :=
  j.notes.filterMap fun
    | .report event => some event
    | .count _ => none

/-- The increments in order. -/
def increments (j : Journal) : List Counter :=
  j.notes.filterMap fun
    | .count counter => some counter
    | .report _ => none

/-- The value of a counter. -/
def total (j : Journal) (counter : Counter) : Nat := j.increments.count counter

/-- The counters that were touched. -/
def counters (j : Journal) : List Counter := j.increments.eraseDups

/-- The lines that publish the counters: a line for each family that was touched and
one for each counter, all in ascending order. -/
def exposition (j : Journal) : List String :=
  let labels (c : Counter) := c.labels.map fun (name, value) => name ++ "=\"" ++ value ++ "\""
  let families := (j.counters.map fun c => "# TYPE " ++ c.name ++ " counter").eraseDups
  let counters := j.counters.map fun c =>
    c.name ++ "\x7b" ++ ",".intercalate (labels c) ++ "\x7d " ++ toString (j.total c)
  (families ++ counters).mergeSort (· ≤ ·)

end Journal

end ProjectAccess
