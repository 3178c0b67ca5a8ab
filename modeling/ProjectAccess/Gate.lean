/-
The gate: decisions and permissions for subjects whose memberships are in a store.

The gate asks the store at most once, so what it does is described by an inquiry: it
is either finished, or it waits for one membership and then finishes. A superuser is
let through and an action without a guard is denied, in that order and before the
store is asked; the store is asked only if the guard depends on the membership, the
resource has a project and the subject is a user. If the store fails the gate fails,
and never decides.
-/
import ProjectAccess.Journal
import ProjectAccess.Policy.Basic

namespace ProjectAccess

/-- What a store says about a membership. -/
abbrev Lookup := Except StoreError (Option Membership)

/-- The end of an inquiry: the answer, the checks that were run for it, and the notes
for the journal. -/
structure Reply (α : Type) where
  answer : Except StoreError α
  observed : List Observation := []
  notes : List Note := []
  deriving Inhabited

/-- A computation that asks the store at most once. -/
inductive Inquiry (α : Type) where
  | finished (reply : Reply α)
  | waiting (key : MemberKey) (resume : Lookup → Reply α)

namespace Inquiry

variable {α β : Type}

/-- Goes on from the end of an inquiry. -/
def map (f : Reply α → Reply β) : Inquiry α → Inquiry β
  | finished reply => finished (f reply)
  | waiting key resume => waiting key fun result => f (resume result)

/-- The end of the inquiry with a store that answers. -/
def answeredBy (store : MemberKey → Lookup) : Inquiry α → Reply α
  | finished reply => reply
  | waiting key resume => resume (store key)

/-- What the store is asked for, if it is asked. -/
def asked? : Inquiry α → Option MemberKey
  | finished _ => none
  | waiting key _ => some key

end Inquiry

namespace Reply

variable {α β : Type}

/-- Goes on from an answer. A failure stays as it is. -/
def andThen (r : Reply α) (f : α → Reply β) : Reply β :=
  match r.answer with
  | .error error => { answer := .error error, observed := r.observed, notes := r.notes }
  | .ok value =>
    let next := f value
    { next with observed := r.observed ++ next.observed, notes := r.notes ++ next.notes }

end Reply

/-- Decides about access: the permissions there are, the policies, and the name of
the store behind the gate. -/
structure Gate where
  catalog : Catalog
  registry : Registry
  backend : String

namespace Gate

/-- What is noted when the store has been asked for a subject. -/
def lookupNotes (g : Gate) (project : ProjectId) : Lookup → List Note
  | .ok (some _) => [.count (.lookups .member)]
  | .ok none => [.count (.lookups .none)]
  | .error error =>
    [.count (.lookups .error), .report (.lookupFailed error g.backend project)]

/-- The membership of a subject in a project. An anonymous subject has none, and the
store is not asked. -/
def resolve (g : Gate) (subject : Subject) (project : Project) : Inquiry (Option Membership) :=
  match subject.userId? with
  | none => .finished { answer := .ok none }
  | some user => .waiting ⟨user, project.id⟩ fun result =>
    { answer := result, notes := g.lookupNotes project.id result }

/-- A decision, and what is noted of it. -/
def conclude (subject : Subject) (resource : Resource) (action : Action) (decision : Decision) :
    Reply Decision :=
  { answer := .ok decision
    notes := [.count (.decisions decision),
      .report (.decided subject resource.type action decision)] }

/-- The decision of a guard, once the membership is known. -/
def evaluate (g : Gate) (subject : Subject) (resource : Resource) (action : Action)
    (guard : Predicate) (membership : Option Membership) : Reply Decision :=
  let verdict := guard.evaluate ⟨g.catalog, subject, resource, action, membership⟩
  { conclude subject resource action ⟨verdict.answer, .policyEvaluated⟩ with
    observed := verdict.observed }

/-- Whether the subject may do the action on the resource. -/
def authorize (g : Gate) (subject : Subject) (resource : Resource) (action : Action) :
    Inquiry Decision :=
  if subject.isSuperuser then
    .finished (conclude subject resource action ⟨true, .superuserBypass⟩)
  else
    match g.registry.guard? resource.type action with
    | none =>
      let reply := conclude subject resource action ⟨false, .noPolicy⟩
      .finished { reply with
        notes := .report (.unguarded resource.type action) :: reply.notes }
    | some guard =>
      match resource.project?, guard.requiresMembership with
      | some project, true =>
        (g.resolve subject project).map (·.andThen (g.evaluate subject resource action guard))
      | _, _ => .finished (g.evaluate subject resource action guard none)

/-- What the subject may do in the project. -/
def permissionsFor (g : Gate) (subject : Subject) (project : Project) : Inquiry PermissionSet :=
  (g.resolve subject project).map (·.andThen fun membership =>
    { answer := .ok (effectivePermissions g.catalog subject project membership) })

end Gate

end ProjectAccess
