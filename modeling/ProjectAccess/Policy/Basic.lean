/-
Policies: which predicate guards which action on which type of resource.

The policy of a type binds actions to predicates and may name a predicate that is
enough for every action that is bound. An action that is not bound has no guard,
and nobody is let through. A registry holds one policy for a type.
-/
import ProjectAccess.Predicate
import ProjectAccess.Table

namespace ProjectAccess

/-- The guards of the actions on one type of resource. -/
structure ResourcePolicy where
  resourceType : ResourceType
  /-- Allows every action that is bound. -/
  enough : Option Predicate
  bound : Table Predicate

namespace ResourcePolicy

/-- A policy that binds no action. -/
def new (resourceType : ResourceType) : ResourcePolicy := ⟨resourceType, none, .empty⟩

/-- The policy with a predicate that is enough, in place of any other. -/
def withEnough (p : ResourcePolicy) (enough : Predicate) : ResourcePolicy :=
  { p with enough := some enough }

/-- The policy with the action bound to the predicate, in place of any other. -/
def bind (p : ResourcePolicy) (action : Action) (guard : Predicate) : ResourcePolicy :=
  { p with bound := p.bound.put action guard }

/-- The policy with the action bound to all of the predicates together. -/
def bindAll (p : ResourcePolicy) (action : Action) (guards : List Predicate) : ResourcePolicy :=
  p.bind action (.all guards)

/-- The actions that are bound, in ascending order. -/
def actions (p : ResourcePolicy) : List Action := p.bound.names

/-- What guards an action: the predicate bound to it, or else the one that is
enough. -/
def guard? (p : ResourcePolicy) (action : Action) : Option Predicate :=
  (p.bound.get? action).map fun bound =>
    match p.enough with
    | some enough => .any [enough, bound]
    | none => bound

/-- The policy on one line. -/
def text (p : ResourcePolicy) : String :=
  let enough := match p.enough with
    | some enough => "Some(" ++ enough.shape.compact ++ ")"
    | none => "None"
  let bindings := p.bound.entries.map fun (action, guard) =>
    Text.quoted action ++ ": " ++ guard.shape.compact
  "ResourcePolicy \x7b resource_type: ResourceType(" ++ Text.quoted p.resourceType
    ++ "), enough: " ++ enough ++ ", actions: \x7b" ++ ", ".intercalate bindings ++ "\x7d \x7d"

end ResourcePolicy

/-- The policies of all types. -/
structure Registry where
  policies : Table ResourcePolicy

namespace Registry

/-- The registry without policies. -/
def empty : Registry := ⟨.empty⟩

/-- The registry with the policy, in place of any for the same type. -/
def register (r : Registry) (p : ResourcePolicy) : Registry :=
  ⟨r.policies.put p.resourceType p⟩

/-- The policy of a type. -/
def policy? (r : Registry) (type : ResourceType) : Option ResourcePolicy := r.policies.get? type

/-- The types that have a policy, in ascending order. -/
def types (r : Registry) : List ResourceType := r.policies.names

/-- What guards an action on a type. -/
def guard? (r : Registry) (type : ResourceType) (action : Action) : Option Predicate :=
  (r.policy? type).bind (·.guard? action)

end Registry

end ProjectAccess
