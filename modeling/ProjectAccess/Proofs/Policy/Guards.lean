/-
All guards of a registry.

`Registry.guards` lists what guards some action on some type, with the predicate that
is enough folded in. Whatever `guard?` finds is in the list (`mem_guards`), so what is
to be said of every guard of a registry that is written out, such as the reference
registry, can be read off its list.
-/
import ProjectAccess.Policy.Reference
import ProjectAccess.Proofs.Predicate.Polarity
import ProjectAccess.Proofs.Table.Writes

namespace ProjectAccess

/-- What guards the actions that a policy binds. -/
def ResourcePolicy.guards (p : ResourcePolicy) : List Predicate := p.actions.filterMap p.guard?

/-- An action that is not bound has no guard, and every other action has one. -/
theorem ResourcePolicy.guard?_eq_none_iff {p : ResourcePolicy} {action : Action} :
    p.guard? action = none ↔ action ∉ p.actions := by
  rw [guard?, Option.map_eq_none_iff, actions, Table.mem_names_iff, not_exists,
    Option.eq_none_iff_forall_ne_some]

namespace Registry

/-- What guards the actions on all types. -/
def guards (r : Registry) : List Predicate := r.policies.entries.flatMap fun (_, p) => p.guards

variable {r : Registry} {type : ResourceType} {action : Action} {guard : Predicate}

/-- What is found to guard an action is one of the guards. -/
theorem mem_guards (h : r.guard? type action = some guard) : guard ∈ r.guards := by
  obtain ⟨p, hp, hguard⟩ := Option.bind_eq_some_iff.1 h
  have hbound : action ∈ p.actions := by
    by_contra hunbound
    rw [ResourcePolicy.guard?_eq_none_iff.2 hunbound] at hguard
    cases hguard
  refine List.mem_flatMap.2 ⟨(type, p), Table.mem_entries_iff.2 hp, ?_⟩
  exact List.mem_filterMap.2 ⟨action, hbound, hguard⟩

/-- The guards of the reference registry ask on the side of yes only. -/
theorem rises_of_reference (h : reference.guard? type action = some guard) :
    guard.rises = true := by
  have hall : reference.guards.all Predicate.rises = true := by decide +kernel
  exact List.all_eq_true.1 hall guard (mem_guards h)

end Registry

end ProjectAccess
