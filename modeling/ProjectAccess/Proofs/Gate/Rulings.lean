/-
The decision of a gate as a function of the membership.

`Gate.ruling` says what the gate decides about a subject whose membership is known,
without stores and without inquiries. If the store answers, and the guard holds no
check of the application, `authorize` decides just so (`answer_authorize`): a guard
that does not require the membership is not told, but then it makes no difference.

What the gate decides in two situations is compared below as two rulings.
-/
import ProjectAccess.Proofs.Gate.Eager

namespace ProjectAccess

namespace Gate

variable (g : Gate) (subject : Subject) (resource : Resource) (action : Action)

/-- What the gate decides about a subject with a membership, or without one. -/
def ruling (membership : Option Membership) : Decision :=
  if subject.isSuperuser then ⟨true, .superuserBypass⟩
  else
    match g.registry.guard? resource.type action with
    | none => ⟨false, .noPolicy⟩
    | some guard =>
      ⟨(guard.evaluate ⟨g.catalog, subject, resource, action, membership⟩).answer,
        .policyEvaluated⟩

variable {g subject resource action}
variable {store : MemberKey → Lookup} {membership : Option Membership} {guard : Predicate}

theorem ruling_superuser (h : subject.isSuperuser = true) :
    g.ruling subject resource action membership = ⟨true, .superuserBypass⟩ := by
  unfold ruling
  rw [if_pos h]

/-- Where there is no guard nobody else is let in. -/
theorem ruling_unguarded (h : subject.isSuperuser = false)
    (hguard : g.registry.guard? resource.type action = none) :
    g.ruling subject resource action membership = ⟨false, .noPolicy⟩ := by
  unfold ruling
  rw [h, hguard]
  rfl

/-- Where there is a guard, it rules on the membership. -/
theorem ruling_guarded (h : subject.isSuperuser = false)
    (hguard : g.registry.guard? resource.type action = some guard) :
    g.ruling subject resource action membership
      = ⟨(guard.evaluate ⟨g.catalog, subject, resource, action, membership⟩).answer,
          .policyEvaluated⟩ := by
  unfold ruling
  rw [h, hguard]
  rfl

/-- The gate decides by the membership that the store tells of. -/
theorem answer_authorize (h : membershipIn store subject resource = .ok membership)
    (hfree : ∀ guard, g.registry.guard? resource.type action = some guard → guard.CheckFree) :
    ((g.authorize subject resource action).answeredBy store).answer
      = .ok (g.ruling subject resource action membership) := by
  cases hsuper : subject.isSuperuser with
  | true =>
      rw [authorize_superuser hsuper, ruling_superuser hsuper]
      rfl
  | false =>
      cases hguard : g.registry.guard? resource.type action with
      | none =>
          obtain ⟨reply, hreply, houtcome⟩ := authorize_unguarded hsuper hguard
          rw [hreply, ruling_unguarded hsuper hguard]
          exact (Reply.outcome_eq_ok.1 houtcome).1
      | some guard =>
          have hverdict : verdictOn g store subject resource action guard
              = .ok (guard.evaluate ⟨g.catalog, subject, resource, action, membership⟩) :=
            verdictOn_eq h fun check hcheck => absurd hcheck (hfree guard hguard check)
          have houtcome : ((g.authorize subject resource action).answeredBy store).outcome = _ :=
            outcome_authorize_guarded hsuper hguard
          rw [hverdict] at houtcome
          rw [ruling_guarded hsuper hguard]
          exact (Reply.outcome_eq_ok.1 houtcome).1

-- ====================================================== gates for one action

/-- A gate that guards one action on one type. -/
def guarding (type : ResourceType) (action : Action) (guard : Predicate) : Gate where
  catalog := ⟨{}, List.nodup_nil⟩
  registry := Registry.empty.register ((ResourcePolicy.new type).bind action guard)
  backend := "memory"

/-- It guards the action with what it was given. -/
theorem guard?_guarding {type : ResourceType} {action : Action} {guard : Predicate} :
    (guarding type action guard).registry.guard? type action = some guard := by
  have hpolicy : (guarding type action guard).registry.policy? type
      = some ((ResourcePolicy.new type).bind action guard) := by
    show ((Table.empty).put type _).get? type = _
    rw [Table.get?_put, if_pos rfl]
  have hbound : ((ResourcePolicy.new type).bind action guard).guard? action = some guard := by
    show ((((Table.empty).put action guard).get? action).map _) = _
    rw [Table.get?_put, if_pos rfl]
    rfl
  unfold Registry.guard?
  rw [hpolicy]
  exact hbound

end Gate

end ProjectAccess
