/-
Granting more never takes access away.

The order of situations (`Situation.AtMost`) is about what is given to a subject, and
this file about what the gate makes of it. Where all guards rise, whoever is let
through in one situation is let through in every situation in which more is given
(`allow_of_atMost`). The guards of the reference registry rise
(`Registry.rises_of_reference`), so it keeps this promise.

That a guard rises is needed. One that asks somebody not to be a member closes to
those who join.
-/
import ProjectAccess.Catalog.Builtin
import ProjectAccess.Proofs.Access.Growth
import ProjectAccess.Proofs.Gate.Rulings
import ProjectAccess.Proofs.Policy.Guards

namespace ProjectAccess

namespace Gate

variable {g : Gate} {s s' : Situation} {resource resource' : Resource} {action : Action}

/-- The gate decides, and lets the subject do the action. -/
def Allows (g : Gate) (store : MemberKey → Lookup) (subject : Subject) (resource : Resource)
    (action : Action) : Prop :=
  ∃ reason, ((g.authorize subject resource action).answeredBy store).answer = .ok ⟨true, reason⟩

/-- A ruling in favour of the subject stays one when more is given, if the guard rises. -/
theorem allow_of_atMost (h : s.AtMost s') (hproject : resource.project? = some s.project)
    (hproject' : resource'.project? = some s'.project) (htype : resource'.type = resource.type)
    (hrises : ∀ guard, g.registry.guard? resource.type action = some guard → guard.rises = true)
    (hallow : (g.ruling s.subject resource action s.membership).allow = true) :
    (g.ruling s'.subject resource' action s'.membership).allow = true := by
  cases hsuper' : s'.subject.isSuperuser with
  | true => rw [ruling_superuser hsuper']
  | false =>
      -- nobody stops being a superuser on the way up
      have hsuper : s.subject.isSuperuser = false := by
        rcases h.subject with hsame | ⟨hanonymous, -, -⟩
        · rw [← hsame, hsuper']
        · rw [hanonymous]
          rfl
      cases hguard : g.registry.guard? resource.type action with
      | none =>
          rw [ruling_unguarded hsuper hguard] at hallow
          cases hallow
      | some guard =>
          rw [ruling_guarded hsuper hguard] at hallow
          rw [ruling_guarded hsuper' (htype ▸ hguard)]
          exact h.evaluate hproject hproject' (hrises guard hguard) hallow

/-- A gate all of whose guards rise allows what it allowed when more is given. -/
theorem allows_of_atMost {store store' : MemberKey → Lookup} (h : s.AtMost s')
    (hproject : resource.project? = some s.project)
    (hproject' : resource'.project? = some s'.project) (htype : resource'.type = resource.type)
    (hstore : membershipIn store s.subject resource = .ok s.membership)
    (hstore' : membershipIn store' s'.subject resource' = .ok s'.membership)
    (hrises : ∀ guard, g.registry.guard? resource.type action = some guard → guard.rises = true)
    (hallows : g.Allows store s.subject resource action) :
    g.Allows store' s'.subject resource' action := by
  have hfree : ∀ guard, g.registry.guard? resource.type action = some guard → guard.CheckFree :=
    fun guard hguard => Predicate.checkFree_of_rises (hrises guard hguard)
  obtain ⟨reason, hanswer⟩ := hallows
  rw [answer_authorize hstore hfree] at hanswer
  have hallow : (g.ruling s.subject resource action s.membership).allow = true :=
    congrArg Decision.allow (Except.ok.inj hanswer)
  have hallow' := allow_of_atMost h hproject hproject' htype hrises hallow
  refine ⟨(g.ruling s'.subject resource' action s'.membership).reason, ?_⟩
  rw [answer_authorize hstore' (htype ▸ hfree), ← hallow']

-- ========================================================== main result

/-- When more is given, no permission is lost; no predicate becomes false that asks for
what is given on the side of yes only, and for anonymity on the side of no; and under
the reference registry nothing that was allowed is denied. The stores may be different
ones, as long as they answer. -/
theorem nothing_lost_of_atMost {s s' : Situation} (h : s.AtMost s') (catalog : Catalog) :
    (∀ id, id ∈ s.permissions catalog → id ∈ s'.permissions catalog)
    ∧ (∀ (p : Predicate) (resource resource' : Resource) (action : Action), p.rises = true →
        resource.project? = some s.project → resource'.project? = some s'.project →
        (p.evaluate (s.context catalog resource action)).answer = true →
        (p.evaluate (s'.context catalog resource' action)).answer = true)
    ∧ (∀ (backend : String) (store store' : MemberKey → Lookup) (resource resource' : Resource)
        (action : Action),
        resource.project? = some s.project → resource'.project? = some s'.project →
        resource'.type = resource.type →
        membershipIn store s.subject resource = .ok s.membership →
        membershipIn store' s'.subject resource' = .ok s'.membership →
        (Gate.mk catalog .reference backend).Allows store s.subject resource action →
        (Gate.mk catalog .reference backend).Allows store' s'.subject resource' action) := by
  refine ⟨fun id hid => h.permissions hid, ?_, ?_⟩
  · intro p resource resource' action hrises hproject hproject' htrue
    exact h.evaluate hproject hproject' hrises htrue
  · intro backend store store' resource resource' action hproject hproject' htype hstore hstore'
    exact allows_of_atMost h hproject hproject' htype hstore hstore' fun _ hguard =>
      Registry.rises_of_reference hguard

/-- Somebody anonymous at an open project that everybody may look at. -/
def visiting : Situation where
  subject := .anonymous
  project := (Project.new ⟨1⟩ ⟨2⟩).withAnonPermissions ["view_project"]
  membership := none

/-- A user who has become a member of it, with a role that grants nothing. -/
def joined : Situation where
  subject := .registered ⟨7⟩
  project := (Project.new ⟨1⟩ ⟨2⟩).withAnonPermissions ["view_project"]
  membership := some (.new ⟨7⟩ (.new ⟨3⟩ ⟨1⟩ "Guest" []))

/-- The member keeps what the visitor had, and is let in as the visitor was. -/
theorem joined_keeps_permission_and_access :
    visiting.AtMost joined
      ∧ "view_project" ∈ joined.permissions .builtin
      ∧ (Gate.mk .builtin .reference "memory").Allows (fun _ => .ok joined.membership)
          joined.subject (.project joined.project) Action.retrieve := by
  have hmore : visiting.AtMost joined :=
    { subject := .inr ⟨rfl, rfl, _, rfl⟩
      id := rfl
      owner := rfl
      anon := fun _ h => h
      registered := fun _ h => h
      opened := fun h => h
      membership := nofun }
  obtain ⟨hpermissions, -, hallows⟩ := nothing_lost_of_atMost hmore .builtin
  have hvisible : "view_project" ∈ visiting.permissions .builtin := by decide
  refine ⟨hmore, hpermissions _ hvisible, ?_⟩
  exact hallows _ (fun _ => .ok none) _ (.project visiting.project) _ _ rfl rfl rfl rfl rfl
    ⟨.policyEvaluated, rfl⟩

end Gate

end ProjectAccess
