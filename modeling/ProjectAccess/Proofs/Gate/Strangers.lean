/-
To a stranger a private project is not there.

A stranger to a private project is neither its owner nor, by what the store answers,
a member. Nothing that the gate tells such a subject shows whether there is a project
at all: on an object of the project the decision is the one on an object that belongs
to no project, and on the collection of all objects of the type
(`decision_of_stranger`). So it is the same for any two private projects, whatever
they give to everybody and to registered users, and whichever stores are asked.

Two runs are compared that take different ways. In one of them the store is asked,
and the permissions are computed and found empty; in the other there is nothing to
ask about. They meet in the answers, which are those of a subject from outside
(`Answers.Outside`), and negations do not part them again, because the leaves agree
in both directions.
-/
import ProjectAccess.Proofs.Gate.Rulings
import ProjectAccess.Proofs.Predicate.Outside

namespace ProjectAccess

namespace Gate

/-- The project is private, and the subject is neither its owner nor, as the store
answers, a member. -/
structure Stranger (store : MemberKey → Lookup) (subject : Subject) (project : Project) : Prop where
  isPrivate : project.isPrivate = true
  notOwner : ∀ user, subject = .user user → user.id ≠ project.owner
  notMember : ∀ user, subject = .user user → store ⟨user.id, project.id⟩ = .ok none

variable {g : Gate} {store : MemberKey → Lookup} {subject : Subject} {project : Project}
variable {resource resource' : Resource} {action : Action}

theorem Stranger.membershipIn (h : Stranger store subject project)
    (hproject : resource.project? = some project) :
    Gate.membershipIn store subject resource = .ok none := by
  unfold Gate.membershipIn
  rw [hproject]
  cases subject with
  | anonymous => rfl
  | user user => exact h.notMember user rfl

theorem Stranger.shutOut (h : Stranger store subject project) : ShutOut subject project none := by
  refine ⟨rfl, Bool.eq_false_iff.2 fun howner => ?_, h.isPrivate⟩
  rcases ownerLike_iff.1 howner with hnamed | ⟨m, hm, -⟩
  · cases subject with
    | anonymous => cases hnamed
    | user user => exact h.notOwner user rfl (Option.some.inj hnamed)
  · cases hm

/-- From outside all resources of a type are ruled on alike. -/
theorem ruling_of_outside (htype : resource'.type = resource.type)
    (hfree : ∀ guard, g.registry.guard? resource.type action = some guard → guard.CheckFree)
    (hout : (Context.answers ⟨g.catalog, subject, resource, action, none⟩).Outside)
    (hout' : (Context.answers ⟨g.catalog, subject, resource', action, none⟩).Outside) :
    g.ruling subject resource' action none = g.ruling subject resource action none := by
  cases hsuper : subject.isSuperuser with
  | true => rw [ruling_superuser hsuper, ruling_superuser hsuper]
  | false =>
      cases hguard : g.registry.guard? resource.type action with
      | none => rw [ruling_unguarded hsuper hguard, ruling_unguarded hsuper (htype ▸ hguard)]
      | some guard =>
          rw [ruling_guarded hsuper hguard, ruling_guarded hsuper (htype ▸ hguard),
            Predicate.evaluate_eq, Predicate.evaluate_eq,
            Predicate.verdict_of_outside (hfree guard hguard) hout' hout rfl]

/-- A subject who is a stranger to a private project has no permissions in it. On an
object of the project there is the same decision as on a detached object of the type and
as on the collection of all of them: one decision for all private projects to which the
subject is a stranger. The guard may hold any tree without checks of the application. -/
theorem decision_of_stranger (g : Gate) (subject : Subject) (type : ResourceType) (action : Action)
    (hfree : ∀ guard, g.registry.guard? type action = some guard → guard.CheckFree) :
    ∃ decision,
      (∀ store, ((g.authorize subject (.object type none) action).answeredBy store).answer
        = .ok decision)
      ∧ (∀ store, ((g.authorize subject (.collection type) action).answeredBy store).answer
        = .ok decision)
      ∧ ∀ store project, Stranger store subject project →
        ((g.permissionsFor subject project).answeredBy store).answer = .ok ∅
        ∧ ((g.authorize subject (.object type (some project)) action).answeredBy store).answer
          = .ok decision := by
  have hdetached : (Context.answers
      ⟨g.catalog, subject, .object type none, action, none⟩).Outside :=
    Context.outside_of_projectless rfl
  have hsame : ∀ resource : Resource, resource.type = type →
      (Context.answers ⟨g.catalog, subject, resource, action, none⟩).Outside →
      g.ruling subject resource action none
        = g.ruling subject (.object type none) action none :=
    fun resource htype hout => ruling_of_outside htype hfree hdetached hout
  refine ⟨g.ruling subject (.object type none) action none, fun store => ?_, fun store => ?_,
    fun store project hstranger => ⟨?_, ?_⟩⟩
  · exact answer_authorize (membershipIn_of_project?_none rfl) hfree
  · rw [answer_authorize (membershipIn_of_project?_none rfl) hfree,
      hsame _ rfl (Context.outside_of_projectless rfl)]
  · have hproject : (Resource.project project).project? = some project := rfl
    rw [answer_permissionsFor hproject, hstranger.membershipIn hproject]
    exact congrArg Except.ok (effectivePermissions_of_shutOut hstranger.shutOut)
  · have hproject : (Resource.object type (some project)).project? = some project := rfl
    rw [answer_authorize (hstranger.membershipIn hproject) hfree,
      hsame _ rfl (Context.outside_of_shutOut hproject hstranger.shutOut)]

/-- A guard for those who are logged in and are neither members nor able to look. -/
def applicants : Predicate :=
  .all [.isAuthenticated, .not .isProjectMember, .not (.hasPermission "view")]

/-- A private project that lets everybody look, if only it were open. -/
def cloister : Project :=
  ((Project.new ⟨1⟩ ⟨2⟩).withAnonPermissions ["view"]).withPrivate true

/-- A store with one member, who is somebody else. -/
def oneMember : MemberKey → Lookup := fun key =>
  .ok (if key.userId = ⟨8⟩ then some (.new ⟨8⟩ (.new ⟨3⟩ key.projectId "Member" ["view"])) else none)

/-- A stranger may apply with a request in the private project, as with one that belongs
to no project: what is negated does not tell the two apart either. -/
theorem authorize_request_of_stranger :
    let admission := guarding "request" Action.create applicants
    let stranger := Subject.registered ⟨7⟩
    applicants.CheckFree
      ∧ Stranger oneMember stranger cloister
      ∧ ((admission.permissionsFor stranger cloister).answeredBy oneMember).answer = .ok ∅
      ∧ ((admission.authorize stranger (.object "request" (some cloister))
            Action.create).answeredBy oneMember).answer = .ok ⟨true, .policyEvaluated⟩ := by
  intro admission stranger
  have hfree : applicants.CheckFree := by
    intro check hcheck
    simp [applicants, Predicate.leaves, Predicate.leavesOf] at hcheck
  have hstranger : Stranger oneMember stranger cloister := by
    refine ⟨rfl, fun user huser => ?_, fun user huser => ?_⟩
    · cases Subject.user.inj huser
      decide
    · cases Subject.user.inj huser
      rfl
  obtain ⟨decision, hdetached, -, hprivate⟩ :=
    decision_of_stranger admission stranger "request" Action.create fun guard hguard => by
      rw [guard?_guarding] at hguard
      cases hguard
      exact hfree
  -- the decision is known from the run without a project
  have hallowed : Except.ok decision = .ok ⟨true, .policyEvaluated⟩ :=
    (hdetached oneMember).symm
  obtain ⟨hempty, hsame⟩ := hprivate oneMember cloister hstranger
  exact ⟨hfree, hstranger, hempty, hsame.trans hallowed⟩

end Gate

end ProjectAccess
