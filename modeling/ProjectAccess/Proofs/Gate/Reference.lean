/-
Decisions under the reference registry, in closed form.

What the gate does on a request takes many hands: the registry finds a guard, the guard
may require the membership, the store may be asked, the permissions are put together and
the guard is evaluated. Under the reference registry all of it comes to a table and a
line for each kind of demand. `demand?` is the table; `Meets` has the lines, and says of
each kind of demand what a subject has to be or to hold on a resource.
`decision_under_reference` says that the gate decides by these two.

The store has to answer only where a permission is demanded. Ownership is read off the
project alone, so there neither a membership nor its flag nor the failure of the store
makes a difference.
-/
import ProjectAccess.Catalog.Builtin
import ProjectAccess.Proofs.Gate.Eager
import ProjectAccess.Proofs.Policy.Demands
import ProjectAccess.Proofs.Predicate.Outside

namespace ProjectAccess

namespace Demand

variable {demand : Demand} {a : Answers}

/-- A guard that makes a demand asks questions of one kind. -/
theorem value_guard : demand.guard.value a = match demand with
    | nothing => true
    | login => a.authenticated
    | ownership => a.owner
    | permission among => among.any a.permitted := by
  fun_cases guard demand with
  | case4 id => exact (Bool.or_false _).symm
  | case5 among =>
      rw [Predicate.value_any, List.any_map]
      rfl
  | _ => rfl

theorem checkFree_guard : demand.guard.CheckFree := by
  intro check
  fun_cases guard demand with
  | case5 among =>
      intro hcheck
      obtain ⟨p, hp, hleaf⟩ := Predicate.mem_leavesOf.1 hcheck
      obtain ⟨id, -, rfl⟩ := List.mem_map.1 hp
      cases List.mem_singleton.1 hleaf
  | _ =>
      intro hcheck
      cases List.mem_singleton.1 hcheck

end Demand

namespace Subject

variable {subject : Subject} {id : UserId}

theorem isAuthenticated_iff : subject.isAuthenticated = true ↔ ∃ user, subject = .user user := by
  cases subject with
  | anonymous =>
      refine iff_of_false Bool.false_ne_true ?_
      rintro ⟨user, hsubject⟩
      cases hsubject
  | user user => exact iff_of_true rfl ⟨user, rfl⟩

theorem userId?_eq_some_iff :
    subject.userId? = some id ↔ ∃ user, subject = .user user ∧ user.id = id := by
  cases subject with
  | anonymous =>
      refine iff_of_false (Option.some_ne_none id).symm ?_
      rintro ⟨user, hsubject, -⟩
      cases hsubject
  | user user =>
      show some user.id = some id ↔ _
      rw [Option.some.injEq]
      constructor
      · rintro rfl
        exact ⟨user, rfl, rfl⟩
      · rintro ⟨_, ⟨⟩, rfl⟩
        rfl

end Subject

namespace Context

variable {c : Context}

/-- Without a project there is no owner to be. -/
theorem owner_answers_iff_exists : c.answers.owner = true
    ↔ ∃ user project, c.subject = .user user ∧ c.project? = some project
      ∧ user.id = project.owner := by
  cases hproject : c.project? with
  | none =>
      rw [(outside_of_projectless hproject).owner]
      refine iff_of_false Bool.false_ne_true ?_
      rintro ⟨user, project, -, hsome, -⟩
      cases hsome
  | some project =>
      rw [owner_answers_iff hproject, Subject.userId?_eq_some_iff]
      constructor
      · rintro ⟨user, hsubject, howner⟩
        exact ⟨user, project, hsubject, rfl, howner⟩
      · rintro ⟨user, _, hsubject, ⟨⟩, howner⟩
        exact ⟨user, hsubject, howner⟩

/-- And there is nothing to be permitted. -/
theorem permitted_answers_iff_exists {id : Permission} : c.answers.permitted id = true
    ↔ ∃ project, c.project? = some project
      ∧ id ∈ effectivePermissions c.catalog c.subject project c.membership := by
  cases hproject : c.project? with
  | none =>
      rw [(outside_of_projectless hproject).permitted]
      refine iff_of_false Bool.false_ne_true ?_
      rintro ⟨project, hsome, -⟩
      cases hsome
  | some project =>
      rw [permitted_answers_iff hproject]
      constructor
      · exact fun hheld => ⟨project, rfl, hheld⟩
      · rintro ⟨_, ⟨⟩, hheld⟩
        exact hheld

end Context

namespace Gate

/-- What a subject has to be, or to hold, to meet a demand on a resource. The membership
that counts is the one that the store knows of. -/
inductive Meets (catalog : Catalog) (store : MemberKey → Lookup) (subject : Subject)
    (resource : Resource) : Demand → Prop where
  | nothing : Meets catalog store subject resource .nothing
  | login {user : User} (hsubject : subject = .user user) :
      Meets catalog store subject resource .login
  | ownership {user : User} {project : Project} (hsubject : subject = .user user)
      (hproject : resource.project? = some project) (howner : user.id = project.owner) :
      Meets catalog store subject resource .ownership
  | permission {project : Project} {membership : Option Membership} {id : Permission}
      {among : List Permission} (hproject : resource.project? = some project)
      (hmembership : membershipIn store subject resource = .ok membership) (hid : id ∈ among)
      (hheld : id ∈ effectivePermissions catalog subject project membership) :
      Meets catalog store subject resource (.permission among)

variable {store : MemberKey → Lookup} {subject : Subject} {resource : Resource} {action : Action}
variable {g : Gate} {demand : Demand} {c : Context}

/-- The guard of a demand is true for those who meet it. -/
theorem value_guard_iff
    (hmembership : ∀ among, demand = .permission among →
      membershipIn store c.subject c.resource = .ok c.membership) :
    demand.guard.value c.answers = true ↔ Meets c.catalog store c.subject c.resource demand := by
  rw [Demand.value_guard]
  cases demand with
  | nothing => exact iff_of_true rfl .nothing
  | login =>
      show c.subject.isAuthenticated = true ↔ _
      rw [Subject.isAuthenticated_iff]
      constructor
      · rintro ⟨user, hsubject⟩
        exact .login hsubject
      · intro hmeets
        cases hmeets with
        | login hsubject => exact ⟨_, hsubject⟩
  | ownership =>
      show c.answers.owner = true ↔ _
      rw [Context.owner_answers_iff_exists]
      constructor
      · rintro ⟨user, project, hsubject, hproject, howner⟩
        exact .ownership hsubject hproject howner
      · intro hmeets
        cases hmeets with
        | ownership hsubject hproject howner => exact ⟨_, _, hsubject, hproject, howner⟩
  | permission among =>
      show among.any c.answers.permitted = true ↔ _
      rw [List.any_eq_true]
      simp only [Context.permitted_answers_iff_exists]
      -- the membership that the guard is evaluated with is the one that the store knows of
      have hknown := hmembership among rfl
      constructor
      · rintro ⟨id, hid, project, hproject, hheld⟩
        exact .permission hproject hknown hid hheld
      · intro hmeets
        cases hmeets with
        | permission hproject hm hid hheld =>
            rw [hknown] at hm
            cases hm
            exact ⟨_, hid, _, hproject, hheld⟩

/-- What a demand comes to is decided if the store answers, and where no permission is
demanded in any case. -/
theorem verdictOn_demand
    (hstore : ∀ among, demand = .permission among →
      ∃ membership, membershipIn store subject resource = .ok membership) :
    ∃ verdict, verdictOn g store subject resource action demand.guard = .ok verdict
      ∧ (verdict.answer = true ↔ Meets g.catalog store subject resource demand) := by
  cases demand with
  | permission among =>
      obtain ⟨membership, hmembership⟩ := hstore among rfl
      refine ⟨_, verdictOn_eq hmembership fun check hcheck =>
        absurd hcheck (Demand.checkFree_guard check), ?_⟩
      rw [Predicate.evaluate_eq]
      exact value_guard_iff fun _ _ => hmembership
  | _ =>
      -- the guard does not require the membership, so none is looked for
      refine ⟨_, rfl, ?_⟩
      dsimp only
      rw [Predicate.evaluate_eq]
      exact value_guard_iff nofun

-- ========================================================== main result

/-- Under the reference registry a superuser is let through; an action for which there
is no demand is denied to everybody else; and any other action is allowed to exactly
those who meet its demand. The store has to answer only if that is for a permission. -/
theorem decision_under_reference (catalog : Catalog) (backend : String)
    (store : MemberKey → Lookup) (subject : Subject) (resource : Resource) (action : Action)
    (hstore : ∀ among, demand? resource.type action = some (.permission among) →
      ∀ user project, subject = .user user → resource.project? = some project →
      ∃ membership, store ⟨user.id, project.id⟩ = .ok membership) :
    ∃ decision,
      (((Gate.mk catalog .reference backend).authorize subject resource action).answeredBy
          store).answer = .ok decision
        ∧ (subject.isSuperuser = true → decision = ⟨true, .superuserBypass⟩)
        ∧ (subject.isSuperuser = false → demand? resource.type action = none →
            decision = ⟨false, .noPolicy⟩)
        ∧ (subject.isSuperuser = false → ∀ demand, demand? resource.type action = some demand →
            decision.reason = .policyEvaluated
              ∧ (decision.allow = true ↔ Meets catalog store subject resource demand)) := by
  have hguard : (Gate.mk catalog .reference backend).registry.guard? resource.type action
      = (demand? resource.type action).map Demand.guard := Registry.guard?_reference
  cases hsuper : subject.isSuperuser with
  | true =>
      refine ⟨⟨true, .superuserBypass⟩, ?_, fun _ => rfl, nofun, nofun⟩
      rw [authorize_superuser hsuper]
      rfl
  | false =>
      cases hdemand : demand? resource.type action with
      | none =>
          rw [hdemand] at hguard
          obtain ⟨reply, hreply, houtcome⟩ := authorize_unguarded hsuper hguard
          refine ⟨⟨false, .noPolicy⟩, ?_, nofun, fun _ _ => rfl, nofun⟩
          rw [hreply]
          exact (Reply.outcome_eq_ok.1 houtcome).1
      | some demand =>
          rw [hdemand] at hguard
          obtain ⟨verdict, hverdict, hanswer⟩ : ∃ verdict,
              verdictOn (Gate.mk catalog .reference backend) store subject resource action
                  demand.guard = .ok verdict
                ∧ (verdict.answer = true ↔ Meets catalog store subject resource demand) :=
            verdictOn_demand fun among hamong =>
              membershipIn_ok (hstore among (hamong ▸ hdemand))
          refine ⟨⟨verdict.answer, .policyEvaluated⟩, ?_, nofun, nofun, ?_⟩
          · have houtcome : (((Gate.mk catalog .reference backend).authorize subject resource
                action).answeredBy store).outcome = _ := outcome_authorize_guarded hsuper hguard
            rw [hverdict] at houtcome
            exact (Reply.outcome_eq_ok.1 houtcome).1
          · rintro - _ ⟨⟩
            exact ⟨rfl, hanswer⟩

/-- A project that is closed to strangers. -/
def workshop : Project := (Project.new ⟨1⟩ ⟨2⟩).withPrivate true

/-- A store that knows one apprentice, who may add user stories. -/
def apprentices : MemberKey → Lookup := fun key =>
  .ok (if key.userId = ⟨7⟩ then some (.new ⟨7⟩ (.new ⟨3⟩ ⟨1⟩ "Apprentice" ["add_us"])) else none)

/-- The apprentice may create a user story by one of the two permissions that are demanded,
and may not change it afterwards. -/
theorem create_allowed_and_update_denied :
    let story : Resource := .object ResourceType.userStory (some workshop)
    let decides (action : Action) (allow : Bool) : Prop :=
      (((Gate.mk .builtin .reference "memory").authorize (.registered ⟨7⟩) story
        action).answeredBy apprentices).answer = .ok ⟨allow, .policyEvaluated⟩
    (∀ user project, Subject.registered ⟨7⟩ = .user user → story.project? = some project →
        ∃ membership, apprentices ⟨user.id, project.id⟩ = .ok membership)
      ∧ demand? story.type Action.create = some (.permission ["add_us", "add_us_to_project"])
      ∧ decides Action.create true ∧ decides Action.update false := by
  intro story decides
  have hstore : ∀ user project, Subject.registered ⟨7⟩ = .user user →
      story.project? = some project →
      ∃ membership, apprentices ⟨user.id, project.id⟩ = .ok membership :=
    fun _ _ _ _ => ⟨_, rfl⟩
  refine ⟨hstore, rfl, ?_, rfl⟩
  obtain ⟨⟨allow, reason⟩, hanswer, -, -, hdemand⟩ := decision_under_reference .builtin "memory"
    apprentices (.registered ⟨7⟩) story Action.create fun _ _ => hstore
  obtain ⟨rfl, hmeets⟩ := hdemand rfl _ rfl
  have hallow : allow = true :=
    hmeets.2 (.permission rfl rfl (List.mem_cons_self ..) (by decide))
  show _ = Except.ok (Decision.mk true .policyEvaluated)
  rw [← hallow]
  exact hanswer

end Gate

end ProjectAccess
