/-
The gate decides as if it always knew the membership.

The gate is sparing: it asks the store only if the guard requires it, and reads
permissions off the membership it has at hand. `Gate.eager` is the gate that is not.
It resolves the membership whenever there is a user and a project, takes what each
leaf means from there (`Gate.answersIn`, in which a permission is held if the answer
to `permissionsFor` lists it), and reads the guard as a plain boolean tree.

# Why they agree

Three facts meet in `authorize_eq_eager`:

- with the membership at hand, the answers of the context are those of the eager
  gate: both ways to the permissions of a subject end in the same set
  (`answersIn_eq`);
- a guard that does not require the membership has no leaf that could tell one
  membership from another, provided the checks of the application keep their word
  (`evaluate_congr_membership`);
- without a project or a user there is no membership to be had.

The checks that are run agree along with the decisions: both sides give them in
order, with their answers.
-/
import ProjectAccess.Proofs.Gate.Lookups

namespace ProjectAccess

namespace Predicate

/-- A guard that does not require the membership is evaluated alike with every
membership, if the checks in it that say they do not need one do not. -/
theorem evaluate_congr_membership {p : Predicate} {c : Context}
    (hneed : p.requiresMembership = false)
    (hchecks : ∀ check, .custom check ∈ p.leaves → check.needsMembership = false →
      ∀ membership, check.holds { c with membership } = check.holds c)
    (membership : Option Membership) : p.evaluate { c with membership } = p.evaluate c := by
  rw [evaluate_eq, evaluate_eq]
  refine verdict_congr fun leaf hleaf => ?_
  have hreads : ¬ leaf.ReadsMembership := by
    intro hreads
    rw [requiresMembership_iff.2 ⟨leaf, hleaf, hreads⟩] at hneed
    cases hneed
  cases leaf with
  | allowAny => rfl
  | isAuthenticated => rfl
  | isAnonymous => rfl
  | isProjectOwner => rfl
  | isProjectMember => exact absurd .member hreads
  | hasPermission id => exact absurd (.permission id) hreads
  | not of => cases isLeaf_of_mem_leaves hleaf
  | all of => cases isLeaf_of_mem_leaves hleaf
  | any of => cases isLeaf_of_mem_leaves hleaf
  | custom check =>
      refine hchecks check hleaf ?_ membership
      cases hneeds : check.needsMembership with
      | true => exact absurd (.check check hneeds) hreads
      | false => rfl

end Predicate

namespace Gate

variable (g : Gate) (store : MemberKey → Lookup)
variable (subject : Subject) (resource : Resource) (action : Action)

-- ======================================================== the eager gate

/-- There is a project, and the subject is the user it names as its owner. -/
def ownsIn : Bool :=
  match subject, resource.project? with
  | .user user, some project => project.owner == user.id
  | _, _ => false

/-- There is a project, and the permissions of the subject in it list this one. -/
def permittedIn (id : Permission) : Bool :=
  match resource.project? with
  | none => false
  | some project =>
    match ((g.permissionsFor subject project).answeredBy store).answer with
    | .ok permissions => permissions.contains id
    | .error _ => false

/-- What the leaves mean to a gate that has resolved the membership. -/
def answersIn (membership : Option Membership) : Answers where
  authenticated := subject != .anonymous
  owner := ownsIn subject resource
  member := resource.project?.isSome && membership.isSome
  permitted := permittedIn g store subject resource
  passed check := check.holds ⟨g.catalog, subject, resource, action, membership⟩

/-- The gate that always resolves the membership, and reads guards as boolean trees. -/
def eager : Except StoreError (Decision × List Observation) :=
  if subject.isSuperuser then .ok (⟨true, .superuserBypass⟩, [])
  else
    match g.registry.guard? resource.type action with
    | none => .ok (⟨false, .noPolicy⟩, [])
    | some guard =>
      (membershipIn store subject resource).map fun membership =>
        let answers := g.answersIn store subject resource action membership
        (⟨guard.value answers, .policyEvaluated⟩, guard.trace answers)

variable {g store subject resource action}

/-- Ownership is read off the same two names. -/
theorem ownsIn_eq {membership : Option Membership} :
    ownsIn subject resource
      = (Context.answers ⟨g.catalog, subject, resource, action, membership⟩).owner := by
  show _ = resource.project?.any fun project => subject.userId?.any project.isOwnedBy
  unfold ownsIn
  cases subject <;> cases resource.project? <;> rfl

/-- Both ways to the permissions of a subject end in the same set. -/
theorem permittedIn_eq {membership : Option Membership} {id : Permission}
    (h : membershipIn store subject resource = .ok membership) :
    permittedIn g store subject resource id
      = (Context.answers ⟨g.catalog, subject, resource, action, membership⟩).permitted id := by
  show _ = (resource.project?.map fun project =>
    effectivePermissions g.catalog subject project membership).any (·.contains id)
  unfold permittedIn
  split
  next hproject =>
    rw [hproject]
    rfl
  next project hproject =>
    rw [answer_permissionsFor hproject, h, hproject]
    rfl

/-- With the membership that the store knows of, the answers of the eager gate are
those of the context. -/
theorem answersIn_eq {membership : Option Membership}
    (h : membershipIn store subject resource = .ok membership) :
    g.answersIn store subject resource action membership
      = Context.answers ⟨g.catalog, subject, resource, action, membership⟩ := by
  have hauthenticated : (subject != .anonymous) = subject.isAuthenticated := by
    cases subject <;> rfl
  have hpermitted : permittedIn g store subject resource
      = (Context.answers ⟨g.catalog, subject, resource, action, membership⟩).permitted :=
    funext fun _ => permittedIn_eq h
  have howner : ownsIn subject resource
      = (Context.answers ⟨g.catalog, subject, resource, action, membership⟩).owner := ownsIn_eq
  unfold answersIn
  rw [hauthenticated, howner, hpermitted]
  rfl

-- ============================================================ agreement

/-- A store that answers for the user and the project has a membership to tell. -/
theorem membershipIn_ok
    (hstore : ∀ user project, subject = .user user → resource.project? = some project →
      ∃ membership, store ⟨user.id, project.id⟩ = .ok membership) :
    ∃ membership, membershipIn store subject resource = .ok membership := by
  cases hproject : resource.project? with
  | none => exact ⟨none, membershipIn_of_project?_none hproject⟩
  | some project =>
      unfold membershipIn
      rw [hproject]
      cases subject with
      | anonymous => exact ⟨none, rfl⟩
      | user user => exact hstore user project rfl hproject

/-- What the gate knows of the membership is enough to evaluate a guard as with all
there is to know. -/
theorem verdictOn_eq {guard : Predicate} {membership : Option Membership}
    (h : membershipIn store subject resource = .ok membership)
    (hchecks : ∀ check, .custom check ∈ guard.leaves → check.needsMembership = false →
      ∀ membership membership',
        check.holds ⟨g.catalog, subject, resource, action, membership⟩
          = check.holds ⟨g.catalog, subject, resource, action, membership'⟩) :
    verdictOn g store subject resource action guard
      = .ok (guard.evaluate ⟨g.catalog, subject, resource, action, membership⟩) := by
  unfold verdictOn known
  cases hneed : guard.requiresMembership with
  | true =>
      rw [if_pos rfl, h]
      rfl
  | false =>
      rw [if_neg Bool.false_ne_true]
      exact congrArg Except.ok (Predicate.evaluate_congr_membership
        (c := ⟨g.catalog, subject, resource, action, membership⟩) hneed
        (fun check hcheck hneeds m => hchecks check hcheck hneeds m membership) none)

/-- The outcome of the gate is that of the eager one. -/
theorem outcome_authorize_eq_eager {membership : Option Membership}
    (h : membershipIn store subject resource = .ok membership)
    (hchecks : ∀ guard check, g.registry.guard? resource.type action = some guard →
      .custom check ∈ guard.leaves → check.needsMembership = false →
      ∀ membership membership',
        check.holds ⟨g.catalog, subject, resource, action, membership⟩
          = check.holds ⟨g.catalog, subject, resource, action, membership'⟩) :
    ((g.authorize subject resource action).answeredBy store).outcome
      = g.eager store subject resource action := by
  unfold eager
  cases hsuper : subject.isSuperuser with
  | true =>
      rw [authorize_superuser hsuper]
      rfl
  | false =>
      cases hguard : g.registry.guard? resource.type action with
      | none =>
          obtain ⟨reply, hreply, houtcome⟩ := authorize_unguarded hsuper hguard
          rw [hreply, Inquiry.answeredBy_finished, houtcome]
          rfl
      | some guard =>
          rw [outcome_authorize_guarded hsuper hguard,
            verdictOn_eq h fun check => hchecks guard check hguard,
            Predicate.evaluate_eq, ← answersIn_eq h]
          show _ = (membershipIn store subject resource).map _
          rw [h]
          rfl

/-- The eager gate decides if the store has a membership to tell. -/
theorem eager_ok {membership : Option Membership}
    (h : membershipIn store subject resource = .ok membership) :
    ∃ outcome, g.eager store subject resource action = .ok outcome := by
  unfold eager
  split
  · exact ⟨_, rfl⟩
  · split
    · exact ⟨_, rfl⟩
    · rw [h]
      exact ⟨_, rfl⟩

/-- On a store that answers for the user and the project, the gate gives the decision
of the eager gate, and runs the same checks in the same order with the same answers.
Checks that say they do not need the membership have to keep their word. -/
theorem authorize_eq_eager (g : Gate) (store : MemberKey → Lookup) (subject : Subject)
    (resource : Resource) (action : Action)
    (hstore : ∀ user project, subject = .user user → resource.project? = some project →
      ∃ membership, store ⟨user.id, project.id⟩ = .ok membership)
    (hchecks : ∀ guard check, g.registry.guard? resource.type action = some guard →
      .custom check ∈ guard.leaves → check.needsMembership = false →
      ∀ membership membership',
        check.holds ⟨g.catalog, subject, resource, action, membership⟩
          = check.holds ⟨g.catalog, subject, resource, action, membership'⟩) :
    ∃ decision observed,
      g.eager store subject resource action = .ok (decision, observed)
        ∧ ((g.authorize subject resource action).answeredBy store).answer = .ok decision
        ∧ ((g.authorize subject resource action).answeredBy store).observed = observed := by
  obtain ⟨membership, hmembership⟩ := membershipIn_ok hstore
  obtain ⟨⟨decision, observed⟩, heager⟩ : ∃ outcome,
      g.eager store subject resource action = .ok outcome := eager_ok hmembership
  have hagree := outcome_authorize_eq_eager hmembership hchecks
  rw [heager] at hagree
  obtain ⟨hanswer, hobserved⟩ := Reply.outcome_eq_ok.1 hagree
  exact ⟨decision, observed, heager, hanswer, hobserved⟩

/-- A store in which the user is a member who may edit pages. -/
def editors : MemberKey → Lookup :=
  fun key => .ok (some (.new key.userId (.new ⟨3⟩ key.projectId "Editor" ["edit"])))

/-- A member asks for a page. The check that is run first says that it does not need the
membership and keeps its word; it fails, and then the permission that the role of the
member lists closes the page. -/
theorem authorize_eq_eager_on_page :
    (∀ membership membership' : Option Membership,
        anonymousCheck.holds ⟨pages.catalog, .registered ⟨7⟩, page, Action.retrieve, membership⟩
          = anonymousCheck.holds
              ⟨pages.catalog, .registered ⟨7⟩, page, Action.retrieve, membership'⟩)
      ∧ pages.eager editors (.registered ⟨7⟩) page Action.retrieve
          = .ok (⟨false, .policyEvaluated⟩, [⟨"anonymous", false⟩])
      ∧ ∃ decision observed,
          pages.eager editors (.registered ⟨7⟩) page Action.retrieve
              = .ok (decision, observed)
            ∧ ((pages.authorize (.registered ⟨7⟩) page Action.retrieve).answeredBy
                editors).answer = .ok decision
            ∧ ((pages.authorize (.registered ⟨7⟩) page Action.retrieve).answeredBy
                editors).observed = observed := by
  refine ⟨fun _ _ => rfl, rfl, authorize_eq_eager pages editors (.registered ⟨7⟩) page
    Action.retrieve (fun _ _ _ _ => ⟨_, rfl⟩) ?_⟩
  intro guard check hguard hcheck _ membership membership'
  have hpage : pages.registry.guard? page.type Action.retrieve = some pageGuard := rfl
  rw [hpage] at hguard
  cases hguard
  have honly : check = anonymousCheck := by
    simpa [pageGuard, Predicate.leaves, Predicate.leavesOf] using hcheck
  subst honly
  rfl

end Gate

end ProjectAccess
