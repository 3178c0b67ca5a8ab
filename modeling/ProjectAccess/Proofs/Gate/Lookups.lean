/-
When the gate asks the store, what for, and what becomes of the answer.

# The condition

`Gate.Consults` lists everything that has to come together for a lookup: the
subject is a user without special standing, the action has a guard, the resource
has a project, and some leaf of the guard, however deep, may read the membership.
The key is that of the user and the project. The condition speaks of the leaves and
not of the flag that the gate computes (`Predicate.requiresMembership_iff` joins the
two), so a kind of leaf that the flag forgot would show here.

# The outcome

`Gate.known` is what the gate knows of the membership when it evaluates a guard,
`Gate.verdictOn` what the guard comes to in that knowledge, and
`outcome_authorize_guarded` says that decision and checks are taken from there. A
failure of the store is the one way to an outcome without a decision
(`Inquiry.FailsAsStore`), and passes through unchanged.
-/
import ProjectAccess.Gate
import ProjectAccess.Proofs.Predicate.Answers

namespace ProjectAccess

-- ============================================================= inquiries

namespace Reply

variable {α : Type}

/-- The answer together with the checks that were run for it. -/
def outcome (r : Reply α) : Except StoreError (α × List Observation) :=
  r.answer.map (·, r.observed)

/-- An answer is an outcome. -/
theorem outcome_eq_ok {r : Reply α} {value : α} {observed : List Observation} :
    r.outcome = .ok (value, observed) ↔ r.answer = .ok value ∧ r.observed = observed := by
  unfold outcome
  cases h : r.answer with
  | error e => simp [Except.map]
  | ok v => simp [Except.map]

/-- A reply for which no check was run leaves those that are run afterwards. -/
theorem outcome_andThen {β : Type} {r : Reply α} {f : α → Reply β} (h : r.observed = []) :
    (r.andThen f).outcome = r.answer.bind fun value => (f value).outcome := by
  unfold andThen
  cases r.answer with
  | error e => rfl
  | ok value =>
      show (f value).answer.map (·, r.observed ++ (f value).observed) = (f value).outcome
      rw [h, List.nil_append]
      rfl

end Reply

namespace Inquiry

variable {α β : Type}

theorem answeredBy_finished (store : MemberKey → Lookup) (reply : Reply α) :
    (finished reply).answeredBy store = reply := rfl

theorem answeredBy_waiting (store : MemberKey → Lookup) (key : MemberKey)
    (resume : Lookup → Reply α) :
    (waiting key resume).answeredBy store = resume (store key) := rfl

/-- What is asked does not depend on how the inquiry goes on. -/
theorem asked?_map {i : Inquiry α} {f : Reply α → Reply β} : (i.map f).asked? = i.asked? := by
  cases i <;> rfl

/-- An inquiry that goes on ends as it goes on from its end. -/
theorem answeredBy_map {i : Inquiry α} {f : Reply α → Reply β} (store : MemberKey → Lookup) :
    (i.map f).answeredBy store = f (i.answeredBy store) := by
  cases i <;> rfl

/-- Stores that say the same where they are asked end an inquiry in the same way. -/
theorem answeredBy_congr {i : Inquiry α} {store store' : MemberKey → Lookup}
    (h : ∀ key, i.asked? = some key → store key = store' key) :
    i.answeredBy store = i.answeredBy store' := by
  cases i with
  | finished reply => rfl
  | waiting key resume => rw [answeredBy_waiting, answeredBy_waiting, h key rfl]

/-- An inquiry that fails in one way only: the store was asked and failed. It passes
that failure on, and no check was run before. -/
inductive FailsAsStore : Inquiry α → Prop where
  | finished {reply : Reply α} {value : α} (h : reply.answer = .ok value) :
      FailsAsStore (.finished reply)
  | waiting {key : MemberKey} {resume : Lookup → Reply α}
      (hfailed : ∀ e, (resume (.error e)).answer = .error e
        ∧ (resume (.error e)).observed = [])
      (hanswered : ∀ membership, ∃ value, (resume (.ok membership)).answer = .ok value) :
      FailsAsStore (.waiting key resume)

variable {i : Inquiry α} {store : MemberKey → Lookup} {e : StoreError}

/-- The failures of such an inquiry are those of the lookup it makes. -/
theorem FailsAsStore.answer_eq_error (h : i.FailsAsStore) :
    (i.answeredBy store).answer = .error e
      ↔ ∃ key, i.asked? = some key ∧ store key = .error e := by
  cases h with
  | finished hok =>
      rw [answeredBy_finished, hok]
      exact ⟨nofun, fun ⟨_, hasked, _⟩ => nomatch hasked⟩
  | @waiting key resume hfailed hanswered =>
      rw [answeredBy_waiting]
      constructor
      · intro herror
        refine ⟨key, rfl, ?_⟩
        cases hstore : store key with
        | error e' =>
            rw [hstore, (hfailed e').1] at herror
            cases herror
            rfl
        | ok membership =>
            obtain ⟨value, hvalue⟩ := hanswered membership
            rw [hstore, hvalue] at herror
            cases herror
      · rintro ⟨_, ⟨⟩, hstore⟩
        rw [hstore]
        exact (hfailed e).1

/-- When such an inquiry fails no check was run. -/
theorem FailsAsStore.observed_of_error (h : i.FailsAsStore)
    (herror : (i.answeredBy store).answer = .error e) : (i.answeredBy store).observed = [] := by
  obtain ⟨key, hasked, hstore⟩ := h.answer_eq_error.1 herror
  cases h with
  | finished hok => cases hasked
  | @waiting key resume hfailed hanswered =>
      cases hasked
      rw [answeredBy_waiting, hstore]
      exact (hfailed e).2

end Inquiry

namespace Gate

variable (g : Gate) (store : MemberKey → Lookup)
variable (subject : Subject) (resource : Resource) (action : Action)

-- ============================================================ vocabulary

/-- The membership of a subject in the project of a resource, as a store knows it.
Without a user or without a project there is none, and no need to ask. -/
def membershipIn : Lookup :=
  match subject.userId?, resource.project? with
  | some user, some project => store ⟨user, project.id⟩
  | _, _ => .ok none

/-- What the gate knows of the membership when it evaluates a guard. -/
def known (guard : Predicate) : Lookup :=
  if guard.requiresMembership then membershipIn store subject resource else .ok none

/-- What a guard comes to in what the gate knows of the membership. -/
def verdictOn (guard : Predicate) : Except StoreError Verdict :=
  (known store subject resource guard).map fun membership =>
    guard.evaluate ⟨g.catalog, subject, resource, action, membership⟩

/-- Everything that has to come together for the gate to ask for a key. -/
inductive Consults : MemberKey → Prop where
  | ask {user : User} {project : Project} {guard leaf : Predicate}
      (hsubject : subject = .user user) (hplain : user.isSuperuser = false)
      (hguard : g.registry.guard? resource.type action = some guard)
      (hproject : resource.project? = some project)
      (hleaf : leaf ∈ guard.leaves) (hreads : leaf.ReadsMembership) :
      Consults ⟨user.id, project.id⟩

variable {g store subject resource action}

-- ================================================ the cases of the gate

/-- A superuser is let through. -/
theorem authorize_superuser (h : subject.isSuperuser = true) :
    g.authorize subject resource action
      = .finished (conclude subject resource action ⟨true, .superuserBypass⟩) := by
  unfold authorize
  rw [if_pos h]

/-- An action without a guard is denied, and asks nothing. -/
theorem authorize_unguarded (h : subject.isSuperuser = false)
    (hguard : g.registry.guard? resource.type action = none) :
    ∃ reply, g.authorize subject resource action = .finished reply
      ∧ reply.outcome = .ok (⟨false, .noPolicy⟩, []) := by
  unfold authorize
  rw [h, hguard]
  exact ⟨_, rfl, rfl⟩

/-- An action with a guard asks if there is a project to ask about and a need to. -/
theorem authorize_guarded {guard : Predicate} (h : subject.isSuperuser = false)
    (hguard : g.registry.guard? resource.type action = some guard) :
    g.authorize subject resource action
      = match resource.project?, guard.requiresMembership with
        | some project, true =>
            (g.resolve subject project).map
              (·.andThen (g.evaluate subject resource action guard))
        | _, _ => .finished (g.evaluate subject resource action guard none) := by
  unfold authorize
  rw [h, hguard]
  rfl

-- ============================================================== lookups

/-- A subject resolves by a lookup if it is a user. -/
theorem asked?_resolve {project : Project} {key : MemberKey} :
    (g.resolve subject project).asked? = some key
      ↔ ∃ user, subject = .user user ∧ key = ⟨user.id, project.id⟩ := by
  cases subject with
  | anonymous => exact ⟨nofun, fun ⟨_, h, _⟩ => nomatch h⟩
  | user user =>
      show some (MemberKey.mk user.id project.id) = some key ↔ _
      constructor
      · intro h
        exact ⟨user, rfl, (Option.some.inj h).symm⟩
      · rintro ⟨_, h, rfl⟩
        cases h
        rfl

/-- The gate asks for a key exactly if everything for it comes together. -/
theorem asked?_authorize {key : MemberKey} :
    (g.authorize subject resource action).asked? = some key
      ↔ g.Consults subject resource action key := by
  constructor
  · intro hasked
    cases hsuper : subject.isSuperuser with
    | true =>
        rw [authorize_superuser hsuper] at hasked
        cases hasked
    | false =>
        cases hguard : g.registry.guard? resource.type action with
        | none =>
            obtain ⟨reply, hreply, -⟩ := authorize_unguarded hsuper hguard
            rw [hreply] at hasked
            cases hasked
        | some guard =>
            rw [authorize_guarded hsuper hguard] at hasked
            split at hasked
            next project hproject hneed =>
              rw [Inquiry.asked?_map, asked?_resolve] at hasked
              obtain ⟨user, rfl, rfl⟩ := hasked
              obtain ⟨leaf, hleaf, hreads⟩ := Predicate.requiresMembership_iff.1 hneed
              exact .ask rfl hsuper hguard hproject hleaf hreads
            next => cases hasked
  · intro hconsults
    cases hconsults with
    | @ask user project guard leaf hsubject hplain hguard hproject hleaf hreads =>
        subst hsubject
        have hsuper : (Subject.user user).isSuperuser = false := hplain
        rw [authorize_guarded hsuper hguard, hproject,
          Predicate.requiresMembership_iff.2 ⟨leaf, hleaf, hreads⟩]
        rfl

-- ============================================================== failures

/-- What goes on from a resolved subject, and itself cannot fail, fails as the store. -/
theorem failsAsStore_resolve {β : Type} {project : Project} {f : Option Membership → Reply β}
    (hf : ∀ membership, ∃ value, (f membership).answer = .ok value) :
    ((g.resolve subject project).map (·.andThen f)).FailsAsStore := by
  cases subject with
  | anonymous =>
      obtain ⟨value, hvalue⟩ := hf none
      exact .finished hvalue
  | user user => exact .waiting (fun _ => ⟨rfl, rfl⟩) hf

/-- Decisions fail as the store. -/
theorem failsAsStore_authorize : (g.authorize subject resource action).FailsAsStore := by
  cases hsuper : subject.isSuperuser with
  | true =>
      rw [authorize_superuser hsuper]
      exact .finished rfl
  | false =>
      cases hguard : g.registry.guard? resource.type action with
      | none =>
          obtain ⟨reply, hreply, houtcome⟩ := authorize_unguarded hsuper hguard
          rw [hreply]
          exact .finished (Reply.outcome_eq_ok.1 houtcome).1
      | some guard =>
          rw [authorize_guarded hsuper hguard]
          split
          · exact failsAsStore_resolve fun _ => ⟨_, rfl⟩
          · exact .finished rfl

-- ============================================================== outcomes

/-- A resolved subject has the membership that the store knows of. -/
theorem answer_resolve {project : Project} (hproject : resource.project? = some project) :
    ((g.resolve subject project).answeredBy store).answer
      = membershipIn store subject resource := by
  unfold membershipIn
  rw [hproject]
  cases subject <;> rfl

/-- No check is run to resolve a subject. -/
theorem observed_resolve {project : Project} :
    ((g.resolve subject project).answeredBy store).observed = [] := by
  cases subject <;> rfl

/-- Without a project there is no membership to know of. -/
theorem membershipIn_of_project?_none (h : resource.project? = none) :
    membershipIn store subject resource = .ok none := by
  unfold membershipIn
  rw [h]
  cases subject.userId? <;> rfl

/-- The decision about a guarded action, and the checks run for it, are what the guard
comes to. -/
theorem outcome_authorize_guarded {guard : Predicate} (h : subject.isSuperuser = false)
    (hguard : g.registry.guard? resource.type action = some guard) :
    ((g.authorize subject resource action).answeredBy store).outcome
      = (verdictOn g store subject resource action guard).map fun verdict =>
          (⟨verdict.answer, .policyEvaluated⟩, verdict.observed) := by
  rw [authorize_guarded h hguard]
  unfold verdictOn known
  split
  next project hproject hneed =>
    rw [Inquiry.answeredBy_map, Reply.outcome_andThen observed_resolve,
      answer_resolve hproject, if_pos hneed]
    cases membershipIn store subject resource <;> rfl
  next hunasked =>
    -- the guard does not require the membership, or there is no project
    have hknown : (if guard.requiresMembership then membershipIn store subject resource
        else .ok none) = .ok none := by
      split
      next hneed =>
        cases hproject : resource.project? with
        | none => exact membershipIn_of_project?_none hproject
        | some project => exact absurd hneed (hunasked project hproject)
      next => rfl
    rw [hknown]
    rfl

/-- What the subject may do in the project of a resource are the effective permissions
with the membership that the store knows of. -/
theorem answer_permissionsFor {project : Project} (hproject : resource.project? = some project) :
    ((g.permissionsFor subject project).answeredBy store).answer
      = (membershipIn store subject resource).map
          (effectivePermissions g.catalog subject project) := by
  unfold permissionsFor
  rw [Inquiry.answeredBy_map, ← answer_resolve (g := g) hproject]
  unfold Reply.andThen
  cases ((g.resolve subject project).answeredBy store).answer <;> rfl

-- ========================================================== main result

/-- The lookups and the failures of a decision: a key is asked for exactly if
everything for it comes together; the decision fails exactly if that lookup does, with
the failure of the store and before any check was run; and it depends on the store
only by what the store says of that key, so not at all if nothing is asked. -/
theorem authorize_lookup_and_failure (g : Gate) (subject : Subject) (resource : Resource)
    (action : Action) :
    (∀ key, (g.authorize subject resource action).asked? = some key
      ↔ g.Consults subject resource action key)
    ∧ (∀ store failure,
        ((g.authorize subject resource action).answeredBy store).answer.mapError Failure.store
            = .error failure
          ↔ ∃ key error, g.Consults subject resource action key
              ∧ store key = .error error ∧ failure = .store error)
    ∧ (∀ store error,
        ((g.authorize subject resource action).answeredBy store).answer = .error error →
        ((g.authorize subject resource action).answeredBy store).observed = [])
    ∧ (∀ store store',
        (∀ key, g.Consults subject resource action key → store key = store' key) →
        (g.authorize subject resource action).answeredBy store
          = (g.authorize subject resource action).answeredBy store') := by
  have hfails : (g.authorize subject resource action).FailsAsStore := failsAsStore_authorize
  refine ⟨fun key => asked?_authorize, fun store failure => ?_,
    fun store error => hfails.observed_of_error, fun store store' h => ?_⟩
  · constructor
    · intro hfailed
      cases hanswer : ((g.authorize subject resource action).answeredBy store).answer with
      | ok decision =>
          rw [hanswer] at hfailed
          cases hfailed
      | error error =>
          rw [hanswer] at hfailed
          obtain ⟨key, hasked, hstore⟩ := hfails.answer_eq_error.1 hanswer
          cases hfailed
          exact ⟨key, error, asked?_authorize.1 hasked, hstore, rfl⟩
    · rintro ⟨key, error, hconsults, hstore, rfl⟩
      rw [hfails.answer_eq_error.2 ⟨key, asked?_authorize.2 hconsults, hstore⟩]
      rfl
  · exact Inquiry.answeredBy_congr fun key hasked => h key (asked?_authorize.1 hasked)

/-- A check of the application that looks at nothing but the subject. -/
def anonymousCheck : Check := ⟨"anonymous", .word "Anonymous", false, (!·.subject.isAuthenticated)⟩

/-- A guard under whose negation a permission is asked for. -/
def pageGuard : Predicate := .any [.custom anonymousCheck, .not (.hasPermission "edit")]

/-- A gate with one guard. -/
def pages : Gate where
  catalog := ⟨{}, by decide⟩
  registry := Registry.empty.register ((ResourcePolicy.new "page").bind Action.retrieve pageGuard)
  backend := "memory"

/-- What the gate guards. -/
def page : Resource := .object "page" (some (.new ⟨1⟩ ⟨2⟩))

/-- A user asks for a page while the store is down. The store is asked for the user and
the project; its failure is the outcome, and the check that comes first was not run. A
store that is down for this user only makes no difference. -/
theorem authorize_on_page_eq_store_error :
    let asked := pages.authorize (.registered ⟨7⟩) page Action.retrieve
    let down : MemberKey → Lookup := fun _ => .error (.unavailable "down")
    let downFor (user : UserId) : MemberKey → Lookup :=
      fun key => if key.userId = user then .error (.unavailable "down") else .ok none
    pages.Consults (.registered ⟨7⟩) page Action.retrieve ⟨⟨7⟩, ⟨1⟩⟩
      ∧ asked.asked? = some ⟨⟨7⟩, ⟨1⟩⟩
      ∧ (asked.answeredBy down).answer.mapError Failure.store
          = .error (.store (.unavailable "down"))
      ∧ (asked.answeredBy down).observed = []
      ∧ asked.answeredBy down = asked.answeredBy (downFor ⟨7⟩) := by
  intro asked down downFor
  obtain ⟨hasked, hfailed, hunobserved, hcongr⟩ :=
    authorize_lookup_and_failure pages (.registered ⟨7⟩) page Action.retrieve
  have hguard : pages.registry.guard? page.type Action.retrieve = some pageGuard := rfl
  have hleaf : Predicate.hasPermission "edit" ∈ pageGuard.leaves := by
    simp [pageGuard, Predicate.leaves, Predicate.leavesOf]
  have hconsults : pages.Consults (.registered ⟨7⟩) page Action.retrieve ⟨⟨7⟩, ⟨1⟩⟩ :=
    .ask rfl rfl hguard rfl hleaf (.permission "edit")
  refine ⟨hconsults, (hasked _).2 hconsults,
    (hfailed down _).2 ⟨_, _, hconsults, rfl, rfl⟩, hunobserved down _ rfl,
    hcongr down (downFor ⟨7⟩) fun key hkey => ?_⟩
  have hsame : some key = some ⟨⟨7⟩, ⟨1⟩⟩ :=
    ((hasked key).2 hkey).symm.trans ((hasked _).2 hconsults)
  cases hsame
  rfl

end Gate

end ProjectAccess
