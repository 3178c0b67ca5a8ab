/-
The counters account for every call.

Calls of a gate over a cache come one after the other, with invalidations and purges in
between. The store behind the cache is another at each call, so it may fail whenever it
likes. Of a call is seen what the cache says if the gate asks it, what the store says if
the cache asks it, and what the call returns (`Visit`).

# How the accounts are kept

The gate, the resolver of memberships and the cache each count on their own. That they
agree is seen in two steps. A visit can only go in four ways (`Visit.Regular`), and the
journal grows by the increments that can be read off the visit (`Visit.increments`). So
after a run the increments are those of its visits, one after the other
(`accounts_runAll`), and each counter is as many visits as are of a certain kind
(`countP_increments`).
-/
import ProjectAccess.Proofs.Gate.Lookups
import ProjectAccess.Proofs.Journal.Totals
import ProjectAccess.Proofs.Service.Exchanges

namespace ProjectAccess

/-- The decisions there can be. -/
def Decision.combinations : List Decision :=
  [⟨true, .superuserBypass⟩, ⟨false, .noPolicy⟩, ⟨true, .policyEvaluated⟩,
    ⟨false, .policyEvaluated⟩]

/-- The outcome under which a lookup is counted. -/
def LookupOutcome.of : Lookup → LookupOutcome
  | .ok (.some _) => .member
  | .ok .none => .none
  | .error _ => .error

/-- The counters that a reply increments. -/
def Reply.increments {α : Type} (r : Reply α) : List Counter := r.notes.filterMap Note.counter?

namespace Gate

variable {g : Gate} {subject : Subject} {resource : Resource} {action : Action}
variable {store : MemberKey → Lookup} {project : Project}

-- ================================================= what the gate counts

theorem increments_lookupNotes {id : ProjectId} {result : Lookup} :
    (g.lookupNotes id result).filterMap Note.counter? = [.lookups (.of result)] := by
  cases result with
  | error error => rfl
  | ok membership => cases membership <;> rfl

/-- Who goes on from a resolved subject counts the lookup, if there is one, and then what
counts for the answer. A failure counts for nothing more. -/
theorem increments_resolve {β : Type} {f : Option Membership → Reply β}
    (counted : Except StoreError β → List Counter) (hfailed : ∀ error, counted (.error error) = [])
    (hf : ∀ membership, (f membership).increments = counted (f membership).answer) :
    let inquiry := (g.resolve subject project).map (·.andThen f)
    (inquiry.answeredBy store).increments
      = (inquiry.asked?.map fun key => Counter.lookups (.of (store key))).toList
          ++ counted (inquiry.answeredBy store).answer := by
  cases subject with
  | anonymous => exact hf none
  | user user =>
      intro inquiry
      show (Reply.andThen ⟨store ⟨user.id, project.id⟩, [], _⟩ f).increments
        = Counter.lookups (.of (store ⟨user.id, project.id⟩)) :: counted (Reply.andThen _ f).answer
      unfold Reply.andThen Reply.increments
      cases store ⟨user.id, project.id⟩ with
      | error error =>
          show (g.lookupNotes project.id (.error error)).filterMap Note.counter? = _
          rw [increments_lookupNotes, hfailed]
      | ok membership =>
          show (g.lookupNotes project.id (.ok membership) ++ _).filterMap Note.counter? = _
          rw [List.filterMap_append, increments_lookupNotes]
          exact congrArg _ (hf membership)

/-- What is counted for the answer of a call. -/
def counted : Except StoreError Decision → List Counter
  | .ok decision => [.decisions decision]
  | .error _ => []

/-- The gate counts its lookup by what came of it, and then its decision. -/
theorem increments_authorize :
    ((g.authorize subject resource action).answeredBy store).increments
      = ((g.authorize subject resource action).asked?.map fun key =>
            Counter.lookups (.of (store key))).toList
          ++ counted ((g.authorize subject resource action).answeredBy store).answer := by
  cases hsuper : subject.isSuperuser with
  | true =>
      rw [authorize_superuser hsuper]
      rfl
  | false =>
      cases hguard : g.registry.guard? resource.type action with
      | none =>
          unfold authorize
          rw [hsuper, hguard]
          rfl
      | some guard =>
          rw [authorize_guarded hsuper hguard]
          split
          · exact increments_resolve counted (fun _ => rfl) fun _ => rfl
          · rfl

/-- A decision is one of those there can be. -/
theorem mem_combinations {decision : Decision}
    (h : ((g.authorize subject resource action).answeredBy store).answer = .ok decision) :
    decision ∈ Decision.combinations := by
  cases hsuper : subject.isSuperuser with
  | true =>
      rw [authorize_superuser hsuper] at h
      cases h
      decide
  | false =>
      cases hguard : g.registry.guard? resource.type action with
      | none =>
          obtain ⟨reply, hreply, houtcome⟩ := authorize_unguarded hsuper hguard
          obtain ⟨hdenied, -⟩ := Reply.outcome_eq_ok.1 houtcome
          rw [hreply, Inquiry.answeredBy_finished, hdenied] at h
          cases h
          decide
      | some guard =>
          have houtcome : ((g.authorize subject resource action).answeredBy store).outcome = _ :=
            outcome_authorize_guarded hsuper hguard
          rw [Reply.outcome_eq_ok.2 ⟨h, rfl⟩] at houtcome
          cases hverdict : verdictOn g store subject resource action guard with
          | error error => rw [hverdict] at houtcome; cases houtcome
          | ok verdict =>
              rw [hverdict] at houtcome
              have hdecision : decision = ⟨verdict.answer, .policyEvaluated⟩ :=
                (Prod.mk.inj (Except.ok.inj houtcome)).1
              rw [hdecision]
              cases verdict.answer <;> decide

end Gate

namespace Service

-- ================================================================ visits

/-- What a call of the gate returned. -/
inductive Returned where
  | decision (answer : Except StoreError Decision)
  | permissions (answer : Except StoreError PermissionSet)

def Returned.isOk : Returned → Bool
  | .decision answer => answer.isOk
  | .permissions answer => answer.isOk

def Returned.counted : Returned → List Counter
  | .decision answer => Gate.counted answer
  | .permissions _ => []

/-- What is seen of a call of the gate: what the cache said if it was asked, what the
store behind it said if that was asked, and what was returned. -/
structure Visit where
  said : Option Lookup
  stored : Option Lookup
  returned : Returned

/-- The call was for a decision, and one was returned. -/
def Visit.decided (v : Visit) : Bool :=
  match v.returned with
  | .decision answer => answer.isOk
  | .permissions _ => false

/-- The cache answered and did not ask the store. -/
def Visit.isHit (v : Visit) : Bool := v.said.isSome && v.stored.isNone

/-- The store was asked and failed. -/
def Visit.storeFailed (v : Visit) : Bool := v.stored.any fun result => !result.isOk

/-- What a visit adds to the counters. -/
def Visit.increments (v : Visit) : List Counter :=
  (v.said.toList.flatMap fun result => [.cache v.stored.isNone, .lookups (.of result)])
    ++ v.returned.counted

/-- The ways a visit can go. -/
inductive Visit.Regular : Visit → Prop where
  | unasked {returned : Returned} (hok : returned.isOk = true) : Regular ⟨none, none, returned⟩
  | hit {membership : Option Membership} {returned : Returned} (hok : returned.isOk = true) :
      Regular ⟨some (.ok membership), none, returned⟩
  | learned {membership : Option Membership} {returned : Returned} (hok : returned.isOk = true) :
      Regular ⟨some (.ok membership), some (.ok membership), returned⟩
  | failed {error : StoreError} {returned : Returned} (hfailed : returned.isOk = false) :
      Regular ⟨some (.error error), some (.error error), returned⟩

/-- The visit goes in one of these ways, and if it is decided, the decision is one of those
there can be. -/
structure Visit.Sound (v : Visit) : Prop where
  regular : v.Regular
  combinations : ∀ decision, .decisions decision ∈ v.returned.counted →
    decision ∈ Decision.combinations

/-- Answers an inquiry, and tells what is seen of it. -/
def visit {α : Type} (clock : Cache.Readings) (store : MemberKey → Lookup) (inquiry : Inquiry α)
    (returns : Except StoreError α → Returned) (s : Service) : Visit × Service :=
  let seen := inquiry.asked?.map fun key => s.exchange clock store key
  let (reply, after) := s.answer clock store inquiry
  (⟨seen.map (·.answer), (seen.bind (·.asked)).map store, returns reply.answer⟩, after)

/-- An inquiry on which accounts can be kept: it fails only as the store does, and counts
its lookup by what came of it and then what it returns. -/
structure Accountable {α : Type} (returns : Except StoreError α → Returned)
    (inquiry : Inquiry α) : Prop where
  isOk_returns : ∀ answer, (returns answer).isOk = answer.isOk
  fails : inquiry.FailsAsStore
  increments : ∀ store, (inquiry.answeredBy store).increments
    = (inquiry.asked?.map fun key => Counter.lookups (.of (store key))).toList
        ++ (returns (inquiry.answeredBy store).answer).counted
  combinations : ∀ store decision,
    .decisions decision ∈ (returns (inquiry.answeredBy store).answer).counted →
    decision ∈ Decision.combinations

theorem accountable_authorize {g : Gate} {subject : Subject} {resource : Resource}
    {action : Action} : Accountable .decision (g.authorize subject resource action) where
  isOk_returns _ := rfl
  fails := Gate.failsAsStore_authorize
  increments _ := Gate.increments_authorize
  combinations store decision hmem := by
    cases hanswer : ((g.authorize subject resource action).answeredBy store).answer with
    | error error => rw [hanswer] at hmem; cases hmem
    | ok decided =>
        rw [hanswer] at hmem
        cases List.mem_singleton.1 hmem
        exact Gate.mem_combinations hanswer

theorem accountable_permissionsFor {g : Gate} {subject : Subject} {project : Project} :
    Accountable .permissions (g.permissionsFor subject project) where
  isOk_returns _ := rfl
  fails := Gate.failsAsStore_resolve fun _ => ⟨_, rfl⟩
  increments _ := by
    unfold Gate.permissionsFor
    exact Gate.increments_resolve (fun answer => (Returned.permissions answer).counted)
      (fun _ => rfl) fun _ => rfl
  combinations _ _ hmem := nomatch hmem

variable {s : Service} {c : Cache}

/-- An inquiry with a lookup fails if the lookup does, and not else. -/
theorem Accountable.isOk_resume {α : Type} {returns : Except StoreError α → Returned}
    {key : MemberKey} {resume : Lookup → Reply α} (h : Accountable returns (.waiting key resume))
    (result : Lookup) : (returns (resume result).answer).isOk = result.isOk := by
  rw [h.isOk_returns]
  cases h.fails with
  | waiting hfailed hanswered =>
      cases result with
      | error error =>
          rw [(hfailed error).1]
          rfl
      | ok membership =>
          obtain ⟨value, hvalue⟩ := hanswered membership
          rw [hvalue]
          rfl

/-- A service comes from another by sound visits. Its journal has grown by what these add,
and it still has a cache. -/
structure Accounts (s : Service) (visits : List Visit) (s' : Service) : Prop where
  sound : ∀ v ∈ visits, v.Sound
  cached : s'.cache.isSome = true
  increments : s'.journal.increments
    = s.journal.increments ++ visits.flatMap Visit.increments

theorem Accounts.trans {s' s'' : Service} {visits visits' : List Visit} (h : Accounts s visits s')
    (h' : Accounts s' visits' s'') : Accounts s (visits ++ visits') s'' where
  sound := List.forall_mem_append.2 ⟨h.sound, h'.sound⟩
  cached := h'.cached
  increments := by rw [h'.increments, h.increments, List.flatMap_append, List.append_assoc]

/-- Who leaves the journal alone, and does not take the cache away, makes no visit. -/
theorem Accounts.idle {s' : Service} (hcached : s'.cache.isSome = true)
    (hjournal : s'.journal = s.journal) : Accounts s [] s' where
  sound := List.forall_mem_nil _
  cached := hcached
  increments := by rw [hjournal, List.flatMap_nil, List.append_nil]

/-- To answer an inquiry on which accounts can be kept is a sound visit. -/
theorem accounts_visit {α : Type} {inquiry : Inquiry α} {returns : Except StoreError α → Returned}
    (h : Accountable returns inquiry) (hcached : s.cache.isSome = true) (clock : Cache.Readings)
    (store : MemberKey → Lookup) :
    Accounts s [(s.visit clock store inquiry returns).1]
      (s.visit clock store inquiry returns).2 := by
  obtain ⟨c, hcache⟩ := Option.isSome_iff_exists.1 hcached
  cases inquiry with
  | finished reply =>
      have hok : (returns reply.answer).isOk = true := by
        rw [h.isOk_returns]
        cases h.fails with
        | finished hanswer => rw [hanswer]; rfl
      have hsound : Visit.Sound ⟨none, none, returns reply.answer⟩ :=
        ⟨.unasked hok, h.combinations store⟩
      refine ⟨List.forall_mem_singleton.2 hsound, hcached, ?_⟩
      rw [List.flatMap_singleton]
      exact Journal.increments_append.trans (congrArg _ (h.increments store))
  | waiting key resume =>
      obtain ⟨c', hcourse, hafter⟩ := exchange_course hcache clock store key
      have hvisit : s.visit clock store (.waiting key resume) returns
          = (⟨some (s.exchange clock store key).answer,
              (s.exchange clock store key).asked.map store,
              returns (resume (s.exchange clock store key).answer).answer⟩,
            (s.lookup clock store key).2.note (resume (s.exchange clock store key).answer).notes) :=
        rfl
      rw [hvisit, hafter]
      generalize s.exchange clock store key = x at hcourse
      refine ⟨List.forall_mem_singleton.2 ⟨?_, h.combinations fun _ => x.answer⟩, rfl, ?_⟩
      · have hok := h.isOk_resume x.answer
        cases hcourse with
        | hit => exact .hit hok
        | learned hnone hstore =>
            show Visit.Regular ⟨_, some (store key), _⟩
            rw [hstore]
            exact .learned hok
        | failed hnone hstore =>
            show Visit.Regular ⟨_, some (store key), _⟩
            rw [hstore]
            exact .failed hok
      · -- the cache counts first; to the gate it is a store that says what was seen of it
        have hcounts := h.increments fun _ => x.answer
        unfold note
        rw [Journal.increments_append, Journal.increments_append, List.append_assoc,
          List.flatMap_singleton]
        apply congrArg (s.journal.increments ++ ·)
        show Counter.cache x.asked.isNone :: (resume x.answer).increments
          = Counter.cache (x.asked.map store).isNone :: _
        rw [Option.isNone_map]
        exact congrArg _ hcounts

-- ================================================================ runs

/-- What is done with a gate over a cache. At each call the store is as it is then. -/
inductive Errand where
  | authorize (clock : Cache.Readings) (store : MemberKey → Lookup) (subject : Subject)
      (resource : Resource) (action : Action)
  | permissions (clock : Cache.Readings) (store : MemberKey → Lookup) (subject : Subject)
      (project : Project)
  | invalidate (scope : Cache.Scope)
  | purge (now : Nat)

/-- Does an errand. Calls of the gate are visits. -/
def run (s : Service) : Errand → Option Visit × Service
  | .authorize clock store subject resource action =>
    let (visit, s) := s.visit clock store (s.gate.authorize subject resource action) .decision
    (some visit, s)
  | .permissions clock store subject project =>
    let (visit, s) := s.visit clock store (s.gate.permissionsFor subject project) .permissions
    (some visit, s)
  | .invalidate scope => (none, s.invalidate scope)
  | .purge now => (none, s.purge now)

/-- Does errands one after the other, and collects the visits. -/
def runAll (s : Service) : List Errand → List Visit × Service
  | [] => ([], s)
  | errand :: errands =>
    let (visit, s) := s.run errand
    let (visits, s) := s.runAll errands
    (visit.toList ++ visits, s)

variable {errand : Errand} {errands : List Errand}

theorem accounts_run (hcached : s.cache.isSome = true) :
    Accounts s (s.run errand).1.toList (s.run errand).2 := by
  cases errand with
  | authorize clock store => exact accounts_visit accountable_authorize hcached clock store
  | permissions clock store => exact accounts_visit accountable_permissionsFor hcached clock store
  | invalidate scope => exact .idle (Option.isSome_map.trans hcached) rfl
  | purge now => exact .idle (Option.isSome_map.trans hcached) rfl

theorem accounts_runAll (hcached : s.cache.isSome = true) :
    Accounts s (s.runAll errands).1 (s.runAll errands).2 := by
  induction errands generalizing s with
  | nil => exact .idle hcached rfl
  | cons errand errands ih =>
      have hfirst : Accounts s (s.run errand).1.toList (s.run errand).2 := accounts_run hcached
      exact hfirst.trans (ih hfirst.cached)

-- ================================================================ totals

/-- If each visit adds a counter that is asked for just if it is of a kind, then there are
as many of them as visits of that kind. -/
theorem countP_increments {visits : List Visit} {counts : Counter → Bool} {kind : Visit → Bool}
    (h : ∀ v ∈ visits, v.increments.countP counts = (kind v).toNat) :
    (visits.flatMap Visit.increments).countP counts = visits.countP kind := by
  induction visits with
  | nil => rfl
  | cons v visits ih =>
      rw [List.forall_mem_cons] at h
      rw [List.flatMap_cons, List.countP_append, h.1, ih h.2, List.countP_cons, Nat.add_comm]
      cases kind v <;> rfl

theorem Visit.countP_decisions (v : Visit) :
    v.increments.countP (·.name = "trellis_authz_decisions_total") = v.decided.toNat := by
  obtain ⟨said, stored, returned⟩ := v
  have hcounted : returned.counted.countP (·.name = "trellis_authz_decisions_total")
      = (Visit.decided ⟨said, stored, returned⟩).toNat := by
    cases returned with
    | permissions answer => rfl
    | decision answer => cases answer <;> rfl
  unfold Visit.increments
  rw [List.countP_append, hcounted]
  cases said with
  | none => exact Nat.zero_add _
  | some result => exact Nat.zero_add _

/-- What is returned is counted under the decisions only. -/
theorem Returned.countP_counted {counts : Counter → Bool} (returned : Returned)
    (h : ∀ decision, counts (.decisions decision) = false) :
    returned.counted.countP counts = 0 := by
  apply List.countP_eq_zero.2
  intro counter hmem
  cases returned with
  | permissions answer => cases hmem
  | decision answer =>
      cases answer with
      | error error => cases hmem
      | ok decision =>
          cases List.mem_singleton.1 hmem
          rw [h]
          exact Bool.false_ne_true

theorem Visit.countP_lookups (v : Visit) :
    v.increments.countP (·.name = "trellis_authz_membership_lookups_total")
      = v.said.isSome.toNat := by
  unfold Visit.increments
  rw [List.countP_append, Returned.countP_counted _ fun _ => rfl]
  cases v.said with
  | none => rfl
  | some result => rfl

/-- A hit is a lookup for which the store is not asked. -/
theorem Visit.countP_hits (v : Visit) :
    v.increments.countP (· == .cache true) = v.isHit.toNat := by
  unfold Visit.increments Visit.isHit
  rw [List.countP_append, Returned.countP_counted _ fun _ => rfl]
  cases v.said with
  | none => rfl
  | some result => cases v.stored <;> rfl

theorem Visit.Regular.countP_misses {v : Visit} (h : v.Regular) :
    v.increments.countP (· == .cache false) = v.stored.isSome.toNat := by
  unfold Visit.increments
  rw [List.countP_append, Returned.countP_counted _ fun _ => rfl]
  cases h <;> rfl

theorem Visit.Regular.countP_failures {v : Visit} (h : v.Regular) :
    v.increments.countP (· == .lookups .error) = v.storeFailed.toNat := by
  unfold Visit.increments
  rw [List.countP_append, Returned.countP_counted _ fun _ => rfl]
  cases h with
  | unasked => rfl
  | @hit membership => cases membership <;> rfl
  | @learned membership => cases membership <;> rfl
  | failed => rfl

/-- The calls that fail are those for which the store is asked and fails. -/
theorem Visit.Regular.failed_eq {v : Visit} (h : v.Regular) :
    (!v.returned.isOk) = v.storeFailed := by
  cases h with
  | unasked hok => rw [hok]; rfl
  | hit hok => rw [hok]; rfl
  | learned hok => rw [hok]; rfl
  | failed hfailed => rw [hfailed]; rfl

/-- Lookups through the cache are hits, or the store is asked. -/
theorem countP_said {visits : List Visit} (h : ∀ v ∈ visits, v.Regular) :
    visits.countP (·.said.isSome)
      = visits.countP Visit.isHit + visits.countP (·.stored.isSome) := by
  induction visits with
  | nil => rfl
  | cons v visits ih =>
      rw [List.forall_mem_cons] at h
      have hv : (if v.said.isSome then 1 else 0)
          = (if v.isHit then 1 else 0) + if v.stored.isSome then 1 else 0 := by
        cases h.1 <;> rfl
      rw [List.countP_cons, List.countP_cons, List.countP_cons, ih h.2, hv]
      exact Nat.add_add_add_comm ..

/-- The labels of the decisions that are counted. -/
theorem labels_of_combination : ∀ decision ∈ Decision.combinations,
    (Counter.decisions decision).labels ∈
      [[("reason", "superuser_bypass"), ("outcome", "allow")],
        [("reason", "no_policy"), ("outcome", "deny")],
        [("reason", "policy_evaluated"), ("outcome", "allow")],
        [("reason", "policy_evaluated"), ("outcome", "deny")]] := by
  decide

theorem Visit.mem_counted {v : Visit} {decision : Decision}
    (h : .decisions decision ∈ v.increments) : .decisions decision ∈ v.returned.counted := by
  unfold Visit.increments at h
  rcases List.mem_append.1 h with h | h
  · simp at h
  · exact h

-- ========================================================== main result

/-- After any errands from counters at zero: the decisions that are counted are as many as
calls returned one, under the labels there can be; the lookups that are counted are the
hits and the misses of the cache; there is a miss for each time the store is asked; and
the lookups that are counted as failed are as many as times that the store failed, and as
calls that did. -/
theorem counters_account_for_calls (catalog : Catalog) (registry : Registry) (cache : Cache)
    (errands : List Errand) :
    let s : Service := { catalog, registry, cache := some cache }
    let visits := (s.runAll errands).1
    let journal := (s.runAll errands).2.journal
    journal.sum "trellis_authz_decisions_total" = visits.countP Visit.decided
      ∧ (∀ counter ∈ journal.counters, counter.name = "trellis_authz_decisions_total" →
          counter.labels ∈
            [[("reason", "superuser_bypass"), ("outcome", "allow")],
              [("reason", "no_policy"), ("outcome", "deny")],
              [("reason", "policy_evaluated"), ("outcome", "allow")],
              [("reason", "policy_evaluated"), ("outcome", "deny")]])
      ∧ journal.sum "trellis_authz_membership_lookups_total"
          = journal.total (.cache true) + journal.total (.cache false)
      ∧ journal.total (.cache true) = visits.countP Visit.isHit
      ∧ journal.total (.cache false) = visits.countP (·.stored.isSome)
      ∧ journal.total (.lookups .error) = visits.countP Visit.storeFailed
      ∧ journal.total (.lookups .error) = visits.countP (!·.returned.isOk) := by
  intro s visits journal
  have haccounts : Accounts s visits (s.runAll errands).2 := accounts_runAll rfl
  have hregular : ∀ v ∈ visits, v.Regular := fun v hv => (haccounts.sound v hv).regular
  have hincrements : journal.increments = visits.flatMap Visit.increments := haccounts.increments
  have hhits : journal.total (.cache true) = visits.countP Visit.isHit := by
    unfold Journal.total
    rw [hincrements]
    exact countP_increments fun v _ => v.countP_hits
  have hmisses : journal.total (.cache false) = visits.countP (·.stored.isSome) := by
    unfold Journal.total
    rw [hincrements]
    exact countP_increments fun v hv => (hregular v hv).countP_misses
  have hfailures : journal.total (.lookups .error) = visits.countP Visit.storeFailed := by
    unfold Journal.total
    rw [hincrements]
    exact countP_increments fun v hv => (hregular v hv).countP_failures
  refine ⟨?_, ?_, ?_, hhits, hmisses, hfailures, ?_⟩
  · rw [Journal.sum_eq_countP, hincrements]
    exact countP_increments fun v _ => v.countP_decisions
  · intro counter hmem hname
    rw [Journal.mem_counters, hincrements] at hmem
    obtain ⟨v, hv, hadded⟩ := List.mem_flatMap.1 hmem
    cases counter with
    | decisions decision =>
        apply labels_of_combination
        exact (haccounts.sound v hv).combinations decision (Visit.mem_counted hadded)
    | lookups outcome => simp [Counter.name] at hname
    | cache hit => simp [Counter.name] at hname
  · rw [Journal.sum_eq_countP, hhits, hmisses, hincrements, ← countP_said hregular]
    exact countP_increments fun v _ => v.countP_lookups
  · rw [hfailures]
    apply List.countP_congr
    intro v hv
    rw [(hregular v hv).failed_eq]

-- A page is asked for by an administrator, by a user for an action that nothing guards, and
-- by the user while the store is down, then while it answers, and then again.
example :
    let policy := (ResourcePolicy.new "page").bind Action.retrieve (.not (.hasPermission "edit"))
    let s : Service :=
      { catalog := ⟨{}, List.nodup_nil⟩, registry := Registry.empty.register policy,
        cache := some (.new 5) }
    let ask (subject : Subject) (action : Action) (result : Lookup) : Errand :=
      .authorize (.still 0) (fun _ => result) subject (.object "page" (some (.new ⟨1⟩ ⟨2⟩))) action
    (s.runAll
      [ask (.superuser ⟨1⟩) Action.retrieve (.ok none),
        ask (.registered ⟨7⟩) Action.destroy (.ok none),
        ask (.registered ⟨7⟩) Action.retrieve (.error (.unavailable "down")),
        ask (.registered ⟨7⟩) Action.retrieve (.ok none),
        ask (.registered ⟨7⟩) Action.retrieve (.ok none)]).2.journal.increments
      = [.decisions ⟨true, .superuserBypass⟩,
          .decisions ⟨false, .noPolicy⟩,
          .cache false, .lookups .error,
          .cache false, .lookups .none, .decisions ⟨true, .policyEvaluated⟩,
          .cache true, .lookups .none, .decisions ⟨true, .policyEvaluated⟩] := by
  decide +kernel

end Service

end ProjectAccess
