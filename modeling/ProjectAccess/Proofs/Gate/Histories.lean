/-
A subject's access depends on its own history only.

What users do to their memberships, and what is done to them, is served by one
directory. Two runs of calls on it may have nothing in common but what concerns one user
in one project. Then that user cannot tell the runs apart by anything that concerns the
project: not by the responses to those calls, and not by permissions or decisions
afterwards (`access_by_own_history`). Somebody anonymous cannot tell any runs apart.

The calls on one key are a run of their own. Taking all others out of a run leaves the
responses to them and the entry under the key as they are (`serve_callsOn`), because
every turn is made at one place and depends on nothing else. So two runs with the same
calls on the key meet in the run of those calls. The gate asks the store for that key or
not at all (`asked?_authorize_of_user`, `asked?_permissionsFor`), and nothing else of the
directory comes to its notice.
-/
import ProjectAccess.Catalog.Builtin
import ProjectAccess.Policy.Reference
import ProjectAccess.Proofs.Directory.Roll
import ProjectAccess.Proofs.Gate.Lookups

namespace ProjectAccess

namespace Directory

/-- The calls on one key. -/
def callsOn (key : MemberKey) (calls : List Call) : List Call := calls.filter (·.key = key)

/-- The calls on one key, with the responses to them. -/
def logOn (key : MemberKey) (log : List (Call × Response)) : List (Call × Response) :=
  log.filter (·.1.key = key)

variable {d d' : Directory} {call : Call} {calls : List Call} {key : MemberKey}
variable {response : Response} {log : List (Call × Response)}

theorem callsOn_cons : callsOn key (call :: calls)
    = if call.key = key then call :: callsOn key calls else callsOn key calls := by
  unfold callsOn
  rw [List.filter_cons]
  simp only [decide_eq_true_eq]

theorem logOn_cons : logOn key ((call, response) :: log)
    = if call.key = key then (call, response) :: logOn key log else logOn key log := by
  unfold logOn
  rw [List.filter_cons]
  simp only [decide_eq_true_eq]

/-- Directories that agree under the key of a call respond alike, and agree afterwards. -/
theorem take_congr (h : d.lookup call.key = d'.lookup call.key) :
    (d.take call).1 = (d'.take call).1
      ∧ (d.take call).2.lookup call.key = (d'.take call).2.lookup call.key := by
  have hturn : Turn call (d.lookup call.key) (d.take call).1 ((d.take call).2.lookup call.key) :=
    turn_take
  rw [h] at hturn
  exact hturn.unique turn_take

/-- Without the calls on other keys, those on a key are answered as with them, and leave
the same. -/
theorem serve_callsOn (h : d.lookup key = d'.lookup key) :
    logOn key (d.serve calls).1 = (d'.serve (callsOn key calls)).1
      ∧ (d.serve calls).2.lookup key = (d'.serve (callsOn key calls)).2.lookup key := by
  induction calls generalizing d d' with
  | nil => exact ⟨rfl, h⟩
  | cons call calls ih =>
      show logOn key ((call, (d.take call).1) :: ((d.take call).2.serve calls).1) = _
        ∧ ((d.take call).2.serve calls).2.lookup key = _
      rw [callsOn_cons, logOn_cons]
      by_cases hkey : call.key = key
      · -- both runs take the call, where the same stands in either
        subst hkey
        obtain ⟨hresponse, hafter⟩ := take_congr h
        obtain ⟨hlog, hend⟩ := ih hafter
        rw [if_pos rfl, if_pos rfl, hresponse, hlog]
        exact ⟨rfl, hend⟩
      · -- one of them takes it, and nothing changes under the key
        have hafter : (d.take call).2.lookup key = d'.lookup key :=
          (lookup_take_of_ne (Ne.symm hkey)).trans h
        rw [if_neg hkey, if_neg hkey]
        exact ih hafter

/-- Two runs with the same calls on a key meet in the run of those calls. -/
theorem agree_of_callsOn {calls' : List Call} (h : callsOn key calls = callsOn key calls') :
    logOn key (empty.serve calls).1 = logOn key (empty.serve calls').1
      ∧ (empty.serve calls).2.lookup key = (empty.serve calls').2.lookup key := by
  have hleft : logOn key (empty.serve calls).1 = (empty.serve (callsOn key calls)).1
      ∧ (empty.serve calls).2.lookup key = (empty.serve (callsOn key calls)).2.lookup key :=
    serve_callsOn rfl
  have hright : logOn key (empty.serve calls').1 = (empty.serve (callsOn key calls')).1
      ∧ (empty.serve calls').2.lookup key = (empty.serve (callsOn key calls')).2.lookup key :=
    serve_callsOn rfl
  rw [hleft.1, hright.1, hleft.2, hright.2, h]
  exact ⟨rfl, rfl⟩

/-- The directory as a store. -/
def store (d : Directory) : MemberKey → Lookup := fun key => .ok (d.lookup key)

end Directory

namespace Gate

variable {g : Gate} {subject : Subject} {resource : Resource} {action : Action}
variable {project : Project} {key : MemberKey} {user : User}

/-- To decide about a user in a project, the gate asks for no other key. -/
theorem asked?_authorize_of_user (hproject : resource.project? = some project)
    (h : (g.authorize (.user user) resource action).asked? = some key) :
    key = ⟨user.id, project.id⟩ := by
  obtain ⟨hsubject, -, -, hproject', -, -⟩ := asked?_authorize.1 h
  cases hsubject
  rw [hproject] at hproject'
  cases hproject'
  rfl

theorem asked?_permissionsFor :
    (g.permissionsFor subject project).asked? = some key
      ↔ ∃ user, subject = .user user ∧ key = ⟨user.id, project.id⟩ := by
  unfold permissionsFor
  rw [Inquiry.asked?_map, asked?_resolve]

/-- For somebody anonymous it asks for none. -/
theorem asked?_authorize_anonymous :
    (g.authorize .anonymous resource action).asked? ≠ some key := by
  intro h
  obtain ⟨hsubject, -, -, -, -, -⟩ := asked?_authorize.1 h
  cases hsubject

-- ========================================================== main result

/-- After two runs with the same calls on a user and a project, whatever other calls
there are and wherever they come, the calls on the two have had the same responses, and
the gate answers alike what the user may do in the project and on its resources. What
somebody anonymous may do is the same after any two runs. -/
theorem access_by_own_history (calls calls' : List Directory.Call) :
    ∃ log d log' d', Directory.empty.serve calls = (log, d)
      ∧ Directory.empty.serve calls' = (log', d')
      ∧ (∀ (user : User) (project : Project),
          Directory.callsOn ⟨user.id, project.id⟩ calls
            = Directory.callsOn ⟨user.id, project.id⟩ calls' →
          Directory.logOn ⟨user.id, project.id⟩ log = Directory.logOn ⟨user.id, project.id⟩ log'
            ∧ ∀ g : Gate,
              (g.permissionsFor (.user user) project).answeredBy d.store
                = (g.permissionsFor (.user user) project).answeredBy d'.store
              ∧ ∀ resource action, resource.project? = some project →
                (g.authorize (.user user) resource action).answeredBy d.store
                  = (g.authorize (.user user) resource action).answeredBy d'.store)
      ∧ ∀ g : Gate,
          (∀ project, (g.permissionsFor .anonymous project).answeredBy d.store
            = (g.permissionsFor .anonymous project).answeredBy d'.store)
          ∧ ∀ resource action, (g.authorize .anonymous resource action).answeredBy d.store
            = (g.authorize .anonymous resource action).answeredBy d'.store := by
  refine ⟨_, _, _, _, rfl, rfl, fun user project hcalls => ?_, fun g => ⟨fun project => ?_, ?_⟩⟩
  · obtain ⟨hlog, hentry⟩ := Directory.agree_of_callsOn hcalls
    have hstore : (Directory.empty.serve calls).2.store ⟨user.id, project.id⟩
        = (Directory.empty.serve calls').2.store ⟨user.id, project.id⟩ := congrArg Except.ok hentry
    refine ⟨hlog, fun g => ⟨Inquiry.answeredBy_congr fun key hasked => ?_, ?_⟩⟩
    · obtain ⟨_, hsubject, rfl⟩ := asked?_permissionsFor.1 hasked
      cases hsubject
      exact hstore
    · intro resource action hproject
      refine Inquiry.answeredBy_congr fun key hasked => ?_
      rw [asked?_authorize_of_user hproject hasked]
      exact hstore
  · refine Inquiry.answeredBy_congr fun key hasked => ?_
    obtain ⟨_, hsubject, -⟩ := asked?_permissionsFor.1 hasked
    cases hsubject
  · intro resource action
    exact Inquiry.answeredBy_congr fun key hasked => absurd hasked asked?_authorize_anonymous

/-- Someone who joins a project, gives up a role for another and is looked up, after being
refused at first. -/
def career : List Directory.Call :=
  [.alter (.setOwner ⟨⟨7⟩, ⟨1⟩⟩ true), .alter (.add (.new ⟨7⟩ (.new ⟨3⟩ ⟨1⟩ "Guest" []))),
    .alter (.updateRole ⟨⟨7⟩, ⟨1⟩⟩ (.new ⟨4⟩ ⟨1⟩ "Reader" ["view_project"])),
    .lookup ⟨⟨7⟩, ⟨1⟩⟩]

/-- The same among the calls of others, some of which fail. -/
def careerAmongOthers : List Directory.Call :=
  .alter (.add (.new ⟨8⟩ (.new ⟨3⟩ ⟨1⟩ "Guest" []))) :: career.take 2
    ++ [.alter (.remove ⟨⟨7⟩, ⟨2⟩⟩), .alter (.setOwner ⟨⟨8⟩, ⟨1⟩⟩ true)] ++ career.drop 2

/-- The project that is looked at. -/
def archive : Project := (Project.new ⟨1⟩ ⟨2⟩).withPrivate true

/-- The reader is let into the private project, alone as among others. -/
theorem authorize_career_eq_among_others :
    let reference := Gate.mk .builtin .reference Directory.backend
    let asks (calls : List Directory.Call) : Reply Decision :=
      (reference.authorize (.registered ⟨7⟩) (.project archive) Action.retrieve).answeredBy
        (Directory.empty.serve calls).2.store
    Directory.callsOn ⟨⟨7⟩, ⟨1⟩⟩ career = Directory.callsOn ⟨⟨7⟩, ⟨1⟩⟩ careerAmongOthers
      ∧ (asks career).answer = .ok ⟨true, .policyEvaluated⟩
      ∧ asks career = asks careerAmongOthers := by
  intro reference asks
  obtain ⟨_, _, _, _, hserve, hserve', huser, -⟩ := access_by_own_history career careerAmongOthers
  have hcalls : Directory.callsOn ⟨⟨7⟩, ⟨1⟩⟩ career
      = Directory.callsOn ⟨⟨7⟩, ⟨1⟩⟩ careerAmongOthers := rfl
  obtain ⟨-, hgate⟩ := huser ⟨⟨7⟩, false⟩ archive hcalls
  refine ⟨hcalls, rfl, ?_⟩
  have hsame := (hgate reference).2 (.project archive) Action.retrieve rfl
  show Inquiry.answeredBy (Directory.empty.serve career).2.store _
    = Inquiry.answeredBy (Directory.empty.serve careerAmongOthers).2.store _
  rw [hserve, hserve']
  exact hsame

end Gate

end ProjectAccess
