/-
With the hooks called, the cache makes no difference.

A service takes requests one after the other: changes of the directory, questions
about access, invalidations, purges, and other policies. Each comes with what the
clock shows meanwhile, and nothing is assumed of the clock.

# What is owed

A change that succeeds owes an invalidation that covers its key. `hooked` goes along
a list of requests, keeps the keys for which one is owed, and wants none to be owed
when a question about access is put. It looks at the directory only to see which
changes succeed, so it is the same for every cache.

# Why there is no difference

The cache reflects the directory except for what is owed (`Cache.Reflects`, and
`Current` for the service). Every request keeps that: a change only touches the key
for which it comes to owe, a lookup leaves what the directory says, and an
invalidation drops every entry for the keys that it takes off. When nothing is owed
every hit is therefore what the directory says, and the outcome is the one that the
directory alone gives (`Request.outcome`), with a cache as without.
-/
import ProjectAccess.Catalog.Builtin
import ProjectAccess.Policy.Reference
import ProjectAccess.Proofs.Cache.Entries
import ProjectAccess.Proofs.Directory.Changes
import ProjectAccess.Proofs.Service.Lookups

namespace ProjectAccess

-- ============================================================ the cache

namespace Cache

/-- Every entry is what the store holds, but for some keys. -/
def Reflects (held : MemberKey → Option Membership) (owed : List MemberKey) (c : Cache) : Prop :=
  ∀ key entry, (key, entry) ∈ c.entries → key ∉ owed → entry.membership = held key

variable {c : Cache} {held held' : MemberKey → Option Membership} {owed : List MemberKey}
variable {key : MemberKey} {membership : Option Membership}

theorem reflects_new {ttl : Nat} : (Cache.new ttl).Reflects held owed :=
  fun _ _ hmem => absurd hmem not_mem_new

/-- A cache whose entries are among those of one that reflects the store does so too. -/
theorem Reflects.of_subset {c' : Cache} (h : c.Reflects held owed)
    (hentries : c'.entries ⊆ c.entries) : c'.Reflects held owed :=
  fun key entry hmem => h key entry (hentries hmem)

/-- A hit is on what the store holds. -/
theorem Reflects.begin_eq_hit {now : Nat} (h : c.Reflects held owed) (hkey : key ∉ owed)
    (hhit : (c.begin now key).1 = .hit membership) : membership = held key := by
  obtain ⟨entry, hentry, -, rfl⟩ := Cache.begin_eq_hit hhit
  exact h key entry (mem_of_found hentry) hkey

/-- A lookup that was told what the store holds leaves just that. -/
theorem Reflects.finish {stored swept : Nat} {ticket : Ticket} (h : c.Reflects held owed)
    (htold : membership = held ticket.key) :
    (c.finish stored swept ticket membership).Reflects held owed := by
  intro key entry hmem hkey
  rcases mem_filled.1 (mem_filled_of_mem_finish hmem) with ⟨hold, -⟩ | ⟨-, rfl, rfl⟩
  · exact h key entry hold hkey
  · exact htold

/-- What an invalidation covers is owed no more: there is no entry left for it. -/
theorem Reflects.invalidate {scope : Scope} (h : c.Reflects held owed) :
    (c.invalidate scope).Reflects held (owed.filter fun key => !scope.covers key) := by
  intro key entry hmem hkey
  obtain ⟨hold, hcovers⟩ := mem_invalidate.1 hmem
  refine h key entry hold fun howed => hkey ?_
  rw [List.mem_filter, hcovers]
  exact ⟨howed, rfl⟩

/-- If the store comes to hold something else under one key, that key is owed. -/
theorem Reflects.change (h : c.Reflects held owed)
    (hsame : ∀ k, k ≠ key → held' k = held k) : c.Reflects held' (key :: owed) := by
  intro k entry hmem hk
  rw [List.mem_cons, not_or] at hk
  rw [hsame k hk.1]
  exact h k entry hmem hk.2

end Cache

namespace Service

-- ============================================================= requests

/-- What a service is asked to do. -/
inductive Request where
  | alter (change : Directory.Change)
  | authorize (subject : Subject) (resource : Resource) (action : Action)
  | permissions (subject : Subject) (project : Project)
  | invalidate (scope : Cache.Scope)
  | purge
  /-- From now on decide by other permissions and policies. -/
  | configure (catalog : Catalog) (registry : Registry)

/-- What a request has for an outcome. -/
inductive Outcome where
  /-- What there is under the key of a change after it, or why it failed. -/
  | changed (left : Except StoreError (Option Membership))
  | decided (reply : Reply Decision)
  | permitted (reply : Reply PermissionSet)
  | done

/-- Takes a request. -/
def perform (clock : Cache.Readings) (request : Request) (s : Service) : Outcome × Service :=
  match request with
  | .alter change =>
    match s.directory.attempt change with
    | .ok (left, directory) => (.changed (.ok left), { s with directory })
    | .error error => (.changed (.error error), s)
  | .authorize subject resource action =>
    let (reply, s) := s.authorize clock subject resource action
    (.decided reply, s)
  | .permissions subject project =>
    let (reply, s) := s.permissionsFor clock subject project
    (.permitted reply, s)
  | .invalidate scope => (.done, s.invalidate scope)
  | .purge => (.done, s.purge clock.begun)
  | .configure catalog registry => (.done, { s with catalog, registry })

/-- The outcomes of requests that are taken one after the other. -/
def outcomes (s : Service) : List (Cache.Readings × Request) → List Outcome
  | [] => []
  | (clock, request) :: requests =>
    let (outcome, s) := s.perform clock request
    outcome :: s.outcomes requests

-- ===================================================== what is owed

/-- The request is a question about access. -/
def Request.asks : Request → Bool
  | .authorize _ _ _ => true
  | .permissions _ _ => true
  | _ => false

/-- The directory after a request. -/
def Request.directoryAfter (request : Request) (d : Directory) : Directory :=
  match request with
  | .alter change =>
    match d.attempt change with
    | .ok (_, d) => d
    | .error _ => d
  | _ => d

/-- The keys for which an invalidation is owed after a request. -/
def Request.owedAfter (request : Request) (d : Directory) (owed : List MemberKey) :
    List MemberKey :=
  match request with
  | .alter change =>
    match d.attempt change with
    | .ok _ => change.key :: owed
    | .error _ => owed
  | .invalidate scope => owed.filter fun key => !scope.covers key
  | _ => owed

/-- After every change that succeeds, and before the next question about access, there
is an invalidation that covers the key of the change. -/
def hooked (d : Directory) (owed : List MemberKey) : List Request → Bool
  | [] => true
  | request :: requests =>
    (!request.asks || owed.isEmpty)
      && hooked (request.directoryAfter d) (request.owedAfter d owed) requests

-- ============================================ answers from the directory

/-- The gate after a request. -/
def Request.gateAfter (request : Request) (g : Gate) : Gate :=
  match request with
  | .configure catalog registry => ⟨catalog, registry, Directory.backend⟩
  | _ => g

/-- The outcome of a request if the directory itself is asked. -/
def Request.outcome (request : Request) (g : Gate) (d : Directory) : Outcome :=
  match request with
  | .alter change => .changed ((d.attempt change).map (·.1))
  | .authorize subject resource action =>
    .decided ((g.authorize subject resource action).answeredBy fun key => .ok (d.lookup key))
  | .permissions subject project =>
    .permitted ((g.permissionsFor subject project).answeredBy fun key => .ok (d.lookup key))
  | _ => .done

/-- The outcomes of requests if the directory itself is asked. -/
def directOutcomes (g : Gate) (d : Directory) : List Request → List Outcome
  | [] => []
  | request :: requests =>
    request.outcome g d :: directOutcomes (request.gateAfter g) (request.directoryAfter d) requests

variable {s : Service} {request : Request} {owed : List MemberKey}

/-- The cache, if there is one, reflects the directory but for some keys. -/
def Current (s : Service) (owed : List MemberKey) : Prop :=
  ∀ cache, s.cache = some cache → cache.Reflects s.directory.lookup owed

/-- A lookup through a current cache is answered as by the directory. Only the cache and
the journal change, and the cache stays current. -/
theorem lookup_of_current (clock : Cache.Readings) (h : s.Current []) (key : MemberKey) :
    ∃ cache journal, s.lookup clock s.store key = (s.store key, { s with cache, journal })
      ∧ ({ s with cache, journal } : Service).Current [] := by
  cases hcache : s.cache with
  | none =>
      refine ⟨s.cache, s.journal, ?_, h⟩
      rw [lookup_of_uncached hcache]
  | some c =>
      have hreflects : c.Reflects s.directory.lookup [] := h c hcache
      have hafter : (c.begin clock.begun key).2.Reflects s.directory.lookup [] :=
        hreflects.of_subset fun _ hmem => Cache.mem_of_mem_begin hmem
      cases hbegin : c.begin clock.begun key with
      | mk beginning c' =>
          rw [hbegin] at hafter
          cases beginning with
          | hit membership =>
              have htold : membership = s.directory.lookup key :=
                hreflects.begin_eq_hit List.not_mem_nil (by rw [hbegin])
              refine ⟨some c', s.journal.append [.count (.cache true)], ?_, fun cache hsome => ?_⟩
              · rw [lookup_of_hit hcache hbegin, htold]
                rfl
              · cases hsome
                exact hafter
          | miss ticket =>
              have hticket : ticket = ⟨key, c.generation⟩ := Cache.begin_eq_miss (by rw [hbegin])
              refine ⟨some (c'.finish clock.stored clock.swept ticket (s.directory.lookup key)),
                s.journal.append [.count (.cache false)], ?_, fun cache hsome => ?_⟩
              · rw [lookup_of_miss hcache hbegin rfl]
                rfl
              · cases hsome
                exact hafter.finish (by rw [hticket])

/-- An inquiry of a service with a current cache is answered as by the directory. Only
the cache and the journal change, and the cache stays current. -/
theorem answer_of_current {α : Type} (clock : Cache.Readings) (h : s.Current [])
    (inquiry : Inquiry α) :
    ∃ cache journal,
      s.answer clock s.store inquiry
          = (inquiry.answeredBy s.store, { s with cache, journal })
        ∧ ({ s with cache, journal } : Service).Current [] := by
  cases inquiry with
  | finished reply => exact ⟨s.cache, _, rfl, h⟩
  | waiting key resume =>
      obtain ⟨cache, journal, hlookup, hcurrent⟩ := lookup_of_current clock h key
      refine ⟨cache, journal.append (resume (s.store key)).notes, ?_, hcurrent⟩
      unfold answer
      dsimp only
      rw [hlookup]
      rfl

/-- A request leaves the gate and the directory that it says, and a cache that is
current but for what is owed then; its outcome is what the directory gives. -/
theorem perform_of_current (clock : Cache.Readings) (h : s.Current owed)
    (hready : request.asks = true → owed = []) :
    (s.perform clock request).1 = request.outcome s.gate s.directory
      ∧ (s.perform clock request).2.gate = request.gateAfter s.gate
      ∧ (s.perform clock request).2.directory = request.directoryAfter s.directory
      ∧ (s.perform clock request).2.Current (request.owedAfter s.directory owed) := by
  cases request with
  | alter change =>
      unfold perform Request.outcome Request.directoryAfter Request.owedAfter
      dsimp only
      cases hattempt : s.directory.attempt change with
      | error e => exact ⟨rfl, rfl, rfl, h⟩
      | ok result =>
          obtain ⟨left, d⟩ := result
          -- the cache stays as it is, and only the key of the change may be wrong in it
          refine ⟨rfl, rfl, rfl, fun cache hcache => (h cache hcache).change fun key hkey => ?_⟩
          rw [Directory.lookup_attempt hattempt, if_neg hkey]
  | authorize subject resource action =>
      -- a question is put only when nothing is owed
      obtain rfl := hready rfl
      obtain ⟨cache, journal, hanswer, hcurrent⟩ :=
        answer_of_current clock h (s.gate.authorize subject resource action)
      unfold perform authorize
      dsimp only
      rw [hanswer]
      exact ⟨rfl, rfl, rfl, hcurrent⟩
  | permissions subject project =>
      obtain rfl := hready rfl
      obtain ⟨cache, journal, hanswer, hcurrent⟩ :=
        answer_of_current clock h (s.gate.permissionsFor subject project)
      unfold perform permissionsFor
      dsimp only
      rw [hanswer]
      exact ⟨rfl, rfl, rfl, hcurrent⟩
  | invalidate scope =>
      refine ⟨rfl, rfl, rfl, fun cache hcache => ?_⟩
      obtain ⟨c, hc, rfl⟩ := Option.map_eq_some_iff.1 hcache
      exact (h c hc).invalidate
  | purge =>
      refine ⟨rfl, rfl, rfl, fun cache hcache => ?_⟩
      obtain ⟨c, hc, rfl⟩ := Option.map_eq_some_iff.1 hcache
      exact (h c hc).of_subset fun _ hmem => (Cache.mem_purge.1 hmem).1
  | configure catalog registry => exact ⟨rfl, rfl, rfl, h⟩

/-- If every change is followed by its invalidation in time, the outcomes are those
that the directory gives. -/
theorem outcomes_of_current {requests : List (Cache.Readings × Request)} (h : s.Current owed)
    (hhooked : hooked s.directory owed (requests.map (·.2)) = true) :
    s.outcomes requests = directOutcomes s.gate s.directory (requests.map (·.2)) := by
  induction requests generalizing s owed with
  | nil => rfl
  | cons timed requests ih =>
      obtain ⟨clock, request⟩ := timed
      rw [List.map_cons, hooked, Bool.and_eq_true] at hhooked
      obtain ⟨hpaid, hrest⟩ := hhooked
      have hready : request.asks = true → owed = [] := by
        intro hasks
        rw [hasks] at hpaid
        exact List.isEmpty_iff.1 hpaid
      obtain ⟨houtcome, hgate, hdirectory, hcurrent⟩ := perform_of_current clock h hready
      rw [List.map_cons, outcomes, directOutcomes, ← houtcome, ← hgate, ← hdirectory]
      rw [← hdirectory] at hrest
      exact congrArg _ (ih hcurrent hrest)

-- ========================================================== main result

/-- If after every change that succeeds, and before the next question about access, an
invalidation covers the key of the change, then every outcome is the same with a cache
as without: for every time to live, whatever the clock shows, and wherever
invalidations and purges come besides. -/
theorem outcomes_eq_without_cache (catalog : Catalog) (registry : Registry) (ttl : Nat)
    (requests : List (Cache.Readings × Request))
    (hhooked : hooked .empty [] (requests.map (·.2)) = true) :
    outcomes { catalog, registry, cache := some (.new ttl) } requests
      = outcomes { catalog, registry } requests := by
  have hcached : ({ catalog, registry, cache := some (.new ttl) } : Service).Current [] := by
    intro cache hcache
    cases hcache
    exact Cache.reflects_new
  have hbare : ({ catalog, registry } : Service).Current [] := nofun
  rw [outcomes_of_current hcached hhooked, outcomes_of_current hbare hhooked]
  rfl

/-- A user asks for a private project before joining it, twice as a member, and after
having left it. The second attempt to leave fails and owes nothing. -/
def visits : List (Cache.Readings × Request) :=
  let visitor : Membership := .new ⟨7⟩ (.new ⟨3⟩ ⟨1⟩ "Back" ["view_project"])
  let ask : Request := .authorize (.registered ⟨7⟩)
    (.project ((Project.new ⟨1⟩ ⟨2⟩).withPrivate true)) Action.retrieve
  [(.still 0, ask),
    (.still 1, .alter (.add visitor)), (.still 2, .invalidate (.member visitor.key)),
    (.still 3, ask), (⟨4, 5, 6⟩, ask),
    (.still 7, .alter (.remove visitor.key)), (.still 8, .alter (.remove visitor.key)),
    (.still 9, .invalidate (.project ⟨1⟩)), (.still 9, .purge),
    (.still 10, ask)]

/-- The user is let in while a member, with a cache that remembers for long as without. -/
theorem outcomes_visits_eq_without_cache :
    hooked .empty [] (visits.map (·.2)) = true
      ∧ (outcomes { catalog := .builtin, registry := .reference, cache := some (.new 60000) }
            visits).filterMap (fun
          | .decided reply => reply.answer.toOption.map (·.allow)
          | _ => none) = [false, true, true, false]
      ∧ outcomes { catalog := .builtin, registry := .reference, cache := some (.new 60000) } visits
          = outcomes { catalog := .builtin, registry := .reference } visits := by
  have hhooked : hooked .empty [] (visits.map (·.2)) = true := rfl
  exact ⟨hhooked, rfl, outcomes_eq_without_cache .builtin .reference 60000 visits hhooked⟩

end Service

end ProjectAccess
