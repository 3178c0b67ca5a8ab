/-
Lookups on which the store fails leave no trace.

Such a lookup passes the failure on as it is. It leaves nothing in the cache and is not
counted, but it does touch the cache: an expired entry for its key goes away before the
store is asked. To see that this is all, a run is put beside the same run without its
failed lookups (`withoutFailures`).

# The invariant

`Trims` is what holds between the two caches all the way. They have counted the same
answers, so they sweep at the same moments; and the entries of the first are entries of
the second, which has besides only entries that have expired, under keys for which the
store has failed. While both runs make the same calls that is kept because what is put
in and what is taken out is the same. When the first run makes a lookup that the second
does not, an expired entry goes, and its key joins the keys with a failure.
-/
import ProjectAccess.Proofs.Service.Exchanges

namespace ProjectAccess

namespace Cache

variable {lost lost' : MemberKey → Prop} {now now' : Nat} {c c' c₁ c₁' : Cache} {key : MemberKey}
variable {clock : Readings} {store : MemberKey → Lookup} {x x' : Service.Exchange}

/-- The first cache is the second one less some entries that have expired. -/
structure Trims (lost : MemberKey → Prop) (now : Nat) (c c' : Cache) : Prop where
  distinct : c.Distinct
  distinct' : c'.Distinct
  ttl_eq : c.ttl = c'.ttl
  inserts_eq : c.inserts = c'.inserts
  trails : Trails now lost c.holds c'.holds

theorem Trims.refl (h : c.Distinct) : c.Trims lost now c := ⟨h, h, rfl, rfl, .refl⟩

theorem Trims.later (h : c.Trims lost now c') (hnow : now ≤ now') (hlost : ∀ k, lost k → lost' k) :
    c.Trims lost' now' c' :=
  { h with trails := h.trails.later hnow hlost }

theorem Trims.live?_eq (h : c.Trims lost now c') : c.live? now key = c'.live? now key := by
  apply Option.ext
  intro entry
  rw [h.distinct.live?_eq_some_iff, h.distinct'.live?_eq_some_iff]
  exact and_congr_left fun hlive => h.trails.live_iff hlive

/-- The same lookup of both takes the same course. -/
theorem Trims.lookup (h : c.Trims lost clock.begun c') (hswept : clock.begun ≤ clock.swept)
    (hcourse : Course clock store key c x c₁) (hcourse' : Course clock store key c' x' c₁') :
    x = x' ∧ c₁.Trims lost clock.swept c₁' := by
  have hlater := h.later hswept fun _ hk => hk
  obtain ⟨hsame, ⟨rfl, rfl⟩ | ⟨membership, rfl, rfl⟩ | ⟨rfl, rfl⟩⟩ :=
    hcourse.alike hcourse' h.live?_eq
  · exact ⟨hsame, hlater⟩
  · refine ⟨hsame, hcourse.distinct h.distinct, hcourse'.distinct h.distinct', ?_, ?_, ?_⟩
    · rw [hcourse.ttl_eq, hcourse'.ttl_eq]
      exact h.ttl_eq
    · rw [inserts_finish, inserts_finish]
      exact congrArg (· + 1) h.inserts_eq
    · -- both keep and add the same, and sweep at the same moment
      refine hlater.trails.update
        (fun k e => (k = key ∧ e = ⟨membership, clock.stored + c.ttl⟩)
          ∧ (c.inserts % sweepInterval = sweepInterval - 1 → clock.swept < e.expires))
        (fun k e => k ≠ key
          ∧ (c.inserts % sweepInterval = sweepInterval - 1 → clock.swept < e.expires))
        (fun k e => ?_) fun k e => ?_
      · simp only [holds, mem_learned, or_and_right, and_assoc]
      · simp only [holds, mem_learned, or_and_right, and_assoc, h.inserts_eq, h.ttl_eq]
  · refine ⟨hsame, h.distinct.drop _, h.distinct'.drop _, h.ttl_eq, h.inserts_eq, ?_⟩
    refine hlater.trails.update (fun _ _ => False) (fun k _ => k ≠ key) (fun k e => ?_)
      fun k e => ?_
    · simp [holds, mem_erase]
    · simp [holds, mem_erase]

/-- A lookup of the first alone, on which the store fails, takes away what had expired
under its key. -/
theorem Trims.failed (h : c.Trims lost now c') (hnone : c.live? now key = none) (hkey : lost key) :
    (c.erase key).Trims lost now c' := by
  refine ⟨h.distinct.drop _, h.distinct', h.ttl_eq, h.inserts_eq, ?_⟩
  refine h.trails.lose (fun k e hmem => (mem_erase.1 hmem).1) fun k e hmem => ?_
  by_cases hk : k = key
  · subst hk
    exact .inr ⟨h.distinct.expired_of_live?_none hnone hmem, hkey⟩
  · exact .inl (mem_erase.2 ⟨hmem, hk⟩)

theorem Trims.invalidate (h : c.Trims lost now c') (scope : Scope) :
    (c.invalidate scope).Trims lost now (c'.invalidate scope) where
  distinct := h.distinct.drop fun key _ => scope.covers key
  distinct' := h.distinct'.drop fun key _ => scope.covers key
  ttl_eq := h.ttl_eq
  inserts_eq := h.inserts_eq
  trails := by
    refine h.trails.update (fun _ _ => False) (fun k _ => scope.covers k = false) (fun k e => ?_)
      fun k e => ?_
    · simp [holds, mem_invalidate]
    · simp [holds, mem_invalidate]

theorem Trims.purge (h : c.Trims lost now c') : (c.purge now).Trims lost now (c'.purge now) where
  distinct := h.distinct.drop _
  distinct' := h.distinct'.drop _
  ttl_eq := h.ttl_eq
  inserts_eq := h.inserts_eq
  trails := by
    refine h.trails.update (fun _ _ => False) (fun _ e => now < e.expires) (fun k e => ?_)
      fun k e => ?_
    · simp [holds, mem_purge]
    · simp [holds, mem_purge]

end Cache

namespace Service

variable {s s' : Service} {c c' : Cache} {calls : List Call} {call : Call} {key : MemberKey}

-- ================================================= runs without failures

/-- The call is a lookup on which the store fails. -/
def Call.fails (call : Call) (s : Service) : Bool :=
  (call.exchange? s).any fun x => !x.answer.isOk

/-- The calls of a run less the lookups on which the store fails. -/
def withoutFailures (s : Service) : List Call → List Call
  | [] => []
  | call :: calls =>
    if call.fails s then (s.handle call).withoutFailures calls
    else call :: (s.handle call).withoutFailures calls

/-- The store has failed to say something of the key. -/
def FailedFor (s : Service) (calls : List Call) (key : MemberKey) : Prop :=
  ∃ x ∈ s.exchanges calls, x.asked = some key ∧ x.answer.isOk = false

theorem withoutFailures_snoc : s.withoutFailures (calls ++ [call])
    = s.withoutFailures calls ++ if call.fails (s.handleAll calls) then [] else [call] := by
  induction calls generalizing s with
  | nil =>
      show s.withoutFailures [call] = if call.fails s then [] else [call]
      simp only [withoutFailures]
  | cons first calls ih =>
      have hrest := ih (s := s.handle first)
      rw [List.cons_append, withoutFailures, withoutFailures, hrest]
      split
      · rfl
      · rfl

theorem FailedFor.snoc (h : s.FailedFor calls key) : s.FailedFor (calls ++ [call]) key := by
  obtain ⟨x, hmem, hx⟩ := h
  refine ⟨x, ?_, hx⟩
  rw [exchanges_snoc]
  exact List.mem_append_left _ hmem

-- ========================================================== side by side

variable {lost : MemberKey → Prop}

/-- A call of both runs: the same is seen of it, and what holds between them is kept. -/
theorem trims_handle (hcache : s.cache = some c) (hcache' : s'.cache = some c')
    (h : ∀ now, Reached now calls → c.Trims lost now c') (hclock : call.readings.Pairwise (· ≤ ·))
    (hreached : ∀ reading ∈ call.readings, Reached reading calls) :
    call.exchange? s = call.exchange? s'
      ∧ ∃ c₁ c₁', (s.handle call).cache = some c₁ ∧ (s'.handle call).cache = some c₁'
        ∧ ∀ now, Reached now (calls ++ [call]) → c₁.Trims lost now c₁' := by
  simp only [reached_snoc]
  cases call with
  | lookup clock store key =>
      obtain ⟨c₁, hcourse, hc₁⟩ := cache_handle_lookup hcache clock store key
      obtain ⟨c₁', hcourse', hc₁'⟩ := cache_handle_lookup hcache' clock store key
      simp only [Call.readings, List.pairwise_cons, List.forall_mem_cons] at hclock hreached
      obtain ⟨hsame, htrims⟩ := (h clock.begun hreached.1).lookup hclock.1.2.1 hcourse hcourse'
      refine ⟨congrArg some hsame, c₁, c₁', hc₁, hc₁', fun now hnow => ?_⟩
      apply htrims.later _ fun _ hk => hk
      exact hnow.2 clock.swept (by simp [Call.readings])
  | invalidate scope =>
      refine ⟨rfl, c.invalidate scope, c'.invalidate scope, congrArg (Option.map _) hcache,
        congrArg (Option.map _) hcache', fun now hnow => ?_⟩
      exact (h now hnow.1).invalidate scope
  | purge now =>
      refine ⟨rfl, c.purge now, c'.purge now, congrArg (Option.map _) hcache,
        congrArg (Option.map _) hcache', fun now' hnow => ?_⟩
      have hpurged := (h now (hreached now (by simp [Call.readings]))).purge
      apply hpurged.later _ fun _ hk => hk
      exact hnow.2 now (by simp [Call.readings])

/-- A failed lookup of the first run alone. -/
theorem trims_handle_of_fails (hcache : s.cache = some c)
    (h : ∀ now, Reached now calls → c.Trims lost now c')
    (hclock : call.readings.Pairwise (· ≤ ·))
    (hreached : ∀ reading ∈ call.readings, Reached reading calls) (hfails : call.fails s = true)
    (hlost : ∀ x, call.exchange? s = some x → x.answer.isOk = false →
      ∀ key, x.asked = some key → lost key) :
    ∃ c₁, (s.handle call).cache = some c₁
      ∧ ∀ now, Reached now (calls ++ [call]) → c₁.Trims lost now c' := by
  simp only [reached_snoc]
  cases call with
  | invalidate scope => cases hfails
  | purge now => cases hfails
  | lookup clock store key =>
      obtain ⟨c₁, hcourse, hc₁⟩ := cache_handle_lookup hcache clock store key
      refine ⟨c₁, hc₁, fun now hnow => ?_⟩
      have hfailed : (s.exchange clock store key).answer.isOk = false := by
        simpa [Call.fails, Call.exchange?] using hfails
      have hkey := hlost _ rfl hfailed key
      simp only [Call.readings, List.forall_mem_cons] at hreached
      generalize s.exchange clock store key = x at hcourse hfailed hkey
      cases hcourse with
      | hit => cases hfailed
      | learned => cases hfailed
      | failed hnone hstore =>
          have htrims := (h clock.begun hreached.1).failed hnone (hkey rfl)
          apply htrims.later _ fun _ hk => hk
          exact hnow.2 clock.begun (by simp [Call.readings])

theorem trims_handleAll {ttl : Nat} (hcache : s.cache = some (.new ttl))
    (hclock : Advancing calls) :
    s.exchanges (s.withoutFailures calls) = (s.exchanges calls).filter (·.answer.isOk)
      ∧ ∃ c c', (s.handleAll calls).cache = some c
        ∧ (s.handleAll (s.withoutFailures calls)).cache = some c'
        ∧ ∀ now, Reached now calls → c.Trims (s.FailedFor calls) now c' := by
  induction calls using List.reverseRecOn with
  | nil => exact ⟨rfl, .new ttl, .new ttl, hcache, hcache, fun _ _ => .refl Cache.distinct_new⟩
  | append_singleton calls call ih =>
      obtain ⟨hcalls, hcall, hreached⟩ := hclock.of_snoc
      obtain ⟨hseen, c, c', hc, hc', htrims⟩ := ih hcalls
      have htrims' : ∀ now, Reached now calls →
          c.Trims (s.FailedFor (calls ++ [call])) now c' := fun now hnow =>
        (htrims now hnow).later (Nat.le_refl now) fun _ => FailedFor.snoc
      rw [withoutFailures_snoc, handleAll_snoc, exchanges_snoc, List.filter_append]
      by_cases hfails : call.fails (s.handleAll calls) = true
      · -- the other run stays where it is
        rw [if_pos hfails, List.append_nil, hseen]
        have hdropped :
            (call.exchange? (s.handleAll calls)).toList.filter (·.answer.isOk) = [] := by
          cases hx : call.exchange? (s.handleAll calls) with
          | none => rfl
          | some x => simpa [Call.fails, hx] using hfails
        obtain ⟨c₁, hc₁, htrims₁⟩ := trims_handle_of_fails hc htrims' hcall hreached hfails
          fun x hx hfailed key hkey => ⟨x, by rw [exchanges_snoc, hx]; simp, hkey, hfailed⟩
        rw [hdropped, List.append_nil]
        exact ⟨rfl, c₁, c', hc₁, hc', htrims₁⟩
      · rw [if_neg hfails, exchanges_snoc, handleAll_snoc, hseen]
        obtain ⟨hsame, c₁, c₁', hc₁, hc₁', htrims₁⟩ := trims_handle hc hc' htrims' hcall hreached
        have hkept : (call.exchange? (s.handleAll calls)).toList.filter (·.answer.isOk)
            = (call.exchange? (s.handleAll calls)).toList := by
          cases hx : call.exchange? (s.handleAll calls) with
          | none => rfl
          | some x => simpa [Call.fails, hx] using hfails
        rw [hkept, hsame]
        exact ⟨rfl, c₁, c₁', hc₁, hc₁', htrims₁⟩

-- ========================================================== main result

/-- A lookup through a cache fails just when the store is asked and fails, with the failure
of the store. It then leaves the entries that there were, but for those of its key that
have expired, and starts no generation and is not counted. A run without its failed
lookups is seen as the run less those lookups. After both the same counts for every key:
the cache of the full run has all entries of the other, except that some may be gone which
have expired and under whose key a lookup failed. -/
theorem failures_leave_no_trace (s : Service) (ttl : Nat) (calls : List Call)
    (hcache : s.cache = some (.new ttl)) (hclock : Advancing calls) :
    (∀ clock store key,
        let seen := (s.handleAll calls).exchange clock store key
        ∃ c c', (s.handleAll calls).cache = some c
          ∧ (s.handleAll (calls ++ [.lookup clock store key])).cache = some c'
          ∧ ∀ error,
            (seen.answer = .error error ↔ seen.asked = some key ∧ store key = .error error)
            ∧ (seen.answer = .error error →
                c'.generation = c.generation ∧ c'.inserts = c.inserts
                ∧ ∀ k e, (k, e) ∈ c'.entries
                  ↔ (k, e) ∈ c.entries ∧ ¬ (k = key ∧ e.expires ≤ clock.begun)))
      ∧ s.exchanges (s.withoutFailures calls) = (s.exchanges calls).filter (·.answer.isOk)
      ∧ ∃ c c', (s.handleAll calls).cache = some c
          ∧ (s.handleAll (s.withoutFailures calls)).cache = some c'
          ∧ ∀ now, Reached now calls →
            (∀ key, c.live? now key = c'.live? now key)
            ∧ (∀ key entry, (key, entry) ∈ c.entries → (key, entry) ∈ c'.entries)
            ∧ ∀ key entry, (key, entry) ∈ c'.entries → (key, entry) ∉ c.entries →
                entry.expires ≤ now ∧ s.FailedFor calls key := by
  obtain ⟨hseen, c, c', hc, hc', htrims⟩ := trims_handleAll hcache hclock
  refine ⟨fun clock store key => ?_, hseen, c, c', hc, hc', fun now hnow => ⟨fun key => ?_, ?_, ?_⟩⟩
  · intro seen
    obtain ⟨c₁, hcourse, hc₁⟩ := cache_handle_lookup hc clock store key
    rw [handleAll_snoc]
    refine ⟨c, c₁, hc, hc₁, fun error => ?_⟩
    obtain ⟨now, hnow⟩ := exists_reached calls
    have hdistinct : c.Distinct := (htrims now hnow).distinct
    change Cache.Course clock store key c seen c₁ at hcourse
    generalize seen = x at hcourse
    cases hcourse with
    | hit => exact ⟨by simp, nofun⟩
    | learned hnone hstore => exact ⟨by simp [hstore], nofun⟩
    | failed hnone hstore =>
        refine ⟨by simp [hstore], fun _ => ⟨rfl, rfl, fun k e => ?_⟩⟩
        rw [Cache.mem_erase]
        refine and_congr_right fun hmem => not_congr ?_
        constructor
        · intro hk
          subst hk
          exact ⟨rfl, hdistinct.expired_of_live?_none hnone hmem⟩
        · exact fun hk => hk.1
  · exact (htrims now hnow).live?_eq
  · exact fun _ _ hmem => (htrims now hnow).trails.le hmem
  · intro key entry hmem hgone
    rcases (htrims now hnow).trails.gone hmem with hmem | hlost
    · exact absurd hmem hgone
    · exact hlost

/-- The store fails for a stranger, then for an editor whose entry has expired, and
answers the stranger's next lookup. -/
def outages : List Call :=
  let down : MemberKey → Lookup := fun _ => .error (.unavailable "down")
  [.lookup (.still 1) (fun _ => .ok (some editor)) editor.key,
    .lookup (.still 2) down passerby, .lookup (.still 7) down editor.key,
    .lookup ⟨8, 8, 9⟩ (fun _ => .ok none) passerby]

/-- Without the failures the editor's entry would still be there, for nobody to see. -/
theorem outages_alike_but_for_size :
    let s : Service :=
      { catalog := ⟨{}, List.nodup_nil⟩, registry := .empty, cache := some (.new 5) }
    Advancing outages
      ∧ (s.withoutFailures outages).length = 2
      ∧ s.exchanges (s.withoutFailures outages)
          = (s.exchanges outages).filter (·.answer.isOk)
      ∧ ∃ c c', (s.handleAll outages).cache = some c
          ∧ (s.handleAll (s.withoutFailures outages)).cache = some c'
          ∧ c.size = 1 ∧ c'.size = 2
          ∧ ∀ key, c.live? 9 key = c'.live? 9 key := by
  intro s
  have hclock : Advancing outages := by
    simp [Advancing, outages, Call.readings, Cache.Readings.still]
  have hreached : Reached 9 outages := by
    simp [Reached, outages, Call.readings, Cache.Readings.still]
  have hsize : (s.handleAll outages).cache.map Cache.size = some 1 := by decide +kernel
  have hsize' : (s.handleAll (s.withoutFailures outages)).cache.map Cache.size = some 2 := by
    decide +kernel
  obtain ⟨-, hseen, c, c', hc, hc', hafter⟩ := failures_leave_no_trace s 5 outages rfl hclock
  rw [hc] at hsize
  rw [hc'] at hsize'
  exact ⟨hclock, by decide +kernel, hseen, c, c', hc, hc', Option.some.inj hsize,
    Option.some.inj hsize', (hafter 9 hreached).1⟩

end Service

end ProjectAccess
