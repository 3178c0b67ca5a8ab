/-
Evictions and sweeps are not seen from outside, and sweeps come on time.

`Ledger` is what a cache would be if it had room for everything. It writes down what the
store says and until when that counts, strikes out what an invalidation covers, and
passes over a line that is no longer good; but it never removes a line for its age. A
purge is nothing to it. Every lookup through a cache is seen as one through the ledger.

# The invariant

`Follows` compares the two: the cache holds lines of the ledger, and those that it lacks
have expired. A lookup finds a line that is good in both or in neither, so both take the
same course; and what an eviction or a sweep takes away has expired by then, so it was
not good in the ledger either and never will be. That is where it is needed that the
clock does not go back.

# The period

The cache counts the answers it was told in a word, and looks at the word modulo 256.
The size of a word is a multiple of 256, so it makes no difference that the word wraps
round (`due_iff`): the sweeps come with every 256th answer for as long as there are
answers.
-/
import ProjectAccess.Proofs.Service.Exchanges

namespace ProjectAccess

namespace Cache

/-- A cache that removes nothing for its age. -/
structure Ledger where
  ttl : Nat
  line? : MemberKey → Option CacheEntry

namespace Ledger

def blank (ttl : Nat) : Ledger := ⟨ttl, fun _ => none⟩

/-- The line for a key, unless it has expired. -/
def good? (now : Nat) (key : MemberKey) (l : Ledger) : Option CacheEntry :=
  (l.line? key).filter fun entry => now < entry.expires

/-- What is seen of a lookup. -/
def exchange (clock : Readings) (store : MemberKey → Lookup) (key : MemberKey) (l : Ledger) :
    Service.Exchange :=
  match l.good? clock.begun key with
  | some entry => ⟨none, .ok entry.membership⟩
  | none => ⟨some key, store key⟩

def write (key : MemberKey) (entry : CacheEntry) (l : Ledger) : Ledger :=
  { l with line? := fun k => if k = key then some entry else l.line? k }

/-- The ledger after a call. -/
def handle (l : Ledger) : Service.Call → Ledger
  | .lookup clock store key =>
    match l.good? clock.begun key, store key with
    | none, .ok membership => l.write key ⟨membership, clock.stored + l.ttl⟩
    | _, _ => l
  | .invalidate scope => { l with line? := fun k => if scope.covers k then none else l.line? k }
  | .purge _ => l

def handleAll (l : Ledger) (calls : List Service.Call) : Ledger := calls.foldl handle l

def exchange? (l : Ledger) : Service.Call → Option Service.Exchange
  | .lookup clock store key => some (l.exchange clock store key)
  | _ => none

/-- What is seen of the lookups among calls, in their order. -/
def exchanges (l : Ledger) : List Service.Call → List Service.Exchange
  | [] => []
  | call :: calls => (l.exchange? call).toList ++ (l.handle call).exchanges calls

variable {l : Ledger} {calls : List Service.Call} {call : Service.Call}

theorem handleAll_snoc : l.handleAll (calls ++ [call]) = (l.handleAll calls).handle call :=
  List.foldl_append

theorem exchanges_snoc :
    l.exchanges (calls ++ [call])
      = l.exchanges calls ++ ((l.handleAll calls).exchange? call).toList := by
  induction calls generalizing l with
  | nil => simp [exchanges, handleAll]
  | cons first calls ih =>
      rw [List.cons_append, exchanges, ih, exchanges, List.append_assoc]
      rfl

def holds (l : Ledger) : Holding := fun key entry => l.line? key = some entry

end Ledger

-- ============================================== a cache and its ledger

variable {l : Ledger} {c c' : Cache} {now now' : Nat} {key : MemberKey}
variable {clock : Readings} {store : MemberKey → Lookup} {x : Service.Exchange}

/-- The cache holds what is in the ledger, but for some of what has expired. -/
structure Follows (l : Ledger) (now : Nat) (c : Cache) : Prop where
  distinct : c.Distinct
  ttl_eq : c.ttl = l.ttl
  trails : Trails now (fun _ => True) c.holds l.holds

theorem follows_new {ttl : Nat} : (Cache.new ttl).Follows (.blank ttl) now where
  distinct := distinct_new
  ttl_eq := rfl
  trails := ⟨fun h => absurd h not_mem_new, nofun⟩

theorem Follows.later (h : c.Follows l now) (hnow : now ≤ now') : c.Follows l now' :=
  ⟨h.distinct, h.ttl_eq, h.trails.later hnow fun _ => id⟩

/-- What counts in the cache is what is good in the ledger. -/
theorem Follows.live?_eq (h : c.Follows l now) : c.live? now key = l.good? now key := by
  apply Option.ext
  intro entry
  unfold Ledger.good?
  rw [h.distinct.live?_eq_some_iff, Option.filter_eq_some_iff, decide_eq_true_iff]
  exact and_congr_left fun hlive => h.trails.live_iff hlive

/-- A lookup shows what the ledger says of it, and the cache follows on. -/
theorem Follows.lookup (h : c.Follows l clock.begun) (hstored : clock.begun ≤ clock.stored)
    (hswept : clock.stored ≤ clock.swept) (hcourse : Course clock store key c x c') :
    x = l.exchange clock store key
      ∧ c'.Follows (l.handle (.lookup clock store key)) clock.swept := by
  have hlater : c.Follows l clock.swept := h.later (by omega)
  refine ⟨?_, hcourse.distinct h.distinct, ?_, ?_⟩
  · cases hcourse with
    | hit hlive => simp [Ledger.exchange, ← h.live?_eq, hlive]
    | learned hnone hstore => simp [Ledger.exchange, ← h.live?_eq, hnone, hstore]
    | failed hnone hstore => simp [Ledger.exchange, ← h.live?_eq, hnone, hstore]
  · rw [hcourse.ttl_eq, h.ttl_eq]
    simp only [Ledger.handle]
    split <;> rfl
  · cases hcourse with
    | hit hlive =>
        simp only [Ledger.handle, ← h.live?_eq, hlive]
        exact hlater.trails
    | @learned membership hnone hstore =>
        simp only [Ledger.handle, ← h.live?_eq, hnone, hstore]
        -- the answer goes into both, and if it is time to sweep the cache loses more
        have hwritten : Trails clock.swept (fun _ => True)
            (fun k e => (k = key ∧ e = ⟨membership, clock.stored + c.ttl⟩)
              ∨ (c.holds k e ∧ k ≠ key))
            (l.write key ⟨membership, clock.stored + l.ttl⟩).holds := by
          refine hlater.trails.update
            (fun k e => k = key ∧ e = ⟨membership, clock.stored + c.ttl⟩) (fun k _ => k ≠ key)
            (fun _ _ => Iff.rfl) fun k e => ?_
          unfold Ledger.holds Ledger.write
          by_cases hk : k = key
          · simp [hk, h.ttl_eq, eq_comm]
          · simp [hk]
        refine hwritten.lose (fun k e hmem => (mem_learned.1 hmem).1) fun k e hold => ?_
        by_cases hlive : clock.swept < e.expires
        · exact .inl (mem_learned.2 ⟨hold, fun _ => hlive⟩)
        · exact .inr ⟨by omega, trivial⟩
    | failed hnone hstore =>
        simp only [Ledger.handle, ← h.live?_eq, hnone, hstore]
        refine hlater.trails.lose (fun k e hmem => (mem_erase.1 hmem).1) fun k e hmem => ?_
        by_cases hk : k = key
        · subst hk
          have hold := h.distinct.expired_of_live?_none hnone hmem
          exact .inr ⟨by omega, trivial⟩
        · exact .inl (mem_erase.2 ⟨hmem, hk⟩)

/-- An invalidation drops from the cache what it strikes from the ledger. -/
theorem Follows.invalidate (h : c.Follows l now) (scope : Scope) :
    (c.invalidate scope).Follows (l.handle (.invalidate scope)) now where
  distinct := h.distinct.drop fun key _ => scope.covers key
  ttl_eq := h.ttl_eq
  trails := by
    refine h.trails.update (fun _ _ => False) (fun k _ => scope.covers k = false)
      (fun k e => ?_) fun k e => ?_
    · simp [Cache.holds, mem_invalidate]
    · unfold Ledger.holds Ledger.handle
      cases hcovers : scope.covers k <;> simp [hcovers]

theorem Follows.purge (h : c.Follows l now) : (c.purge now).Follows l now where
  distinct := h.distinct.drop _
  ttl_eq := h.ttl_eq
  trails := by
    refine h.trails.lose (fun k e hmem => (mem_purge.1 hmem).1) fun k e hmem => ?_
    by_cases hlive : now < e.expires
    · exact .inl (mem_purge.2 ⟨hmem, hlive⟩)
    · exact .inr ⟨by omega, trivial⟩

end Cache

namespace Service

variable {s : Service} {ttl : Nat} {calls : List Call} {call : Call} {c : Cache}
variable {l : Cache.Ledger} {clock : Cache.Readings} {store : MemberKey → Lookup} {key : MemberKey}

-- ====================================================== nothing is seen

/-- One more call to both: the same is seen of it, and the cache goes on to follow. -/
theorem follows_handle (hcache : s.cache = some c)
    (h : ∀ now, Reached now calls → c.Follows l now) (hclock : call.readings.Pairwise (· ≤ ·))
    (hreached : ∀ reading ∈ call.readings, Reached reading calls) :
    call.exchange? s = l.exchange? call
      ∧ ∃ c', (s.handle call).cache = some c'
        ∧ ∀ now, Reached now (calls ++ [call]) → c'.Follows (l.handle call) now := by
  simp only [reached_snoc]
  cases call with
  | lookup clock store key =>
      obtain ⟨c', hcourse, hc'⟩ := cache_handle_lookup hcache clock store key
      simp only [Call.readings, List.pairwise_cons, List.forall_mem_cons] at hclock hreached
      obtain ⟨hsame, hfollows⟩ := (h clock.begun hreached.1).lookup hclock.1.1 hclock.2.1.1 hcourse
      refine ⟨congrArg some hsame, c', hc', fun now hnow => ?_⟩
      apply hfollows.later
      exact hnow.2 clock.swept (by simp [Call.readings])
  | invalidate scope =>
      refine ⟨rfl, c.invalidate scope, congrArg (Option.map _) hcache, fun now hnow => ?_⟩
      exact (h now hnow.1).invalidate scope
  | purge now =>
      refine ⟨rfl, c.purge now, congrArg (Option.map _) hcache, fun now' hnow => ?_⟩
      have hpurged := (h now (hreached now (by simp [Call.readings]))).purge
      apply hpurged.later
      exact hnow.2 now (by simp [Call.readings])

/-- A run shows what the ledger says of it, and in the end the cache follows it. -/
theorem follows_handleAll (hcache : s.cache = some (.new ttl)) (hclock : Advancing calls) :
    s.exchanges calls = (Cache.Ledger.blank ttl).exchanges calls
      ∧ ∃ c, (s.handleAll calls).cache = some c
        ∧ ∀ now, Reached now calls → c.Follows ((Cache.Ledger.blank ttl).handleAll calls) now := by
  induction calls using List.reverseRecOn with
  | nil => exact ⟨rfl, .new ttl, hcache, fun _ _ => Cache.follows_new⟩
  | append_singleton calls call ih =>
      obtain ⟨hcalls, hcall, hreached⟩ := hclock.of_snoc
      obtain ⟨hseen, c, hc, hfollows⟩ := ih hcalls
      obtain ⟨hsame, c', hc', hfollows'⟩ := follows_handle hc hfollows hcall hreached
      rw [exchanges_snoc, Cache.Ledger.exchanges_snoc, hseen, hsame, handleAll_snoc,
        Cache.Ledger.handleAll_snoc]
      exact ⟨rfl, c', hc', hfollows'⟩

-- ============================================================ the period

/-- The number of a lookup among those that learned something. -/
def learnedBy (s : Service) (calls : List Call) : Nat := (s.exchanges calls).countP Exchange.learns

/-- A word that has been counted up `n` times is due for a sweep before every 256th. -/
theorem due_iff (n : Nat) :
    UInt64.ofNat n % Cache.sweepInterval = Cache.sweepInterval - 1 ↔ 256 ∣ n + 1 := by
  have hword : (UInt64.ofNat n % Cache.sweepInterval).toNat = n % 2 ^ 64 % 256 := by
    simp [Cache.sweepInterval]
  have hlast : (Cache.sweepInterval - 1).toNat = 255 := by decide
  rw [← UInt64.toNat_inj, hword, hlast]
  omega

theorem learnedBy_snoc : s.learnedBy (calls ++ [call])
    = s.learnedBy calls
      + (call.exchange? (s.handleAll calls)).toList.countP Exchange.learns := by
  unfold learnedBy
  rw [exchanges_snoc, List.countP_append]

theorem learnedBy_lookup : s.learnedBy (calls ++ [.lookup clock store key])
    = s.learnedBy calls
      + if ((s.handleAll calls).exchange clock store key).learns = true then 1 else 0 := by
  rw [learnedBy_snoc, Call.exchange?, Option.toList_some, List.countP_singleton]

/-- The cache counts in a word what was learned. -/
theorem counted_handleAll (hcache : s.cache = some (.new ttl)) (calls : List Call) :
    ∃ c, (s.handleAll calls).cache = some c ∧ c.ttl = ttl
      ∧ c.inserts = UInt64.ofNat (s.learnedBy calls) := by
  induction calls using List.reverseRecOn with
  | nil => exact ⟨.new ttl, hcache, rfl, rfl⟩
  | append_singleton calls call ih =>
      obtain ⟨c, hc, httl, hinserts⟩ := ih
      rw [handleAll_snoc]
      cases call with
      | lookup clock store key =>
          obtain ⟨c', hcourse, hc'⟩ := cache_handle_lookup hc clock store key
          refine ⟨c', hc', hcourse.ttl_eq.trans httl, ?_⟩
          rw [hcourse.inserts_eq, hinserts, learnedBy_lookup]
          split
          · exact (UInt64.ofNat_add _ 1).symm
          · rfl
      | invalidate scope =>
          refine ⟨c.invalidate scope, congrArg (Option.map _) hc, httl, ?_⟩
          rw [learnedBy_snoc]
          exact hinserts
      | purge now =>
          refine ⟨c.purge now, congrArg (Option.map _) hc, httl, ?_⟩
          rw [learnedBy_snoc]
          exact hinserts

-- ========================================================== main result

/-- In the course of calls, with a clock that does not go back, the lookups through a
cache that began without entries are answered, and ask the store, as if nothing were
ever removed for its age and only what has expired were not served. If the next lookup
asks the store and is answered, it leaves its entry and those of the other keys; and if
it is the 256th of this kind, or the 512th and so on, then only those of them that have
not expired when the clock is read for the sweep. Any other lookup leaves the entries of
the other keys as they are. The answers are counted in a word of 64 bits. -/
theorem lookups_as_by_ledger (s : Service) (ttl : Nat) (calls : List Call)
    (hcache : s.cache = some (.new ttl)) (hclock : Advancing calls) :
    s.exchanges calls = (Cache.Ledger.blank ttl).exchanges calls
      ∧ ∀ clock store key,
          let seen := (s.handleAll calls).exchange clock store key
          let number := s.learnedBy (calls ++ [.lookup clock store key])
          ∃ c c', (s.handleAll calls).cache = some c
            ∧ (s.handleAll (calls ++ [.lookup clock store key])).cache = some c'
            ∧ (∀ membership, seen.learns = true → seen.answer = .ok membership →
                ∀ k e, (k, e) ∈ c'.entries
                  ↔ ((k = key ∧ e = ⟨membership, clock.stored + ttl⟩)
                      ∨ ((k, e) ∈ c.entries ∧ k ≠ key))
                    ∧ (256 ∣ number → clock.swept < e.expires))
            ∧ (seen.learns = false →
                ∀ k e, k ≠ key → ((k, e) ∈ c'.entries ↔ (k, e) ∈ c.entries))
            ∧ c'.inserts.toNat = number % 2 ^ 64 := by
  refine ⟨(follows_handleAll hcache hclock).1, fun clock store key => ?_⟩
  intro seen number
  obtain ⟨c, hc, rfl, hinserts⟩ := counted_handleAll hcache calls
  obtain ⟨c', hcourse, hc'⟩ := cache_handle_lookup hc clock store key
  have hnumber : number = s.learnedBy calls + if seen.learns = true then 1 else 0 :=
    learnedBy_lookup
  rw [handleAll_snoc]
  refine ⟨c, c', hc, hc', ?_, ?_, ?_⟩
  · intro membership hlearns hanswer k e
    rw [if_pos hlearns] at hnumber
    rw [hnumber, ← due_iff, ← hinserts]
    exact hcourse.mem_of_learns hlearns hanswer
  · intro hlearns k e hk
    exact hcourse.mem_of_not_learns hlearns hk
  · have hcounted : c'.inserts = UInt64.ofNat number := by
      rw [hcourse.inserts_eq, hinserts, hnumber]
      split
      · exact (UInt64.ofNat_add _ 1).symm
      · rfl
    simp [hcounted]

/-- Nothing is remembered for any time at all. A stranger is looked up once, and then an
editor 254 times. -/
def vigil : List Call :=
  .lookup (.still 1) (fun _ => .ok none) passerby
    :: List.replicate 254 (.lookup (.still 1) (fun _ => .ok (some editor)) editor.key)

/-- The editor's next lookup is the 256th that asks the store and is answered. Until then
an entry for either is left, and after it there is none. -/
theorem swept_at_256 :
    let s : Service :=
      { catalog := ⟨{}, List.nodup_nil⟩, registry := .empty, cache := some (.new 0) }
    let next : Call := .lookup ⟨1, 1, 2⟩ (fun _ => .ok (some editor)) editor.key
    Advancing vigil
      ∧ s.exchanges vigil = (Cache.Ledger.blank 0).exchanges vigil
      ∧ s.learnedBy (vigil ++ [next]) = 256
      ∧ (∃ c, (s.handleAll vigil).cache = some c ∧ c.size = 2)
      ∧ ∃ c, (s.handleAll (vigil ++ [next])).cache = some c
          ∧ ∀ k e, (k, e) ∈ c.entries → 2 < e.expires := by
  intro s next
  have hclock : Advancing vigil := by
    have hreadings : vigil.flatMap Call.readings = List.replicate 765 1 := by decide +kernel
    unfold Advancing
    rw [hreadings, List.pairwise_replicate]
    exact .inr (Nat.le_refl 1)
  have hnumber : s.learnedBy (vigil ++ [next]) = 256 := by decide +kernel
  have hsize : (s.handleAll vigil).cache.map Cache.size = some 2 := by decide +kernel
  obtain ⟨hseen, hnext⟩ := lookups_as_by_ledger s 0 vigil rfl hclock
  obtain ⟨c, c', hc, hc', hlearned, -⟩ := hnext ⟨1, 1, 2⟩ (fun _ => .ok (some editor)) editor.key
  refine ⟨hclock, hseen, hnumber, ⟨c, hc, ?_⟩, c', hc', fun k e hmem => ?_⟩
  · rw [hc] at hsize
    exact Option.some.inj hsize
  · have hiff := hlearned (some editor) (by decide +kernel) (by decide +kernel) k e
    have hdue : 256 ∣ s.learnedBy (vigil ++ [next]) := ⟨1, by rw [hnumber]⟩
    exact (hiff.1 hmem).2 hdue

end Service

end ProjectAccess
