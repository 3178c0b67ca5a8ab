/-
What passes at a lookup, and the runs that are made of lookups.

A lookup that comes to a cache is seen from two sides. The caller sees the answer, the
store sees whether it is asked; an `Exchange` has both. Inside there are three courses
that it can take (`Cache.Course`): a hit, a miss that the store answers, and a miss on
which the store fails. `exchange_course` says so once, with all that each course does to
the cache, and proofs about runs take a course apart and open neither the cache nor the
service.
-/
import Mathlib.Algebra.Order.BigOperators.Group.List
import Mathlib.Algebra.Order.Group.Nat
import ProjectAccess.Proofs.Cache.Ageing
import ProjectAccess.Proofs.Service.Histories

namespace ProjectAccess

namespace Service

/-- What is seen of a lookup: whom the store is asked for, if it is, and the answer. -/
structure Exchange where
  asked : Option MemberKey
  answer : Lookup

/-- The store is asked, and answers. -/
def Exchange.learns (x : Exchange) : Bool := x.asked.isSome && x.answer.isOk

def exchange (clock : Cache.Readings) (store : MemberKey → Lookup) (key : MemberKey)
    (s : Service) : Exchange :=
  ⟨(s.inquire clock.begun key).asked?, (s.lookup clock store key).1⟩

end Service

namespace Cache

-- ============================================================== courses

/-- The courses that a lookup can take, with what is seen of it and what it leaves. -/
inductive Course (clock : Readings) (store : MemberKey → Lookup) (key : MemberKey) (c : Cache) :
    Service.Exchange → Cache → Prop
  | hit {entry : CacheEntry} (hlive : c.live? clock.begun key = some entry) :
      Course clock store key c ⟨none, .ok entry.membership⟩ c
  | learned {membership : Option Membership} (hnone : c.live? clock.begun key = none)
      (hstore : store key = .ok membership) :
      Course clock store key c ⟨some key, .ok membership⟩
        ((c.erase key).finish clock.stored clock.swept ⟨key, c.generation⟩ membership)
  | failed {error : StoreError} (hnone : c.live? clock.begun key = none)
      (hstore : store key = .error error) :
      Course clock store key c ⟨some key, .error error⟩ (c.erase key)

variable {c : Cache} {key k : MemberKey} {e : CacheEntry} {membership : Option Membership}
variable {clock : Readings} {store : MemberKey → Lookup} {x : Service.Exchange} {c' : Cache}

/-- What was learned takes the place of what there was for the key, and is swept with
the others if it is time. -/
theorem mem_learned :
    (k, e) ∈ ((c.erase key).finish clock.stored clock.swept ⟨key, c.generation⟩ membership).entries
      ↔ ((k = key ∧ e = ⟨membership, clock.stored + c.ttl⟩) ∨ ((k, e) ∈ c.entries ∧ k ≠ key))
        ∧ (c.inserts % sweepInterval = sweepInterval - 1 → clock.swept < e.expires) := by
  rw [mem_finish, mem_filled, mem_erase]
  show _ ∧ _ ↔ _ ∧ _
  refine and_congr_left' ?_
  constructor
  · rintro (⟨⟨hold, hk⟩, -⟩ | ⟨-, hk, he⟩)
    · exact .inr ⟨hold, hk⟩
    · exact .inl ⟨hk, he⟩
  · rintro (⟨hk, he⟩ | ⟨hold, hk⟩)
    · exact .inr ⟨rfl, hk, he⟩
    · exact .inl ⟨⟨hold, hk⟩, hk⟩

theorem Course.distinct (h : Course clock store key c x c') (hc : c.Distinct) : c'.Distinct := by
  cases h with
  | hit => exact hc
  | learned => exact Distinct.finish (hc.drop _)
  | failed => exact hc.drop _

/-- Lookups of the same key in two caches take the same course if the same counts there. -/
theorem Course.alike {d d' : Cache} {y : Service.Exchange} (h : Course clock store key c x c')
    (h' : Course clock store key d y d')
    (hlive : c.live? clock.begun key = d.live? clock.begun key) :
    x = y ∧ ((c' = c ∧ d' = d)
      ∨ (∃ membership,
          c' = (c.erase key).finish clock.stored clock.swept ⟨key, c.generation⟩ membership
          ∧ d' = (d.erase key).finish clock.stored clock.swept ⟨key, d.generation⟩ membership)
      ∨ (c' = c.erase key ∧ d' = d.erase key)) := by
  cases h with
  | hit hfound =>
      cases h' with
      | hit hfound' =>
          rw [hlive, hfound'] at hfound
          cases hfound
          exact ⟨rfl, .inl ⟨rfl, rfl⟩⟩
      | learned hnone' => rw [hlive, hnone'] at hfound; cases hfound
      | failed hnone' => rw [hlive, hnone'] at hfound; cases hfound
  | learned hnone hstore =>
      cases h' with
      | hit hfound' => rw [hlive, hfound'] at hnone; cases hnone
      | failed hnone' hstore' => rw [hstore'] at hstore; cases hstore
      | learned hnone' hstore' =>
          rw [hstore'] at hstore
          cases hstore
          exact ⟨rfl, .inr (.inl ⟨_, rfl, rfl⟩)⟩
  | failed hnone hstore =>
      cases h' with
      | hit hfound' => rw [hlive, hfound'] at hnone; cases hnone
      | learned hnone' hstore' => rw [hstore'] at hstore; cases hstore
      | failed hnone' hstore' =>
          rw [hstore'] at hstore
          cases hstore
          exact ⟨rfl, .inr (.inr ⟨rfl, rfl⟩)⟩

theorem Course.ttl_eq (h : Course clock store key c x c') : c'.ttl = c.ttl := by
  cases h with
  | hit => rfl
  | learned => exact ttl_finish
  | failed => rfl

/-- Lookups are counted by the cache when the store is asked and answers. -/
theorem Course.inserts_eq (h : Course clock store key c x c') :
    c'.inserts = if x.learns = true then c.inserts + 1 else c.inserts := by
  cases h with
  | hit => rfl
  | learned => exact inserts_finish
  | failed => rfl

/-- A lookup that learns something leaves that and the entries of the other keys, and
sweeps if it is time. -/
theorem Course.mem_of_learns (h : Course clock store key c x c') (hlearns : x.learns = true)
    (hanswer : x.answer = .ok membership) :
    (k, e) ∈ c'.entries
      ↔ ((k = key ∧ e = ⟨membership, clock.stored + c.ttl⟩) ∨ ((k, e) ∈ c.entries ∧ k ≠ key))
        ∧ (c.inserts % sweepInterval = sweepInterval - 1 → clock.swept < e.expires) := by
  cases h with
  | hit => cases hlearns
  | failed => cases hlearns
  | learned =>
      cases hanswer
      exact mem_learned

/-- A lookup that learns nothing leaves the entries of the other keys. -/
theorem Course.mem_of_not_learns (h : Course clock store key c x c') (hlearns : x.learns = false)
    (hk : k ≠ key) : (k, e) ∈ c'.entries ↔ (k, e) ∈ c.entries := by
  cases h with
  | hit => exact Iff.rfl
  | learned => cases hlearns
  | failed => simp [mem_erase, hk]

end Cache

namespace Service

variable {s : Service} {c : Cache}

/-- A lookup takes one of the courses. It is noted whether the store was asked, and
nothing changes but the cache. -/
theorem exchange_course (hcache : s.cache = some c) (clock : Cache.Readings)
    (store : MemberKey → Lookup) (key : MemberKey) :
    ∃ c', Cache.Course clock store key c (s.exchange clock store key) c'
      ∧ (s.lookup clock store key).2
        = { s with cache := some c' }.note
            [.count (.cache (s.exchange clock store key).asked.isNone)] := by
  have hbegin : c.begin clock.begun key = _ := Cache.begin_eq
  unfold exchange
  cases hlive : c.live? clock.begun key with
  | some entry =>
      rw [hlive] at hbegin
      rw [lookup_of_hit hcache hbegin, inquire_of_hit hcache hbegin]
      exact ⟨c, .hit hlive, rfl⟩
  | none =>
      rw [hlive] at hbegin
      rw [inquire_of_miss hcache hbegin]
      cases hstore : store key with
      | ok membership =>
          rw [lookup_of_miss hcache hbegin hstore]
          exact ⟨_, .learned hlive hstore, rfl⟩
      | error error =>
          rw [lookup_of_failure hcache hbegin hstore]
          exact ⟨_, .failed hlive hstore, rfl⟩

/-- The cache after a lookup is what the course leaves. -/
theorem cache_handle_lookup (hcache : s.cache = some c) (clock : Cache.Readings)
    (store : MemberKey → Lookup) (key : MemberKey) :
    ∃ c', Cache.Course clock store key c (s.exchange clock store key) c'
      ∧ (s.handle (.lookup clock store key)).cache = some c' := by
  obtain ⟨c', hcourse, hafter⟩ := exchange_course hcache clock store key
  refine ⟨c', hcourse, ?_⟩
  show (s.lookup clock store key).2.cache = some c'
  rw [hafter]
  rfl

-- ================================================================ runs

def Call.exchange? (s : Service) : Call → Option Exchange
  | .lookup clock store key => some (s.exchange clock store key)
  | _ => none

/-- What is seen of the lookups among calls, in their order. -/
def exchanges (s : Service) : List Call → List Exchange
  | [] => []
  | call :: calls => (call.exchange? s).toList ++ (s.handle call).exchanges calls

variable {calls : List Call} {call : Call} {now : Nat}

theorem exchanges_snoc : s.exchanges (calls ++ [call])
    = s.exchanges calls ++ (call.exchange? (s.handleAll calls)).toList := by
  induction calls generalizing s with
  | nil => simp [exchanges, handleAll]
  | cons first calls ih =>
      rw [List.cons_append, exchanges, ih, exchanges, List.append_assoc]
      rfl

/-- The clock does not go back in the course of the calls. -/
def Advancing (calls : List Call) : Prop := (calls.flatMap Call.readings).Pairwise (· ≤ ·)

/-- The clock has not shown more than this. -/
def Reached (now : Nat) (calls : List Call) : Prop :=
  ∀ reading ∈ calls.flatMap Call.readings, reading ≤ now

theorem reached_snoc : Reached now (calls ++ [call])
    ↔ Reached now calls ∧ ∀ reading ∈ call.readings, reading ≤ now := by
  unfold Reached
  rw [List.flatMap_append, List.flatMap_singleton]
  exact List.forall_mem_append

theorem exists_reached (calls : List Call) : ∃ now, Reached now calls :=
  ⟨(calls.flatMap Call.readings).sum, fun _ hmem => List.le_sum_of_mem hmem⟩

/-- Before a call that goes on from others the clock has not shown more than during it. -/
theorem Advancing.of_snoc (h : Advancing (calls ++ [call])) :
    Advancing calls ∧ call.readings.Pairwise (· ≤ ·)
      ∧ ∀ reading ∈ call.readings, Reached reading calls := by
  unfold Advancing at h
  rw [List.flatMap_append, List.flatMap_singleton, List.pairwise_append] at h
  obtain ⟨hcalls, hcall, hacross⟩ := h
  exact ⟨hcalls, hcall, fun now hnow reading hmem => hacross reading hmem now hnow⟩

end Service

end ProjectAccess
