/-
A cache that remembers nothing for any time.

With a time to live of zero an entry has expired when it is written, also if the clock
does not move before it is looked up. Such a cache answers nothing itself, and nobody has
to tell it of changes: every lookup asks the store and is answered by it, as if there were
no cache (`asked_at_once`).

It does hold entries. Each lookup that learns something leaves one, and those for other
users and projects stay there dead. What bounds their number are the sweeps: one comes
with every 256th answer and takes all that there is. So between two sweeps there are no
more entries than answers, and after a call there are never more than 255.

# The invariant

`Spent` says that all entries have expired by now, and it is kept for as long as the clock
does not go back. Both halves are read off it: nothing counts, and a sweep spares nothing.
The number of entries is held against the number of answers modulo 256 (`spent_handleAll`).
Hits do not occur, failures and invalidations and purges take entries away only, and an
answer adds one to both sides, or brings both back to zero.
-/
import ProjectAccess.Proofs.Service.Sweeps

namespace ProjectAccess

namespace Cache

variable {c c' : Cache} {now now' : Nat} {key : MemberKey} {membership : Option Membership}
variable {clock : Readings} {store : MemberKey → Lookup} {x : Service.Exchange}

/-- All that there is in the cache has expired. -/
def Spent (now : Nat) (c : Cache) : Prop := ∀ k e, (k, e) ∈ c.entries → e.expires ≤ now

theorem spent_new {ttl : Nat} : (Cache.new ttl).Spent now := fun _ _ hmem => absurd hmem not_mem_new

theorem Spent.later (h : c.Spent now) (hnow : now ≤ now') : c.Spent now' :=
  fun k e hmem => Nat.le_trans (h k e hmem) hnow

theorem Spent.drop (h : c.Spent now) (covered : MemberKey → CacheEntry → Bool) :
    (c.drop covered).Spent now := fun k e hmem => h k e (mem_drop.1 hmem).1

/-- Nothing counts of what has expired. -/
theorem Spent.live?_eq_none (h : c.Spent now) : c.live? now key = none := by
  unfold live?
  rw [Option.filter_eq_none_iff]
  intro entry hfound
  have hold : entry.expires ≤ now := h key entry (mem_of_found hfound)
  simpa using hold

-- ================================================================= size

theorem size_drop_le (c : Cache) (covered : MemberKey → CacheEntry → Bool) :
    (c.drop covered).size ≤ c.size := List.length_filter_le ..

/-- The end of a lookup leaves one entry more at most. -/
theorem size_finish_le {stored swept : Nat} {ticket : Ticket} :
    (c.finish stored swept ticket membership).size ≤ c.size + 1 := by
  have hput : ∀ {entry : CacheEntry}, (c.put ticket.key entry).size ≤ c.size + 1 :=
    Nat.succ_le_succ (c.size_drop_le _)
  have hfilled : (c.filled stored ticket membership).size ≤ c.size + 1 := by
    unfold filled
    dsimp only
    split
    · exact hput
    · exact Nat.le_trans (size_drop_le ..) hput
  rw [finish_eq]
  dsimp only
  split
  · exact Nat.le_trans (size_drop_le ..) hfilled
  · exact hfilled

/-- What is learned for no time is spent at once. -/
theorem Spent.learned (h : c.Spent clock.begun) (httl : c.ttl = 0)
    (hstored : clock.begun ≤ clock.stored) (hswept : clock.stored ≤ clock.swept) :
    ((c.erase key).finish clock.stored clock.swept ⟨key, c.generation⟩ membership).Spent
      clock.swept := by
  intro k e hmem
  rcases (mem_learned.1 hmem).1 with ⟨-, rfl⟩ | ⟨hold, -⟩
  · show clock.stored + c.ttl ≤ clock.swept
    omega
  · have hexpired := h k e hold
    omega

/-- A sweep that comes when all is spent leaves nothing. -/
theorem size_learned_of_due (hdue : c.inserts % sweepInterval = sweepInterval - 1)
    (hspent : ((c.erase key).finish clock.stored clock.swept ⟨key, c.generation⟩
      membership).Spent clock.swept) :
    ((c.erase key).finish clock.stored clock.swept ⟨key, c.generation⟩ membership).size = 0 := by
  refine List.length_eq_zero_iff.2 (List.eq_nil_iff_forall_not_mem.2 ?_)
  rintro ⟨k, e⟩ hmem
  have hlive : clock.swept < e.expires := (mem_learned.1 hmem).2 hdue
  have hexpired := hspent k e hmem
  omega

/-- Where all is spent a lookup asks the store. All is spent after it, and what it learns
makes one entry more at most, or none at all if it is time to sweep. -/
theorem Course.of_spent (h : Course clock store key c x c') (hspent : c.Spent clock.begun)
    (httl : c.ttl = 0) (hstored : clock.begun ≤ clock.stored)
    (hswept : clock.stored ≤ clock.swept) :
    x = ⟨some key, store key⟩ ∧ c'.Spent clock.swept
      ∧ (x.learns = true → c'.size ≤ c.size + 1)
      ∧ (x.learns = true → c.inserts % sweepInterval = sweepInterval - 1 → c'.size = 0)
      ∧ (x.learns = false → c'.size ≤ c.size) := by
  cases h with
  | hit hlive =>
      rw [hspent.live?_eq_none] at hlive
      cases hlive
  | @learned membership hnone hstore =>
      have hafter : ((c.erase key).finish clock.stored clock.swept ⟨key, c.generation⟩
          membership).Spent clock.swept := hspent.learned httl hstored hswept
      refine ⟨by rw [hstore], hafter, fun _ => ?_, fun _ hdue => size_learned_of_due hdue hafter,
        nofun⟩
      have herased : (c.erase key).size ≤ c.size := c.size_drop_le _
      exact Nat.le_trans size_finish_le (Nat.succ_le_succ herased)
  | failed hnone hstore =>
      refine ⟨by rw [hstore], ?_, nofun, nofun, fun _ => c.size_drop_le _⟩
      exact (hspent.later (by omega)).drop _

end Cache

namespace Service

variable {s : Service} {calls : List Call} {call : Call}

/-- What is seen of a lookup if there is nothing between the caller and the store. -/
def Call.direct? : Call → Option Exchange
  | .lookup _ store key => some ⟨some key, store key⟩
  | _ => none

/-- In the course of calls all is spent, so every lookup goes to the store, and the
entries are no more than the answers since the last sweep. -/
theorem spent_handleAll (hcache : s.cache = some (.new 0)) (hclock : Advancing calls) :
    s.exchanges calls = calls.filterMap Call.direct?
      ∧ ∃ c, (s.handleAll calls).cache = some c ∧ (∀ now, Reached now calls → c.Spent now)
        ∧ c.size ≤ s.learnedBy calls % 256 := by
  induction calls using List.reverseRecOn with
  | nil => exact ⟨rfl, .new 0, hcache, fun _ _ => Cache.spent_new, Nat.le_refl 0⟩
  | append_singleton calls call ih =>
      obtain ⟨hcalls, hcall, hreached⟩ := hclock.of_snoc
      obtain ⟨hseen, c, hc, hspent, hsize⟩ := ih hcalls
      obtain ⟨c₀, hc₀, httl, hinserts⟩ := counted_handleAll hcache calls
      rw [hc] at hc₀
      cases hc₀
      rw [exchanges_snoc, hseen, handleAll_snoc, List.filterMap_append]
      simp only [reached_snoc]
      cases call with
      | lookup clock store key =>
          simp only [Call.readings, List.pairwise_cons, List.forall_mem_cons] at hcall hreached
          obtain ⟨c', hcourse, hc'⟩ := cache_handle_lookup hc clock store key
          obtain ⟨hdirect, hspent', hmore, hswept, hless⟩ :=
            hcourse.of_spent (hspent _ hreached.1) httl hcall.1.1 hcall.2.1.1
          refine ⟨?_, c', hc', fun now hnow => ?_, ?_⟩
          · rw [Call.exchange?, hdirect]
            rfl
          · exact hspent'.later (hnow.2 clock.swept (by simp [Call.readings]))
          · rw [learnedBy_lookup]
            rw [hinserts, due_iff] at hswept
            cases hlearns : ((s.handleAll calls).exchange clock store key).learns with
            | true =>
                have hone := hmore hlearns
                have hnone := hswept hlearns
                simp only [if_true]
                omega
            | false =>
                have hsame := hless hlearns
                simp only [Bool.false_eq_true, if_false]
                omega
      | invalidate scope =>
          refine ⟨rfl, c.invalidate scope, congrArg (Option.map _) hc, fun now hnow => ?_, ?_⟩
          · exact (hspent now hnow.1).drop fun key _ => scope.covers key
          · rw [learnedBy_snoc]
            exact Nat.le_trans (c.size_drop_le fun key _ => scope.covers key) hsize
      | purge now' =>
          refine ⟨rfl, c.purge now', congrArg (Option.map _) hc, fun now hnow => ?_, ?_⟩
          · exact (hspent now hnow.1).drop _
          · rw [learnedBy_snoc]
            exact Nat.le_trans (c.size_drop_le _) hsize

theorem Advancing.of_prefix {before : List Call} (h : Advancing calls) (hleads : before <+: calls) :
    Advancing before := by
  obtain ⟨after, rfl⟩ := hleads
  unfold Advancing at h
  rw [List.flatMap_append] at h
  exact (List.pairwise_append.1 h).1

-- ========================================================== main result

/-- With a time to live of zero and a clock that does not go back, every lookup among
calls asks the store for its key and is answered with what the store says at that lookup,
whether or not there are invalidations. After every one of the calls the cache has 255
entries at most, however many keys have been looked up. -/
theorem asked_at_once (s : Service) (calls : List Call) (hcache : s.cache = some (.new 0))
    (hclock : Advancing calls) :
    s.exchanges calls = calls.filterMap Call.direct?
      ∧ ∀ before, before <+: calls →
          ∃ c, (s.handleAll before).cache = some c ∧ c.size ≤ 255 := by
  refine ⟨(spent_handleAll hcache hclock).1, fun before hleads => ?_⟩
  obtain ⟨-, c, hc, -, hsize⟩ := spent_handleAll hcache (hclock.of_prefix hleads)
  exact ⟨c, hc, by omega⟩

/-- Twelve users are looked up at one time, none of whom is a member. -/
def crowd : List Call :=
  (List.range 12).map fun i =>
    .lookup (.still 1) (fun _ => .ok none) ⟨⟨BitVec.ofNat 128 i⟩, ⟨1⟩⟩

/-- The last of the crowd has become a member and is looked up again. The store is asked,
although the clock has not moved and the cache has an entry that says otherwise. -/
theorem asked_despite_entry :
    let s : Service :=
      { catalog := ⟨{}, List.nodup_nil⟩, registry := .empty, cache := some (.new 0) }
    let last : MemberKey := ⟨⟨11⟩, ⟨1⟩⟩
    let calls := crowd ++ [.lookup (.still 1) (fun _ => .ok (some editor)) last]
    Advancing calls
      ∧ (∃ c, (s.handleAll crowd).cache = some c ∧ c.size = 12
          ∧ c.entry? last = some ⟨none, 1⟩)
      ∧ (s.exchanges calls).getLast? = some ⟨some last, .ok (some editor)⟩
      ∧ ∃ c, (s.handleAll calls).cache = some c ∧ c.size ≤ 255 := by
  intro s last calls
  have hclock : Advancing calls := by
    have hreadings : calls.flatMap Call.readings = List.replicate 39 1 := by decide
    unfold Advancing
    rw [hreadings, List.pairwise_replicate]
    exact .inr (Nat.le_refl 1)
  obtain ⟨hseen, hbounded⟩ := asked_at_once s calls rfl hclock
  refine ⟨hclock, ⟨_, rfl, by decide +kernel, by decide +kernel⟩, ?_,
    hbounded calls (List.prefix_refl calls)⟩
  rw [hseen, List.filterMap_append]
  exact List.getLast?_concat

end Service

end ProjectAccess
