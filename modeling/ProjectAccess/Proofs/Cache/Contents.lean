/-
A cache whose entries all still count holds what it was told, and no more.

While the time to live of no entry has passed, a cache is a partial map: from users and
projects to what the store said of them. `Mirrors` says which map it is. A lookup under
a key where the map has something is a hit on that; every other lookup is a miss, and
its end adds what it was told. Invalidations take away what they cover, and sweeps
find nothing to take. No key has two entries (`Distinct`), so the size of the cache is
the number of keys where the map has something.

That all entries still count is kept up by a bound: readings of the clock are before
`start + ttl`, and what is stored is stored at `start` or later.
-/
import Mathlib.Data.Finset.Card
import Mathlib.Data.List.Nodup
import ProjectAccess.Proofs.Cache.Entries

namespace ProjectAccess

namespace Cache

variable {c : Cache} {key k : MemberKey} {entry e : CacheEntry} {membership : Option Membership}
variable {now stored swept : Nat} {ticket : Ticket} {scope : Scope}

-- ========================================================= distinct keys

/-- No key has two entries. -/
def Distinct (c : Cache) : Prop := (c.entries.map (·.1)).Nodup

theorem distinct_new {ttl : Nat} : (Cache.new ttl).Distinct := List.nodup_nil

theorem Distinct.drop (h : c.Distinct) (covered : MemberKey → CacheEntry → Bool) :
    (c.drop covered).Distinct := List.Nodup.sublist (List.filter_sublist.map _) h

theorem Distinct.put (h : c.Distinct) : (c.put key entry).Distinct := by
  have hfresh : key ∉ (c.erase key).entries.map (·.1) := by
    intro hmem
    obtain ⟨⟨k, e⟩, hentry, rfl⟩ := List.mem_map.1 hmem
    exact (mem_erase.1 hentry).2 rfl
  exact List.nodup_cons.2 ⟨hfresh, h.drop _⟩

theorem Distinct.filled (h : c.Distinct) : (c.filled stored ticket membership).Distinct := by
  unfold Cache.filled
  dsimp only
  split
  · exact h.put
  · exact h.put.drop _

theorem Distinct.finish (h : c.Distinct) : (c.finish stored swept ticket membership).Distinct := by
  rw [finish_eq]
  dsimp only
  split
  · exact Distinct.drop (c := { c.filled stored ticket membership with inserts := c.inserts + 1 })
      h.filled _
  · exact h.filled

/-- Where no key has two entries, the one that is there is found. -/
theorem Distinct.entry?_eq_some_iff (h : c.Distinct) :
    c.entry? key = some entry ↔ (key, entry) ∈ c.entries := by
  constructor
  · exact mem_of_found
  · intro hmem
    cases hfound : c.entry? key with
    | none =>
        have hother := List.lookup_eq_none_iff.1 hfound (key, entry) hmem
        exact absurd hother (by simp)
    | some e =>
        have hsame : (key, e) = (key, entry) :=
          List.inj_on_of_nodup_map h (mem_of_found hfound) hmem rfl
        rw [(Prod.mk.inj hsame).2]

theorem Distinct.live?_eq_some_iff (h : c.Distinct) :
    c.live? now key = some entry ↔ (key, entry) ∈ c.entries ∧ now < entry.expires := by
  unfold live?
  rw [Option.filter_eq_some_iff, h.entry?_eq_some_iff, decide_eq_true_iff]

/-- Where nothing counts for a key, all that there is for it has expired. -/
theorem Distinct.expired_of_live?_none (h : c.Distinct) (hnone : c.live? now key = none)
    (hmem : (key, entry) ∈ c.entries) : entry.expires ≤ now := by
  by_cases hlive : now < entry.expires
  · rw [h.live?_eq_some_iff.2 ⟨hmem, hlive⟩] at hnone
    cases hnone
  · omega

-- ============================================================== the map

/-- What is remembered of each user and project. -/
abbrev Memory := MemberKey → Option (Option Membership)

/-- The cache holds what is remembered, and all of it counts until `start + ttl` at
least. -/
structure Mirrors (memory : Memory) (start ttl : Nat) (c : Cache) : Prop where
  distinct : c.Distinct
  ttl_eq : c.ttl = ttl
  holds : ∀ key m, (∃ entry, (key, entry) ∈ c.entries ∧ entry.membership = m)
    ↔ memory key = some m
  lasts : ∀ {key entry}, (key, entry) ∈ c.entries → start + ttl ≤ entry.expires

variable {memory memory' : Memory} {start ttl : Nat}

theorem mirrors_new : (Cache.new ttl).Mirrors (fun _ => none) start ttl where
  distinct := distinct_new
  ttl_eq := rfl
  holds key m := by
    constructor
    · rintro ⟨entry, hmem, -⟩
      exact absurd hmem not_mem_new
    · nofun
  lasts h := absurd h not_mem_new

/-- What is remembered is answered by the cache. -/
theorem Mirrors.begin_of_some (h : c.Mirrors memory start ttl) (hkey : memory key = some membership)
    (hnow : now < start + ttl) : c.begin now key = (.hit membership, c) := by
  obtain ⟨entry, hmem, rfl⟩ := (h.holds key membership).2 hkey
  have hcounts : now < entry.expires := Nat.lt_of_lt_of_le hnow (h.lasts hmem)
  unfold begin
  rw [h.distinct.entry?_eq_some_iff.2 hmem]
  exact if_pos hcounts

/-- For what is not remembered the store has to be asked. -/
theorem Mirrors.begin_of_none (h : c.Mirrors memory start ttl) (hkey : memory key = none) :
    c.begin now key = (.miss ⟨key, c.generation⟩, c) := by
  cases hfound : c.entry? key with
  | none =>
      unfold begin
      rw [hfound]
  | some entry =>
      have hholds := (h.holds key entry.membership).1 ⟨entry, mem_of_found hfound, rfl⟩
      rw [hkey] at hholds
      cases hholds

theorem Mirrors.purge_eq (h : c.Mirrors memory start ttl) (hnow : now < start + ttl) :
    c.purge now = c := by
  -- nothing has expired, so nothing is dropped
  have hall : c.entries.filter (fun pair => !decide (pair.2.expires ≤ now)) = c.entries := by
    rw [List.filter_eq_self]
    intro pair hmem
    have hcounts : start + ttl ≤ pair.2.expires := h.lasts hmem
    rw [Bool.not_eq_true', decide_eq_false_iff_not]
    omega
  unfold purge drop
  rw [hall]

/-- A lookup that finishes in its own generation adds what it was told. -/
theorem Mirrors.filled (h : c.Mirrors memory start ttl)
    (hgeneration : c.generation = ticket.generation) (hstored : start ≤ stored)
    (htold : memory' ticket.key = some membership)
    (hothers : ∀ k, k ≠ ticket.key → memory' k = memory k) :
    (c.filled stored ticket membership).Mirrors memory' start ttl where
  distinct := h.distinct.filled
  ttl_eq := by
    unfold Cache.filled
    dsimp only
    split <;> exact h.ttl_eq
  holds k m := by
    simp only [mem_filled, hgeneration, true_and]
    by_cases hk : k = ticket.key
    · subst hk
      rw [htold]
      simp
    · rw [hothers k hk, ← h.holds k m]
      simp [hk]
  lasts {k e} hmem := by
    rcases mem_filled.1 hmem with ⟨hold, -⟩ | ⟨-, -, rfl⟩
    · exact h.lasts hold
    · have httl := h.ttl_eq
      show start + ttl ≤ stored + c.ttl
      omega

/-- It makes no difference to that if it is time to sweep. -/
theorem Mirrors.finish (h : c.Mirrors memory start ttl)
    (hgeneration : c.generation = ticket.generation) (hstored : start ≤ stored)
    (hswept : swept < start + ttl) (htold : memory' ticket.key = some membership)
    (hothers : ∀ k, k ≠ ticket.key → memory' k = memory k) :
    (c.finish stored swept ticket membership).Mirrors memory' start ttl := by
  have hfilled : (c.filled stored ticket membership).Mirrors memory' start ttl :=
    h.filled hgeneration hstored htold hothers
  -- the count of entries is none of the map's business
  have hcounted : Mirrors memory' start ttl
      { c.filled stored ticket membership with inserts := c.inserts + 1 } :=
    ⟨hfilled.distinct, hfilled.ttl_eq, hfilled.holds, hfilled.lasts⟩
  rw [finish_eq]
  dsimp only
  split
  · rw [hcounted.purge_eq hswept]
    exact hcounted
  · exact hcounted

theorem Mirrors.invalidate (h : c.Mirrors memory start ttl)
    (hcovered : ∀ k, scope.covers k = true → memory' k = none)
    (hothers : ∀ k, scope.covers k = false → memory' k = memory k) :
    (c.invalidate scope).Mirrors memory' start ttl where
  distinct := h.distinct.drop fun key _ => scope.covers key
  ttl_eq := h.ttl_eq
  holds k m := by
    simp only [mem_invalidate]
    cases hcovers : scope.covers k with
    | true =>
        rw [hcovered k hcovers]
        simp
    | false =>
        rw [hothers k hcovers, ← h.holds k m]
        simp
  lasts hmem := h.lasts (mem_invalidate.1 hmem).1

/-- The size of the cache is the number of keys of which something is remembered. -/
theorem Mirrors.size_eq (h : c.Mirrors memory start ttl) :
    ∃ keys : Finset MemberKey, (∀ key, key ∈ keys ↔ (memory key).isSome = true)
      ∧ c.size = keys.card := by
  refine ⟨(c.entries.map (·.1)).toFinset, fun key => ?_, ?_⟩
  · rw [List.mem_toFinset, Option.isSome_iff_exists]
    constructor
    · intro hmem
      obtain ⟨⟨_, entry⟩, hentry, rfl⟩ := List.mem_map.1 hmem
      exact ⟨entry.membership, (h.holds _ _).1 ⟨entry, hentry, rfl⟩⟩
    · rintro ⟨m, hkey⟩
      obtain ⟨entry, hentry, -⟩ := (h.holds key m).2 hkey
      exact List.mem_map_of_mem hentry
  · rw [List.toFinset_card_of_nodup h.distinct, List.length_map]
    rfl

end Cache

end ProjectAccess
