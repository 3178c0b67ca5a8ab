/-
What each operation does to the entries of a cache, and to its generation.

The lemmas speak of single entries: which of those there were stay, and which one is
new. Only `finish` brings a new one, and only for a lookup of the current generation
(`mem_filled`); only `invalidate` moves the generation. What is said about the cache
over many operations is put together from these, and the list of entries is not
opened again.
-/
import ProjectAccess.Cache

namespace ProjectAccess

namespace Cache

variable {c : Cache} {key k : MemberKey} {entry e : CacheEntry}

-- ==================================================== single operations

/-- What is found is an entry of the cache. -/
theorem mem_of_found (h : c.entry? key = some entry) : (key, entry) ∈ c.entries := by
  obtain ⟨before, after, hentries, -⟩ := List.lookup_eq_some_iff.1 h
  rw [hentries]
  exact List.mem_append_right before List.mem_cons_self

theorem mem_drop {covered : MemberKey → CacheEntry → Bool} :
    (k, e) ∈ (c.drop covered).entries ↔ (k, e) ∈ c.entries ∧ covered k e = false := by
  show (k, e) ∈ c.entries.filter (fun pair => !covered pair.1 pair.2) ↔ _
  rw [List.mem_filter, Bool.not_eq_true']

theorem mem_erase : (k, e) ∈ (c.erase key).entries ↔ (k, e) ∈ c.entries ∧ k ≠ key := by
  unfold erase
  rw [mem_drop, beq_eq_false_iff_ne]

/-- The new entry takes the place of those for its key. -/
theorem mem_put :
    (k, e) ∈ (c.put key entry).entries
      ↔ (k = key ∧ e = entry) ∨ ((k, e) ∈ c.entries ∧ k ≠ key) := by
  show (k, e) ∈ (key, entry) :: (c.erase key).entries ↔ _
  rw [List.mem_cons, Prod.mk.injEq, mem_erase]

theorem not_mem_new {ttl : Nat} : (k, e) ∉ (Cache.new ttl).entries := List.not_mem_nil

theorem mem_purge {now : Nat} :
    (k, e) ∈ (c.purge now).entries ↔ (k, e) ∈ c.entries ∧ now < e.expires := by
  unfold purge
  rw [mem_drop, decide_eq_false_iff_not, Nat.not_le]

/-- What the scope does not cover stays. -/
theorem mem_invalidate {scope : Scope} :
    (k, e) ∈ (c.invalidate scope).entries ↔ (k, e) ∈ c.entries ∧ scope.covers k = false := by
  show (k, e) ∈ (c.drop fun key _ => scope.covers key).entries ↔ _
  rw [mem_drop]

theorem generation_purge {now : Nat} : (c.purge now).generation = c.generation := rfl

theorem generation_invalidate {scope : Scope} :
    (c.invalidate scope).generation = c.generation + 1 := rfl

-- ============================================================== lookups

/-- A hit is on an entry for the key that still counts. -/
theorem begin_eq_hit {now : Nat} {membership : Option Membership}
    (h : (c.begin now key).1 = .hit membership) :
    ∃ entry, c.entry? key = some entry ∧ now < entry.expires
      ∧ entry.membership = membership := by
  unfold begin at h
  split at h
  next entry hentry =>
    split at h
    next hcounts => exact ⟨entry, hentry, hcounts, Beginning.hit.inj h⟩
    next => cases h
  next => cases h

/-- The ticket of a miss is for the key, and of the current generation. -/
theorem begin_eq_miss {now : Nat} {ticket : Ticket} (h : (c.begin now key).1 = .miss ticket) :
    ticket = ⟨key, c.generation⟩ := by
  unfold begin at h
  split at h
  · split at h
    · cases h
    · exact (Beginning.miss.inj h).symm
  · exact (Beginning.miss.inj h).symm

/-- Beginning a lookup brings nothing into the cache. -/
theorem mem_of_mem_begin {now : Nat} (h : (k, e) ∈ (c.begin now key).2.entries) :
    (k, e) ∈ c.entries := by
  unfold begin at h
  split at h
  · split at h
    · exact h
    · exact (mem_erase.1 h).1
  · exact h

/-- The entry for a key, if it still counts. -/
def live? (now : Nat) (key : MemberKey) (c : Cache) : Option CacheEntry :=
  (c.entry? key).filter fun entry => now < entry.expires

/-- A lookup is a hit on what counts. Otherwise nothing is left under the key. -/
theorem begin_eq {now : Nat} : c.begin now key
    = match c.live? now key with
      | some entry => (.hit entry.membership, c)
      | none => (.miss ⟨key, c.generation⟩, c.erase key) := by
  unfold begin live?
  cases hfound : c.entry? key with
  | some entry =>
      rw [Option.filter_some]
      by_cases hlive : now < entry.expires
      · simp [hlive]
      · simp [hlive]
  | none =>
      have hall : c.erase key = c := by
        unfold erase drop
        rw [List.filter_eq_self.2 fun pair hmem => ?_]
        have hother : key ≠ pair.1 := by
          simpa using List.lookup_eq_none_iff.1 hfound pair hmem
        simpa using hother.symm
      simp [hall]

theorem generation_begin {now : Nat} : (c.begin now key).2.generation = c.generation := by
  unfold begin
  split
  · split <;> rfl
  · rfl

variable {stored swept : Nat} {ticket : Ticket} {membership : Option Membership}

/-- The cache as the end of a lookup leaves it, before the end is counted and it may
be time to sweep. -/
def filled (c : Cache) (stored : Nat) (ticket : Ticket) (membership : Option Membership) : Cache :=
  let put := c.put ticket.key ⟨membership, stored + c.ttl⟩
  if c.generation = ticket.generation then put else put.erase ticket.key

/-- The end of a lookup fills the cache, is counted, and sweeps when it is time. -/
theorem finish_eq : c.finish stored swept ticket membership
    = let counted := { c.filled stored ticket membership with inserts := c.inserts + 1 }
      if c.inserts % sweepInterval = sweepInterval - 1 then counted.purge swept else counted := rfl

/-- The lookup leaves its entry in its own generation only. -/
theorem mem_filled : (k, e) ∈ (c.filled stored ticket membership).entries
    ↔ ((k, e) ∈ c.entries ∧ k ≠ ticket.key)
      ∨ (c.generation = ticket.generation ∧ k = ticket.key
          ∧ e = ⟨membership, stored + c.ttl⟩) := by
  unfold filled
  by_cases hsame : c.generation = ticket.generation
  · rw [if_pos hsame, mem_put, or_comm]
    simp only [hsame, true_and]
  · -- what was put is taken out again, and with it any older entry for the key
    rw [if_neg hsame, mem_erase, mem_put]
    constructor
    · rintro ⟨⟨hk, -⟩ | hother, hk'⟩
      · exact absurd hk hk'
      · exact .inl hother
    · rintro (hother | ⟨hsame', -⟩)
      · exact ⟨.inr hother, hother.2⟩
      · exact absurd hsame' hsame

/-- The end of a lookup leaves what fills the cache, less what has expired if it is time
to sweep. -/
theorem mem_finish : (k, e) ∈ (c.finish stored swept ticket membership).entries
    ↔ (k, e) ∈ (c.filled stored ticket membership).entries
      ∧ (c.inserts % sweepInterval = sweepInterval - 1 → swept < e.expires) := by
  rw [finish_eq]
  dsimp only
  split
  next hdue => simp only [mem_purge, hdue, forall_const]
  next hearly => exact ⟨fun h => ⟨h, fun hdue => absurd hdue hearly⟩, fun h => h.1⟩

/-- An entry after the end of a lookup was there before and is for another key, or it
is the one that the lookup leaves. -/
theorem mem_filled_of_mem_finish
    (h : (k, e) ∈ (c.finish stored swept ticket membership).entries) :
    (k, e) ∈ (c.filled stored ticket membership).entries := (mem_finish.1 h).1

/-- Each end of a lookup is counted. -/
theorem inserts_finish :
    (c.finish stored swept ticket membership).inserts = c.inserts + 1 := by
  rw [finish_eq]
  dsimp only
  split <;> rfl

theorem ttl_finish : (c.finish stored swept ticket membership).ttl = c.ttl := by
  have hfilled : (c.filled stored ticket membership).ttl = c.ttl := by
    unfold filled
    dsimp only
    split <;> rfl
  rw [finish_eq]
  dsimp only
  split
  · exact hfilled
  · exact hfilled

theorem generation_finish :
    (c.finish stored swept ticket membership).generation = c.generation := by
  have hfilled : (c.filled stored ticket membership).generation = c.generation := by
    unfold filled
    dsimp only
    split <;> rfl
  rw [finish_eq]
  dsimp only
  split
  · exact hfilled
  · exact hfilled

end Cache

end ProjectAccess
