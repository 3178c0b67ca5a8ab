/-
Holdings that differ only in what has expired.

The clock does not go back, so an entry that has expired is never served again, and it
makes no difference whether it is still held. `Trails` says that of two holdings: one
is part of the other, and what it lacks has expired. It also says under which keys
something may be lacking, for readers who want to know whom to blame.

A holding is any set of entries, so a cache may be compared with another cache or with
a ledger of quite another make. Two lemmas keep the relation: the same update on both
sides (`Trails.update`), and a loss of expired entries on the left alone
(`Trails.lose`). Evictions and sweeps are losses, everything else is an update.
-/
import ProjectAccess.Proofs.Cache.Contents

namespace ProjectAccess

namespace Cache

-- ============================================================= holdings

/-- Entries under keys. -/
abbrev Holding := MemberKey → CacheEntry → Prop

def holds (c : Cache) : Holding := fun key entry => (key, entry) ∈ c.entries

variable {now now' : Nat} {lost lost' : MemberKey → Prop} {P P' Q Q' : Holding}
variable {k key : MemberKey} {e : CacheEntry}

/-- All that is in the second is in the first, but for entries that have expired by now,
under keys that may have lost some. -/
structure Trails (now : Nat) (lost : MemberKey → Prop) (P Q : Holding) : Prop where
  le : ∀ {k e}, P k e → Q k e
  gone : ∀ {k e}, Q k e → P k e ∨ (e.expires ≤ now ∧ lost k)

theorem Trails.refl : Trails now lost P P := ⟨id, .inl⟩

theorem Trails.later (h : Trails now lost P Q) (hnow : now ≤ now')
    (hlost : ∀ k, lost k → lost' k) : Trails now' lost' P Q where
  le := h.le
  gone {k e} hQ := by
    rcases h.gone hQ with hP | ⟨hold, hk⟩
    · exact .inl hP
    · exact .inr ⟨by omega, hlost k hk⟩

/-- What counts is in both or in neither. -/
theorem Trails.live_iff (h : Trails now lost P Q) (hlive : now < e.expires) :
    P k e ↔ Q k e := by
  constructor
  · exact h.le
  · intro hQ
    rcases h.gone hQ with hP | ⟨hold, -⟩
    · exact hP
    · omega

/-- What has expired may be lost on the left. -/
theorem Trails.lose (h : Trails now lost P Q) (hle : ∀ k e, P' k e → P k e)
    (hlose : ∀ k e, P k e → P' k e ∨ (e.expires ≤ now ∧ lost k)) : Trails now lost P' Q where
  le hP := h.le (hle _ _ hP)
  gone {k e} hQ := by
    rcases h.gone hQ with hP | hlost
    · exact hlose k e hP
    · exact .inr hlost

/-- What is added and what is kept may change if it is the same on both sides. -/
theorem Trails.update (h : Trails now lost P Q) (added kept : Holding)
    (hP : ∀ k e, P' k e ↔ added k e ∨ (P k e ∧ kept k e))
    (hQ : ∀ k e, Q' k e ↔ added k e ∨ (Q k e ∧ kept k e)) : Trails now lost P' Q' where
  le {k e} := by
    rw [hP, hQ]
    rintro (hadded | ⟨hold, hkept⟩)
    · exact .inl hadded
    · exact .inr ⟨h.le hold, hkept⟩
  gone {k e} := by
    rw [hP, hQ]
    rintro (hadded | ⟨hold, hkept⟩)
    · exact .inl (.inl hadded)
    · rcases h.gone hold with hold | hlost
      · exact .inl (.inr ⟨hold, hkept⟩)
      · exact .inr hlost

end Cache

end ProjectAccess
