/-
The tiers of a catalog do not overlap.

A catalog lists no id twice, so the tier of a permission is the one that lists it, and
to look through the tiers from the widest to the narrowest is no choice among several.
`Catalog.checkRole` accepts a role by the tiers that it finds. What it accepts is
therefore not among the permissions of owners under any reading
(`not_mem_owner_of_checkRole`).
-/
import Mathlib.Data.List.Nodup
import ProjectAccess.Catalog.Basic

namespace ProjectAccess

theorem Tiers.mem_placed {t : Tiers} {tier : Tier} {entry : CatalogEntry} :
    (tier, entry) ∈ t.placed ↔ entry ∈ t.entries tier := by
  unfold placed
  rw [List.mem_flatMap]
  constructor
  · rintro ⟨tier', -, hmem⟩
    obtain ⟨entry', hentry, heq⟩ := List.mem_map.1 hmem
    cases heq
    exact hentry
  · intro hentry
    exact ⟨tier, tier.mem_all, List.mem_map.2 ⟨entry, hentry, rfl⟩⟩

namespace Catalog

variable {c : Catalog} {id : Permission} {ids : List Permission} {tier tier' : Tier}

/-- No two tiers list the same permission. -/
theorem tier_unique (h : id ∈ c.ids tier) (h' : id ∈ c.ids tier') : tier = tier' := by
  obtain ⟨entry, hentry, hid⟩ := List.mem_map.1 h
  obtain ⟨entry', hentry', hid'⟩ := List.mem_map.1 h'
  have hplaced : (tier, entry) = (tier', entry') :=
    List.inj_on_of_nodup_map c.nodup (Tiers.mem_placed.2 hentry) (Tiers.mem_placed.2 hentry')
      (hid.trans hid'.symm)
  exact congrArg Prod.fst hplaced

/-- The tier that is found is the one that lists the permission. -/
theorem tierOf?_eq_some_iff : c.tierOf? id = some tier ↔ id ∈ c.ids tier := by
  unfold tierOf?
  constructor
  · intro h
    have hfound := List.find?_some h
    exact of_decide_eq_true hfound
  · intro h
    cases hfound : Tier.all.find? fun tier => decide (id ∈ c.ids tier) with
    | none =>
        have hnot := List.find?_eq_none.1 hfound tier tier.mem_all
        exact absurd (decide_eq_true h) hnot
    | some tier' =>
        have hlisted := List.find?_some hfound
        rw [tier_unique (of_decide_eq_true hlisted) h]

/-- A role is accepted exactly if each of its permissions is listed in a tier other than
that of owners. -/
theorem checkRole_eq_ok_iff :
    c.checkRole ids = .ok () ↔ ∀ id ∈ ids, ∃ tier, tier ≠ .owner ∧ id ∈ c.ids tier := by
  induction ids with
  | nil => exact iff_of_true rfl nofun
  | cons id rest ih =>
      rw [List.forall_mem_cons, ← ih, checkRole]
      split
      next hnone =>
        -- the permission is not listed at all
        refine iff_of_false nofun ?_
        rintro ⟨⟨tier, -, hlisted⟩, -⟩
        rw [tierOf?_eq_some_iff.2 hlisted] at hnone
        cases hnone
      next howner =>
        -- it is listed for owners, and by `tier_unique` nowhere else
        refine iff_of_false nofun ?_
        rintro ⟨⟨tier, hnotOwner, hlisted⟩, -⟩
        exact hnotOwner (tier_unique hlisted (tierOf?_eq_some_iff.1 howner))
      next tier hnotOwner hfound =>
        exact ⟨fun h => ⟨⟨tier, hnotOwner, tierOf?_eq_some_iff.1 hfound⟩, h⟩, fun h => h.2⟩

/-- A role that is accepted carries no permission of owners. -/
theorem not_mem_owner_of_checkRole (h : c.checkRole ids = .ok ()) (hid : id ∈ ids) :
    id ∉ c.ids .owner := by
  intro howner
  obtain ⟨tier, hnotOwner, hlisted⟩ := checkRole_eq_ok_iff.1 h id hid
  exact hnotOwner (tier_unique hlisted howner)

end Catalog

end ProjectAccess
