/-
What a catalog answers, and what its tiers say.

A catalog is asked for the tier and the label of a permission, whether it lists it, for
the permissions of owners and for all of them, and whether a role may carry some. Each
question has a way of its own to its answer: a search through the tiers, a set that was
collected from them, a walk along the role that stops at the first permission that
offends. A table of tiers by id (`Tiers.index`), written entry by entry, is one way more.

`Catalog.AgreesWith` says what all of them should answer in terms of the lists that were
given, and `queries_agree` that they do, for every catalog that can be come by. It rests
on one thing: no id is listed twice. Then the first entry with an id is the last one too,
so that searching and overwriting find the same, and a set that is collected from lists
has as many members as there were entries.
-/
import Mathlib.Algebra.GroupWithZero.Nat
import Mathlib.Data.List.Nodup
import ProjectAccess.Catalog.Builtin
import ProjectAccess.Proofs.Catalog.Tiers
import ProjectAccess.Proofs.Table.Writes

namespace ProjectAccess

-- ================================================================= sets

namespace PermissionSet

theorem nodup_toList (s : PermissionSet) : s.toList.Nodup := by
  refine s.sorted.imp fun hlt heq => ?_
  rw [heq] at hlt
  exact String.lt_irrefl _ hlt

/-- A set has as many members as a list that repeats none. -/
theorem length_ofList {ps : List Permission} (h : ps.Nodup) :
    (ofList ps).toList.length = ps.length := by
  have hperm : (ofList ps).toList.Perm ps :=
    (List.perm_ext_iff_of_nodup (nodup_toList _) h).2 fun _ => mem_ofList
  exact hperm.length_eq

end PermissionSet

-- ================================================================ tiers

namespace Tiers

/-- The tier of each id, in a table that is written entry by entry. -/
def index (t : Tiers) : Table Tier :=
  t.placed.foldl (fun table place => table.put place.2.id place.1) .empty

/-- Permissions that roles may carry. -/
def Grantable (t : Tiers) (id : Permission) : Prop :=
  id ∈ t.ids .anon ∨ id ∈ t.ids .user ∨ id ∈ t.ids .member

/-- Permissions that no role may carry, with the failure that each of them is. -/
inductive Offence (t : Tiers) (id : Permission) : Failure → Prop where
  | unknown (h : ∀ tier, id ∉ t.ids tier) : Offence t id (.unknownPermission id)
  | owner (h : id ∈ t.ids .owner) : Offence t id (.ownerPermissionInRole id)

variable {t : Tiers} {id : Permission}

theorem map_placed : t.placed.map (·.2.id) = Tier.all.flatMap t.ids := by
  unfold placed ids
  rw [List.map_flatMap]
  simp only [List.map_map, Function.comp_def]

theorem grantable_iff : t.Grantable id ↔ ∃ tier, tier ≠ .owner ∧ id ∈ t.ids tier := by
  constructor
  · rintro (h | h | h)
    · exact ⟨.anon, nofun, h⟩
    · exact ⟨.user, nofun, h⟩
    · exact ⟨.member, nofun, h⟩
  · rintro ⟨tier, hnotOwner, h⟩
    cases tier with
    | anon => exact .inl h
    | user => exact .inr (.inl h)
    | member => exact .inr (.inr h)
    | owner => exact absurd rfl hnotOwner

/-- The index knows the tier of the last entry with the id. -/
theorem get?_index :
    t.index.get? id
      = (t.placed.filterMap fun place =>
          if id = place.2.id then some place.1 else none).getLast? := by
  have hput : ∀ (table : Table Tier) (place : Tier × CatalogEntry),
      (table.put place.2.id place.1).get? id
        = (if id = place.2.id then some place.1 else none).or (table.get? id) :=
    fun _ _ => Table.get?_put_eq_or
  have hread := last_write (fun table : Table Tier => table.get? id) hput t.placed .empty
  exact hread.trans Option.or_none

end Tiers

-- ============================================================== queries

namespace Catalog

variable {c : Catalog} {id : Permission} {ids : List Permission} {tier : Tier}

theorem nodup_flatMap_ids : (Tier.all.flatMap c.ids).Nodup := by
  have hnodup := c.nodup
  rw [Tiers.map_placed] at hnodup
  exact hnodup

theorem nodup_ids : (c.ids tier).Nodup :=
  (List.nodup_flatMap.1 nodup_flatMap_ids).1 tier tier.mem_all

theorem getElem?_ids {i : Nat} :
    (c.ids tier)[i]? = some id ↔ ∃ label, (c.entries tier)[i]? = some ⟨id, label⟩ := by
  show ((c.entries tier).map (·.id))[i]? = some id ↔ _
  rw [List.getElem?_map, Option.map_eq_some_iff]
  constructor
  · rintro ⟨entry, hentry, rfl⟩
    exact ⟨entry.label, hentry⟩
  · rintro ⟨label, hentry⟩
    exact ⟨_, hentry, rfl⟩

/-- An id that is listed is listed in one place. -/
theorem existsUnique_place (h : id ∈ c.ids tier) :
    ∃! place : Tier × Nat, (c.ids place.1)[place.2]? = some id := by
  obtain ⟨i, hi⟩ := List.mem_iff_getElem?.1 h
  refine ⟨(tier, i), hi, ?_⟩
  rintro ⟨tier', i'⟩ (hi' : (c.ids tier')[i']? = some id)
  obtain rfl : tier' = tier := tier_unique (List.mem_of_getElem? hi') h
  have hlt : i' < (c.ids tier').length := (List.getElem?_eq_some_iff.1 hi').1
  have hsame : i' = i := (List.getElem?_inj hlt nodup_ids).1 (hi'.trans hi.symm)
  rw [hsame]

/-- The last tier that lists an id is the one that does. -/
theorem get?_index_eq_tierOf? : c.tiers.index.get? id = c.tierOf? id := by
  rw [Tiers.get?_index]
  cases hlast : (c.tiers.placed.filterMap
      fun place => if id = place.2.id then some place.1 else none).getLast? with
  | some tier =>
      obtain ⟨⟨tier', entry⟩, hplaced, hwrite⟩ := List.mem_filterMap.1 (List.mem_of_getLast? hlast)
      obtain ⟨rfl, htier⟩ := Option.ite_none_right_eq_some.1 hwrite
      cases htier
      exact (tierOf?_eq_some_iff.2 (List.mem_map_of_mem (Tiers.mem_placed.1 hplaced))).symm
  | none =>
      cases hfound : c.tierOf? id with
      | none => rfl
      | some tier =>
          -- some entry has the id, so something was written for it
          obtain ⟨entry, hentry, rfl⟩ := List.mem_map.1 (tierOf?_eq_some_iff.1 hfound)
          have hnone := List.filterMap_eq_nil_iff.1 (List.getLast?_eq_none_iff.1 hlast)
            (tier, entry) (Tiers.mem_placed.2 hentry)
          rw [if_pos rfl] at hnone
          cases hnone

theorem contains_iff : c.contains id = true ↔ ∃ tier, c.tierOf? id = some tier :=
  Option.isSome_iff_exists

/-- A label is found exactly if it stands with the id. -/
theorem label?_eq_some_iff {label : String} :
    c.label? id = some label ↔ ∃ tier, ⟨id, label⟩ ∈ c.entries tier := by
  unfold label?
  rw [Option.bind_eq_some_iff]
  constructor
  · rintro ⟨tier, -, hfind⟩
    obtain ⟨entry, hentry, rfl⟩ := Option.map_eq_some_iff.1 hfind
    have hid : entry.id = id := by simpa using List.find?_some hentry
    subst hid
    exact ⟨tier, List.mem_of_find?_eq_some hentry⟩
  · rintro ⟨tier, hentry⟩
    refine ⟨tier, tierOf?_eq_some_iff.2 (List.mem_map_of_mem hentry), ?_⟩
    cases hfind : (c.entries tier).find? (·.id == id) with
    | none =>
        have hnot := List.find?_eq_none.1 hfind _ hentry
        exact absurd (beq_self_eq_true id) hnot
    | some entry =>
        -- there is no other entry with the id to be found
        have hid : entry.id = id := by simpa using List.find?_some hfind
        have hsame : entry = ⟨id, label⟩ :=
          List.inj_on_of_nodup_map nodup_ids (List.mem_of_find?_eq_some hfind) hentry hid
        rw [hsame]
        rfl

theorem label?_eq_none_iff : c.label? id = none ↔ c.contains id = false := by
  rw [Option.eq_none_iff_forall_ne_some, Bool.eq_false_iff, ne_eq, contains_iff]
  simp only [ne_eq, label?_eq_some_iff, tierOf?_eq_some_iff]
  constructor
  · rintro hnone ⟨tier, hlisted⟩
    obtain ⟨entry, hentry, rfl⟩ := List.mem_map.1 hlisted
    exact hnone entry.label ⟨tier, hentry⟩
  · rintro hnot label ⟨tier, hentry⟩
    exact hnot ⟨tier, List.mem_map_of_mem hentry⟩

theorem mem_allIds_iff : id ∈ c.allIds ↔ ∃ tier, id ∈ c.ids tier := by
  rw [allIds, PermissionSet.mem_ofList, List.mem_flatMap]
  exact exists_congr fun tier => and_iff_right tier.mem_all

/-- All permissions are the ids of the index. -/
theorem names_index : c.tiers.index.names = c.allIds.toList := by
  have hmem : ∀ id, id ∈ c.tiers.index.names ↔ id ∈ c.allIds.toList := by
    intro id
    rw [PermissionSet.mem_toList, mem_allIds_iff, Table.mem_names_iff]
    simp only [get?_index_eq_tierOf?, tierOf?_eq_some_iff]
  exact c.tiers.index.sorted.eq_of_mem_iff c.allIds.sorted hmem

theorem length_allIds :
    c.allIds.toList.length = (Tier.all.map fun tier => (c.entries tier).length).sum := by
  rw [allIds, PermissionSet.length_ofList nodup_flatMap_ids, List.length_flatMap]
  simp only [ids, Tiers.ids, List.length_map]
  rfl

-- ================================================================= roles

/-- The failure that a permission is in a role. -/
def offence? (c : Catalog) (id : Permission) : Option Failure :=
  match c.tierOf? id with
  | none => some (.unknownPermission id)
  | some .owner => some (.ownerPermissionInRole id)
  | some _ => none

/-- A role fails by the first of its permissions that offends. -/
theorem checkRole_eq : c.checkRole ids
    = match ids.findSome? c.offence? with
      | some failure => .error failure
      | none => .ok () := by
  induction ids with
  | nil => rfl
  | cons id rest ih =>
      cases hfound : c.tierOf? id with
      | none => rw [checkRole, List.findSome?_cons, offence?, hfound]
      | some tier =>
          rw [checkRole, List.findSome?_cons, offence?, hfound]
          cases tier with
          | owner => rfl
          | _ => exact ih

theorem offence?_eq_some_iff {failure : Failure} :
    c.offence? id = some failure ↔ c.tiers.Offence id failure := by
  have htier : ∀ tier, c.tierOf? id = some tier ↔ id ∈ c.tiers.ids tier :=
    fun tier => tierOf?_eq_some_iff
  cases hfound : c.tierOf? id with
  | none =>
      have hunlisted : ∀ tier, id ∉ c.tiers.ids tier := by
        intro tier hlisted
        rw [← htier, hfound] at hlisted
        cases hlisted
      rw [offence?, hfound, Option.some.injEq]
      constructor
      · rintro rfl
        exact .unknown hunlisted
      · rintro (_ | howner)
        · rfl
        · exact absurd howner (hunlisted .owner)
  | some tier =>
      have hlisted : id ∈ c.tiers.ids tier := (htier tier).1 hfound
      cases tier with
      | owner =>
          rw [offence?, hfound, Option.some.injEq]
          constructor
          · rintro rfl
            exact .owner hlisted
          · rintro (hunlisted | _)
            · exact absurd hlisted (hunlisted .owner)
            · rfl
      | _ =>
          rw [offence?, hfound]
          refine iff_of_false nofun ?_
          rintro (hunlisted | howner)
          · exact hunlisted _ hlisted
          · cases tier_unique hlisted howner

theorem offence?_eq_none_iff : c.offence? id = none ↔ c.tiers.Grantable id := by
  rw [Tiers.grantable_iff]
  cases hfound : c.tierOf? id with
  | none =>
      rw [offence?, hfound]
      refine iff_of_false nofun ?_
      rintro ⟨tier, -, hlisted⟩
      rw [tierOf?_eq_some_iff.2 hlisted] at hfound
      cases hfound
  | some tier =>
      have hlisted : id ∈ c.ids tier := tierOf?_eq_some_iff.1 hfound
      rw [offence?, hfound]
      cases tier with
      | owner =>
          refine iff_of_false nofun ?_
          rintro ⟨tier, hnotOwner, hlisted'⟩
          exact hnotOwner (tier_unique hlisted' hlisted)
      | _ =>
          refine iff_of_true rfl ⟨_, ?_, hlisted⟩
          exact nofun

-- ========================================================== main result

/-- What a catalog answers as the lists have it that it was made of. -/
structure AgreesWith (c : Catalog) (t : Tiers) : Prop where
  entries : ∀ tier, c.entries tier = t.entries tier
  ids : ∀ tier, c.ids tier = (t.entries tier).map (·.id)
  /-- A listed id is the id of one entry of one tier. -/
  place : ∀ tier, ∀ id ∈ t.ids tier,
    ∃! place : Tier × Nat, ∃ label, (t.entries place.1)[place.2]? = some ⟨id, label⟩
  tierOf : ∀ id tier, c.tierOf? id = some tier ↔ id ∈ t.ids tier
  /-- A table of tiers, in which later entries overwrite earlier ones, says the same. -/
  index : ∀ id, t.index.get? id = c.tierOf? id
  indexed : t.index.names = c.allIds.toList
  contains : ∀ id, c.contains id = true ↔ ∃ tier, c.tierOf? id = some tier
  label : ∀ id label, c.label? id = some label ↔ ∃ tier, ⟨id, label⟩ ∈ t.entries tier
  unlabelled : ∀ id, c.label? id = none ↔ c.contains id = false
  owners : ∀ id, id ∈ c.ownerIds ↔ id ∈ t.ids .owner
  allIds : ∀ id, id ∈ c.allIds ↔ ∃ tier, id ∈ t.ids tier
  size : c.allIds.toList.length = (Tier.all.map fun tier => (t.entries tier).length).sum
  accepted : ∀ ids, c.checkRole ids = .ok () ↔ ∀ id ∈ ids, t.Grantable id
  /-- A role that is not accepted fails by the first permission that offends. -/
  refused : ∀ ids failure, c.checkRole ids = .error failure
    ↔ ∃ before id after, ids = before ++ id :: after ∧ (∀ p ∈ before, t.Grantable p)
      ∧ t.Offence id failure

theorem agreesWith_tiers (c : Catalog) : c.AgreesWith c.tiers where
  entries _ := rfl
  ids _ := rfl
  place tier id h := by
    have hplace : ∃! place : Tier × Nat, (c.ids place.1)[place.2]? = some id := existsUnique_place h
    simp only [getElem?_ids] at hplace
    exact hplace
  tierOf _ _ := tierOf?_eq_some_iff
  index _ := get?_index_eq_tierOf?
  indexed := names_index
  contains _ := contains_iff
  label _ _ := label?_eq_some_iff
  unlabelled _ := label?_eq_none_iff
  owners _ := PermissionSet.mem_ofList
  allIds _ := mem_allIds_iff
  size := length_allIds
  accepted ids := by
    simp only [Tiers.grantable_iff]
    exact checkRole_eq_ok_iff
  refused ids failure := by
    have herror : c.checkRole ids = .error failure ↔ ids.findSome? c.offence? = some failure := by
      rw [checkRole_eq]
      cases ids.findSome? c.offence? with
      | none => exact iff_of_false nofun nofun
      | some found => simp
    rw [herror, List.findSome?_eq_some_iff]
    simp only [offence?_eq_some_iff, offence?_eq_none_iff]
    constructor
    · rintro ⟨before, id, after, hids, hoffence, hbefore⟩
      exact ⟨before, id, after, hids, hbefore, hoffence⟩
    · rintro ⟨before, id, after, hids, hbefore, hoffence⟩
      exact ⟨before, id, after, hids, hoffence, hbefore⟩

/-- How a catalog is come by: it is made of lists that are accepted, or is the built-in
one, whose lists nobody checks. -/
inductive MadeOf : Tiers → Catalog → Prop where
  | accepted {t : Tiers} {c : Catalog} (h : ofTiers t = .ok c) : MadeOf t c
  | builtin : MadeOf .builtin .builtin

/-- All queries of a catalog agree with the lists that it was made of. -/
theorem queries_agree (t : Tiers) (c : Catalog) (h : MadeOf t c) : c.AgreesWith t := by
  have htiers : c.tiers = t := by
    cases h with
    | builtin => rfl
    | accepted h =>
        unfold ofTiers at h
        split at h
        · cases h
        · cases h
          rfl
  exact htiers ▸ agreesWith_tiers c

/-- Something to look at, to work on and to sell, and nothing for users as such. -/
def bazaar : Tiers where
  anon := [⟨"look", "Look"⟩]
  member := [⟨"edit", "Edit"⟩, ⟨"tag", "Tag"⟩]
  owner := [⟨"sell", "Sell"⟩]

/-- A role that would sell is refused for that, though there is worse in it further on. -/
theorem queries_bazaar :
    ∃ c, ofTiers bazaar = .ok c ∧ c.tierOf? "tag" = some .member ∧ c.label? "edit" = some "Edit"
      ∧ c.allIds.toList.length = 4
      ∧ c.checkRole ["edit", "sell", "fly"] = .error (.ownerPermissionInRole "sell") := by
  obtain ⟨c, hmade⟩ : ∃ c, ofTiers bazaar = .ok c := ⟨_, rfl⟩
  have hagrees : c.AgreesWith bazaar := queries_agree bazaar c (.accepted hmade)
  have hedit : bazaar.Grantable "edit" := .inr (.inr (by decide))
  have hsell : bazaar.Offence "sell" (.ownerPermissionInRole "sell") := .owner (by decide)
  refine ⟨c, hmade, (hagrees.tierOf _ _).2 (by decide), (hagrees.label _ _).2 ⟨.member, by decide⟩,
    hagrees.size, (hagrees.refused _ _).2 ⟨["edit"], "sell", ["fly"], rfl, ?_, hsell⟩⟩
  exact List.forall_mem_singleton.2 hedit

end Catalog

end ProjectAccess
