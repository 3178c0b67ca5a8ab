/-
What a membership counts for.

A membership names a user, a project and a role, and the role has an id, a project, a
name, a place among the other roles, and a list of permissions. Most of that is there to
be shown. What counts is the `Standing`: whether the member is flagged as an owner, and
which permissions the role lists, in whatever order and however often. Of a catalog it is
the ids that it lists for owners, and of a subject the account.

`effectivePermissions_congr` says so of permissions, source by source, and
`evaluate_congr_standing` of trees without checks of the application, leaf by leaf.
-/
import ProjectAccess.Proofs.Access.Permissions
import ProjectAccess.Proofs.Predicate.Answers

namespace ProjectAccess

/-- Lists make the same set if they name the same permissions. -/
theorem PermissionSet.ofList_eq_ofList_iff {ps qs : List Permission} :
    ofList ps = ofList qs ↔ ∀ id, id ∈ ps ↔ id ∈ qs := by
  constructor
  · intro hsets id
    rw [← mem_ofList, hsets, mem_ofList]
  · intro hlists
    refine ext_mem fun id => ?_
    rw [mem_ofList, mem_ofList, hlists]

/-- What a membership counts for. -/
structure Standing where
  isOwner : Bool
  permissions : PermissionSet
  deriving DecidableEq

/-- What this membership counts for. -/
def Membership.standing (m : Membership) : Standing := ⟨m.isOwner, .ofList m.role.permissions⟩

/-- What a membership counts for, if there is one. -/
def standing? (membership : Option Membership) : Option Standing :=
  membership.map Membership.standing

theorem Membership.standing_eq_iff {m m' : Membership} :
    m.standing = m'.standing
      ↔ m.isOwner = m'.isOwner ∧ ∀ id, id ∈ m.role.permissions ↔ id ∈ m'.role.permissions := by
  unfold standing
  rw [Standing.mk.injEq, PermissionSet.ofList_eq_ofList_iff]

/-- The catalogs list the same permissions for owners. -/
def Catalog.SameOwnerTier (catalog catalog' : Catalog) : Prop :=
  ∀ id, id ∈ catalog.ids .owner ↔ id ∈ catalog'.ids .owner

variable {catalog catalog' : Catalog} {subject subject' : Subject} {project : Project}
variable {membership membership' : Option Membership} {id : Permission}

-- ========================================================== permissions

theorem isSome_standing? : (standing? membership).isSome = membership.isSome := Option.isSome_map

/-- Where there is a membership there is one of the same standing. -/
theorem exists_of_standing (hm : standing? membership = standing? membership') {m : Membership}
    (h : membership = some m) :
    ∃ m', membership' = some m' ∧ m.standing = m'.standing := by
  subst h
  obtain ⟨m', hm', hstanding⟩ := Option.map_eq_some_iff.1 hm.symm
  exact ⟨m', hm', hstanding.symm⟩

theorem ownerLike_of_standing (hsubject : subject.userId? = subject'.userId?)
    (hm : standing? membership = standing? membership')
    (h : ownerLike subject project membership = true) :
    ownerLike subject' project membership' = true := by
  rw [ownerLike_iff] at h ⊢
  rcases h with hnamed | ⟨m, hmember, hflag⟩
  · exact .inl (hsubject ▸ hnamed)
  · obtain ⟨m', hmember', hstanding⟩ := exists_of_standing hm hmember
    exact .inr ⟨m', hmember', (Membership.standing_eq_iff.1 hstanding).1 ▸ hflag⟩

theorem Subject.isAuthenticated_eq (subject : Subject) :
    subject.isAuthenticated = subject.userId?.isSome := by
  cases subject <;> rfl

theorem Source.of_standing (hcatalog : catalog.SameOwnerTier catalog')
    (hsubject : subject.userId? = subject'.userId?)
    (hm : standing? membership = standing? membership')
    (h : Source catalog subject project membership id) :
    Source catalog' subject' project membership' id := by
  cases h with
  | everybody h => exact .everybody h
  | authenticated hregistered h =>
      rw [Subject.isAuthenticated_eq, hsubject, ← Subject.isAuthenticated_eq] at hregistered
      exact .authenticated hregistered h
  | role hmember h =>
      obtain ⟨m', hmember', hstanding⟩ := exists_of_standing hm hmember
      exact .role hmember' (((Membership.standing_eq_iff.1 hstanding).2 id).1 h)
  | ownership howner h =>
      exact .ownership (ownerLike_of_standing hsubject hm howner) ((hcatalog id).1 h)

theorem ShutOut.of_standing (hsubject : subject.userId? = subject'.userId?)
    (hm : standing? membership = standing? membership')
    (h : ShutOut subject project membership) : ShutOut subject' project membership' := by
  obtain ⟨rfl, hnotOwner, hprivate⟩ := h
  refine ⟨Option.map_eq_none_iff.1 hm.symm, Bool.eq_false_iff.2 fun howner => ?_, hprivate⟩
  rw [ownerLike_of_standing hsubject.symm hm.symm howner] at hnotOwner
  cases hnotOwner

/-- Permissions depend on the standing of the member, the account of the subject, and what
the catalog lists for owners. -/
theorem effectivePermissions_congr (hcatalog : catalog.SameOwnerTier catalog')
    (hsubject : subject.userId? = subject'.userId?)
    (hm : standing? membership = standing? membership') :
    effectivePermissions catalog subject project membership
      = effectivePermissions catalog' subject' project membership' := by
  refine PermissionSet.ext_mem fun id => ?_
  rw [mem_effectivePermissions, mem_effectivePermissions]
  refine and_congr (not_congr ⟨?_, ?_⟩) ⟨?_, ?_⟩
  · exact ShutOut.of_standing hsubject hm
  · exact ShutOut.of_standing hsubject.symm hm.symm
  · exact Source.of_standing hcatalog hsubject hm
  · exact Source.of_standing (fun id => (hcatalog id).symm) hsubject.symm hm.symm

-- =========================================================== predicates

variable {resource : Resource} {action : Action} {p : Predicate}

/-- A tree without checks of the application depends on the standing of the member and on
what the catalog lists for owners. -/
theorem Predicate.evaluate_congr_standing (hfree : p.CheckFree)
    (hcatalog : catalog.SameOwnerTier catalog')
    (hm : standing? membership = standing? membership') :
    p.evaluate ⟨catalog, subject, resource, action, membership⟩
      = p.evaluate ⟨catalog', subject, resource, action, membership'⟩ := by
  have hmember : membership.isSome = membership'.isSome := by
    rw [← isSome_standing?, hm, isSome_standing?]
  rw [evaluate_eq, evaluate_eq]
  refine verdict_congr fun leaf hleaf => ?_
  have hisLeaf : leaf.isLeaf = true := isLeaf_of_mem_leaves hleaf
  cases leaf with
  | allowAny => rfl
  | isAuthenticated => rfl
  | isAnonymous => rfl
  | isProjectOwner => rfl
  | isProjectMember =>
      show (resource.project?.isSome && membership.isSome)
        = (resource.project?.isSome && membership'.isSome)
      rw [hmember]
  | hasPermission id =>
      have hpermissions : (effectivePermissions catalog subject · membership)
          = (effectivePermissions catalog' subject · membership') :=
        funext fun _ => effectivePermissions_congr hcatalog rfl hm
      show (resource.project?.map (effectivePermissions catalog subject · membership)).any _
        = (resource.project?.map (effectivePermissions catalog' subject · membership')).any _
      rw [hpermissions]
  | custom check => exact absurd hleaf (hfree check)
  | _ => cases hisLeaf

end ProjectAccess
