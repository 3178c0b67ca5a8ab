/-
Permissions as they are specified: accumulated, and overridden in the end.

The specification gives permissions out in four grants, one after the other, and then
looks whether the project is private and the subject a stranger, and if so takes
everything away again (`specifiedPermissions`). `effectivePermissions` looks first and
gives nothing to strangers. Nothing relates what the grants give: a permission of
everybody need not be one of registered users, and an owner may be given it once more.

That the two agree (`permissions_as_specified`) is seen permission by permission. What
has been accumulated after some grants is what some of them gives (`mem_accumulated`),
whatever their order, and what a grant gives is one of the sources of permissions
(`source_iff`).
-/
import ProjectAccess.Proofs.Access.Standing

namespace ProjectAccess

-- ======================================================== specification

/-- The subject is named by the project as its owner, or the membership is flagged. -/
def OwnerLike (subject : Subject) (project : Project) (membership : Option Membership) : Prop :=
  subject.userId? = some project.owner ∨ membership.any (·.isOwner)

instance (subject : Subject) (project : Project) (membership : Option Membership) :
    Decidable (OwnerLike subject project membership) :=
  inferInstanceAs (Decidable (_ ∨ _))

/-- An occasion on which permissions are given. -/
inductive Grant where
  | everybody
  | registered
  | role
  | ownership
  deriving DecidableEq, Repr

/-- All grants in the order in which they are made. -/
def Grant.all : List Grant := [.everybody, .registered, .role, .ownership]

section

variable (catalog : Catalog) (subject : Subject) (project : Project)
variable (membership : Option Membership)

/-- The permissions that a grant gives. -/
def Grant.given : Grant → List Permission
  | everybody => project.anonPermissions.toList
  | registered => if subject = .anonymous then [] else project.publicPermissions.toList
  | role =>
    match membership with
    | some m => m.role.permissions
    | none => []
  | ownership => if OwnerLike subject project membership then catalog.ids .owner else []

/-- The permissions that are there after grants, starting from some. -/
def accumulated (start : PermissionSet) (grants : List Grant) : PermissionSet :=
  grants.foldl (fun permissions grant =>
    permissions ∪ .ofList (grant.given catalog subject project membership)) start

/-- The permissions of a subject in a project as they are specified: all grants are made,
and the result is replaced by nothing for strangers to a private project. -/
def specifiedPermissions : PermissionSet :=
  let permissions := accumulated catalog subject project membership ∅ Grant.all
  if membership = none ∧ ¬ OwnerLike subject project membership ∧ project.isPrivate then ∅
  else permissions

end

-- ============================================================ agreement

variable {catalog : Catalog} {subject : Subject} {project : Project}
variable {membership : Option Membership} {id : Permission}

theorem ownerLike_eq_true_iff :
    ownerLike subject project membership = true ↔ OwnerLike subject project membership := by
  unfold OwnerLike
  rw [ownerLike_iff, Option.any_eq_true]

/-- Grants only add, and each adds what it gives. -/
theorem mem_accumulated {start : PermissionSet} {grants : List Grant} :
    id ∈ accumulated catalog subject project membership start grants
      ↔ id ∈ start ∨ ∃ grant ∈ grants, id ∈ grant.given catalog subject project membership := by
  unfold accumulated
  induction grants generalizing start with
  | nil => simp
  | cons grant grants ih =>
      rw [List.foldl_cons, ih, PermissionSet.mem_union, PermissionSet.mem_ofList, or_assoc,
        List.exists_mem_cons_iff]

/-- The sources of a permission are the grants that give it. -/
theorem source_iff :
    Source catalog subject project membership id
      ↔ ∃ grant ∈ Grant.all, id ∈ grant.given catalog subject project membership := by
  constructor
  · intro hsource
    cases hsource with
    | everybody h => exact ⟨.everybody, by decide, h⟩
    | authenticated hsubject h =>
        refine ⟨.registered, by decide, ?_⟩
        cases subject with
        | anonymous => cases hsubject
        | user user => exact h
    | role hmember h =>
        refine ⟨.role, by decide, ?_⟩
        subst hmember
        exact h
    | ownership howner h =>
        refine ⟨.ownership, by decide, ?_⟩
        unfold Grant.given
        rw [if_pos (ownerLike_eq_true_iff.1 howner)]
        exact h
  · rintro ⟨grant, -, h⟩
    cases grant with
    | everybody => exact .everybody h
    | registered =>
        cases subject with
        | anonymous => exact absurd h List.not_mem_nil
        | user user => exact .authenticated rfl h
    | role =>
        cases membership with
        | none => exact absurd h List.not_mem_nil
        | some m => exact .role rfl h
    | ownership =>
        have hgiven : id ∈ if OwnerLike subject project membership then catalog.ids .owner
            else [] := h
        split at hgiven
        next howner => exact .ownership (ownerLike_eq_true_iff.2 howner) hgiven
        next => exact absurd hgiven List.not_mem_nil

/-- Who is shut out has everything taken away, and nobody else has. -/
theorem mem_specifiedPermissions :
    id ∈ specifiedPermissions catalog subject project membership
      ↔ ¬ ShutOut subject project membership ∧ Source catalog subject project membership id := by
  have hshut : (membership = none ∧ ¬ OwnerLike subject project membership
      ∧ project.isPrivate = true) ↔ ShutOut subject project membership := by
    rw [ShutOut, ← ownerLike_eq_true_iff, Bool.not_eq_true]
  have hall : id ∈ accumulated catalog subject project membership ∅ Grant.all
      ↔ Source catalog subject project membership id := by
    rw [mem_accumulated, source_iff]
    exact or_iff_right PermissionSet.not_mem_empty
  unfold specifiedPermissions
  dsimp only
  by_cases hout : ShutOut subject project membership
  · rw [if_pos (hshut.2 hout)]
    exact iff_of_false (PermissionSet.not_mem_empty) fun h => h.1 hout
  · rw [if_neg (mt hshut.1 hout), hall]
    exact (and_iff_right hout).symm

-- ========================================================== main result

/-- The effective permissions are those that are specified, whoever the membership belongs
to. A superuser has the permissions of others with the same account. Every permission is
named by the project for everybody or for registered users, by the role, or by the catalog
for owners. -/
theorem permissions_as_specified (catalog : Catalog) (subject : Subject) (project : Project)
    (membership : Option Membership) :
    effectivePermissions catalog subject project membership
        = specifiedPermissions catalog subject project membership
      ∧ (∀ user, effectivePermissions catalog (.superuser user) project membership
          = effectivePermissions catalog (.registered user) project membership)
      ∧ ∀ id ∈ effectivePermissions catalog subject project membership,
          id ∈ project.anonPermissions ∨ id ∈ project.publicPermissions
            ∨ (∃ m, membership = some m ∧ id ∈ m.role.permissions) ∨ id ∈ catalog.ids .owner := by
  refine ⟨?_, fun user => ?_, fun id hid => ?_⟩
  · refine PermissionSet.ext_mem fun id => ?_
    rw [mem_effectivePermissions, mem_specifiedPermissions]
  · exact effectivePermissions_congr (fun _ => Iff.rfl) rfl rfl
  · obtain ⟨-, hsource⟩ := mem_effectivePermissions.1 hid
    cases hsource with
    | everybody h => exact .inl h
    | authenticated _ h => exact .inr (.inl h)
    | role hmember h => exact .inr (.inr (.inl ⟨_, hmember, h⟩))
    | ownership _ h => exact .inr (.inr (.inr h))

end ProjectAccess
