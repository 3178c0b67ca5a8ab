/-
What the effective permissions hold, permission by permission.

`effectivePermissions` looks first at who is shut out and then joins four sources.
`mem_effectivePermissions` says the same of one permission: there is a source that
names it, and the subject is not shut out. Nothing below unfolds the definition again.
-/
import Mathlib.Data.List.Sort
import Mathlib.Data.String.Basic
import ProjectAccess.Access

namespace ProjectAccess

namespace PermissionSet

theorem not_mem_empty {id : Permission} : id ∉ (∅ : PermissionSet) := List.not_mem_nil

theorem eq_empty_of_forall_not_mem {s : PermissionSet} (h : ∀ id, id ∉ s) : s = ∅ :=
  ext_toList (List.eq_nil_iff_forall_not_mem.2 h)

/-- A set is known by its members. -/
theorem ext_mem {s t : PermissionSet} (h : ∀ p, p ∈ s ↔ p ∈ t) : s = t :=
  ext_toList (List.Pairwise.eq_of_mem_iff s.sorted t.sorted h)

theorem mem_ite_empty {id : Permission} {s : PermissionSet} {b : Bool} :
    id ∈ (if b then s else ∅) ↔ b = true ∧ id ∈ s := by
  cases b with
  | false => exact iff_of_false not_mem_empty fun h => Bool.false_ne_true h.1
  | true => exact ⟨fun h => ⟨rfl, h⟩, fun h => h.2⟩

end PermissionSet

variable {catalog : Catalog} {subject : Subject} {project : Project}
variable {membership : Option Membership} {id : Permission}

/-- The subject has the rights of an owner exactly by one of two names: that of the
owner of the project, or that of a flagged member. -/
theorem ownerLike_iff :
    ownerLike subject project membership = true
      ↔ subject.userId? = some project.owner ∨ ∃ m, membership = some m ∧ m.isOwner = true := by
  unfold ownerLike
  rw [Bool.or_eq_true, Option.any_eq_true, Option.any_eq_true]
  simp only [Project.isOwnedBy, beq_iff_eq]
  constructor
  · rintro (⟨user, huser, howner⟩ | hflag)
    · exact .inl (howner ▸ huser)
    · exact .inr hflag
  · rintro (huser | hflag)
    · exact .inl ⟨project.owner, huser, rfl⟩
    · exact .inr hflag

/-- The subject is a stranger to the project, and the project is private. -/
def ShutOut (subject : Subject) (project : Project) (membership : Option Membership) : Prop :=
  membership = none ∧ ownerLike subject project membership = false ∧ project.isPrivate = true

/-- The sources of a permission: everybody has it, or every authenticated user, or the
role of the member grants it, or it comes with ownership. -/
inductive Source (catalog : Catalog) (subject : Subject) (project : Project)
    (membership : Option Membership) (id : Permission) : Prop where
  | everybody (h : id ∈ project.anonPermissions)
  | authenticated (hsubject : subject.isAuthenticated = true) (h : id ∈ project.publicPermissions)
  | role {m : Membership} (hmember : membership = some m) (h : id ∈ m.role.permissions)
  | ownership (howner : ownerLike subject project membership = true) (h : id ∈ catalog.ids .owner)

/-- The permissions that come with membership are those of the role. -/
theorem mem_rolePermissions :
    id ∈ (match membership with
      | some m => PermissionSet.ofList m.role.permissions
      | none => ∅) ↔ ∃ m, membership = some m ∧ id ∈ m.role.permissions := by
  cases membership with
  | none =>
      refine iff_of_false PermissionSet.not_mem_empty ?_
      rintro ⟨m, hmember, -⟩
      cases hmember
  | some m => simp

/-- A permission is effective if it has a source and the subject is not shut out. -/
theorem mem_effectivePermissions :
    id ∈ effectivePermissions catalog subject project membership
      ↔ ¬ ShutOut subject project membership ∧ Source catalog subject project membership id := by
  have hshut : (membership.isNone = true ∧ (!ownerLike subject project membership) = true
      ∧ project.isPrivate = true) ↔ ShutOut subject project membership := by
    rw [ShutOut, Option.isNone_iff_eq_none, Bool.not_eq_true']
  unfold effectivePermissions
  dsimp only
  by_cases hout : ShutOut subject project membership
  · -- privacy takes away whatever the sources give
    rw [if_pos (hshut.2 hout)]
    exact iff_of_false PermissionSet.not_mem_empty fun h => h.1 hout
  · rw [if_neg (mt hshut.1 hout), PermissionSet.mem_union, PermissionSet.mem_union,
      PermissionSet.mem_union, PermissionSet.mem_ite_empty, PermissionSet.mem_ite_empty,
      Catalog.ownerIds, PermissionSet.mem_ofList]
    constructor
    · rintro (((h | ⟨hsubject, h⟩) | h) | ⟨howner, h⟩)
      · exact ⟨hout, .everybody h⟩
      · exact ⟨hout, .authenticated hsubject h⟩
      · obtain ⟨m, hmember, h⟩ := mem_rolePermissions.1 h
        exact ⟨hout, .role hmember h⟩
      · exact ⟨hout, .ownership howner h⟩
    · rintro ⟨-, hsource⟩
      cases hsource with
      | everybody h => exact .inl (.inl (.inl h))
      | authenticated hsubject h => exact .inl (.inl (.inr ⟨hsubject, h⟩))
      | role hmember h => exact .inl (.inr (mem_rolePermissions.2 ⟨_, hmember, h⟩))
      | ownership howner h => exact .inr ⟨howner, h⟩

/-- Who is shut out has no permission at all. -/
theorem effectivePermissions_of_shutOut (h : ShutOut subject project membership) :
    effectivePermissions catalog subject project membership = ∅ :=
  PermissionSet.eq_empty_of_forall_not_mem fun _ hid => (mem_effectivePermissions.1 hid).1 h

end ProjectAccess
