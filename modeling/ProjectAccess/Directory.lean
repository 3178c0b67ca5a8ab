/-
The directory: memberships kept in memory.

A user has one membership in a project at most. Changes fail, and change nothing,
when the membership is there already or is not there, or when a role belongs to
another project.
-/
import ProjectAccess.Failure
import ProjectAccess.Membership

namespace ProjectAccess

/-- Memberships, no two of which have the same user and project. -/
structure Directory where
  members : List Membership
  nodup : (members.map Membership.key).Nodup

namespace Directory

/-- The name of this kind of store in the log. -/
def backend : String := "memory"

/-- The directory without members. -/
def empty : Directory := ⟨[], .nil⟩

instance : Inhabited Directory := ⟨empty⟩

/-- The membership of a user in a project. -/
def lookup (d : Directory) (key : MemberKey) : Option Membership :=
  d.members.find? (·.key == key)

-- ================================================================ changes

/-- The failure of a change to a membership that is not there. -/
def notFound (key : MemberKey) : StoreError :=
  .notFound ("membership for user " ++ key.userId.text ++ " in project " ++ key.projectId.text)

/-- Members whose keys stay as they are keep them distinct. -/
theorem nodup_map {l : List Membership} {f : Membership → Membership}
    (hf : ∀ m, (f m).key = m.key) (h : (l.map Membership.key).Nodup) :
    ((l.map f).map Membership.key).Nodup := by
  have : (l.map f).map Membership.key = l.map Membership.key := by
    simp [List.map_map, Function.comp_def, hf]
  rwa [this]

/-- The directory with the membership under a key changed. -/
def modify (d : Directory) (key : MemberKey) (f : Membership → Membership)
    (hf : ∀ m, (f m).key = m.key) : Directory :=
  ⟨d.members.map fun m => if m.key = key then f m else m,
    nodup_map (fun m => by split <;> simp [hf]) d.nodup⟩

/-- Changes the membership under a key: the new membership and the directory with it. -/
def update (d : Directory) (key : MemberKey) (f : Membership → Membership)
    (hf : ∀ m, (f m).key = m.key) : Except StoreError (Membership × Directory) :=
  match d.lookup key with
  | some m => .ok (f m, d.modify key f hf)
  | none => .error (notFound key)

/-- Adds a membership. -/
def add (d : Directory) (m : Membership) : Except StoreError (Membership × Directory) :=
  if h : m.key ∈ d.members.map Membership.key then
    .error (.conflict ("user " ++ m.userId.text ++ " is already a member of project "
      ++ m.projectId.text))
  else .ok (m, ⟨m :: d.members, List.nodup_cons.2 ⟨h, d.nodup⟩⟩)

/-- Gives a member another role, which has to be one of the project. -/
def updateRole (d : Directory) (key : MemberKey) (role : Role) :
    Except StoreError (Membership × Directory) :=
  if role.projectId ≠ key.projectId then
    .error (.conflict ("role " ++ role.id.text ++ " belongs to project " ++ role.projectId.text))
  else d.update key (fun m => { m with role }) fun _ => rfl

/-- Flags a member as an owner, or takes the flag away. -/
def setOwner (d : Directory) (key : MemberKey) (isOwner : Bool) :
    Except StoreError (Membership × Directory) :=
  d.update key (·.withOwner isOwner) fun _ => rfl

/-- Removes a membership. -/
def remove (d : Directory) (key : MemberKey) : Except StoreError Directory :=
  if (d.lookup key).isSome then
    .ok ⟨d.members.filter fun m => m.key ≠ key,
      d.nodup.sublist (List.filter_sublist.map _)⟩
  else .error (notFound key)

-- ================================================================ listing

/-- The order in which the members of a project are listed: by the order of their
roles, then by the names of the roles, then by user. -/
def listedBefore (a b : Membership) : Bool :=
  if a.role.order ≠ b.role.order then a.role.order < b.role.order
  else if a.role.name ≠ b.role.name then a.role.name < b.role.name
  else a.userId ≤ b.userId

/-- The members of a project. -/
def membersOf (d : Directory) (project : ProjectId) : List Membership :=
  (d.members.filter (·.projectId = project)).mergeSort listedBefore

end Directory

end ProjectAccess
