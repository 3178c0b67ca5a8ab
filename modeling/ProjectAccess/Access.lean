/-
What a subject may do in a project.

The permissions of everybody, of authenticated users, of the role and of owners
add up. Ownership comes from the project, which names its owner, or from a
membership that is flagged. Strangers get nothing from a private project. That a
subject is a superuser makes no difference here: superusers pass the gate without
permissions.
-/
import ProjectAccess.Catalog.Basic
import ProjectAccess.Membership
import ProjectAccess.Project

namespace ProjectAccess

/-- The subject has the rights of an owner in the project. -/
def ownerLike (subject : Subject) (project : Project) (membership : Option Membership) : Bool :=
  subject.userId?.any project.isOwnedBy || membership.any (·.isOwner)

/-- The permissions of a subject in a project, given the subject's membership. The
membership counts as it is, whoever it belongs to. -/
def effectivePermissions (catalog : Catalog) (subject : Subject) (project : Project)
    (membership : Option Membership) : PermissionSet :=
  let owns := ownerLike subject project membership
  if membership.isNone ∧ !owns ∧ project.isPrivate then ∅
  else
    project.anonPermissions
      ∪ (if subject.isAuthenticated then project.publicPermissions else ∅)
      ∪ (match membership with
        | some m => .ofList m.role.permissions
        | none => ∅)
      ∪ (if owns then catalog.ownerIds else ∅)

end ProjectAccess
