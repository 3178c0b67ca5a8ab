/-
Projects, whose owner and visibility decide what strangers may do.
-/
import ProjectAccess.Permission
import ProjectAccess.Subject

namespace ProjectAccess

/-- A project: its owner, whether it is private, and the permissions it gives to
everybody and to every authenticated user. -/
structure Project where
  id : ProjectId
  owner : UserId
  isPrivate : Bool
  anonPermissions : PermissionSet
  publicPermissions : PermissionSet
  deriving DecidableEq

namespace Project

/-- A public project that gives no permissions yet. -/
def new (id : ProjectId) (owner : UserId) : Project :=
  ⟨id, owner, false, ∅, ∅⟩

/-- The project, closed to strangers or open. -/
def withPrivate (p : Project) (isPrivate : Bool) : Project :=
  { p with isPrivate }

/-- The project with exactly these permissions for everybody. -/
def withAnonPermissions (p : Project) (ps : List Permission) : Project :=
  { p with anonPermissions := .ofList ps }

/-- The project with exactly these permissions for authenticated users. -/
def withPublicPermissions (p : Project) (ps : List Permission) : Project :=
  { p with publicPermissions := .ofList ps }

/-- The user is the owner named by the project. -/
def isOwnedBy (p : Project) (user : UserId) : Bool := p.owner == user

end Project

end ProjectAccess
