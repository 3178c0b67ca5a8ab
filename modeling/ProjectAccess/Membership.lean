/-
Memberships: a user, a project and the role that the user holds in it.
-/
import ProjectAccess.Role

namespace ProjectAccess

/-- A user's place in a project. An owner-flagged member holds the rights of an
owner whatever the role. -/
structure Membership where
  userId : UserId
  projectId : ProjectId
  role : Role
  isOwner : Bool
  deriving DecidableEq

/-- A user and a project, which name at most one membership. -/
structure MemberKey where
  userId : UserId
  projectId : ProjectId
  deriving DecidableEq, Repr

namespace Membership

/-- An ordinary member, in the project of the role. -/
def new (userId : UserId) (role : Role) : Membership :=
  ⟨userId, role.projectId, role, false⟩

/-- The membership, owner-flagged or not. -/
def withOwner (m : Membership) (isOwner : Bool) : Membership := { m with isOwner }

/-- The user and the project that the membership joins. -/
def key (m : Membership) : MemberKey := ⟨m.userId, m.projectId⟩

end Membership

end ProjectAccess
