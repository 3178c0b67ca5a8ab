/-
Who asks for access: an anonymous visitor or a registered user.
-/
import ProjectAccess.Id

namespace ProjectAccess

/-- A registered account. A superuser passes every gate. -/
structure User where
  id : UserId
  isSuperuser : Bool
  deriving DecidableEq, Repr

/-- Who asks for access. -/
inductive Subject where
  | anonymous
  | user (user : User)
  deriving DecidableEq, Repr

namespace Subject

/-- A user without special standing. -/
def registered (id : UserId) : Subject := .user ⟨id, false⟩

/-- A user who passes every gate. -/
def superuser (id : UserId) : Subject := .user ⟨id, true⟩

/-- The account of the subject, if it has one. -/
def userId? : Subject → Option UserId
  | .anonymous => none
  | .user u => some u.id

/-- The subject is a user, of whatever standing. -/
def isAuthenticated : Subject → Bool
  | .anonymous => false
  | .user _ => true

/-- The subject passes every gate. -/
def isSuperuser : Subject → Bool
  | .anonymous => false
  | .user u => u.isSuperuser

/-- The standing of a subject. -/
inductive Kind where
  | anonymous
  | user
  | superuser
  deriving DecidableEq, Repr

/-- The standing of this subject. -/
def kind : Subject → Kind
  | .anonymous => .anonymous
  | .user u => if u.isSuperuser then .superuser else .user

/-- The word for a standing in log events. -/
def Kind.name : Kind → String
  | .anonymous => "anonymous"
  | .user => "user"
  | .superuser => "superuser"

end Subject

end ProjectAccess
