/-
The records that the library's values are written as.
-/
import ProjectAccess.Catalog.Tier
import ProjectAccess.Decision
import ProjectAccess.Membership
import ProjectAccess.Project
import ProjectAccess.Record.Value

namespace ProjectAccess.Record

/-- An id is its written form. -/
def ofId {kind : IdKind} (id : Id kind) : Value := .text id.text

/-- A set of permissions is the list of its members in order. -/
def ofPermissions (s : PermissionSet) : Value := .ofTexts s.toList

/-- The record of a user. -/
def ofUser (u : User) : Value :=
  .object [("id", ofId u.id), ("is_superuser", .flag u.isSuperuser)]

/-- The record of a subject, told apart by its kind. -/
def ofSubject : Subject → Value
  | .anonymous => .object [("kind", .text "anonymous")]
  | .user u =>
    .object [("kind", .text "user"), ("id", ofId u.id), ("is_superuser", .flag u.isSuperuser)]

/-- The record of a project. -/
def ofProject (p : Project) : Value :=
  .object [("id", ofId p.id), ("owner", ofId p.owner), ("is_private", .flag p.isPrivate),
    ("anon_permissions", ofPermissions p.anonPermissions),
    ("public_permissions", ofPermissions p.publicPermissions)]

/-- The record of a role. -/
def ofRole (r : Role) : Value :=
  .object [("id", ofId r.id), ("project_id", ofId r.projectId), ("name", .text r.name),
    ("permissions", .ofTexts r.permissions), ("order", .whole r.order.toInt)]

/-- The record of a membership. -/
def ofMembership (m : Membership) : Value :=
  .object [("user_id", ofId m.userId), ("project_id", ofId m.projectId), ("role", ofRole m.role),
    ("is_owner", .flag m.isOwner)]

/-- A tier is its name. -/
def ofTier (t : Tier) : Value := .text t.name

/-- The record of a catalog entry. -/
def ofEntry (e : CatalogEntry) : Value :=
  .object [("id", .text e.id), ("label", .text e.label)]

/-- The ground of a decision is its name. -/
def ofReason (r : Reason) : Value := .text r.name

/-- A kind of denial is its name. -/
def ofDenial (d : Denial) : Value := .text d.name

/-- The record of a decision. -/
def ofDecision (d : Decision) : Value :=
  .object [("allow", .flag d.allow), ("reason", ofReason d.reason)]

end ProjectAccess.Record
