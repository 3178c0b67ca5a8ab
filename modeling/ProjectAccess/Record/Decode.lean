/-
Reading the library's values from records.

All fields have to be given and have the right type; nothing is converted. Ids are
read in each of their spellings, but with no white space around them.
-/
import ProjectAccess.Record.Encode

namespace ProjectAccess.Record

/-- Reads an id. -/
def id? {kind : IdKind} (v : Value) : Option (Id kind) :=
  v.text?.bind fun text => Id.ofChars? text.toList

/-- Reads a set of permissions, which may be listed in any order and repeatedly. -/
def permissions? (v : Value) : Option PermissionSet := v.texts?.map .ofList

/-- Reads a user from the values of its fields. -/
def userOf? : List Value → Option User
  | [id, isSuperuser] => do some ⟨← id? id, ← isSuperuser.flag?⟩
  | _ => none

/-- Reads a user. -/
def user? (v : Value) : Option User := (v.fields? ["id", "is_superuser"]).bind userOf?

/-- Reads a subject. Its kind is told by the object's `kind` or by the first item of
a list. -/
def subject? : Value → Option Subject
  | .object fields => do
    match ← (← Value.field? fields "kind").text? with
    | "anonymous" => some .anonymous
    | "user" => (user? (.object fields)).map .user
    | _ => none
  | .list (.text kind :: items) =>
    match kind with
    | "anonymous" => if items.isEmpty then some .anonymous else none
    | "user" => (userOf? items).map .user
    | _ => none
  | _ => none

/-- Reads a project. -/
def project? (v : Value) : Option Project := do
  match ← v.fields? ["id", "owner", "is_private", "anon_permissions", "public_permissions"] with
  | [id, owner, isPrivate, anon, all] =>
    some ⟨← id? id, ← id? owner, ← isPrivate.flag?, ← permissions? anon, ← permissions? all⟩
  | _ => none

/-- Reads a role. Its permissions stay as they are listed. -/
def role? (v : Value) : Option Role := do
  match ← v.fields? ["id", "project_id", "name", "permissions", "order"] with
  | [id, projectId, name, permissions, order] =>
    some ⟨← id? id, ← id? projectId, ← name.text?, ← permissions.texts?, ← order.int32?⟩
  | _ => none

/-- Reads a membership. -/
def membership? (v : Value) : Option Membership := do
  match ← v.fields? ["user_id", "project_id", "role", "is_owner"] with
  | [userId, projectId, role, isOwner] =>
    some ⟨← id? userId, ← id? projectId, ← role? role, ← isOwner.flag?⟩
  | _ => none

/-- Reads a tier. -/
def tier? (v : Value) : Option Tier := v.word?.bind Tier.ofName?

/-- Reads a catalog entry. -/
def entry? (v : Value) : Option CatalogEntry := do
  match ← v.fields? ["id", "label"] with
  | [id, label] => some ⟨← id.text?, ← label.text?⟩
  | _ => none

/-- Reads the ground of a decision. -/
def reason? (v : Value) : Option Reason := v.word?.bind Reason.ofName?

/-- Reads a kind of denial. -/
def denial? (v : Value) : Option Denial := v.word?.bind Denial.ofName?

/-- Reads a decision. -/
def decision? (v : Value) : Option Decision := do
  match ← v.fields? ["allow", "reason"] with
  | [allow, reason] => some ⟨← allow.flag?, ← reason? reason⟩
  | _ => none

end ProjectAccess.Record
