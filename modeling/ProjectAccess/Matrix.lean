/-
The access matrix: what the reference policies allow to whom.

Six subjects ask for five actions on a public project and on two private ones, and on
a user story in each. Two of them are members of every project, one as a developer
and one flagged as an owner. The matrix is a table for each project and each story;
with it come the events that were logged and the counters.
-/
import ProjectAccess.Policy.Reference
import ProjectAccess.Service
import ProjectAccess.Settings.Basic

namespace ProjectAccess

namespace Matrix

/-- Why there is no matrix. -/
inductive Fault where
  /-- There are no settings. -/
  | settings (error : SettingsError)
  /-- There is no catalog. -/
  | catalog (error : SettingsError)
  /-- The role of the developer may not be given. -/
  | role (failure : Failure)
  /-- A member could not be added. -/
  | member (name : String) (error : StoreError)
  deriving DecidableEq, Repr

/-- The chain of causes of a fault, the outermost first. -/
def Fault.chain : Fault → List Cause
  | .settings error => .text "load authz config" :: error.chain
  | .catalog error => error.chain
  | .role failure => [.text "validate developer role", .text failure.message]
  | .member name error => [.text ("seed " ++ name), .text error.message]

-- ================================================================== scene

/-- Ids that differ from each other, by their numbers. -/
abbrev Supply := Nat → BitVec 128

/-- Who takes part, and in which projects. -/
structure Scene where
  subjects : List (String × Subject)
  projects : List (String × Project)
  members : List (String × Membership)

/-- The permissions of a developer. -/
def developerPermissions : List Permission := ["view_project", "view_uss", "add_us", "modify_us"]

/-- The scene. The projects give what the catalog lists for everybody and for users,
but for the last, which gives nothing. -/
def scene (catalog : Catalog) (ids : Supply) : Scene :=
  let owner : UserId := ⟨ids 0⟩
  let member : UserId := ⟨ids 1⟩
  let coOwner : UserId := ⟨ids 2⟩
  let shared (n : Nat) : Project :=
    (Project.new ⟨ids n⟩ owner).withAnonPermissions (catalog.ids .anon)
      |>.withPublicPermissions (catalog.ids .user)
  let projects := [
    ("public", shared 5),
    ("private1", (shared 6).withPrivate true),
    ("private2", (Project.new ⟨ids 7⟩ owner).withPrivate true)]
  let members := projects.zipIdx.flatMap fun ((_, project), n) => [
    ("member", Membership.new member
      (Role.new ⟨ids (8 + 2 * n)⟩ project.id "developer" developerPermissions)),
    ("co-owner", (Membership.new coOwner
      (Role.new ⟨ids (9 + 2 * n)⟩ project.id "stakeholder" ["view_project"])).withOwner true)]
  { projects
    members
    subjects := [
      ("anonymous", .anonymous),
      ("registered", .registered ⟨ids 3⟩),
      ("member", .registered member),
      ("co-owner", .registered coOwner),
      ("owner", .registered owner),
      ("superuser", .superuser ⟨ids 4⟩)] }

/-- The directory with the members of the scene. -/
def enroll : List (String × Membership) → Directory → Except Fault Directory
  | [], directory => .ok directory
  | (name, member) :: rest, directory =>
    match directory.add member with
    | .error error => .error (.member name error)
    | .ok (_, directory) => enroll rest directory

/-- The service for the scene. -/
def service (settings : Settings) (catalog : Catalog) (scene : Scene) : Except Fault Service :=
  match catalog.checkRole developerPermissions with
  | .error failure => .error (.role failure)
  | .ok () => (enroll scene.members .empty).map fun directory =>
    { catalog
      registry := .reference
      directory
      cache := settings.cacheTtl.map fun ttl => .new ttl.toNat }

-- ================================================================= tables

/-- The actions of the columns. -/
def actions : List Action :=
  [Action.retrieve, Action.create, Action.update, Action.destroy, Action.list]

/-- A text with blanks after it, up to a width. -/
def pad (width : Nat) (text : String) : String :=
  text ++ "".pushn ' ' (width - text.length)

/-- The cell for a decision. -/
def cell (subject : Subject) (decision : Decision) : String :=
  match decision.denial? subject with
  | none => "allow"
  | some .unauthenticated => "401"
  | some .forbidden => "403"

/-- The cells of a subject. A decision that failed has none. -/
def cells (now : Nat) (subject : Subject) (resource : Resource) :
    List Action → Service → List String × Service
  | [], s => ([], s)
  | action :: rest, s =>
    let (reply, s) := s.authorize (.still now) subject resource action
    let (others, s) := cells now subject resource rest s
    match reply.answer with
    | .ok decision => (pad 10 (cell subject decision) :: others, s)
    | .error _ => (others, s)

/-- The lines of a table with a row for each subject. -/
def rows (now : Nat) (resource : Resource) :
    List (String × Subject) → Service → List String × Service
  | [], s => ([], s)
  | (name, subject) :: rest, s =>
    let (first, s) := cells now subject resource actions s
    let (others, s) := rows now resource rest s
    (("  " ++ pad 12 name ++ String.join first) :: others, s)

/-- The line above the rows. -/
def header : String := "  " ++ pad 12 "" ++ String.join (actions.map (pad 10))

/-- The tables for resources under their titles. -/
def tables (now : Nat) (subjects : List (String × Subject)) :
    List (String × Resource) → Service → List String × Service
  | [], s => ([], s)
  | (title, resource) :: rest, s =>
    let (first, s) := rows now resource subjects s
    let (others, s) := tables now subjects rest s
    ("" :: title :: header :: first ++ others, s)

/-- The resources of the scene: each project and a user story in it. -/
def resources (scene : Scene) : List (String × Resource) :=
  scene.projects.flatMap fun (name, project) => [
    ("project/" ++ name, .project project),
    ("userstory/" ++ name, .object ResourceType.userStory (some project))]

end Matrix

/-- The matrix: events, tables and counters, line by line. -/
structure Matrix where
  log : List String
  grid : List String
  metrics : List String
  deriving DecidableEq, Repr

namespace Matrix

/-- The matrix for a catalog. -/
def ofCatalog (now : Nat) (ids : Supply) (settings : Settings) (catalog : Catalog)
    (loading : List Note) : Except Fault Matrix :=
  let scene := scene catalog ids
  (service settings catalog scene).map fun service =>
    let enabling := match settings.cacheTtl with
      | some ttl => [.report (.cacheEnabled ttl.toNat)]
      | none => []
    let (grid, service) :=
      tables now scene.subjects (resources scene) (service.note (loading ++ enabling))
    { log := (service.journal.events.filter (·.level ≠ .debug)).map Event.line
      grid
      metrics := service.journal.exposition }

/-- The matrix for the settings of an environment. -/
def ofEnvironment {m : Type → Type} [Monad m] (read : String → m (Except FileError String))
    (now : Nat) (ids : Supply) (env : Environment) : m (Except Fault Matrix) := do
  match ← Settings.resolve read env with
  | .error error => pure (.error (.settings error))
  | .ok settings =>
    match ← settings.loadCatalog read with
    | .error error => pure (.error (.catalog error))
    | .ok (catalog, loading) => pure (ofCatalog now ids settings catalog loading)

end Matrix

end ProjectAccess
