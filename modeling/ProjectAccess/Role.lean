/-
Roles: named lists of permissions that the members of a project hold.
-/
import ProjectAccess.Permission
import ProjectAccess.Id

namespace ProjectAccess

/-- A role of one project. The order is its place among the roles of the project;
the permissions keep the order in which they were given. -/
structure Role where
  id : RoleId
  projectId : ProjectId
  name : String
  permissions : List Permission
  order : Int32
  deriving DecidableEq

namespace Role

/-- The entries of a list that are not among `seen` and that no entry before
them repeats, in their order. -/
def firstsBeyond (seen : List Permission) : List Permission → List Permission
  | [] => []
  | p :: ps => if p ∈ seen then firstsBeyond seen ps else p :: firstsBeyond (p :: seen) ps

/-- The first occurrences in a list, in their order. -/
def firsts (ps : List Permission) : List Permission := firstsBeyond [] ps

theorem mem_firstsBeyond {seen ps : List Permission} {p : Permission} :
    p ∈ firstsBeyond seen ps ↔ p ∈ ps ∧ p ∉ seen := by
  induction ps generalizing seen with
  | nil => simp [firstsBeyond]
  | cons q ps ih =>
    unfold firstsBeyond
    split <;> grind

@[simp] theorem mem_firsts {ps : List Permission} {p : Permission} : p ∈ firsts ps ↔ p ∈ ps := by
  simp [firsts, mem_firstsBeyond]

/-- The place of a role among the roles of its project unless another is given. -/
def defaultOrder : Int32 := 10

/-- A role that lists each of its permissions once. -/
def new (id : RoleId) (projectId : ProjectId) (name : String) (permissions : List Permission)
    (order : Int32 := defaultOrder) : Role :=
  ⟨id, projectId, name, firsts permissions, order⟩

/-- The role lists the permission. -/
def grants (r : Role) (p : Permission) : Bool := decide (p ∈ r.permissions)

end Role

end ProjectAccess
