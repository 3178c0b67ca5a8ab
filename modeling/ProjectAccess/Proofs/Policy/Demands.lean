/-
The reference policies in closed form.

A guard of the reference registry makes one of four demands: nothing at all, that the
subject is logged in, that it is the owner whom the project names, or that it holds one
of some permissions in the project. `demand?` says which of them is made for an action
on a type. It is read off what the policies are for, and not off the calls that build
them; `guard?_reference` says that the registry guards every action on every type with
just this demand, and what has no demand not at all.
-/
import ProjectAccess.Proofs.Policy.Guards

namespace ProjectAccess

/-- What the reference policies may demand of a subject. -/
inductive Demand where
  | nothing
  | login
  | ownership
  /-- One of the permissions. -/
  | permission (among : List Permission)
  deriving DecidableEq

namespace Demand

/-- The guard that makes the demand. -/
def guard : Demand → Predicate
  | nothing => .allowAny
  | login => .isAuthenticated
  | ownership => .isProjectOwner
  | permission [id] => .hasPermission id
  | permission among => .any (among.map .hasPermission)

/-- On projects. -/
def onProject? (action : Action) : Option Demand :=
  match action with
  | "list" | "stats" | "issues_stats" | "issues_filters_data" | "tags" => some nothing
  | "create" | "star" | "unstar" => some login
  | "update" | "destroy" => some ownership
  | "retrieve" => some (permission ["view_project"])
  | _ => none

/-- On what configures a project. -/
def onProjectChild? (action : Action) : Option Demand :=
  match action with
  | "list" => some nothing
  | "create" | "update" | "destroy" => some ownership
  | "retrieve" => some (permission ["view_project"])
  | _ => none

/-- On user stories. -/
def onUserStory? (action : Action) : Option Demand :=
  match action with
  | "list" => some nothing
  | "retrieve" => some (permission ["view_uss"])
  | "create" => some (permission ["add_us", "add_us_to_project"])
  | "update" => some (permission ["modify_us"])
  | "destroy" => some (permission ["delete_us"])
  | _ => none

end Demand

/-- What is demanded for an action on a type. -/
def demand? (type : ResourceType) (action : Action) : Option Demand :=
  match type with
  | "project" => Demand.onProject? action
  | "role" | "points" => Demand.onProjectChild? action
  | "userstory" => Demand.onUserStory? action
  | _ => none

namespace ResourcePolicy

variable {action : Action}

theorem guard?_project : project.guard? action = (Demand.onProject? action).map Demand.guard := by
  fun_cases Demand.onProject? action with
  | case12 =>
      have hactions : project.actions = ["create", "destroy", "issues_filters_data",
        "issues_stats", "list", "retrieve", "star", "stats", "tags", "unstar", "update"] := rfl
      refine guard?_eq_none_iff.2 ?_
      rw [hactions]
      simp_all
  | _ => rfl

theorem guard?_projectChild {type : ResourceType} :
    (projectChild type).guard? action = (Demand.onProjectChild? action).map Demand.guard := by
  fun_cases Demand.onProjectChild? action with
  | case6 =>
      have hactions : (projectChild type).actions
        = ["create", "destroy", "list", "retrieve", "update"] := rfl
      refine guard?_eq_none_iff.2 ?_
      rw [hactions]
      simp_all
  | _ => rfl

theorem guard?_userStory :
    userStory.guard? action = (Demand.onUserStory? action).map Demand.guard := by
  fun_cases Demand.onUserStory? action with
  | case6 =>
      have hactions : userStory.actions
        = ["create", "destroy", "list", "retrieve", "update"] := rfl
      refine guard?_eq_none_iff.2 ?_
      rw [hactions]
      simp_all
  | _ => rfl

end ResourcePolicy

namespace Registry

variable {type : ResourceType} {action : Action}

/-- A type without a policy has no guards. -/
theorem guard?_of_not_mem_types {r : Registry} (h : type ∉ r.types) :
    r.guard? type action = none := by
  cases hguard : r.guard? type action with
  | none => rfl
  | some guard =>
      obtain ⟨p, hp, -⟩ := Option.bind_eq_some_iff.1 hguard
      exact absurd (Table.mem_names_iff.2 ⟨p, hp⟩) h

/-- The reference registry guards an action with what is demanded for it. -/
theorem guard?_reference :
    reference.guard? type action = (demand? type action).map Demand.guard := by
  fun_cases demand? type action with
  | case1 => exact ResourcePolicy.guard?_project
  | case2 => exact ResourcePolicy.guard?_projectChild
  | case3 => exact ResourcePolicy.guard?_projectChild
  | case4 => exact ResourcePolicy.guard?_userStory
  | case5 =>
      have htypes : reference.types = ["points", "project", "role", "userstory"] := rfl
      refine guard?_of_not_mem_types ?_
      rw [htypes]
      simp_all

end Registry

end ProjectAccess
