/-
What access is asked for: a project, an object of a project, an object that
belongs to none, or the collection of all objects of a type.
-/
import ProjectAccess.Project

namespace ProjectAccess

/-- The type of a resource, such as `userstory`. -/
abbrev ResourceType := String

namespace ResourceType

def project : ResourceType := "project"
def role : ResourceType := "role"
def points : ResourceType := "points"
def userStory : ResourceType := "userstory"

end ResourceType

/-- What is done to a resource, such as `retrieve`. -/
abbrev Action := String

namespace Action

def retrieve : Action := "retrieve"
def create : Action := "create"
def update : Action := "update"
def destroy : Action := "destroy"
def list : Action := "list"
def stats : Action := "stats"
def star : Action := "star"
def unstar : Action := "unstar"
def issuesStats : Action := "issues_stats"
def issuesFiltersData : Action := "issues_filters_data"
def tags : Action := "tags"

end Action

/-- The target of a request. -/
inductive Resource where
  /-- The project itself. -/
  | project (project : Project)
  /-- An object of a type, in a project unless it is detached. -/
  | object (type : ResourceType) (project : Option Project)
  /-- All objects of a type, in no particular project. -/
  | collection (type : ResourceType)
  deriving DecidableEq

namespace Resource

/-- The type that policies are bound to. -/
def type : Resource → ResourceType
  | .project _ => ResourceType.project
  | .object type _ => type
  | .collection type => type

/-- The project that the target belongs to, if there is one. -/
def project? : Resource → Option Project
  | .project p => some p
  | .object _ p => p
  | .collection _ => none

end Resource

end ProjectAccess
