/-
The policies for projects, their roles and points, and user stories.
-/
import ProjectAccess.Policy.Basic

namespace ProjectAccess

namespace ResourcePolicy

/-- Projects are changed by their owner only and starred by any registered user. -/
def project : ResourcePolicy :=
  new ResourceType.project
    |>.bind Action.retrieve (.hasPermission "view_project")
    |>.bind Action.create .isAuthenticated
    |>.bind Action.update .isProjectOwner
    |>.bind Action.destroy .isProjectOwner
    |>.bind Action.list .allowAny
    |>.bind Action.stats .allowAny
    |>.bind Action.star .isAuthenticated
    |>.bind Action.unstar .isAuthenticated
    |>.bind Action.issuesStats .allowAny
    |>.bind Action.issuesFiltersData .allowAny
    |>.bind Action.tags .allowAny

/-- What configures a project is seen by those who see the project, and changed by
its owner only. -/
def projectChild (type : ResourceType) : ResourcePolicy :=
  new type
    |>.bind Action.retrieve (.hasPermission "view_project")
    |>.bind Action.create .isProjectOwner
    |>.bind Action.update .isProjectOwner
    |>.bind Action.destroy .isProjectOwner
    |>.bind Action.list .allowAny

/-- For user stories there are permissions of their own. -/
def userStory : ResourcePolicy :=
  new ResourceType.userStory
    |>.bind Action.retrieve (.hasPermission "view_uss")
    |>.bind Action.create (.any [.hasPermission "add_us", .hasPermission "add_us_to_project"])
    |>.bind Action.update (.hasPermission "modify_us")
    |>.bind Action.destroy (.hasPermission "delete_us")
    |>.bind Action.list .allowAny

end ResourcePolicy

/-- The registry that applications start from. -/
def Registry.reference : Registry :=
  Registry.empty
    |>.register .project
    |>.register (.projectChild ResourceType.role)
    |>.register (.projectChild ResourceType.points)
    |>.register .userStory

end ProjectAccess
