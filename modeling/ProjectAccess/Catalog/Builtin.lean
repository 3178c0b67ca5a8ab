/-
The catalog that applies when no other is configured.
-/
import ProjectAccess.Catalog.Basic

namespace ProjectAccess

namespace Tiers

/-- Everybody may be allowed to look. -/
private def anonEntries : List CatalogEntry := [
  ⟨"view_project", "View project"⟩,
  ⟨"view_milestones", "View milestones"⟩,
  ⟨"view_uss", "View user stories"⟩,
  ⟨"view_tasks", "View tasks"⟩,
  ⟨"view_issues", "View issues"⟩,
  ⟨"view_wiki_pages", "View wiki pages"⟩
  ]

/-- Registered users may take part from outside. -/
private def userEntries : List CatalogEntry := [
  ⟨"ask_to_be_member", "Ask to be a member"⟩,
  ⟨"create_project", "Create project"⟩,
  ⟨"follow_public_project", "Follow public project"⟩,
  ⟨"star_public_project", "Star public project"⟩,
  ⟨"add_us_to_project", "Add user story to project"⟩,
  ⟨"add_comments_to_us", "Add comments to user stories"⟩,
  ⟨"add_comments_to_task", "Add comments to tasks"⟩,
  ⟨"add_issue", "Add issues"⟩,
  ⟨"add_comments_issue", "Add comments to issues"⟩,
  ⟨"add_wiki_page", "Add wiki page"⟩,
  ⟨"modify_wiki_page", "Modify wiki page"⟩
  ]

/-- Members work on the project. -/
private def memberEntries : List CatalogEntry := [
  ⟨"add_milestone", "Add milestone"⟩,
  ⟨"modify_milestone", "Modify milestone"⟩,
  ⟨"delete_milestone", "Delete milestone"⟩,
  ⟨"add_us", "Add user story"⟩,
  ⟨"modify_us", "Modify user story"⟩,
  ⟨"delete_us", "Delete user story"⟩,
  ⟨"add_task", "Add task"⟩,
  ⟨"modify_task", "Modify task"⟩,
  ⟨"delete_task", "Delete task"⟩,
  ⟨"modify_issue", "Modify issue"⟩,
  ⟨"delete_issue", "Delete issue"⟩,
  ⟨"vote_issues", "Vote issues"⟩,
  ⟨"delete_wiki_page", "Delete wiki page"⟩,
  ⟨"add_wiki_link", "Add wiki link"⟩,
  ⟨"modify_wiki_link", "Modify wiki link"⟩,
  ⟨"delete_wiki_link", "Delete wiki link"⟩
  ]

/-- Owners run it. -/
private def ownerEntries : List CatalogEntry := [
  ⟨"modify_project", "Modify project"⟩,
  ⟨"add_member", "Add member"⟩,
  ⟨"remove_member", "Remove member"⟩,
  ⟨"modify_project_values", "Modify project values"⟩,
  ⟨"delete_project", "Delete project"⟩,
  ⟨"modify_roles", "Modify roles"⟩
  ]

/-- The built-in lists. -/
def builtin : Tiers := ⟨anonEntries, userEntries, memberEntries, ownerEntries⟩

/-- The built-in lists have no problem. -/
theorem problem?_builtin : builtin.problem? = none := by decide +kernel

end Tiers

/-- The built-in catalog. -/
def Catalog.builtin : Catalog :=
  ⟨Tiers.builtin, Tiers.nodup_of_problem? Tiers.problem?_builtin⟩

/-- The catalog that applies when none is chosen. -/
instance : Inhabited Catalog := ⟨Catalog.builtin⟩

end ProjectAccess
