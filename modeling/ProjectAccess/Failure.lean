/-
Why a request fails, and the texts that say so.

A failure is a cause with its details; `message` is its one-line text. A store
may also fail for reasons of its own, of which only a chain of texts is known,
the outermost first: `message` shows the outermost and `trail` the whole chain.
-/
import ProjectAccess.Id
import ProjectAccess.Permission

namespace ProjectAccess

/-- Why the membership store could not answer. -/
inductive StoreError where
  | notFound (detail : String)
  | conflict (detail : String)
  | unavailable (detail : String)
  /-- A failure of the store's own, with the texts below the outermost one. -/
  | unexpected (outermost : String) (below : List String)
  deriving DecidableEq, Repr, Inhabited

namespace StoreError

/-- A failure of the store's own that gained contexts, each put around the last. -/
def inContexts (detail : String) (contexts : List String) : StoreError :=
  match contexts.reverse ++ [detail] with
  | [] => .unexpected detail []
  | outermost :: below => .unexpected outermost below

/-- The text of the failure. -/
def message : StoreError → String
  | .notFound detail => "not found: " ++ detail
  | .conflict detail => "conflict: " ++ detail
  | .unavailable detail => "store unavailable: " ++ detail
  | .unexpected outermost _ => outermost

/-- The texts of the causes below the failure, the nearest first. -/
def causes : StoreError → List String
  | .unexpected _ below => below
  | _ => []

end StoreError

/-- Why the library refuses a request. -/
inductive Failure where
  /-- A text that spells no id. -/
  | invalidId (detail : String)
  /-- A setting that cannot be used. -/
  | setting (detail : String)
  /-- A permission that the catalog does not list. -/
  | unknownPermission (id : Permission)
  /-- A permission of owners, which no role may carry. -/
  | ownerPermissionInRole (id : Permission)
  /-- Tiers that make no catalog. -/
  | invalidCatalog (detail : String)
  /-- The membership store could not answer. -/
  | store (error : StoreError)
  deriving DecidableEq, Repr

namespace Failure

/-- The failure that an unreadable id is. -/
def ofId (e : IdError) : Failure := .invalidId e.detail

/-- The text of the failure. -/
def message : Failure → String
  | .invalidId detail => "invalid id: " ++ detail
  | .setting detail => "config error: " ++ detail
  | .unknownPermission id => "unknown permission: " ++ id
  | .ownerPermissionInRole id =>
    "owner permission " ++ id ++ " cannot be granted through a role"
  | .invalidCatalog detail => "invalid permission catalog: " ++ detail
  | .store error => error.message

/-- The texts of the causes below the failure, the nearest first. -/
def causes : Failure → List String
  | .store error => error.causes
  | _ => []

/-- The text of the failure followed by those of its causes. -/
def trail (f : Failure) : String := ": ".intercalate (f.message :: f.causes)

end Failure

end ProjectAccess
