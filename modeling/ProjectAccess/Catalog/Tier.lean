/-
The four tiers of permissions, and what a catalog lists in them.
-/
import ProjectAccess.Permission

namespace ProjectAccess

/-- Who a permission is meant for. -/
inductive Tier where
  | anon
  | user
  | member
  | owner
  deriving DecidableEq, Repr

namespace Tier

/-- All tiers, from the widest audience to the narrowest. -/
def all : List Tier := [.anon, .user, .member, .owner]

/-- The word for a tier in catalog files and messages. -/
def name : Tier → String
  | .anon => "anon"
  | .user => "user"
  | .member => "member"
  | .owner => "owner"

/-- The tier that a word names. -/
def ofName? (s : String) : Option Tier := all.find? (·.name == s)

theorem mem_all (t : Tier) : t ∈ all := by cases t <;> decide

theorem ofName?_name (t : Tier) : ofName? t.name = some t := by cases t <;> decide

end Tier

/-- A permission and the label that people read. -/
structure CatalogEntry where
  id : Permission
  label : String
  deriving DecidableEq, Repr

/-- The entries of each tier, in the order in which they were given. -/
structure Tiers where
  anon : List CatalogEntry := []
  user : List CatalogEntry := []
  member : List CatalogEntry := []
  owner : List CatalogEntry := []
  deriving DecidableEq, Repr

namespace Tiers

/-- The entries of one tier. -/
def entries (t : Tiers) : Tier → List CatalogEntry
  | .anon => t.anon
  | .user => t.user
  | .member => t.member
  | .owner => t.owner

/-- The permissions of one tier. -/
def ids (t : Tiers) (tier : Tier) : List Permission := (t.entries tier).map (·.id)

/-- Every entry with its tier, tier by tier. -/
def placed (t : Tiers) : List (Tier × CatalogEntry) :=
  Tier.all.flatMap fun tier => (t.entries tier).map (tier, ·)

end Tiers

end ProjectAccess
