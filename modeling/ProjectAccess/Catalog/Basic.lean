/-
Catalogs: the permissions there are, each in one tier.

A catalog is four lists in which no id is blank and none is listed twice, in one
tier or in two. `Catalog.ofTiers` accepts exactly those lists and otherwise names
the first entry that offends: scanning from the widest tier to the narrowest and
in list order, it is the first whose id is blank or listed before.
-/
import ProjectAccess.Catalog.Tier
import ProjectAccess.Failure
import ProjectAccess.Text.Blank

namespace ProjectAccess

/-- What is wrong with lists that make no catalog. -/
inductive CatalogProblem where
  /-- An id in the tier has nothing in it but white space. -/
  | blank (tier : Tier)
  /-- The id stands in the second place and before that in the first. -/
  | repeated (id : Permission) (first second : Tier)
  deriving DecidableEq, Repr

/-- The text of a problem. -/
def CatalogProblem.detail : CatalogProblem → String
  | .blank tier => "empty permission id in " ++ tier.name ++ " tier"
  | .repeated id first second =>
    id ++ " listed in both " ++ first.name ++ " and " ++ second.name ++ " tiers"

namespace Tiers

/-- The first problem among entries, given the ids seen before them. -/
def problemAfter? (seen : List (Permission × Tier)) :
    List (Tier × CatalogEntry) → Option CatalogProblem
  | [] => none
  | (tier, entry) :: rest =>
    if Text.blank entry.id then some (.blank tier)
    else match seen.lookup entry.id with
      | some first => some (.repeated entry.id first tier)
      | none => problemAfter? ((entry.id, tier) :: seen) rest

/-- The first problem of the lists. -/
def problem? (t : Tiers) : Option CatalogProblem := problemAfter? [] t.placed

/-- Entries without a problem have ids that are new and differ from each other. -/
theorem nodup_of_problemAfter? {seen : List (Permission × Tier)}
    {l : List (Tier × CatalogEntry)} (h : problemAfter? seen l = none) :
    (l.map (·.2.id)).Nodup ∧ ∀ x ∈ l, seen.lookup x.2.id = none := by
  induction l generalizing seen with
  | nil => simp
  | cons x rest ih =>
    obtain ⟨tier, entry⟩ := x
    unfold problemAfter? at h
    split at h
    · cases h
    · split at h
      · cases h
      · rename_i hseen
        obtain ⟨hnodup, hnew⟩ := ih h
        have hdiff : ∀ y ∈ rest, y.2.id ≠ entry.id ∧ seen.lookup y.2.id = none := by
          intro y hy
          have hy' := hnew y hy
          rw [List.lookup_cons] at hy'
          split at hy'
          · cases hy'
          · rename_i hne; exact ⟨by simpa using hne, hy'⟩
        refine ⟨?_, ?_⟩
        · simp only [List.map_cons, List.nodup_cons, List.mem_map, not_exists, not_and]
          exact ⟨fun y hy => (hdiff y hy).1, hnodup⟩
        · intro y hy
          rcases List.mem_cons.1 hy with rfl | hy
          · exact hseen
          · exact (hdiff y hy).2

/-- Lists without a problem repeat no id. -/
theorem nodup_of_problem? {t : Tiers} (h : t.problem? = none) :
    (t.placed.map (·.2.id)).Nodup :=
  (nodup_of_problemAfter? h).1

end Tiers

/-- The permissions there are. No id is listed twice. -/
structure Catalog where
  tiers : Tiers
  nodup : (tiers.placed.map (·.2.id)).Nodup

namespace Catalog

instance : DecidableEq Catalog := fun a b =>
  if h : a.tiers = b.tiers then isTrue (by cases a; cases b; cases h; rfl)
  else isFalse fun e => h (congrArg tiers e)

/-- The catalog that lists make, or their first problem. -/
def ofTiers (t : Tiers) : Except CatalogProblem Catalog :=
  match h : t.problem? with
  | some p => .error p
  | none => .ok ⟨t, Tiers.nodup_of_problem? h⟩

-- ============================================================= queries

/-- The entries of a tier. -/
def entries (c : Catalog) (tier : Tier) : List CatalogEntry := c.tiers.entries tier

/-- The permissions of a tier. -/
def ids (c : Catalog) (tier : Tier) : List Permission := c.tiers.ids tier

/-- The tier that lists the permission. -/
def tierOf? (c : Catalog) (id : Permission) : Option Tier :=
  Tier.all.find? fun tier => decide (id ∈ c.ids tier)

/-- Some tier lists the permission. -/
def contains (c : Catalog) (id : Permission) : Bool := (c.tierOf? id).isSome

/-- The label of a listed permission. -/
def label? (c : Catalog) (id : Permission) : Option String :=
  (c.tierOf? id).bind fun tier => ((c.entries tier).find? (·.id == id)).map (·.label)

/-- The permissions that come with ownership. -/
def ownerIds (c : Catalog) : PermissionSet := .ofList (c.ids .owner)

/-- All permissions of all tiers. -/
def allIds (c : Catalog) : PermissionSet := .ofList (Tier.all.flatMap c.ids)

/-- Whether a role may carry these permissions: each has to be listed, and not
among those of owners. The first that fails decides the failure. -/
def checkRole (c : Catalog) : List Permission → Except Failure Unit
  | [] => .ok ()
  | id :: rest =>
    match c.tierOf? id with
    | none => .error (.unknownPermission id)
    | some .owner => .error (.ownerPermissionInRole id)
    | some _ => checkRole c rest

end Catalog

end ProjectAccess
