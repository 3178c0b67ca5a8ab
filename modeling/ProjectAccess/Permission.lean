/-
Permissions and sets of them.

A permission is named by a free text. A set keeps its permissions in ascending
order of code points without repetition, so that equal sets are equal values
and a set is written in one way only.
-/

namespace ProjectAccess

/-- The id of a permission, such as `view_project`. -/
abbrev Permission := String

/-- A finite set of permissions, listed in ascending order. -/
structure PermissionSet where
  toList : List Permission
  sorted : toList.Pairwise (· < ·)

namespace PermissionSet

@[ext] theorem ext_toList {s t : PermissionSet} (h : s.toList = t.toList) : s = t := by
  cases s; cases t; cases h; rfl

instance : DecidableEq PermissionSet := fun s t =>
  if h : s.toList = t.toList then isTrue (ext_toList h)
  else isFalse fun e => h (congrArg toList e)

instance : Membership Permission PermissionSet := ⟨fun s p => p ∈ s.toList⟩

instance (p : Permission) (s : PermissionSet) : Decidable (p ∈ s) :=
  inferInstanceAs (Decidable (p ∈ s.toList))

@[simp] theorem mem_toList {p : Permission} {s : PermissionSet} : p ∈ s.toList ↔ p ∈ s := Iff.rfl

/-- The set holds the permission. -/
def contains (s : PermissionSet) (p : Permission) : Bool := decide (p ∈ s)

/-- The set without members. -/
def empty : PermissionSet := ⟨[], .nil⟩

instance : EmptyCollection PermissionSet := ⟨empty⟩
instance : Inhabited PermissionSet := ⟨empty⟩

-- =========================================================== insertion

/-- Puts a permission at its place in an ascending list that may hold it already. -/
def insertSorted (p : Permission) : List Permission → List Permission
  | [] => [p]
  | q :: rest =>
    if p < q then p :: q :: rest
    else if p = q then q :: rest
    else q :: insertSorted p rest

theorem mem_insertSorted {p q : Permission} {l : List Permission} :
    q ∈ insertSorted p l ↔ q = p ∨ q ∈ l := by
  induction l with
  | nil => simp [insertSorted]
  | cons a l ih =>
    unfold insertSorted
    split
    · simp
    · split
      · rename_i h; subst h; simp
      · simp [ih]; grind

theorem insertSorted_sorted {p : Permission} {l : List Permission}
    (h : l.Pairwise (· < ·)) : (insertSorted p l).Pairwise (· < ·) := by
  induction l with
  | nil => simp [insertSorted]
  | cons a l ih =>
    rw [List.pairwise_cons] at h
    unfold insertSorted
    split
    · rename_i hpa
      refine List.pairwise_cons.2 ⟨fun q hq => ?_, List.pairwise_cons.2 h⟩
      rcases List.mem_cons.1 hq with rfl | hq
      · exact hpa
      · exact String.lt_trans hpa (h.1 q hq)
    · split
      · exact List.pairwise_cons.2 h
      · rename_i hnlt hne
        refine List.pairwise_cons.2 ⟨fun q hq => ?_, ih h.2⟩
        rcases mem_insertSorted.1 hq with rfl | hq
        · exact Decidable.byContradiction fun hgt =>
            hne (String.le_antisymm (String.not_lt.1 hgt) (String.not_lt.1 hnlt))
        · exact h.1 q hq

/-- The set with one permission more. -/
def insert (p : Permission) (s : PermissionSet) : PermissionSet :=
  ⟨insertSorted p s.toList, insertSorted_sorted s.sorted⟩

@[simp] theorem mem_insert {p q : Permission} {s : PermissionSet} :
    q ∈ s.insert p ↔ q = p ∨ q ∈ s := mem_insertSorted

/-- The permissions of a list. -/
def ofList (ps : List Permission) : PermissionSet := ps.foldr insert empty

/-- A set made of a list has the members of the list. -/
@[simp] theorem mem_ofList {p : Permission} {ps : List Permission} : p ∈ ofList ps ↔ p ∈ ps := by
  induction ps with
  | nil => simp [ofList, empty, Membership.mem]
  | cons a ps ih => rw [List.mem_cons, ← ih]; exact mem_insert

/-- The permissions of either set. -/
def union (s t : PermissionSet) : PermissionSet := s.toList.foldr insert t

instance : Union PermissionSet := ⟨union⟩

/-- A union has the members of both sets. -/
@[simp] theorem mem_union {p : Permission} {s t : PermissionSet} : p ∈ s ∪ t ↔ p ∈ s ∨ p ∈ t := by
  have aux : ∀ l : List Permission, p ∈ l.foldr insert t ↔ p ∈ l ∨ p ∈ t := by
    intro l
    induction l with
    | nil => simp
    | cons a l ih => simp [ih, or_assoc]
  exact aux s.toList

end PermissionSet

end ProjectAccess
