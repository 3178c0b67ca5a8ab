/-
Tables: values under names, in ascending order of the names.

A name stands for one value at most, and equal contents are equal tables.
-/

namespace ProjectAccess

/-- Values under names. -/
structure Table (α : Type) where
  entries : List (String × α)
  sorted : (entries.map (·.1)).Pairwise (· < ·)

namespace Table

variable {α : Type}

/-- The table without names. -/
def empty : Table α := ⟨[], .nil⟩

instance : Inhabited (Table α) := ⟨empty⟩

/-- The names, in ascending order. -/
def names (t : Table α) : List String := t.entries.map (·.1)

/-- The value under a name. -/
def get? (t : Table α) (name : String) : Option α := t.entries.lookup name

/-- Puts a value under a name in an ascending list. -/
def putSorted (name : String) (value : α) : List (String × α) → List (String × α)
  | [] => [(name, value)]
  | entry :: rest =>
    if name < entry.1 then (name, value) :: entry :: rest
    else if name = entry.1 then (name, value) :: rest
    else entry :: putSorted name value rest

theorem mem_putSorted {name key : String} {value : α} {l : List (String × α)} :
    key ∈ (putSorted name value l).map (·.1) ↔ key = name ∨ key ∈ l.map (·.1) := by
  induction l with
  | nil => simp [putSorted]
  | cons entry rest ih =>
    unfold putSorted
    split
    · simp
    · split
      · rename_i h; simp [h]
      · simp only [List.map_cons, List.mem_cons, ih]; grind

theorem putSorted_sorted {name : String} {value : α} {l : List (String × α)}
    (h : (l.map (·.1)).Pairwise (· < ·)) :
    ((putSorted name value l).map (·.1)).Pairwise (· < ·) := by
  induction l with
  | nil => simp [putSorted]
  | cons entry rest ih =>
    rw [List.map_cons, List.pairwise_cons] at h
    unfold putSorted
    split
    · rename_i hlt
      refine List.pairwise_cons.2 ⟨fun key hkey => ?_, List.pairwise_cons.2 h⟩
      rcases List.mem_cons.1 hkey with rfl | hkey
      · exact hlt
      · exact String.lt_trans hlt (h.1 key hkey)
    · split
      · rename_i heq
        exact List.pairwise_cons.2 ⟨fun key hkey => heq ▸ h.1 key hkey, h.2⟩
      · rename_i hnlt hne
        refine List.pairwise_cons.2 ⟨fun key hkey => ?_, ih h.2⟩
        rcases mem_putSorted.1 hkey with rfl | hkey
        · exact Decidable.byContradiction fun hgt =>
            hne (String.le_antisymm (String.not_lt.1 hgt) (String.not_lt.1 hnlt))
        · exact h.1 key hkey

/-- The table with a value under a name, in place of any that was there. -/
def put (name : String) (value : α) (t : Table α) : Table α :=
  ⟨putSorted name value t.entries, putSorted_sorted t.sorted⟩

/-- What a list gives for a name is decided by its first entry or by the others. -/
theorem lookup_cons {key : String} {entry : String × α} {l : List (String × α)} :
    (entry :: l).lookup key = if key = entry.1 then some entry.2 else l.lookup key := by
  rw [List.lookup_cons]
  by_cases h : key = entry.1
  · simp [h]
  · rw [beq_eq_false_iff_ne.2 h, if_neg h]

/-- A name stands for the value that was put there last. -/
theorem get?_put {name key : String} {value : α} {t : Table α} :
    (t.put name value).get? key = if key = name then some value else t.get? key := by
  show (putSorted name value t.entries).lookup key = if key = name then _ else t.entries.lookup key
  induction t.entries with
  | nil => simp [putSorted, lookup_cons]
  | cons entry rest ih =>
    unfold putSorted
    split
    · rw [lookup_cons]
    · split
      · rename_i heq
        rw [lookup_cons, lookup_cons, heq]
        split <;> rfl
      · rename_i hne
        rw [lookup_cons, lookup_cons, ih]
        grind

end Table

end ProjectAccess
