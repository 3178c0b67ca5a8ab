/-
What a table says after writes.

A write puts a value under a name and takes the place of whatever was there. So what is
read in the end is what the last write of the name has put there, or what stood there
before (`last_write`). That much is said of any state and of any way to read it, because
tables are filled in several places: the bindings of a policy, the policies of a
registry, the tiers of a catalog by id.

A table is nothing but what it says under each name (`Table.ext_get?`).
-/
import Mathlib.Data.List.Sort
import ProjectAccess.Table

namespace ProjectAccess

/-- Where each step either writes what is read or leaves it alone, the last step that
writes is what counts. -/
theorem last_write {σ β γ : Type} (read : σ → Option γ) {step : σ → β → σ}
    {writes? : β → Option γ} (hstep : ∀ s b, read (step s b) = (writes? b).or (read s))
    (steps : List β) (s : σ) :
    read (steps.foldl step s) = (steps.filterMap writes?).getLast?.or (read s) := by
  induction steps generalizing s with
  | nil => rfl
  | cons b steps ih =>
      rw [List.foldl_cons, ih, hstep]
      cases hb : writes? b with
      | none => rw [List.filterMap_cons_none hb, Option.none_or]
      | some value =>
          rw [List.filterMap_cons_some hb, List.getLast?_cons]
          cases (steps.filterMap writes?).getLast? <;> rfl

namespace Table

variable {α : Type} {t t' : Table α} {name key : String} {value : α}

/-- A write as a step for `last_write`. -/
theorem get?_put_eq_or :
    (t.put name value).get? key = (if key = name then some value else none).or (t.get? key) := by
  rw [get?_put]
  split <;> rfl

/-- A name stands for the value of its entry. -/
theorem mem_entries_iff : (name, value) ∈ t.entries ↔ t.get? name = some value := by
  have hsorted := t.sorted
  unfold get?
  generalize t.entries = l at hsorted ⊢
  induction l with
  | nil => simp
  | cons entry rest ih =>
      rw [List.map_cons, List.pairwise_cons] at hsorted
      have ih : (name, value) ∈ rest ↔ rest.lookup name = some value := ih hsorted.2
      rw [lookup_cons, List.mem_cons, ih]
      by_cases hname : name = entry.1
      · -- names ascend, so there is no second entry of the same name
        have hrest : rest.lookup name ≠ some value := by
          intro hlookup
          have hmem := ih.2 hlookup
          have hlt := hsorted.1 name (List.mem_map_of_mem hmem)
          exact String.lt_irrefl name (hname ▸ hlt)
        rw [if_pos hname, Option.some.injEq]
        constructor
        · rintro (rfl | hlookup)
          · rfl
          · exact absurd hlookup hrest
        · rintro rfl
          exact .inl (by rw [hname])
      · rw [if_neg hname]
        constructor
        · rintro (rfl | hlookup)
          · exact absurd rfl hname
          · exact hlookup
        · exact .inr

theorem mem_names_iff : name ∈ t.names ↔ ∃ value, t.get? name = some value := by
  unfold names
  simp only [List.mem_map, Prod.exists, exists_and_right, exists_eq_right, mem_entries_iff]

/-- Tables that say the same under every name are the same. -/
theorem ext_get? (h : ∀ name, t.get? name = t'.get? name) : t = t' := by
  have hentries : t.entries = t'.entries := by
    have hmem : ∀ entry, entry ∈ t.entries ↔ entry ∈ t'.entries := by
      rintro ⟨name, value⟩
      rw [mem_entries_iff, mem_entries_iff, h name]
    have hasymm : Std.Antisymm fun a b : String × α => a.1 < b.1 :=
      ⟨fun a b hab hba => absurd hba (String.lt_asymm hab)⟩
    have hirrefl : Std.Irrefl fun a b : String × α => a.1 < b.1 :=
      ⟨fun a => String.lt_irrefl a.1⟩
    exact (List.pairwise_map.1 t.sorted).eq_of_mem_iff (List.pairwise_map.1 t'.sorted) hmem
  cases t
  cases t'
  cases hentries
  rfl

end Table

end ProjectAccess
