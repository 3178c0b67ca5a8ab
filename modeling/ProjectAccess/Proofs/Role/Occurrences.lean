/-
A role lists each of its permissions once, where it was first given.

A role is made of a list in which permissions may be repeated. Going through the list, what
has been seen is remembered, so what becomes of a permission depends on everything before
it. But it depends on that in one way only: what was seen is left out (`firstsBeyond_eq`).
So the first occurrences are the head, and those of the tail without the head
(`firsts_cons`), and each fact below is an induction on the list by that equation.
-/
import Mathlib.Data.List.Nodup
import ProjectAccess.Role

namespace ProjectAccess.Role

variable {seen xs ys : List Permission} {p : Permission}

-- ====================================================== what was seen

/-- Permissions that were seen before are left out, and nothing else changes. -/
theorem firstsBeyond_eq : firstsBeyond seen xs = (firsts xs).filter (· ∉ seen) := by
  induction xs generalizing seen with
  | nil => rfl
  | cons p xs ih =>
      -- the hypothesis serves twice: after `seen` and after the head alone
      have hfirsts : firsts (p :: xs) = p :: (firsts xs).filter (· ∉ [p]) := by
        rw [← ih]
        rfl
      rw [hfirsts, firstsBeyond]
      by_cases hp : p ∈ seen
      · rw [if_pos hp, ih, List.filter_cons_of_neg (by simpa using hp), List.filter_filter]
        refine List.filter_congr fun q _ => ?_
        by_cases hq : q = p
        · simp [hq, hp]
        · simp [hq]
      · rw [if_neg hp, ih, List.filter_cons_of_pos (by simpa using hp), List.filter_filter]
        refine congrArg (p :: ·) (List.filter_congr fun q _ => ?_)
        simp [Bool.and_comm]

theorem firsts_cons : firsts (p :: xs) = p :: (firsts xs).filter (· ≠ p) := by
  have hbeyond : firsts (p :: xs) = p :: firstsBeyond [p] xs := rfl
  rw [hbeyond, firstsBeyond_eq]
  simp

-- ===================================================== order and repeats

/-- Permissions are listed in the order of their first occurrences. -/
theorem pairwise_firsts : (firsts xs).Pairwise fun p q => xs.idxOf p < xs.idxOf q := by
  induction xs with
  | nil => exact .nil
  | cons p xs ih =>
      rw [firsts_cons, List.pairwise_cons]
      constructor
      · intro q hq
        have hne : q ≠ p := by simpa using (List.mem_filter.1 hq).2
        rw [List.idxOf_cons_self, List.idxOf_cons_ne xs hne.symm]
        exact Nat.succ_pos _
      · refine (ih.filter _).imp_of_mem ?_
        intro q r hq hr hlt
        have hq : q ≠ p := by simpa using (List.mem_filter.1 hq).2
        have hr : r ≠ p := by simpa using (List.mem_filter.1 hr).2
        rw [List.idxOf_cons_ne xs hq.symm, List.idxOf_cons_ne xs hr.symm]
        exact Nat.succ_lt_succ hlt

theorem nodup_firsts : (firsts xs).Nodup :=
  pairwise_firsts.imp fun hlt => ne_of_apply_ne xs.idxOf (Nat.ne_of_lt hlt)

/-- A list without repeats is left as it is. -/
theorem firsts_of_nodup (h : xs.Nodup) : firsts xs = xs := by
  induction xs with
  | nil => rfl
  | cons p xs ih =>
      obtain ⟨hp, hxs⟩ := List.nodup_cons.1 h
      rw [firsts_cons, ih hxs, List.filter_eq_self.2]
      intro q hq
      simpa using fun heq : q = p => hp (heq ▸ hq)

/-- Of a list that follows another, what the other has is left out. -/
theorem firsts_append : firsts (xs ++ ys) = firsts xs ++ (firsts ys).filter (· ∉ xs) := by
  induction xs with
  | nil => simp [firsts, firstsBeyond]
  | cons p xs ih =>
      rw [List.cons_append, firsts_cons, ih, List.filter_append, List.filter_filter, firsts_cons,
        List.cons_append]
      refine congrArg (fun rest => p :: (_ ++ rest)) (List.filter_congr fun q _ => ?_)
      simp [not_or]

-- ========================================================== main result

/-- The permissions of a new role are those it was given, so it grants these and no
others; each is listed once, in the order in which they first occurred. Made anew from its
own permissions a role stays as it is. Of permissions given in two lists, one after the
other, it lists those of the first as if there were no second, and then those of the second
as if there were no first, without those that are in the first. -/
theorem new_lists_first_occurrences (id : RoleId) (projectId : ProjectId) (name : String)
    (order : Int32) (xs ys : List Permission) :
    let made := fun permissions => new id projectId name permissions order
    (made xs).permissions.Nodup
      ∧ (∀ p, p ∈ (made xs).permissions ↔ p ∈ xs)
      ∧ (∀ p, (made xs).grants p = true ↔ p ∈ xs)
      ∧ (made xs).permissions.Pairwise (fun p q => xs.idxOf p < xs.idxOf q)
      ∧ made (made xs).permissions = made xs
      ∧ (made (xs ++ ys)).permissions
        = (made xs).permissions ++ (made ys).permissions.filter (· ∉ xs) := by
  intro made
  have hgrants : ∀ p, (made xs).grants p = true ↔ p ∈ xs := by
    intro p
    rw [grants, decide_eq_true_eq]
    exact mem_firsts
  refine ⟨nodup_firsts, fun p => mem_firsts, hgrants, pairwise_firsts, ?_, firsts_append⟩
  show Role.mk id projectId name (firsts (firsts xs)) order = Role.mk id projectId name _ order
  rw [firsts_of_nodup nodup_firsts]

example : (new ⟨3⟩ ⟨2⟩ "Writer" ["edit", "view", "edit", "add"]).permissions
    = ["edit", "view", "add"] := by
  decide

end ProjectAccess.Role
