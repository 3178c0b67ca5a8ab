/-
What the counters of a journal come to.

A journal keeps single increments, and what is published is a value for each counter that
was touched. The counters of one family differ in their labels only; `Journal.sum` adds up
what is published of a family. It is the number of increments of counters of that name
(`sum_eq_countP`), so sums and totals are both known once the increments are.
-/
import Mathlib.Algebra.BigOperators.Group.List.Lemmas
import Mathlib.Algebra.GroupWithZero.Nat
import Mathlib.Data.List.Induction
import ProjectAccess.Journal

namespace ProjectAccess

def Note.counter? : Note → Option Counter
  | .count counter => some counter
  | .report _ => none

namespace Journal

/-- The sum of the counters that are published under a name. -/
def sum (family : String) (j : Journal) : Nat :=
  ((j.counters.filter (·.name = family)).map j.total).sum

variable {j : Journal} {notes : List Note} {counter : Counter} {family : String}

theorem increments_eq : j.increments = j.notes.filterMap Note.counter? := by
  unfold increments
  apply List.filterMap_congr
  intro note _
  cases note <;> rfl

/-- What is noted further adds its counters. -/
theorem increments_append :
    (j.append notes).increments = j.increments ++ notes.filterMap Note.counter? := by
  rw [increments_eq, increments_eq]
  unfold append Journal.notes
  rw [List.reverse_append, List.reverse_reverse, List.filterMap_append]

theorem nodup_eraseDups {counters : List Counter} : counters.eraseDups.Nodup := by
  induction counters using List.reverseRecOn with
  | nil => exact List.nodup_nil
  | append_singleton counters counter ih =>
      rw [List.eraseDups_append]
      by_cases hmem : counter ∈ counters
      · have hnone : [counter].removeAll counters = [] := by simp [List.removeAll, hmem]
        rw [hnone, List.eraseDups_nil, List.append_nil]
        exact ih
      · have hone : [counter].removeAll counters = [counter] := by simp [List.removeAll, hmem]
        rw [hone, List.eraseDups_cons, List.filter_nil, List.eraseDups_nil]
        apply ih.append (List.nodup_singleton counter)
        simpa using hmem

/-- The counters of a journal are those that have been increased. -/
theorem mem_counters : counter ∈ j.counters ↔ counter ∈ j.increments := List.mem_eraseDups

/-- The counters of a family come to as much as there are increments of them. -/
theorem sum_eq_countP : j.sum family = j.increments.countP (·.name = family) := by
  have hperm : j.counters.Perm j.increments.dedup := by
    apply (List.perm_ext_iff_of_nodup nodup_eraseDups (List.nodup_dedup _)).2
    intro counter
    rw [List.mem_eraseDups, List.mem_dedup]
  unfold sum
  rw [((hperm.filter _).map _).sum_eq]
  exact List.sum_map_count_dedup_filter_eq_countP _ _

end Journal

end ProjectAccess
