/-
What trimming takes away.

A text is its trimmed form between two stretches of white space (`exists_append_trim`), and
a word without white space is what is left of any text in which there is nothing but white
space around it (`trim_append`).
-/
import Mathlib.Data.List.DropRight
import ProjectAccess.Text.Blank

namespace ProjectAccess.Text

variable {before cs after : List Char}

theorem trim_eq_rdropWhile : trim cs = (cs.dropWhile isBlank).rdropWhile isBlank := rfl

/-- A text is what is left of it when it is trimmed, with white space before and after. -/
theorem exists_append_trim (cs : List Char) :
    ∃ before after, cs = before ++ trim cs ++ after
      ∧ (∀ c ∈ before, isBlank c = true) ∧ ∀ c ∈ after, isBlank c = true := by
  refine ⟨cs.takeWhile isBlank, (cs.dropWhile isBlank).rtakeWhile isBlank, ?_,
    fun c hc => List.mem_takeWhile_imp hc, fun c hc => List.mem_rtakeWhile_imp hc⟩
  rw [trim_eq_rdropWhile, List.append_assoc, List.rdropWhile_append_rtakeWhile,
    List.takeWhile_append_dropWhile]

theorem trim_append (hbefore : ∀ c ∈ before, isBlank c = true)
    (hafter : ∀ c ∈ after, isBlank c = true) (hword : ∀ c ∈ cs, isBlank c = false) :
    trim (before ++ cs ++ after) = cs := by
  cases cs with
  | nil =>
      rw [trim_eq_nil_iff, List.append_nil]
      exact List.forall_mem_append.2 ⟨hbefore, hafter⟩
  | cons c cs =>
      have hfront : (before ++ (c :: cs) ++ after).dropWhile isBlank = c :: cs ++ after := by
        rw [List.append_assoc, List.dropWhile_append_of_pos hbefore, List.cons_append,
          List.dropWhile_cons_of_neg (by simp [hword])]
      have hback : (c :: cs).reverse.dropWhile isBlank = (c :: cs).reverse := by
        rw [List.dropWhile_eq_self_iff]
        intro hlength
        have hmem : (c :: cs).reverse[0] ∈ c :: cs := List.mem_reverse.1 (List.getElem_mem hlength)
        simpa using hword _ hmem
      rw [trim, hfront, List.reverse_append, List.dropWhile_append_of_pos, hback,
        List.reverse_reverse]
      intro c hc
      exact hafter c (List.mem_reverse.1 hc)

/-- A word without white space is left as it is. -/
theorem trim_eq_self (hword : ∀ c ∈ cs, isBlank c = false) : trim cs = cs := by
  have htrim : trim ([] ++ cs ++ []) = cs := trim_append nofun nofun hword
  rwa [List.nil_append, List.append_nil] at htrim

end ProjectAccess.Text
