/-
White space, as Unicode's `White_Space` property has it, and trimming by it.

Ids, permission ids and settings are all trimmed or tested for blankness by
this one rule. The class is wider than ASCII: the no-break space, the next-line
control and the ideographic space are in it, the zero-width space is not.
-/

namespace ProjectAccess.Text

/-- The code points with the property `White_Space`. -/
def isBlank (c : Char) : Bool :=
  let n := c.toNat
  (0x9 ≤ n && n ≤ 0xD) || n == 0x20 || n == 0x85 || n == 0xA0 || n == 0x1680
    || (0x2000 ≤ n && n ≤ 0x200A) || n == 0x2028 || n == 0x2029 || n == 0x202F
    || n == 0x205F || n == 0x3000

/-- A text without the white space at its two ends. -/
def trim (cs : List Char) : List Char :=
  ((cs.dropWhile isBlank).reverse.dropWhile isBlank).reverse

/-- Nothing is left of a blank text once it is trimmed. -/
def blank (s : String) : Bool := s.toList.all isBlank

/-- Trimming removes everything exactly when every character is white space. -/
theorem trim_eq_nil_iff {cs : List Char} : trim cs = [] ↔ ∀ c ∈ cs, isBlank c = true := by
  have all_dropWhile : ∀ {l : List Char}, l.dropWhile isBlank = [] ↔ ∀ c ∈ l, isBlank c = true := by
    intro l
    induction l with
    | nil => simp
    | cons a l ih => by_cases h : isBlank a <;> simp [h, ih]
  constructor
  · intro h
    have hrev : (cs.dropWhile isBlank).reverse.dropWhile isBlank = [] := by simpa [trim] using h
    have hall : ∀ c ∈ cs.dropWhile isBlank, isBlank c = true := fun c hc =>
      all_dropWhile.1 hrev c (List.mem_reverse.2 hc)
    cases hd : cs.dropWhile isBlank with
    | nil => exact all_dropWhile.1 hd
    | cons a l =>
      have hfirst := List.head_dropWhile_not isBlank (l := cs) (by simp [hd])
      have := hall a (by simp [hd])
      simp [hd, this] at hfirst
  · intro h
    simp [trim, all_dropWhile.2 h]

/-- A text is blank exactly if trimming leaves nothing of it. -/
theorem blank_iff {s : String} : blank s = true ↔ trim s.toList = [] := by
  rw [trim_eq_nil_iff, blank, List.all_eq_true]

end ProjectAccess.Text
