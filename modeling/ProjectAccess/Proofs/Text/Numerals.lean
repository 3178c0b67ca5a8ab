/-
Which texts are read as a whole number.

A number is spelled by one or more decimal digits, as many zeros in front as one likes,
and perhaps a plus sign before them (`SpellsDecimal`). Reading gives a number of 64 bits
exactly for the spellings of the numbers below 2^64 (`decimalWord?_eq_some_iff`), and
nothing for any other text.
-/
import Mathlib.Data.Nat.Digits.Defs
import ProjectAccess.Text.Numeral

namespace ProjectAccess.Text

/-- Nothing but decimal digits. -/
def AllDecimal (cs : List Char) : Prop := ∀ c ∈ cs, '0' ≤ c ∧ c ≤ '9'

/-- The number that decimal digits make, the most significant first. -/
def decimalValue (cs : List Char) : ℕ :=
  Nat.ofDigits 10 (cs.reverse.map fun c => c.toNat - '0'.toNat)

/-- A text spells a number: in digits, with a plus sign before them or not. -/
inductive SpellsDecimal : List Char → ℕ → Prop where
  | bare {digits : List Char} (hnonempty : digits ≠ []) (hdigits : AllDecimal digits) :
      SpellsDecimal digits (decimalValue digits)
  | signed {digits : List Char} (hnonempty : digits ≠ []) (hdigits : AllDecimal digits) :
      SpellsDecimal ('+' :: digits) (decimalValue digits)

variable {c : Char} {cs : List Char} {n soFar : ℕ} {w : UInt64}

theorem digit?_ten :
    digit? 10 c = if '0' ≤ c ∧ c ≤ '9' then some (c.toNat - '0'.toNat) else none := by
  by_cases hc : '0' ≤ c ∧ c ≤ '9'
  · have hnine : c.toNat ≤ 57 := hc.2
    rw [digit?, digitValue?, if_pos hc, if_pos hc, Option.filter_some, if_pos]
    simp only [Char.reduceToNat, decide_eq_true_eq]
    omega
  · -- a letter counts for more than nine
    rw [digit?, digitValue?, if_neg hc, if_neg hc]
    split
    · simp
    · split <;> simp

theorem decimalValue_cons :
    decimalValue (c :: cs) = (c.toNat - '0'.toNat) * 10 ^ cs.length + decimalValue cs := by
  simp [decimalValue, Nat.ofDigits_append]
  ring

/-- The digits that are read count after those already read. -/
theorem readDigits_ten_eq_some_iff :
    readDigits 10 soFar cs = some n
      ↔ AllDecimal cs ∧ n = soFar * 10 ^ cs.length + decimalValue cs := by
  induction cs generalizing soFar with
  | nil => simp [readDigits, AllDecimal, decimalValue, eq_comm]
  | cons c cs ih =>
      rw [readDigits, digit?_ten]
      by_cases hc : '0' ≤ c ∧ c ≤ '9'
      · have hvalue : (soFar * 10 + (c.toNat - '0'.toNat)) * 10 ^ cs.length + decimalValue cs
            = soFar * 10 ^ (c :: cs).length + decimalValue (c :: cs) := by
          rw [decimalValue_cons, List.length_cons]
          ring
        rw [if_pos hc, Option.bind_some, ih, hvalue]
        simp [AllDecimal, hc]
      · simp [hc, AllDecimal]

/-- One or more decimal digits are read as the number that they make. -/
theorem natural?_ten_eq_some_iff :
    natural? 10 cs = some n ↔ cs ≠ [] ∧ AllDecimal cs ∧ n = decimalValue cs := by
  cases cs with
  | nil => simp [natural?]
  | cons c cs =>
      rw [natural?, List.isEmpty_cons, if_neg Bool.false_ne_true, readDigits_ten_eq_some_iff]
      simp

theorem word?_eq_some_iff {radix : ℕ} :
    word? radix cs = some w ↔ natural? radix cs = some w.toNat := by
  have hfits : ∀ n, (if n < UInt64.size then some n.toUInt64 else none) = some w ↔ n = w.toNat := by
    intro n
    constructor
    · intro h
      obtain ⟨hn, hword⟩ := Option.ite_none_right_eq_some.1 h
      rw [← Option.some.inj hword]
      exact (UInt64.toNat_ofNat_of_lt' hn).symm
    · rintro rfl
      rw [if_pos w.toNat_lt]
      simp
  rw [word?, Option.bind_eq_some_iff]
  simp only [hfits]
  simp

/-- What is read as a number is what spells it. -/
theorem decimalWord?_eq_some_iff : decimalWord? cs = some w ↔ SpellsDecimal cs w.toNat := by
  have hword : ∀ digits, word? 10 digits = some w
      ↔ digits ≠ [] ∧ AllDecimal digits ∧ w.toNat = decimalValue digits := by
    intro digits
    rw [word?_eq_some_iff, natural?_ten_eq_some_iff]
  constructor
  · intro h
    unfold decimalWord? at h
    split at h
    · obtain ⟨hnonempty, hdigits, hvalue⟩ := (hword _).1 h
      rw [hvalue]
      exact .signed hnonempty hdigits
    · obtain ⟨hnonempty, hdigits, hvalue⟩ := (hword _).1 h
      rw [hvalue]
      exact .bare hnonempty hdigits
  · intro h
    generalize hn : w.toNat = n at h
    cases h with
    | signed hnonempty hdigits => exact (hword _).2 ⟨hnonempty, hdigits, hn⟩
    | bare hnonempty hdigits =>
        unfold decimalWord?
        split
        · -- a plus sign is no digit
          have hplus := hdigits '+' (List.mem_cons_self ..)
          exact absurd hplus (by decide)
        · exact (hword _).2 ⟨hnonempty, hdigits, hn⟩

/-- Nothing is read from a text that spells no number below 2^64. -/
theorem decimalWord?_eq_none_iff :
    decimalWord? cs = none ↔ ¬ ∃ n < 2 ^ 64, SpellsDecimal cs n := by
  constructor
  · rintro hnone ⟨n, hn, hspells⟩
    have hword : (UInt64.ofNat n).toNat = n := UInt64.toNat_ofNat_of_lt' hn
    rw [← hword, ← decimalWord?_eq_some_iff, hnone] at hspells
    cases hspells
  · intro hspells
    cases hword : decimalWord? cs with
    | none => rfl
    | some w => exact absurd ⟨_, w.toNat_lt, decimalWord?_eq_some_iff.1 hword⟩ hspells

end ProjectAccess.Text
