/-
Hexadecimal digits, written and read.

A number is written in a fixed count of lower-case digits (`hexDigits`), and read from digits
of either case. The two fit together exactly: digits are read as a number below the power of
sixteen that their count allows, and in lower case they are the digits of that number
(`readDigits_sixteen_eq_some_iff`).
-/
import Mathlib.Algebra.GroupWithZero.Nat
import Mathlib.Data.List.Induction
import ProjectAccess.Text.Numeral

namespace ProjectAccess.Text

-- ============================================================== digits

theorem length_hexDigits {count n : Nat} : (hexDigits count n).length = count := by
  induction count generalizing n with
  | zero => rfl
  | succ count ih => rw [hexDigits, List.length_append, ih, List.length_singleton]

theorem map_toLower_hexDigits {count n : Nat} :
    (hexDigits count n).map Char.toLower = hexDigits count n := by
  have hdigit : ∀ d < 16, (Nat.digitChar d).toLower = Nat.digitChar d := by decide
  induction count generalizing n with
  | zero => rfl
  | succ count ih =>
      rw [hexDigits, List.map_append, ih, List.map_singleton,
        hdigit _ (Nat.mod_lt n (by decide))]

theorem toNat_toLower (c : Char) :
    c.toLower.toNat = if 65 ≤ c.toNat ∧ c.toNat ≤ 90 then c.toNat + 32 else c.toNat := by
  have hupper : (c.val ≥ 'A'.val ∧ c.val ≤ 'Z'.val) ↔ 65 ≤ c.toNat ∧ c.toNat ≤ 90 := Iff.rfl
  unfold Char.toLower
  split
  next h =>
    rw [if_pos (hupper.1 h)]
    have hle : c.val.toNat ≤ 90 := (hupper.1 h).2
    show (c.val + 32).toNat = c.val.toNat + 32
    rw [UInt32.toNat_add]
    exact Nat.mod_eq_of_lt (by simp only [UInt32.reduceToNat]; omega)
  next h => rw [if_neg (mt hupper.2 h)]

theorem digitValue?_eq (c : Char) : digitValue? c
    = if 48 ≤ c.toNat ∧ c.toNat ≤ 57 then some (c.toNat - 48)
      else if 97 ≤ c.toNat ∧ c.toNat ≤ 102 then some (c.toNat - 97 + 10)
      else if 65 ≤ c.toNat ∧ c.toNat ≤ 70 then some (c.toNat - 65 + 10)
      else none := rfl

/-- A digit counts the same in either case. -/
theorem digitValue?_toLower (c : Char) : digitValue? c.toLower = digitValue? c := by
  rw [digitValue?_eq, digitValue?_eq, toNat_toLower]
  grind

theorem digit?_of_toLower {c : Char} {d : Nat} (hd : d < 16) (h : c.toLower = Nat.digitChar d) :
    digit? 16 c = some d := by
  have hdigit : ∀ d < 16, digit? 16 (Nat.digitChar d) = some d := by decide
  rw [← hdigit d hd, ← h]
  unfold digit?
  rw [digitValue?_toLower]

/-- Digits after others go on from what those spell. -/
theorem readDigits_append {radix soFar : Nat} {cs ds : List Char} :
    readDigits radix soFar (cs ++ ds)
      = (readDigits radix soFar cs).bind fun n => readDigits radix n ds := by
  induction cs generalizing soFar with
  | nil => rfl
  | cons c cs ih =>
      rw [List.cons_append, readDigits, readDigits]
      cases digit? radix c with
      | none => rfl
      | some d => exact ih

/-- Digits that are those of a number in lower case spell it, but for what is too high
for them. -/
theorem readDigits_of_toLower {count n : Nat} {digits : List Char}
    (h : digits.map Char.toLower = hexDigits count n) :
    readDigits 16 0 digits = some (n % 16 ^ count) := by
  -- digits are written from the last to the first but read from the first to the last
  induction count generalizing n digits with
  | zero =>
      rw [List.map_eq_nil_iff.1 h, Nat.pow_zero, Nat.mod_one]
      rfl
  | succ count ih =>
      obtain ⟨leading, last, rfl, hleading, hlast⟩ := List.map_eq_append_iff.1 h
      obtain ⟨c, rfl, hc⟩ := List.map_eq_singleton_iff.1 hlast
      rw [readDigits_append, ih hleading]
      show (digit? 16 c).bind _ = _
      rw [digit?_of_toLower (Nat.mod_lt n (by decide)) hc]
      show some (n / 16 % 16 ^ count * 16 + n % 16) = some (n % 16 ^ (count + 1))
      rw [Nat.pow_succ', Nat.mod_mul, Nat.add_comm, Nat.mul_comm]

theorem toNat_digitChar {d : ℕ} (hd : d < 16) :
    (Nat.digitChar d).toNat = if d < 10 then d + 48 else d + 87 := by
  have hdigit : ∀ d < 16, (Nat.digitChar d).toNat = if d < 10 then d + 48 else d + 87 := by decide
  exact hdigit d hd

/-- A character is a digit of value `d` if in lower case it is what `d` is written as. -/
theorem digit?_sixteen_eq_some_iff {c : Char} {d : ℕ} :
    digit? 16 c = some d ↔ d < 16 ∧ c.toLower = Nat.digitChar d := by
  constructor
  · intro h
    obtain ⟨hvalue, hd⟩ := Option.filter_eq_some_iff.1 h
    have hd : d < 16 := of_decide_eq_true hd
    refine ⟨hd, ?_⟩
    rw [digitValue?_eq] at hvalue
    rw [← Char.toNat_inj, toNat_toLower, toNat_digitChar hd]
    grind
  · rintro ⟨hd, hlower⟩
    exact digit?_of_toLower hd hlower

/-- What is written in so many digits is read back, but for what is too high for them. -/
theorem readDigits_hexDigits {count n : ℕ} :
    readDigits 16 0 (hexDigits count n) = some (n % 16 ^ count) :=
  readDigits_of_toLower map_toLower_hexDigits

/-- Digits spell the number whose digits they are in lower case. -/
theorem readDigits_sixteen_eq_some_iff {cs : List Char} {n : ℕ} :
    readDigits 16 0 cs = some n
      ↔ n < 16 ^ cs.length ∧ cs.map Char.toLower = hexDigits cs.length n := by
  constructor
  · intro h
    induction cs using List.reverseRecOn generalizing n with
    | nil =>
        cases h
        exact ⟨Nat.one_pos, rfl⟩
    | append_singleton cs c ih =>
        rw [readDigits_append] at h
        obtain ⟨leading, hleading, hrest⟩ := Option.bind_eq_some_iff.1 h
        obtain ⟨d, hdigit, hvalue⟩ := Option.bind_eq_some_iff.1 hrest
        obtain ⟨hd, hlower⟩ := digit?_sixteen_eq_some_iff.1 hdigit
        obtain ⟨hbound, hdigits⟩ := ih hleading
        have hn : n = leading * 16 + d := (Option.some.inj hvalue).symm
        have hdiv : n / 16 = leading := by omega
        have hmod : n % 16 = d := by omega
        rw [List.length_append, List.length_singleton]
        constructor
        · rw [Nat.pow_succ]
          omega
        · rw [hexDigits, hdiv, hmod, List.map_append, hdigits, List.map_singleton, hlower]
  · rintro ⟨hbound, hdigits⟩
    rw [readDigits_of_toLower hdigits, Nat.mod_eq_of_lt hbound]

/-- Nothing but digits spells some number. -/
theorem exists_readDigits {radix : ℕ} {cs : List Char} (soFar : ℕ)
    (h : ∀ c ∈ cs, (digit? radix c).isSome) : ∃ n, readDigits radix soFar cs = some n := by
  induction cs generalizing soFar with
  | nil => exact ⟨soFar, rfl⟩
  | cons c cs ih =>
      obtain ⟨d, hd⟩ := Option.isSome_iff_exists.1 (h c List.mem_cons_self)
      rw [readDigits, hd]
      exact ih _ fun c hc => h c (List.mem_cons_of_mem _ hc)

/-- What is among the digits of a number is one digit's character. -/
theorem mem_hexDigits {count n : ℕ} {c : Char} (h : c ∈ hexDigits count n) :
    ∃ d < 16, c = Nat.digitChar d := by
  induction count generalizing n with
  | zero => cases h
  | succ count ih =>
      rcases List.mem_append.1 h with h | h
      · exact ih h
      · exact ⟨n % 16, Nat.mod_lt n (by decide), List.mem_singleton.1 h⟩

end ProjectAccess.Text
