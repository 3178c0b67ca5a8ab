/-
Ids are ordered as their written forms are, and as their octets.

Numbers that are written in the same count of digits, the most significant first, are ordered
as the digits are: at the first place where they differ (`places_lt_iff`). This holds in any
base as long as greater digits are greater to whoever compares them, which the characters of
the sixteen digits are and octets as well. The hyphens of the written form stand in the same
places in all ids, so they do not count (`hyphenate_lt_iff`).
-/
import Mathlib.Data.List.Lex
import Mathlib.Data.String.Basic
import ProjectAccess.Proofs.Id.Spelling

namespace ProjectAccess

namespace Text

variable {α : Type}

-- ============================================================== digits

/-- The low `count` digits of a number in a base, the most significant first. -/
def places (base : ℕ) (digit : ℕ → α) : (count : ℕ) → ℕ → List α
  | 0, _ => []
  | count + 1, n => places base digit count (n / base) ++ [digit (n % base)]

theorem length_places {base : ℕ} {digit : ℕ → α} {count n : ℕ} :
    (places base digit count n).length = count := by
  induction count generalizing n with
  | zero => rfl
  | succ count ih => rw [places, List.length_append, ih, List.length_singleton]

theorem hexDigits_eq_places {count n : ℕ} :
    hexDigits count n = places 16 Nat.digitChar count n := by
  induction count generalizing n with
  | zero => rfl
  | succ count ih => rw [hexDigits, places, ih]

/-- Lists that begin with equally long parts are ordered by these first. -/
theorem append_lt_append_iff [LinearOrder α] {xs ys as bs : List α} (h : xs.length = ys.length) :
    xs ++ as < ys ++ bs ↔ xs < ys ∨ xs = ys ∧ as < bs := by
  induction xs generalizing ys with
  | nil =>
      rw [List.eq_nil_of_length_eq_zero h.symm]
      simp
  | cons x xs ih =>
      cases ys with
      | nil => cases h
      | cons y ys =>
          rw [List.cons_append, List.cons_append, List.cons_lt_cons_iff, List.cons_lt_cons_iff,
            ih (Nat.succ.inj h), List.cons.injEq]
          tauto

/-- Digits are ordered as the numbers whose digits they are. -/
theorem places_lt_iff [LinearOrder α] {base : ℕ} {digit : ℕ → α}
    (hdigit : ∀ d < base, ∀ e < base, digit d < digit e ↔ d < e) {count m n : ℕ}
    (hm : m < base ^ count) (hn : n < base ^ count) :
    places base digit count m < places base digit count n ↔ m < n := by
  induction count generalizing m n with
  | zero =>
      have hm : m = 0 := by simpa using hm
      have hn : n = 0 := by simpa using hn
      simp [places, hm, hn]
  | succ count ih =>
      have hpos : 0 < base := by
        rcases Nat.eq_zero_or_pos base with rfl | h
        · simp at hm
        · exact h
      have hm' : m / base < base ^ count := Nat.div_lt_of_lt_mul (by rwa [← Nat.pow_succ'])
      have hn' : n / base < base ^ count := Nat.div_lt_of_lt_mul (by rwa [← Nat.pow_succ'])
      have hlast : ([digit (m % base)] < [digit (n % base)]) ↔ m % base < n % base := by
        rw [← hdigit _ (Nat.mod_lt m hpos) _ (Nat.mod_lt n hpos)]
        simp [List.cons_lt_cons_iff]
      -- neither number is less in front exactly if both are the same there
      have hsame : places base digit count (m / base) = places base digit count (n / base)
          ↔ m / base = n / base := by
        rw [le_antisymm_iff, le_antisymm_iff, ← not_lt, ← not_lt, ih hn' hm', ih hm' hn', not_lt,
          not_lt]
      rw [places, places, append_lt_append_iff (by rw [length_places, length_places]), ih hm' hn',
        hsame, hlast]
      have hm := Nat.div_add_mod m base
      have hn := Nat.div_add_mod n base
      constructor
      · rintro (hlt | ⟨heq, hlt⟩)
        · exact lt_of_not_ge fun hle => absurd (Nat.div_le_div_right hle) (not_le.2 hlt)
        · rw [← hm, ← hn, heq]
          exact Nat.add_lt_add_left hlt _
      · intro hlt
        rcases Nat.lt_or_eq_of_le (Nat.div_le_div_right (c := base) hlt.le) with hdiv | hdiv
        · exact .inl hdiv
        · refine .inr ⟨hdiv, ?_⟩
          rw [← hm, ← hn, hdiv] at hlt
          exact Nat.lt_of_add_lt_add_left hlt

theorem hexDigits_lt_iff {count m n : ℕ} (hm : m < 16 ^ count) (hn : n < 16 ^ count) :
    hexDigits count m < hexDigits count n ↔ m < n := by
  have hdigit : ∀ d < 16, ∀ e < 16, Nat.digitChar d < Nat.digitChar e ↔ d < e := by decide
  rw [hexDigits_eq_places, hexDigits_eq_places]
  exact places_lt_iff hdigit hm hn

end Text

namespace Id

variable {kind : IdKind} {a b : Id kind}

-- =============================================================== octets

/-- The sixteen octets of an id, the most significant first. -/
def octets (id : Id kind) : List ℕ := Text.places 256 (fun octet => octet) 16 id.value.toNat

/-- Ids are ordered by their octets. -/
theorem octets_lt_iff : a.octets < b.octets ↔ a < b :=
  Text.places_lt_iff (fun _ _ _ _ => Iff.rfl) a.value.isLt b.value.isLt

-- ========================================================= written form

/-- Hyphens between groups of the same sizes do not count. -/
theorem hyphenate_lt_iff {sizes : List ℕ} {xs ys : List Char} (h : xs.length = ys.length) :
    hyphenate sizes xs < hyphenate sizes ys ↔ xs < ys := by
  induction sizes generalizing xs ys with
  | nil => rfl
  | cons size sizes ih =>
      cases sizes with
      | nil => rfl
      | cons next sizes =>
          have htake : (xs.take size).length = (ys.take size).length := by
            rw [List.length_take, List.length_take, h]
          have hdrop : (xs.drop size).length = (ys.drop size).length := by
            rw [List.length_drop, List.length_drop, h]
          have hsplit : xs < ys ↔ xs.take size < ys.take size
              ∨ xs.take size = ys.take size ∧ xs.drop size < ys.drop size := by
            rw [← Text.append_lt_append_iff htake, List.take_append_drop, List.take_append_drop]
          rw [hyphenate_cons, hyphenate_cons, Text.append_lt_append_iff htake, hsplit,
            List.cons_lt_cons_iff, ih hdrop]
          simp

/-- Ids are ordered by their written form. -/
theorem text_lt_iff : a.text < b.text ↔ a < b := by
  have hlength : (Text.hexDigits 32 a.value.toNat).length
      = (Text.hexDigits 32 b.value.toNat).length := by
    rw [Text.length_hexDigits, Text.length_hexDigits]
  rw [String.lt_iff_toList_lt, text, text, String.toList_ofList, String.toList_ofList, chars, chars,
    hyphenate_lt_iff hlength, Text.hexDigits_lt_iff a.value.isLt b.value.isLt]
  rfl

end Id

end ProjectAccess
