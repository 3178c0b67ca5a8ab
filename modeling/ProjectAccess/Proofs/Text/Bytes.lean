/-
Texts in the order of their bytes.

A text is compared character by character, and a program that compares its UTF-8 bytes
finds the same order (`bytes_le_iff`). A character is encoded in one to four bytes. Of two
characters the one with the lesser code point has, at the first byte where their codes
differ, the lesser byte, and neither code begins with the other; so whatever follows does
not count (`code_append_lt`), and texts are ordered at their first different character.
-/
import Mathlib.Data.List.Lex
import Mathlib.Data.String.Basic

namespace ProjectAccess.Text

/-- The bytes of a text in UTF-8, as numbers. -/
def bytes (s : String) : List ℕ := s.toUTF8.data.toList.map UInt8.toNat

/-- The bytes that encode a character. -/
def code (c : Char) : List ℕ := (String.utf8EncodeChar c).map UInt8.toNat

/-- The bytes of a text are those of its characters. -/
theorem bytes_eq (s : String) : bytes s = s.toList.flatMap code := by
  have hencoded : s.toUTF8.data.toList = s.toList.flatMap String.utf8EncodeChar := by
    rw [String.toUTF8_eq_toByteArray, ← String.utf8Encode_toList, List.utf8Encode,
      List.toList_data_toByteArray]
  rw [bytes, hencoded, List.map_flatMap]
  rfl

theorem code_eq (c : Char) : code c =
    let n := c.toNat
    if n ≤ 127 then [n]
    else if n ≤ 2047 then [n / 64 + 192, n % 64 + 128]
    else if n ≤ 65535 then [n / 4096 + 224, n / 64 % 64 + 128, n % 64 + 128]
    else [n / 262144 + 240, n / 4096 % 64 + 128, n / 64 % 64 + 128, n % 64 + 128] := by
  have hval : c.val.toNat = c.toNat := rfl
  have hbound : c.toNat < 1114112 := by
    rcases c.valid with h | ⟨-, h⟩
    · exact h.trans (by decide)
    · exact h
  simp only [code, String.utf8EncodeChar, hval]
  split_ifs <;> simp <;> omega

/-- The codes of two characters are ordered as the characters, whatever follows them. -/
theorem code_append_lt {c d : Char} (h : c < d) (x y : List ℕ) : code c ++ x < code d ++ y := by
  have hlt : c.toNat < d.toNat := h
  rw [code_eq, code_eq]
  dsimp only
  split_ifs <;> simp [List.cons_lt_cons_iff] <;> omega

theorem nil_lt_code_append (c : Char) (x : List ℕ) : [] < code c ++ x := by
  rw [code_eq]
  dsimp only
  split_ifs <;> exact List.nil_lt_cons _ _

theorem flatMap_code_lt {cs ds : List Char} (h : cs < ds) : cs.flatMap code < ds.flatMap code := by
  induction h with
  | nil => exact nil_lt_code_append _ _
  | rel hlt => exact code_append_lt hlt _ _
  | cons _ ih =>
      rw [List.flatMap_cons, List.flatMap_cons]
      exact List.append_left_lt ih

/-- The bytes of a lesser text are less. -/
theorem bytes_strictMono : StrictMono bytes := by
  intro a b h
  rw [bytes_eq, bytes_eq]
  exact flatMap_code_lt h

/-- Texts are ordered as their bytes are. -/
theorem bytes_le_iff {a b : String} : bytes a ≤ bytes b ↔ a ≤ b :=
  bytes_strictMono.le_iff_le

theorem bytes_injective : Function.Injective bytes := bytes_strictMono.injective

end ProjectAccess.Text
