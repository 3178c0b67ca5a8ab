/-
A quoted text ends where it ends.

Between the quotes a character is written as itself or as one of a few escapes. The reader
`unescape?` takes one character off its front and tells what follows, and what follows may
be anything; at a quote there is no character to take. So two quoted texts that begin the
same text are the same, and are followed by the same (`quoted_append_inj`), whatever
brackets, commas, quotes or escapes stand in them.
-/
import ProjectAccess.Text.Quoted
import ProjectAccess.Proofs.Text.Hexadecimal

namespace ProjectAccess.Text

-- ================================================== code points in braces

theorem readDigits_dropWhile_zero {cs : List Char} :
    readDigits 16 0 (cs.dropWhile (· = '0')) = readDigits 16 0 cs := by
  induction cs with
  | nil => rfl
  | cons c cs ih =>
      by_cases hc : c = '0'
      · subst hc
        rw [List.dropWhile_cons_of_pos (by simp), ih]
        rfl
      · rw [List.dropWhile_cons_of_neg (by simpa using hc)]

theorem readDigits_codePointDigits (c : Char) :
    readDigits 16 0 (codePointDigits c) = some c.toNat := by
  have hbound : c.toNat < 16 ^ 6 := by
    rcases c.valid with h | ⟨-, h⟩
    · exact Nat.lt_trans h (by decide)
    · exact Nat.lt_trans h (by decide)
  rw [codePointDigits, readDigits_dropWhile_zero, readDigits_hexDigits, Nat.mod_eq_of_lt hbound]

theorem ne_brace_of_mem_codePointDigits {c d : Char} (h : d ∈ codePointDigits c) : d ≠ '\x7d' := by
  have hdigit : ∀ d < 16, Nat.digitChar d ≠ '\x7d' := by decide
  obtain ⟨d, hd, rfl⟩ := mem_hexDigits ((List.dropWhile_sublist _).subset h)
  exact hdigit d hd

-- ======================================================= one character

/-- Takes one character, escaped or not, off the front of what stands between quotes. -/
def unescape? : List Char → Option (Char × List Char)
  | '\\' :: 'u' :: '\x7b' :: cs =>
    (readDigits 16 0 (cs.takeWhile (· ≠ '\x7d'))).map fun n =>
      (Char.ofNat n, (cs.dropWhile (· ≠ '\x7d')).tail)
  | '\\' :: '0' :: cs => some ('\x00', cs)
  | '\\' :: 't' :: cs => some ('\t', cs)
  | '\\' :: 'r' :: cs => some ('\r', cs)
  | '\\' :: 'n' :: cs => some ('\n', cs)
  | '\\' :: c :: cs => some (c, cs)
  | '"' :: _ => none
  | c :: cs => some (c, cs)
  | [] => none

/-- A character that is written by its code point is read back. -/
theorem unescape?_codePoint (c : Char) (rest : List Char) :
    unescape? ('\\' :: 'u' :: '\x7b' :: (codePointDigits c ++ '\x7d' :: rest))
      = some (c, rest) := by
  have hdigits : ∀ d ∈ codePointDigits c, decide (d ≠ '\x7d') = true := fun d hd =>
    decide_eq_true (ne_brace_of_mem_codePointDigits hd)
  have htake :
      (codePointDigits c ++ '\x7d' :: rest).takeWhile (· ≠ '\x7d') = codePointDigits c := by
    rw [List.takeWhile_append_of_pos hdigits]
    simp
  have hdrop : (codePointDigits c ++ '\x7d' :: rest).dropWhile (· ≠ '\x7d') = '\x7d' :: rest := by
    rw [List.dropWhile_append_of_pos hdigits]
    simp
  rw [unescape?, htake, hdrop, readDigits_codePointDigits]
  simp

/-- A character is read back from what it is written as. -/
theorem unescape?_escape (c : Char) (rest : List Char) :
    unescape? (escape c ++ rest) = some (c, rest) := by
  unfold escape
  split_ifs with hnul htab hreturn hline hslash hquote hprintable
  · rw [hnul]; rfl
  · rw [htab]; rfl
  · rw [hreturn]; rfl
  · rw [hline]; rfl
  · rw [hslash]; rfl
  · rw [hquote]; rfl
  · -- a printable character is no backslash and no quote here
    simp [unescape?, hslash]
  · rw [List.append_assoc]
    exact unescape?_codePoint c rest

-- ========================================================= whole texts

/-- Up to the closing mark a quoted text is known from how it is written. -/
theorem escapes_append_inj {cs ds r s : List Char}
    (h : cs.flatMap escape ++ '"' :: r = ds.flatMap escape ++ '"' :: s) : cs = ds ∧ r = s := by
  induction cs generalizing ds with
  | nil =>
      cases ds with
      | nil => exact ⟨rfl, (List.cons.inj h).2⟩
      | cons d ds =>
          rw [List.flatMap_cons, List.append_assoc] at h
          have hread := congrArg unescape? h
          rw [unescape?_escape] at hread
          cases hread
  | cons c cs ih =>
      rw [List.flatMap_cons, List.append_assoc] at h
      have hread := congrArg unescape? h
      rw [unescape?_escape] at hread
      cases ds with
      | nil => cases hread
      | cons d ds =>
          rw [List.flatMap_cons, List.append_assoc, unescape?_escape] at hread
          obtain ⟨rfl, hrest⟩ := Prod.mk.inj (Option.some.inj hread)
          obtain ⟨rfl, rfl⟩ := ih hrest
          exact ⟨rfl, rfl⟩

theorem toList_quoted (s : String) :
    (quoted s).toList = '"' :: (s.toList.flatMap escape ++ ['"']) := by
  rw [quoted, String.toList_ofList]

/-- Quoted texts at the front of the same text are the same, and so is what follows. -/
theorem quoted_append_inj {a b : String} {r s : List Char}
    (h : (quoted a).toList ++ r = (quoted b).toList ++ s) : a = b ∧ r = s := by
  rw [toList_quoted, toList_quoted, List.cons_append, List.cons_append, List.append_assoc,
    List.append_assoc] at h
  obtain ⟨hchars, hrest⟩ := escapes_append_inj (List.cons.inj h).2
  exact ⟨String.toList_injective hchars, hrest⟩

end ProjectAccess.Text
