/-
Reading back what is written between double quotes.

`Spelling` says how a text is written: a printable character of ASCII stands for itself, and
any other, the quote and the backslash are written as their code points in eight hexadecimal
digits of either case. What is so written is printable, so it stays on its line, takes as many
octets as it has characters, and has no white space but blanks. `Quoted.read` holds such
blanks back until a word follows; `Pending` is what of the text has been read with these
counted in, and each character that is spelled adds just itself to it (`read_of_spells`).
-/
import ProjectAccess.Proofs.Text.Hexadecimal
import ProjectAccess.Yaml.Scalar.Quoted

namespace ProjectAccess.Yaml

-- ================================================== printable characters

/-- The character is a printable one of ASCII. -/
def isAsciiGraphic (c : Char) : Bool := 0x20 ≤ c.toNat && c.toNat ≤ 0x7E

/-- Graphic are the characters from the space to the tilde. -/
theorem isAsciiGraphic_iff {c : Char} :
    isAsciiGraphic c ↔ 0x20 ≤ c.toNat ∧ c.toNat ≤ 0x7E := by
  unfold isAsciiGraphic
  rw [Bool.and_eq_true, decide_eq_true_iff, decide_eq_true_iff]

theorem ne_of_isAsciiGraphic {c d : Char} (h : isAsciiGraphic c) (hd : isAsciiGraphic d = false) :
    c ≠ d := by
  rintro rfl
  rw [h] at hd
  cases hd

theorem isBreak_of_isAsciiGraphic {c : Char} (h : isAsciiGraphic c) : isBreak c = false := by
  unfold isBreak
  rw [beq_false_of_ne (ne_of_isAsciiGraphic h rfl), beq_false_of_ne (ne_of_isAsciiGraphic h rfl),
    beq_false_of_ne (ne_of_isAsciiGraphic h rfl)]
  rfl

theorem isSeparator_of_isAsciiGraphic {c : Char} (h : isAsciiGraphic c) :
    isSeparator c = (c == ' ') := by
  unfold isSeparator isGap
  rw [isBreak_of_isAsciiGraphic h, beq_false_of_ne (ne_of_isAsciiGraphic h (d := '\t') rfl)]
  simp only [Bool.or_false]

theorem utf8Size_of_isAsciiGraphic {c : Char} (h : isAsciiGraphic c) : c.utf8Size = 1 :=
  Char.utf8Size_eq_one_iff.2 <| by
    have hle : c.toNat ≤ 127 := by have := (isAsciiGraphic_iff.1 h).2; omega
    exact UInt32.le_iff_toNat_le.2 hle

namespace Place

variable {p : Place} {c : Char} {cs ds : List Char}

theorem along_cons (h : isBreak c = false) : p.along (c :: cs) = (p.past c).along cs := by
  unfold past
  rw [if_neg (by rw [h]; exact Bool.false_ne_true)]
  simp only [along, List.length_cons, List.foldl_cons]
  congr 1
  omega

theorem along_singleton (h : isBreak c = false) : p.along [c] = p.past c := along_cons h

theorem along_append : p.along (cs ++ ds) = (p.along cs).along ds := by
  simp only [along, List.length_append, List.foldl_append]
  congr 1
  omega

theorem column_along_pos (h : 0 < p.column) : 0 < (p.along cs).column :=
  Nat.lt_of_lt_of_le h (Nat.le_add_right _ _)

/-- Printable characters take an octet each. -/
theorem octet_along (h : ∀ c ∈ cs, isAsciiGraphic c) :
    (p.along cs).octet = p.octet + cs.length := by
  induction cs generalizing p with
  | nil => rfl
  | cons c cs ih =>
      have hc := h c List.mem_cons_self
      rw [along_cons (isBreak_of_isAsciiGraphic hc), ih fun c hc => h c (List.mem_cons_of_mem _ hc)]
      unfold past
      rw [if_neg (by rw [isBreak_of_isAsciiGraphic hc]; exact Bool.false_ne_true)]
      show p.octet + c.utf8Size + cs.length = _
      rw [utf8Size_of_isAsciiGraphic hc, List.length_cons]
      omega

end Place

-- ============================================================== spelling

/-- Between double quotes the character stands for itself. -/
def isVerbatim (c : Char) : Bool := isAsciiGraphic c && c != '\x22' && c != '\\'

/-- How a character is written between double quotes. -/
inductive Spells : Char → List Char → Prop
  | verbatim {c : Char} (h : isVerbatim c) : Spells c [c]
  | code {c : Char} {digits : List Char} (h : ¬ isVerbatim c)
      (hdigits : digits.map Char.toLower = Text.hexDigits 8 c.toNat) :
      Spells c ('\\' :: 'U' :: digits)

/-- How a text is written between double quotes. -/
inductive Spelling : List Char → List Char → Prop
  | nil : Spelling [] []
  | cons {c : Char} {text cs ds : List Char} (hc : Spells c cs) (htext : Spelling text ds) :
      Spelling (c :: text) (cs ++ ds)

variable {c : Char} {text cs ds : List Char}

/-- What stands for itself is graphic, and neither the quotation mark nor the backslash. -/
theorem isVerbatim_iff : isVerbatim c ↔ isAsciiGraphic c ∧ c ≠ '\x22' ∧ c ≠ '\\' := by
  unfold isVerbatim
  rw [Bool.and_eq_true, Bool.and_eq_true, bne_iff_ne, bne_iff_ne, and_assoc]

theorem isAsciiGraphic_of_digit {d : ℕ} (h : Text.digit? 16 c = some d) : isAsciiGraphic c := by
  obtain ⟨hvalue, -⟩ := Option.filter_eq_some_iff.1 h
  rw [Text.digitValue?_eq] at hvalue
  rw [isAsciiGraphic_iff]
  grind

/-- The digits of a code point are digits. -/
theorem exists_digit_of_mem {n : ℕ} (h : cs.map Char.toLower = Text.hexDigits 8 n)
    (hc : c ∈ cs) : ∃ d, Text.digit? 16 c = some d := by
  have hlower : c.toLower ∈ Text.hexDigits 8 n := h ▸ List.mem_map_of_mem hc
  obtain ⟨d, hd, hdigit⟩ := Text.mem_hexDigits hlower
  exact ⟨d, Text.digit?_of_toLower hd hdigit⟩

/-- A character is spelled in graphic characters. -/
theorem Spells.isAsciiGraphic (h : Spells c cs) : ∀ d ∈ cs, isAsciiGraphic d := by
  cases h with
  | verbatim h =>
      intro d hd
      rw [List.mem_singleton.1 hd]
      exact (isVerbatim_iff.1 h).1
  | code h hdigits =>
      intro d hd
      rcases List.mem_cons.1 hd with rfl | hd
      · rfl
      rcases List.mem_cons.1 hd with rfl | hd
      · rfl
      obtain ⟨value, hvalue⟩ := exists_digit_of_mem hdigits hd
      exact isAsciiGraphic_of_digit hvalue

/-- A text is spelled in graphic characters. -/
theorem Spelling.isAsciiGraphic (h : Spelling text cs) : ∀ d ∈ cs, isAsciiGraphic d := by
  induction h with
  | nil => exact nofun
  | cons hc htext ih => exact List.forall_mem_append.2 ⟨hc.isAsciiGraphic, ih⟩

/-- A text written with lower-case digits. -/
def spell : List Char → List Char
  | [] => []
  | c :: text =>
    (if isVerbatim c then [c] else '\\' :: 'U' :: Text.hexDigits 8 c.toNat) ++ spell text

/-- How a text is written is one of its spellings. -/
theorem spelling_spell : Spelling text (spell text) := by
  induction text with
  | nil => exact .nil
  | cons c text ih =>
      refine .cons ?_ ih
      split
      next hc => exact .verbatim hc
      next hc => exact .code hc Text.map_toLower_hexDigits

namespace Quoted

-- =============================================================== reading

/-- In a mode of reading, and with these characters read without the blanks that are held
back, the text so far is this. The last character comes first in both. -/
inductive Pending : Mode → List Char → List Char → Prop
  | words {soFar : List Char} : Pending .words soFar soFar
  | gap {seen done : List Char} : Pending (.gap (.blanks seen)) done (seen ++ done)

variable {mode : Mode} {done soFar rest : List Char} {place : Place}

/-- A printable character but a blank is a word's, whether or not blanks came before it. -/
theorem step_of_ne_blank (h : Pending mode done soFar) (hplace : 0 < place.column)
    (hc : isAsciiGraphic c) (hblank : c ≠ ' ') :
    step .double mode done c ⟨place, rest⟩ = .ok (wordStep .double soFar c) := by
  have hseparator : isSeparator c = false := by
    rw [isSeparator_of_isAsciiGraphic hc, beq_false_of_ne hblank]
  cases h with
  | words => simp only [step, hseparator, Bool.false_eq_true, if_false]
  | gap => simp only [step, hseparator, Bool.false_eq_true, if_false, Nat.pos_iff_ne_zero.1 hplace,
      false_and, Gap.fold, List.reverse_reverse]

/-- A blank is held back. -/
theorem exists_step_blank (place : Place) (rest : List Char) (h : Pending mode done soFar) :
    ∃ mode', step .double mode done ' ' ⟨place, rest⟩ = .ok (.next mode' done)
      ∧ Pending mode' done (' ' :: soFar) := by
  cases h with
  | words => exact ⟨.gap (.blanks [' ']), rfl, .gap⟩
  | gap => exact ⟨.gap (.blanks _), rfl, .gap⟩

/-- The digits of a code point are read to the end. -/
theorem read_digits {missing value n : ℕ} {e : Char}
    (hlength : cs.length = missing + 1) (hvalue : Text.readDigits 16 value cs = some n)
    (he : codePoint? n = some e) :
    Quoted.read .double (.code (missing + 1) value) done place (cs ++ rest)
      = Quoted.read .double .words (e :: done) (place.along cs) rest := by
  induction cs generalizing missing value place with
  | nil => cases hlength
  | cons c cs ih =>
      obtain ⟨d, hd, hvalue⟩ := Option.bind_eq_some_iff.1 hvalue
      rw [Place.along_cons (isBreak_of_isAsciiGraphic (isAsciiGraphic_of_digit hd)),
        List.cons_append, Quoted.read]
      cases missing with
      | zero =>
          obtain rfl := List.length_eq_zero_iff.1 (Nat.succ.inj hlength)
          cases hvalue
          simp only [step, hd, he, Nat.lt_irrefl, if_false, Nat.zero_add]
          rfl
      | succ missing =>
          simp only [step, hd, Nat.lt_add_left_iff_pos, Nat.succ_pos, if_true]
          exact ih (Nat.succ.inj hlength) hvalue

/-- A character that is spelled adds itself to the text, and nothing else. -/
theorem read_of_spells (h : Spells c cs) (hpending : Pending mode done soFar)
    (hplace : 0 < place.column) :
    ∃ mode' done', Pending mode' done' (c :: soFar)
      ∧ Quoted.read .double mode done place (cs ++ rest)
        = Quoted.read .double mode' done' (place.along cs) rest := by
  cases h with
  | verbatim h =>
      obtain ⟨hprintable, hquote, hbackslash⟩ := isVerbatim_iff.1 h
      rw [Place.along_singleton (isBreak_of_isAsciiGraphic hprintable), List.singleton_append]
      by_cases hblank : c = ' '
      · subst hblank
        obtain ⟨mode', hstep, hpending'⟩ := exists_step_blank place (' ' :: rest) hpending
        exact ⟨mode', done, hpending', by rw [Quoted.read, hstep]⟩
      · refine ⟨.words, c :: soFar, .words, ?_⟩
        rw [Quoted.read, step_of_ne_blank hpending hplace hprintable hblank]
        simp only [wordStep, Quote.mark, hquote, hbackslash, if_false]
  | code h hdigits =>
      refine ⟨.words, c :: soFar, .words, ?_⟩
      have hlength := congrArg List.length hdigits
      rw [List.length_map, Text.length_hexDigits] at hlength
      have hvalue := Text.readDigits_of_toLower hdigits
      have hbound : c.toNat < 16 ^ 8 := c.val.toNat_lt
      rw [Nat.mod_eq_of_lt hbound] at hvalue
      have hcode : codePoint? c.toNat = some c := by
        have hvalid : c.toNat.isValidChar := c.valid
        unfold codePoint?
        rw [if_pos hvalid, Char.ofNat_toNat]
      rw [List.cons_append, List.cons_append, Quoted.read,
        step_of_ne_blank hpending hplace rfl (by decide)]
      show Quoted.read .double .escape soFar (place.past '\\') ('U' :: _) = _
      rw [Quoted.read]
      show Quoted.read .double (.code 8 0) soFar ((place.past '\\').past 'U') _ = _
      rw [read_digits hlength hvalue hcode, Place.along_cons rfl, Place.along_cons rfl]

/-- What is spelled is read up to the closing quote. -/
theorem read_of_spelling (h : Spelling text cs) (hpending : Pending mode done soFar)
    (hplace : 0 < place.column) :
    Quoted.read .double mode done place (cs ++ '\x22' :: rest)
      = .ok (soFar.reverse ++ text, ⟨place.along (cs ++ ['\x22']), rest⟩) := by
  induction h generalizing mode done soFar place with
  | nil =>
      rw [List.nil_append, List.nil_append, List.append_nil, Quoted.read,
        step_of_ne_blank hpending hplace rfl (by decide), Place.along_singleton rfl]
      rfl
  | cons hc htext ih =>
      obtain ⟨mode', done', hpending', hread⟩ := read_of_spells hc hpending hplace
      rw [List.append_assoc, hread, ih hpending' (Place.column_along_pos hplace)]
      simp only [Place.along_append, List.reverse_cons, List.append_assoc,
        List.singleton_append]

end Quoted

/-- A text that is spelled between double quotes is read from there. -/
theorem Cursor.quotedScalar_of_spelling {here : Cursor} {text : String} {rest : List Char}
    (h : Spelling text.toList cs) (hhere : here.rest = '\x22' :: (cs ++ '\x22' :: rest)) :
    here.quotedScalar .double
      = .ok (text, ⟨here.along ('\x22' :: (cs ++ ['\x22'])), rest⟩) := by
  have hinside : here.skip 1 = ⟨here.past '\x22', cs ++ '\x22' :: rest⟩ := by
    unfold Cursor.skip
    rw [hhere]
    show Cursor.mk (here.along ['\x22']) _ = _
    rw [Place.along_singleton rfl]
    rfl
  unfold quotedScalar
  rw [hinside]
  show (Quoted.read .double .words [] (here.past '\x22') (cs ++ '\x22' :: rest)).map _ = _
  rw [Quoted.read_of_spelling h .words (Nat.succ_pos here.column), Place.along_cons rfl]
  show Except.ok (String.ofList text.toList, _) = _
  rw [String.ofList_toList]

end ProjectAccess.Yaml
