/-
Which texts are read as an id, how ids are written, and that both keep their order.

A text is read as an id exactly if it spells the id, in one of the four spellings and in
letters of either case, with nothing but white space around it (`parse_eq_ok_iff`). That
what spells an id is read is in `Spelling`; here the reader is followed backwards, from the
digits that were found to the text in which they were (`of_digits?_eq_some`).

Of all spellings of an id one is canonical: five groups of lower-case digits, joined by
hyphens. It is the written form of the id (`canonical_iff`).
-/
import Mathlib.Data.List.SplitLengths
import ProjectAccess.Failure
import ProjectAccess.Proofs.Id.Order
import ProjectAccess.Proofs.Text.Trimming
import ProjectAccess.Record.Decode

namespace ProjectAccess

namespace Id

variable {kind : IdKind} {id : Id kind} {cs digits : List Char} {text : String}

-- ==================================================== from digits to text

theorem unhyphenate?_cons_eq_some {size next : ℕ} {sizes : List ℕ}
    (h : unhyphenate? (size :: next :: sizes) cs = some digits) :
    ∃ rest more, cs.drop size = '-' :: rest ∧ unhyphenate? (next :: sizes) rest = some more
      ∧ cs.take size ++ more = digits := by
  rw [unhyphenate?] at h
  · split at h
    next rest hrest =>
      obtain ⟨more, hmore, hdigits⟩ := Option.map_eq_some_iff.1 h
      exact ⟨rest, more, hrest, hmore, hdigits⟩
    next => cases h
  · exact List.cons_ne_nil next sizes

/-- Digits are taken out of groups only if the groups are as long as they should be. -/
theorem of_unhyphenate?_eq_some {sizes : List ℕ} (h : unhyphenate? sizes cs = some digits) :
    digits.length = sizes.sum ∧ cs = hyphenate sizes digits := by
  induction sizes generalizing cs digits with
  | nil => cases h
  | cons size sizes ih =>
      cases sizes with
      | nil =>
          obtain ⟨hlength, heq⟩ := Option.ite_none_right_eq_some.1 h
          cases heq
          exact ⟨hlength.trans (by simp), rfl⟩
      | cons next sizes =>
          obtain ⟨rest, more, hdrop, hmore, rfl⟩ := unhyphenate?_cons_eq_some h
          obtain ⟨hlength, rfl⟩ := ih hmore
          have htake : (cs.take size).length = size := by
            have hsize := congrArg List.length hdrop
            rw [List.length_drop, List.length_cons] at hsize
            rw [List.length_take]
            omega
          constructor
          · simp only [List.length_append, htake, hlength, List.sum_cons]
          · rw [hyphenate_cons, List.take_left' htake, List.drop_left' htake, ← hdrop,
              List.take_append_drop]

theorem of_unbrace?_eq_some (h : unbrace? cs = some digits) :
    cs = '\x7b' :: digits ++ ['\x7d'] := by
  unfold unbrace? at h
  split at h
  next rest =>
    obtain ⟨hlast, heq⟩ := Option.ite_none_right_eq_some.1 h
    obtain ⟨inside, rfl⟩ := List.getLast?_eq_some_iff.1 hlast
    cases heq
    rw [List.dropLast_concat, List.cons_append]
  next => cases h

/-- What is read without a namespace had it in front, in either case. -/
theorem of_afterNamespace?_eq_some (h : afterNamespace? cs = some digits) :
    ∃ name, name.map Char.toLower = "urn:uuid:".toList ∧ cs = name ++ digits := by
  obtain ⟨hname, heq⟩ := Option.ite_none_right_eq_some.1 h
  cases heq
  refine ⟨cs.take 9, ?_, (List.take_append_drop 9 cs).symm⟩
  rw [hname]
  rfl

/-- There are 32 digits in a text in which any were found, and the text spells the id whose
digits they are. -/
theorem of_digits?_eq_some (h : digits? cs = some digits) :
    digits.length = 32 ∧ (id.Digits digits → id.Spells cs) := by
  unfold digits? at h
  split_ifs at h with hbare hhyphenated hbraced hnamed
  · cases h
    exact ⟨hbare, .bare⟩
  · obtain ⟨hlength, rfl⟩ := of_unhyphenate?_eq_some h
    exact ⟨hlength, .hyphenated⟩
  · obtain ⟨inside, hinside, hdigits⟩ := Option.bind_eq_some_iff.1 h
    obtain ⟨hlength, rfl⟩ := of_unhyphenate?_eq_some hdigits
    rw [of_unbrace?_eq_some hinside]
    exact ⟨hlength, .braced⟩
  · obtain ⟨inside, hinside, hdigits⟩ := Option.bind_eq_some_iff.1 h
    obtain ⟨hlength, rfl⟩ := of_unhyphenate?_eq_some hdigits
    obtain ⟨name, hname, rfl⟩ := of_afterNamespace?_eq_some hinside
    exact ⟨hlength, .named hname⟩

-- ======================================================= what is accepted

/-- A number is read from digits that are its own in lower case. -/
theorem natural?_eq_some_iff (hlength : digits.length = 32) {n : ℕ} :
    Text.natural? 16 digits = some n
      ↔ n < 2 ^ 128 ∧ digits.map Char.toLower = Text.hexDigits 32 n := by
  have hnonempty : digits.isEmpty = false := by
    cases digits with
    | nil => cases hlength
    | cons => rfl
  rw [Text.natural?, hnonempty, if_neg Bool.false_ne_true, Text.readDigits_sixteen_eq_some_iff,
    hlength]
  exact Iff.rfl

/-- Exactly the spellings of an id are read as the id. -/
theorem ofChars?_eq_some_iff : ofChars? cs = some id ↔ id.Spells cs := by
  constructor
  · intro h
    obtain ⟨digits, hfound, hread⟩ := Option.bind_eq_some_iff.1 h
    obtain ⟨n, hn, rfl⟩ := Option.map_eq_some_iff.1 hread
    obtain ⟨hlength, hspells⟩ := @of_digits?_eq_some kind ⟨BitVec.ofNat 128 n⟩ _ _ hfound
    obtain ⟨hbound, hdigits⟩ := (natural?_eq_some_iff hlength).1 hn
    apply hspells
    rw [Digits, hdigits, BitVec.toNat_ofNat, Nat.mod_eq_of_lt hbound]
  · exact ofChars?_of_spells

/-- No white space is a capital letter. -/
theorem toLower_of_isBlank {c : Char} (h : Text.isBlank c = true) : c.toLower = c := by
  simp only [Text.isBlank, Bool.or_eq_true, Bool.and_eq_true, decide_eq_true_eq, beq_iff_eq] at h
  rw [← Char.toNat_inj, Text.toNat_toLower, if_neg]
  omega

theorem not_isBlank_of_map_toLower {ds : List Char} (h : cs.map Char.toLower = ds)
    (hds : ∀ d ∈ ds, Text.isBlank d = false) : ∀ c ∈ cs, Text.isBlank c = false := by
  intro c hc
  rw [← Bool.not_eq_true]
  intro hblank
  have hlower : c.toLower ∈ ds := h ▸ List.mem_map_of_mem hc
  rw [toLower_of_isBlank hblank] at hlower
  exact absurd (hds c hlower) (by simp [hblank])

/-- There is no white space in the digits of an id. -/
theorem Digits.not_isBlank (h : id.Digits digits) : ∀ c ∈ digits, Text.isBlank c = false := by
  have hdigit : ∀ d < 16, Text.isBlank (Nat.digitChar d) = false := by decide
  refine not_isBlank_of_map_toLower h fun c hc => ?_
  obtain ⟨d, hd, rfl⟩ := Text.mem_hexDigits hc
  exact hdigit d hd

theorem not_isBlank_hyphenate {sizes : List ℕ} (h : ∀ c ∈ digits, Text.isBlank c = false) :
    ∀ c ∈ hyphenate sizes digits, Text.isBlank c = false := by
  induction sizes generalizing digits with
  | nil => exact h
  | cons size sizes ih =>
      cases sizes with
      | nil => exact h
      | cons next sizes =>
          rw [hyphenate_cons, List.forall_mem_append, List.forall_mem_cons]
          exact ⟨fun c hc => h c (List.mem_of_mem_take hc), by decide,
            ih fun c hc => h c (List.mem_of_mem_drop hc)⟩

/-- There is no white space in a spelling. -/
theorem Spells.not_isBlank (h : id.Spells cs) : ∀ c ∈ cs, Text.isBlank c = false := by
  cases h with
  | bare h => exact h.not_isBlank
  | hyphenated h => exact not_isBlank_hyphenate h.not_isBlank
  | braced h =>
      rw [List.cons_append, List.forall_mem_cons, List.forall_mem_append, List.forall_mem_singleton]
      exact ⟨by decide, not_isBlank_hyphenate h.not_isBlank, by decide⟩
  | named hname h =>
      have hplain : ∀ c ∈ "urn:uuid:".toList, Text.isBlank c = false := by simp [Text.isBlank]
      rw [List.forall_mem_append]
      exact ⟨not_isBlank_of_map_toLower hname hplain, not_isBlank_hyphenate h.not_isBlank⟩

/-- The text spells the id once the white space around it is removed. -/
def SpelledIn (id : Id kind) (text : String) : Prop :=
  ∃ before cs after, text.toList = before ++ cs ++ after ∧ id.Spells cs
    ∧ (∀ c ∈ before, Text.isBlank c = true) ∧ ∀ c ∈ after, Text.isBlank c = true

theorem spelledIn_iff : id.SpelledIn text ↔ id.Spells (Text.trim text.toList) := by
  constructor
  · rintro ⟨before, cs, after, htext, hspells, hbefore, hafter⟩
    rw [htext, Text.trim_append hbefore hafter hspells.not_isBlank]
    exact hspells
  · intro hspells
    obtain ⟨before, after, htext, hblank⟩ := Text.exists_append_trim text.toList
    exact ⟨before, _, after, htext, hspells, hblank⟩

/-- A text is read as the id that is spelled in it. -/
theorem parse_eq_ok_iff : parse kind text = .ok id ↔ id.SpelledIn text := by
  rw [spelledIn_iff, ← ofChars?_eq_some_iff, parse]
  cases (ofChars? (Text.trim text.toList) : Option (Id kind)) <;> simp

/-- A text in which no id is spelled is refused with the kind of id and the text. -/
theorem parse_eq_error_iff {e : IdError} :
    parse kind text = .error e ↔ (∀ id : Id kind, ¬ id.SpelledIn text) ∧ e = ⟨kind, text⟩ := by
  simp only [← parse_eq_ok_iff, parse]
  cases (ofChars? (Text.trim text.toList) : Option (Id kind)) <;> simp [eq_comm]

theorem spelledIn_text : id.SpelledIn id.text := by
  refine ⟨[], id.chars, [], ?_, spells_chars, nofun, nofun⟩
  rw [text, String.toList_ofList, List.nil_append, List.append_nil]

-- ====================================================== the canonical form

/-- The character is a hexadecimal digit, and no capital letter. -/
def IsLowerDigit (c : Char) : Prop := '0' ≤ c ∧ c ≤ '9' ∨ 'a' ≤ c ∧ c ≤ 'f'

instance (c : Char) : Decidable (IsLowerDigit c) :=
  inferInstanceAs (Decidable ('0' ≤ c ∧ c ≤ '9' ∨ 'a' ≤ c ∧ c ≤ 'f'))

theorem isLowerDigit_iff {c : Char} :
    IsLowerDigit c ↔ 48 ≤ c.toNat ∧ c.toNat ≤ 57 ∨ 97 ≤ c.toNat ∧ c.toNat ≤ 102 := Iff.rfl

/-- Five groups of lower-case digits, joined by hyphens. -/
def Canonical (cs : List Char) : Prop :=
  ∃ parts : List (List Char), parts.map List.length = [8, 4, 4, 4, 12]
    ∧ (∀ part ∈ parts, ∀ c ∈ part, IsLowerDigit c) ∧ cs = List.intercalate ['-'] parts

theorem IsLowerDigit.toLower_eq {c : Char} (h : IsLowerDigit c) : c.toLower = c := by
  rw [isLowerDigit_iff] at h
  rw [← Char.toNat_inj, Text.toNat_toLower, if_neg]
  omega

theorem IsLowerDigit.isSome_digit? {c : Char} (h : IsLowerDigit c) :
    (Text.digit? 16 c).isSome := by
  rw [isLowerDigit_iff] at h
  rw [Text.digit?, Text.digitValue?_eq]
  rcases h with h | h
  · rw [if_pos h, Option.filter_some, if_pos (by rw [decide_eq_true_eq]; omega)]
    rfl
  · rw [if_neg (by omega), if_pos h, Option.filter_some,
      if_pos (by rw [decide_eq_true_eq]; omega)]
    rfl

theorem hyphenate_flatten (parts : List (List Char)) :
    hyphenate (parts.map List.length) parts.flatten = List.intercalate ['-'] parts := by
  induction parts with
  | nil => rfl
  | cons part parts ih =>
      cases parts with
      | nil => simp [hyphenate]
      | cons next parts =>
          rw [List.map_cons, List.map_cons, hyphenate_cons, List.flatten_cons, List.take_left,
            List.drop_left, ← List.map_cons, ih, List.intercalate_cons_cons, List.append_assoc]
          rfl

/-- A text in canonical form is made of 32 lower-case digits, in groups. -/
theorem canonical_iff_exists_digits : Canonical cs
    ↔ ∃ digits : List Char, digits.length = 32 ∧ (∀ c ∈ digits, IsLowerDigit c)
      ∧ cs = hyphenate groups digits := by
  constructor
  · rintro ⟨parts, hlength, hdigits, rfl⟩
    refine ⟨parts.flatten, ?_, ?_, ?_⟩
    · rw [List.length_flatten, hlength]
      rfl
    · intro c hc
      obtain ⟨part, hpart, hc⟩ := List.mem_flatten.1 hc
      exact hdigits part hpart c hc
    · rw [← hyphenate_flatten, hlength]
      rfl
  · rintro ⟨digits, hlength, hdigits, rfl⟩
    have hflatten : (groups.splitLengths digits).flatten = digits :=
      List.flatten_splitLengths _ _ (by rw [hlength]; decide)
    have hlengths : (groups.splitLengths digits).map List.length = groups :=
      List.map_splitLengths_length _ _ (by rw [hlength]; decide)
    refine ⟨groups.splitLengths digits, hlengths, ?_, ?_⟩
    · intro part hpart c hc
      apply hdigits
      rw [← hflatten]
      exact List.mem_flatten.2 ⟨part, hpart, hc⟩
    · rw [← hyphenate_flatten, hlengths, hflatten]

/-- The canonical texts are the written forms of ids. -/
theorem canonical_iff : Canonical text.toList ↔ ∃ id : Id kind, text = id.text := by
  rw [canonical_iff_exists_digits]
  constructor
  · rintro ⟨digits, hlength, hdigits, htext⟩
    obtain ⟨n, hn⟩ := Text.exists_readDigits 0 fun c hc => (hdigits c hc).isSome_digit?
    obtain ⟨hbound, hmap⟩ := Text.readDigits_sixteen_eq_some_iff.1 hn
    rw [List.map_congr_left fun c hc => (hdigits c hc).toLower_eq, List.map_id', hlength] at hmap
    refine ⟨⟨BitVec.ofNat 128 n⟩, String.toList_injective ?_⟩
    rw [Id.text, String.toList_ofList, chars, htext, BitVec.toNat_ofNat,
      Nat.mod_eq_of_lt (by rwa [hlength] at hbound), hmap]
  · rintro ⟨id, rfl⟩
    refine ⟨Text.hexDigits 32 id.value.toNat, Text.length_hexDigits, fun c hc => ?_, ?_⟩
    · have hdigit : ∀ d < 16, IsLowerDigit (Nat.digitChar d) := by decide
      obtain ⟨d, hd, rfl⟩ := Text.mem_hexDigits hc
      exact hdigit d hd
    · rw [Id.text, String.toList_ofList, chars]

-- ========================================================== main result

/-- Records hold ids without white space around them, and otherwise as texts do. -/
theorem id?_eq_some_iff {v : Record.Value} : Record.id? v = some id
    ↔ ∃ text, v = .text text ∧ Text.trim text.toList = text.toList ∧ parse kind text = .ok id := by
  constructor
  · intro h
    obtain ⟨text, htext, hread⟩ := Option.bind_eq_some_iff.1 h
    have hspells := ofChars?_eq_some_iff.1 hread
    have htrim := Text.trim_eq_self hspells.not_isBlank
    refine ⟨text, ?_, htrim, parse_eq_ok_iff.2 (spelledIn_iff.2 (htrim.symm ▸ hspells))⟩
    cases v with
    | text _ => cases htext; rfl
    | _ => cases htext
  · rintro ⟨text, rfl, htrim, hparse⟩
    have hspells := spelledIn_iff.1 (parse_eq_ok_iff.1 hparse)
    rw [htrim] at hspells
    exact ofChars?_eq_some_iff.2 hspells

/-- How ids are read, written and ordered. A text is read as an id exactly if it spells the
id, with nothing but white space around it; any other text is refused, and the failure names
the kind of id and shows the text as it was given. The written form is read as the id, and
the written forms are the canonical texts, of 36 characters each. Ids are ordered as their
written forms and as their octets. In records a text is read as the same id, but not with
white space around it. -/
theorem read_as_spelled (kind : IdKind) :
    (∀ text (id : Id kind), parse kind text = .ok id ↔ id.SpelledIn text)
      ∧ (∀ text e, parse kind text = .error e
        ↔ (∀ id : Id kind, ¬ id.SpelledIn text) ∧ e = ⟨kind, text⟩)
      ∧ (∀ text, (Failure.ofId ⟨kind, text⟩).message
        = "invalid id: " ++ (kind.name ++ " " ++ Text.quoted text))
      ∧ (∀ id : Id kind, parse kind id.text = .ok id ∧ id.text.length = 36)
      ∧ (∀ text : String, Canonical text.toList ↔ ∃ id : Id kind, text = id.text)
      ∧ (∀ a b : Id kind, (a.text < b.text ↔ a < b) ∧ (a.octets < b.octets ↔ a < b))
      ∧ ∀ v (id : Id kind), Record.id? v = some id
        ↔ ∃ text, v = .text text ∧ Text.trim text.toList = text.toList
          ∧ parse kind text = .ok id := by
  have hlength : ∀ id : Id kind, id.text.length = 36 := by
    intro id
    rw [text, String.length_ofList, chars, digits_hexDigits.length_hyphenate]
  exact ⟨fun _ _ => parse_eq_ok_iff, fun _ _ => parse_eq_error_iff, fun _ => rfl,
    fun id => ⟨parse_eq_ok_iff.2 spelledIn_text, hlength id⟩, fun _ => canonical_iff,
    fun _ _ => ⟨text_lt_iff, octets_lt_iff⟩, fun _ _ => id?_eq_some_iff⟩

end Id

end ProjectAccess
