/-
The spellings of an id, and that each is read back as the id.

An id has 32 hexadecimal digits. `Id.Spells` lists what they may be written as: bare,
hyphenated, hyphenated in braces, or hyphenated after the namespace, with each letter in
either case. Whatever is spelled so is read as the id (`ofChars?_of_spells`); the written
form is one of these spellings (`spells_chars`).
-/
import ProjectAccess.Id
import ProjectAccess.Proofs.Text.Hexadecimal

namespace ProjectAccess

namespace Id

variable {kind : IdKind} {id : Id kind} {digits cs : List Char}

-- ============================================================= spellings

/-- The digits of an id, each letter in either case. -/
def Digits (id : Id kind) (digits : List Char) : Prop :=
  digits.map Char.toLower = Text.hexDigits 32 id.value.toNat

/-- The texts that spell an id. -/
inductive Spells (id : Id kind) : List Char → Prop
  | bare {digits : List Char} (h : id.Digits digits) : Spells id digits
  | hyphenated {digits : List Char} (h : id.Digits digits) : Spells id (hyphenate groups digits)
  | braced {digits : List Char} (h : id.Digits digits) :
      Spells id ('\x7b' :: hyphenate groups digits ++ ['\x7d'])
  | named {name digits : List Char} (hname : name.map Char.toLower = "urn:uuid:".toList)
      (h : id.Digits digits) : Spells id (name ++ hyphenate groups digits)

theorem digits_hexDigits : id.Digits (Text.hexDigits 32 id.value.toNat) :=
  Text.map_toLower_hexDigits

/-- The text of an id spells it, in groups. -/
theorem spells_chars : id.Spells id.chars := .hyphenated digits_hexDigits

-- =============================================================== reading

theorem Digits.length_eq (h : id.Digits digits) : digits.length = 32 := by
  rw [← List.length_map Char.toLower, h, Text.length_hexDigits]

/-- The digits of an id spell its number. -/
theorem Digits.natural? (h : id.Digits digits) :
    Text.natural? 16 digits = some id.value.toNat := by
  have hnonempty : digits.isEmpty = false := by
    cases digits with
    | nil => cases h.length_eq
    | cons _ _ => rfl
  unfold Text.natural?
  rw [hnonempty, Text.readDigits_of_toLower h]
  exact congrArg some (Nat.mod_eq_of_lt id.value.isLt)

theorem hyphenate_cons {size next : Nat} {sizes : List Nat} :
    hyphenate (size :: next :: sizes) digits
      = digits.take size ++ '-' :: hyphenate (next :: sizes) (digits.drop size) := rfl

theorem unhyphenate?_cons {size next : Nat} {sizes : List Nat} {group rest : List Char}
    (h : group.length = size) :
    unhyphenate? (size :: next :: sizes) (group ++ '-' :: rest)
      = (unhyphenate? (next :: sizes) rest).map (group ++ ·) := by
  rw [unhyphenate?, List.drop_left' h, List.take_left' h]
  · rfl
  · exact List.cons_ne_nil next sizes

/-- Groups have a hyphen between any two. -/
theorem length_hyphenate {sizes : List Nat} (h : sizes.sum ≤ digits.length) :
    (hyphenate sizes digits).length = digits.length + (sizes.length - 1) := by
  induction sizes generalizing digits with
  | nil => rfl
  | cons size sizes ih =>
      cases sizes with
      | nil => rfl
      | cons next sizes =>
          rw [List.sum_cons] at h
          have hrest : (next :: sizes).sum ≤ (digits.drop size).length := by
            rw [List.length_drop]
            omega
          rw [hyphenate_cons, List.length_append, List.length_cons, ih hrest, List.length_take,
            List.length_drop]
          simp only [List.length_cons]
          omega

/-- Groups that were joined by hyphens are taken apart again. -/
theorem unhyphenate?_hyphenate {sizes : List Nat} (hsizes : sizes ≠ [])
    (h : digits.length = sizes.sum) :
    unhyphenate? sizes (hyphenate sizes digits) = some digits := by
  induction sizes generalizing digits with
  | nil => exact absurd rfl hsizes
  | cons size sizes ih =>
      rw [List.sum_cons] at h
      cases sizes with
      | nil =>
          show (if digits.length = size then some digits else none) = some digits
          exact if_pos h
      | cons next sizes =>
          have htake : (digits.take size).length = size := by
            rw [List.length_take]
            omega
          have hrest : (digits.drop size).length = (next :: sizes).sum := by
            rw [List.length_drop]
            omega
          rw [hyphenate_cons, unhyphenate?_cons htake, ih (List.cons_ne_nil _ _) hrest]
          exact congrArg some (List.take_append_drop size digits)

/-- In groups an id has 36 characters. -/
theorem Digits.length_hyphenate (h : id.Digits digits) :
    (hyphenate groups digits).length = 36 := by
  have hsum : groups.sum ≤ digits.length := Nat.le_of_eq h.length_eq.symm
  rw [Id.length_hyphenate hsum, h.length_eq]
  rfl

theorem Digits.unhyphenate? (h : id.Digits digits) :
    unhyphenate? groups (hyphenate groups digits) = some digits :=
  unhyphenate?_hyphenate (List.cons_ne_nil _ _) h.length_eq

/-- The digits are found in every spelling. -/
theorem Spells.digits? (h : id.Spells cs) :
    ∃ digits, digits? cs = some digits ∧ id.Digits digits := by
  cases h with
  | bare h =>
      refine ⟨_, ?_, h⟩
      unfold Id.digits?
      rw [if_pos h.length_eq]
  | @hyphenated digits h =>
      refine ⟨digits, ?_, h⟩
      unfold Id.digits?
      rw [h.length_hyphenate, h.unhyphenate?]
      rfl
  | @braced digits h =>
      refine ⟨digits, ?_, h⟩
      have hlength : ('\x7b' :: hyphenate groups digits ++ ['\x7d']).length = 38 := by
        rw [List.length_append, List.length_cons, h.length_hyphenate]
        rfl
      have hinside : unbrace? ('\x7b' :: hyphenate groups digits ++ ['\x7d'])
          = some (hyphenate groups digits) := by
        rw [List.cons_append, unbrace?, List.getLast?_concat, if_pos rfl, List.dropLast_concat]
      unfold Id.digits?
      rw [hlength, hinside]
      exact h.unhyphenate?
  | @named name digits hname h =>
      refine ⟨digits, ?_, h⟩
      have hsize : name.length = 9 := by
        rw [← List.length_map Char.toLower, hname]
        rfl
      have hlength : (name ++ hyphenate groups digits).length = 45 := by
        rw [List.length_append, hsize, h.length_hyphenate]
      have hafter : afterNamespace? (name ++ hyphenate groups digits)
          = some (hyphenate groups digits) := by
        unfold afterNamespace?
        rw [List.take_left' hsize, List.drop_left' hsize, hname]
        rfl
      unfold Id.digits?
      rw [hlength, hafter]
      exact h.unhyphenate?

/-- What spells an id is read as that id. -/
theorem ofChars?_of_spells (h : id.Spells cs) : ofChars? cs = some id := by
  obtain ⟨digits, hfound, hdigits⟩ := h.digits?
  unfold ofChars?
  rw [hfound]
  show (Text.natural? 16 digits).map _ = _
  rw [hdigits.natural?]
  show some (Id.mk (BitVec.ofNat 128 id.value.toNat)) = some id
  rw [BitVec.ofNat_toNat, BitVec.setWidth_eq]

end Id

end ProjectAccess
