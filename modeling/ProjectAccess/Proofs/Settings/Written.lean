/-
What a settings file gives.

The file is a mapping, and it is asked for two fields: `catalog_path`, of which any scalar is
the path as it is written, and `membership_cache_ttl_ms`, a number of 64 bits. Either may be
null or left out, and then nothing is given by it. The order of the fields does not matter,
nor how their names are written, and other fields are passed over (`Override.ofYaml_of_fields`).
-/
import ProjectAccess.Proofs.Text.Numerals
import ProjectAccess.Proofs.Yaml.Values
import ProjectAccess.Settings.Basic

namespace ProjectAccess

open Yaml (Decoder Document Node Scalar)
open Yaml.Decoder (Fields Keyed Yields)

-- ================================================================ fields

/-- What a field gives: nothing if it is left out or null, and else what its scalar stands
for. -/
inductive FieldGives {α : Type} (stands : Scalar → α → Prop) : Option Node → Option α → Prop where
  | missing : FieldGives stands none none
  | null {anchor : Option ℕ} {s : Scalar} (hnull : Decoder.isNull s = .ok true) :
      FieldGives stands (some (.scalar anchor s)) none
  | value {anchor : Option ℕ} {s : Scalar} {a : α} (hnull : Decoder.isNull s = .ok false)
      (hstands : stands s a) : FieldGives stands (some (.scalar anchor s)) (some a)

/-- A scalar is a path as it is written. -/
def StandsForPath (s : Scalar) (path : String) : Prop := s.text = path

/-- A scalar that may spell a number is the time that it spells. -/
def StandsForTime (s : Scalar) (time : UInt64) : Prop :=
  Decoder.isNumeric s = true ∧ Decoder.wordOf? s.text.toList = some time

/-- What a field gives is read from it. -/
theorem FieldGives.yields {α : Type} {d : Document} {read : Node → Decoder α}
    {stands : Scalar → α → Prop} {found : Fields} {name : String} {value : Option α}
    (h : FieldGives stands (found.lookup name) value)
    (hread : ∀ {anchor s a}, stands s a → Yields (read (.scalar anchor s)) d a) :
    Yields (Decoder.withDefault found name none (Decoder.nullable read)) d value := by
  generalize hfield : found.lookup name = field at h
  cases h with
  | missing => exact Decoder.yields_withDefault_of_none hfield
  | null hnull => exact Decoder.yields_withDefault hfield (Decoder.yields_nullable_of_isNull hnull)
  | value hnull hstands =>
      exact Decoder.yields_withDefault hfield
        (Decoder.yields_nullable_of_not_isNull hnull (hread hstands))

-- ================================================== times in decimal digits

variable {digits : List Char} {time : UInt64}

/-- Decimal digits are no number after a mark. -/
theorem markedWord?_of_allDecimal {mark : Char} {radix : ℕ} (hdigits : Text.AllDecimal digits)
    (hmark : ¬ ('0' ≤ mark ∧ mark ≤ '9')) : Decoder.markedWord? mark radix digits = none := by
  unfold Decoder.markedWord?
  split
  next c rest =>
    have hc : c ≠ mark := by
      rintro rfl
      exact hmark (hdigits c (by simp))
    rw [if_neg hc]
  next => rfl

/-- Decimal digits without superfluous zeros in front are the number that they make. -/
theorem wordOf?_of_allDecimal (hnonempty : digits ≠ []) (hdigits : Text.AllDecimal digits)
    (hzero : digits.head? = some '0' → digits.length = 1)
    (htime : time.toNat = Text.decimalValue digits) : Decoder.wordOf? digits = some time := by
  have hplain : Decoder.plainWord? digits = some time := by
    have hleading : ¬ (2 ≤ digits.length ∧ digits.head? = some '0') := by
      intro ⟨hlong, hhead⟩
      have hshort := hzero hhead
      omega
    rw [Decoder.plainWord?, if_neg hleading, Text.word?_eq_some_iff, Text.natural?_ten_eq_some_iff]
    exact ⟨hnonempty, hdigits, htime⟩
  unfold Decoder.wordOf?
  split
  next rest =>
    -- a plus sign is no digit
    exact absurd (hdigits '+' (by simp)) (by decide)
  next =>
    have hx : Decoder.markedWord? 'x' 16 digits = none :=
      markedWord?_of_allDecimal hdigits (by decide)
    have ho : Decoder.markedWord? 'o' 8 digits = none :=
      markedWord?_of_allDecimal hdigits (by decide)
    have hb : Decoder.markedWord? 'b' 2 digits = none :=
      markedWord?_of_allDecimal hdigits (by decide)
    dsimp only
    rw [hx, ho, hb, hplain]
    rfl

/-- A text that starts with a decimal digit is no word for null. -/
theorem isNull_of_allDecimal (hnonempty : digits ≠ []) (hdigits : Text.AllDecimal digits) :
    Decoder.isNull ⟨.ofList digits, .plain, none⟩ = .ok false := by
  obtain ⟨c, rest, rfl⟩ := List.exists_cons_of_ne_nil hnonempty
  have hc := hdigits c List.mem_cons_self
  have hword : Decoder.isNullWord (.ofList (c :: rest)) = false := by
    refine decide_eq_false fun hmem => ?_
    have hlist : c :: rest ∈ ["null", "Null", "NULL", "~"].map String.toList := by
      rw [← String.toList_ofList (l := c :: rest)]
      exact List.mem_map_of_mem hmem
    have hfirst : c ∈ ['n', 'N', 'N', '~'] := by
      have hhead := List.mem_map_of_mem (f := List.head?) hlist
      simpa using hhead
    have hletters : ∀ d ∈ ['n', 'N', 'N', '~'], ¬ ('0' ≤ d ∧ d ≤ '9') := by simp
    exact hletters c hfirst hc
  have hempty : (String.ofList (c :: rest)).isEmpty = false := by
    simp
  show Except.ok (_ || _) = _
  rw [hword, hempty]
  rfl

/-- A time can be given in decimal digits, without zeros in front of it. -/
theorem fieldGives_time_of_allDecimal {anchor : Option ℕ} (hnonempty : digits ≠ [])
    (hdigits : Text.AllDecimal digits) (hzero : digits.head? = some '0' → digits.length = 1)
    (htime : time.toNat = Text.decimalValue digits) :
    FieldGives StandsForTime (some (.scalar anchor ⟨.ofList digits, .plain, none⟩))
      (some time) := by
  refine .value (isNull_of_allDecimal hnonempty hdigits) ⟨rfl, ?_⟩
  rw [String.toList_ofList]
  exact wordOf?_of_allDecimal hnonempty hdigits hzero htime

-- =============================================================== the file

namespace Override

/-- A settings file whose document is a mapping gives the path and the time of its fields, if
neither of them is repeated. -/
theorem ofYaml_of_fields {text : String} {anchor : Option ℕ} {entries : List (Node × Node)}
    {fields : Fields} {o : Override}
    (hdocument : Document.ofText text = .ok ⟨some (.mapping anchor entries)⟩)
    (hkeyed : Keyed ⟨some (.mapping anchor entries)⟩ entries fields)
    (honce : ∀ name ∈ ["catalog_path", "membership_cache_ttl_ms"],
      (fields.map Prod.fst).count name ≤ 1)
    (hpath : FieldGives StandsForPath (fields.lookup "catalog_path") o.catalogPath)
    (htime : FieldGives StandsForTime (fields.lookup "membership_cache_ttl_ms") o.cacheTtl) :
    ofYaml text = .ok o := by
  obtain ⟨found, hfields, hfound⟩ := Decoder.exists_yields_fields anchor hkeyed honce
  rw [← hfound _ (by simp)] at hpath htime
  have hroot : Yields (Decoder.rootFields ["catalog_path", "membership_cache_ttl_ms"])
      ⟨some (.mapping anchor entries)⟩ found := hfields
  have hdecode : Yields decode ⟨some (.mapping anchor entries)⟩ o := by
    refine hroot.bind ?_
    refine (hpath.yields fun hstands => hstands ▸ Decoder.yields_text).bind ?_
    refine (htime.yields fun hstands => Decoder.yields_word hstands.1 hstands.2).bind ?_
    exact Decoder.yields_pure
  unfold ofYaml
  rw [hdocument]
  exact hdecode.run

example : (ofYaml "membership_cache_ttl_ms: 250\ncolour: blue\ncatalog_path: 7\n").toOption
    = some ⟨some "7", some 250⟩ := by decide +kernel

end Override

end ProjectAccess
