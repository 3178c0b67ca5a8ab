/-
What a decoder reads from nodes without aliases.

The state of a decoder counts the aliases it has followed, so where there are none it is handed
on as it is. `Yields` says that a decoder gives a value in this way; it is closed under what
decoders are put together with.

# Records

A record is read from the entries of a mapping, by the names of its fields. Entries are looked
at one after the other and those that are known are collected, the last first. What matters of
the collection is only what is found in it, so it is described by that: in whatever order the
entries stand, a known field that is given no more than once is found as it is given, and
fields that are not known are passed over (`exists_yields_fields`).
-/
import Mathlib.Data.List.Forall2
import Mathlib.Data.List.Nodup
import ProjectAccess.Proofs.Yaml.Flow
import ProjectAccess.Yaml.Decode

namespace ProjectAccess.Yaml.Decoder

variable {α β : Type} {d : Document}

-- ============================================================== yielding

/-- The decoder gives the value, however many aliases were followed before, and follows none. -/
def Yields (decoder : Decoder α) (d : Document) (a : α) : Prop :=
  ∀ followed, decoder d followed = .ok (a, followed)

/-- What a decoder yields is what it reads from the document. -/
theorem Yields.run {decoder : Decoder α} {a : α} (h : Yields decoder d a) :
    decoder.run d = .ok a := by
  show (decoder d 0).map _ = _
  rw [h 0]
  rfl

theorem yields_pure {a : α} : Yields (pure a) d a := fun _ => rfl

/-- A decoder that goes on with what another has yielded. -/
theorem Yields.bind {decoder : Decoder α} {a : α} {next : α → Decoder β} {b : β}
    (h : Yields decoder d a) (hnext : Yields (next a) d b) : Yields (decoder >>= next) d b := by
  intro followed
  show (decoder d followed >>= fun x => next x.1 d x.2) = _
  rw [h followed]
  exact hnext followed

/-- If each of some values is yielded where it stands, so is the list of them. -/
theorem yields_mapM {read : α → Decoder β} {f : β → α} {values : List β}
    (h : ∀ b, Yields (read (f b)) d b) : Yields ((values.map f).mapM read) d values := by
  induction values with
  | nil => exact yields_pure
  | cons b values ih =>
      rw [List.map_cons, List.mapM_cons]
      exact (h b).bind (ih.bind yields_pure)

-- ================================================================ nodes

variable {anchor : Option ℕ} {s : Scalar} {read : Node → Decoder α} {a : α}

/-- As a text a scalar is read as it is, however it is written. -/
theorem yields_text : Yields (text (.scalar anchor s)) d s.text := fun _ => rfl

/-- A sequence is read as the list of what its items are read as. -/
theorem yields_list {f : α → Node} {values : List α} (h : ∀ a, Yields (read (f a)) d a) :
    Yields (list read (.sequence none (values.map f))) d values :=
  Yields.bind (fun _ => rfl) (yields_mapM h)

/-- A scalar that may spell a number is read as the one that it spells. -/
theorem yields_word {n : UInt64} (hnumeric : isNumeric s = true)
    (hspells : wordOf? s.text.toList = some n) : Yields (word (.scalar anchor s)) d n := by
  refine Yields.bind (a := .scalar anchor s) (fun _ => rfl) ?_
  dsimp only
  rw [if_pos hnumeric, hspells]
  exact yields_pure

/-- A null is read as no value. -/
theorem yields_nullable_of_isNull (hnull : isNull s = .ok true) :
    Yields (nullable read (.scalar anchor s)) d none := by
  refine Yields.bind (a := .scalar anchor s) (fun _ => rfl) ?_
  dsimp only
  rw [hnull]
  exact fun _ => rfl

/-- What is not null is read as the value that it is. -/
theorem yields_nullable_of_not_isNull (hnull : isNull s = .ok false)
    (hread : Yields (read (.scalar anchor s)) d a) :
    Yields (nullable read (.scalar anchor s)) d (some a) := by
  refine Yields.bind (a := .scalar anchor s) (fun _ => rfl) ?_
  dsimp only
  rw [hnull]
  intro followed
  show (read (.scalar anchor s) d followed).map _ = _
  rw [hread followed]
  rfl

-- =============================================================== fields

/-- The entries of a mapping with these fields. -/
def Fields.entries (fields : Fields) : List (Node × Node) :=
  fields.map fun field => (.quoted field.1, field.2)

/-- The entries have the values of the fields, under keys that are read as their names. -/
def Keyed (d : Document) (entries : List (Node × Node)) (fields : Fields) : Prop :=
  List.Forall₂ (fun entry field => Yields (text entry.1) d field.1 ∧ entry.2 = field.2)
    entries fields

/-- Keys may be quoted. -/
theorem keyed_entries {fields : Fields} : Keyed d fields.entries fields := by
  refine List.forall₂_map_left_iff.2 (List.forall₂_same.2 ?_)
  exact fun _ _ => ⟨yields_text, rfl⟩

variable {names : List String} {entries : List (Node × Node)} {found found' fields : Fields}
variable {name : String} {key node : Node}

/-- An entry under a known name is found, if nothing is found under it yet. -/
theorem yields_knownFields_of_mem (hkey : Yields (text key) d name) (hname : name ∈ names)
    (hnew : found.lookup name = none)
    (hrest : Yields (knownFields names ((name, node) :: found) entries) d found') :
    Yields (knownFields names found ((key, node) :: entries)) d found' := by
  refine hkey.bind ?_
  rw [List.contains_iff_mem.2 hname, hnew]
  exact hrest

/-- An entry under another name is passed over. -/
theorem yields_knownFields_of_not_mem (hkey : Yields (text key) d name) (hname : name ∉ names)
    (hrest : Yields (knownFields names found entries) d found') :
    Yields (knownFields names found ((key, node) :: entries)) d found' := by
  refine hkey.bind ?_
  rw [Bool.eq_false_iff.2 (mt List.contains_iff_mem.1 hname)]
  exact hrest

theorem lookup_cons_of_ne {other : String} (h : other ≠ name) :
    List.lookup other ((name, node) :: fields) = fields.lookup other := by
  rw [List.lookup_cons, beq_false_of_ne h]

theorem lookup_eq_none_of_count (h : (fields.map Prod.fst).count name = 0) :
    fields.lookup name = none := by
  refine List.lookup_eq_none_iff.2 fun field hfield => bne_iff_ne.2 ?_
  rintro rfl
  exact List.count_eq_zero.1 h (List.mem_map_of_mem hfield)

/-- After some entries that is found which was found before, and else what they give. -/
theorem exists_yields_knownFields (hkeyed : Keyed d entries fields)
    (hnew : ∀ name ∈ names, found.lookup name = none ∨ fields.lookup name = none)
    (honce : ∀ name ∈ names, (fields.map Prod.fst).count name ≤ 1) :
    ∃ found', Yields (knownFields names found entries) d found'
      ∧ ∀ name ∈ names, found'.lookup name = (found.lookup name).or (fields.lookup name) := by
  induction hkeyed generalizing found with
  | nil => exact ⟨found, yields_pure, fun name _ => Option.or_none.symm⟩
  | @cons entry field entries fields hentry _ ih =>
      obtain ⟨key, node⟩ := entry
      obtain ⟨name, node'⟩ := field
      obtain ⟨hkey, hnode⟩ := hentry
      obtain rfl : node = node' := hnode
      have honce' : ∀ name ∈ names, (fields.map Prod.fst).count name ≤ 1 := fun other hother =>
        Nat.le_trans List.count_le_count_cons (honce other hother)
      by_cases hname : name ∈ names
      · -- the field is not found yet, and is not given again
        have hunfound : found.lookup name = none := by
          simpa using hnew name hname
        have hlast : fields.lookup name = none := by
          have hcount := honce name hname
          rw [List.map_cons, List.count_cons_self] at hcount
          exact lookup_eq_none_of_count (by omega)
        have hnew' : ∀ other ∈ names,
            List.lookup other ((name, node) :: found) = none ∨ fields.lookup other = none := by
          intro other hother
          by_cases hsame : other = name
          · rw [hsame]
            exact .inr hlast
          · have hold := hnew other hother
            rwa [lookup_cons_of_ne hsame] at hold ⊢
        obtain ⟨found', hyields, hfound'⟩ := ih hnew' honce'
        refine ⟨found', yields_knownFields_of_mem hkey hname hunfound hyields, ?_⟩
        intro other hother
        rw [hfound' other hother]
        by_cases hsame : other = name
        · rw [hsame, hunfound, List.lookup_cons_self, List.lookup_cons_self]
          rfl
        · rw [lookup_cons_of_ne hsame, lookup_cons_of_ne hsame]
      · have hpassed : ∀ other ∈ names,
            List.lookup other ((name, node) :: fields) = fields.lookup other :=
          fun other hother => lookup_cons_of_ne (ne_of_mem_of_not_mem hother hname)
        have hnew' : ∀ other ∈ names,
            found.lookup other = none ∨ fields.lookup other = none := by
          intro other hother
          rw [← hpassed other hother]
          exact hnew other hother
        obtain ⟨found', hyields, hfound'⟩ := ih hnew' honce'
        refine ⟨found', yields_knownFields_of_not_mem hkey hname hyields, ?_⟩
        intro other hother
        rw [hfound' other hother, hpassed other hother]

/-- The fields of a mapping that are known are found as they are given, as long as none of
them is repeated. -/
theorem exists_yields_fields (anchor : Option ℕ) (hkeyed : Keyed d entries fields)
    (honce : ∀ name ∈ names, (fields.map Prod.fst).count name ≤ 1) :
    ∃ found, Yields (Decoder.fields names (.mapping anchor entries)) d found
      ∧ ∀ name ∈ names, found.lookup name = fields.lookup name := by
  have hnew : ∀ name ∈ names, List.lookup name ([] : Fields) = none ∨ fields.lookup name = none :=
    fun _ _ => .inl rfl
  obtain ⟨found, hyields, hfound⟩ := exists_yields_knownFields hkeyed hnew honce
  exact ⟨found, Yields.bind (fun _ => rfl) hyields, hfound⟩

variable {default : α}

/-- A field that has to be given is read where it is found. -/
theorem yields_required (hfound : found.lookup name = some node) (hread : Yields (read node) d a) :
    Yields (required found name read) d a := by
  unfold required
  rw [hfound]
  exact hread

/-- A field that may be left out is read where it is found. -/
theorem yields_withDefault (hfound : found.lookup name = some node)
    (hread : Yields (read node) d a) : Yields (withDefault found name default read) d a := by
  unfold withDefault
  rw [hfound]
  exact hread

/-- A field that is not found has its default. -/
theorem yields_withDefault_of_none (hfound : found.lookup name = none) :
    Yields (withDefault found name default read) d default := by
  unfold withDefault
  rw [hfound]
  exact yields_pure

end ProjectAccess.Yaml.Decoder
