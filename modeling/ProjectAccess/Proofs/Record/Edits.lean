/-
Edits of records, and what comes of them when a record is read.

An edit is a step from a value to another. `Edit.respell` and `Edit.relist` rewrite an id
and a set of permissions; `Edit.object` is for the record of named fields, each with the
edits that it allows: a key that is none of the names is added somewhere, or one of the
fields is edited. `Lacks` is the loss of one key, of whatever object.

# Reading

A record is read field by field. An edit changes what is found under at most one name, and
there by an edit of that field (`Edit.field?_of_object`); so a reader does not notice it if
it does not notice the edits of the fields (`Edit.bind_fields?_of_object`). If a key is
lost, nothing is found under its name, or something is lost in the value of a field
(`Lacks.field?`).
-/
import Mathlib.Data.List.Nodup
import ProjectAccess.Proofs.Access.Permissions
import ProjectAccess.Proofs.Id.Spelling
import ProjectAccess.Record.Decode

namespace ProjectAccess.Record

variable {given before after : List (String × Value)} {name key : String} {v v' : Value}

-- ================================================================ fields

namespace Value

theorem field?_append_cons_of_ne (h : key ≠ name) :
    field? (before ++ (key, v) :: after) name = field? (before ++ after) name := by
  unfold field?
  rw [List.filter_append, List.filter_append, List.filter_cons_of_neg (by simpa using h)]

theorem filter_eq_nil (h : name ∉ given.map (·.1)) : given.filter (·.1 == name) = [] := by
  apply List.filter_eq_nil_iff.2
  intro field hmem heq
  exact h (List.mem_map.2 ⟨field, hmem, by simpa using heq⟩)

theorem field?_eq_none (h : name ∉ given.map (·.1)) : field? given name = none := by
  unfold field?
  rw [filter_eq_nil h]

/-- A field is found if it is the only one of its name. -/
theorem field?_append_cons_self (h : name ∉ (before ++ after).map (·.1)) :
    field? (before ++ (name, v) :: after) name = some v := by
  rw [List.map_append, List.mem_append, not_or] at h
  unfold field?
  rw [List.filter_append, List.filter_cons_of_pos (by simp), filter_eq_nil h.1, filter_eq_nil h.2]
  rfl

/-- Fields are not found if there are two of the name. -/
theorem field?_eq_none_of_repeated (h : name ∈ (before ++ after).map (·.1)) :
    field? (before ++ (name, v) :: after) name = none := by
  have htwo : 2 ≤ ((before ++ (name, v) :: after).filter (·.1 == name)).length := by
    obtain ⟨field, hmem, hname⟩ := List.mem_map.1 h
    have hother : 0 < ((before ++ after).filter (·.1 == name)).length := by
      apply List.length_pos_of_mem
      exact List.mem_filter.2 ⟨hmem, by simpa using hname⟩
    rw [List.filter_append, List.length_append] at hother ⊢
    rw [List.filter_cons_of_pos (by simp), List.length_cons]
    omega
  unfold field?
  split
  next hone => rw [hone] at htwo; simp at htwo
  next => rfl

/-- If all names differ, that of a field is none of the others. -/
theorem not_mem_others (hnodup : ((before ++ (name, v) :: after).map (·.1)).Nodup) :
    name ∉ (before ++ after).map (·.1) := by
  rw [List.map_append, List.map_cons, List.nodup_middle, List.nodup_cons, ← List.map_append]
    at hnodup
  exact hnodup.1

theorem field?_of_mem (hnodup : (given.map (·.1)).Nodup) (hmem : (name, v) ∈ given) :
    field? given name = some v := by
  obtain ⟨before, after, rfl⟩ := List.append_of_mem hmem
  exact field?_append_cons_self (not_mem_others hnodup)

theorem mapM_field?_cons {names : List String} {f : String → Option Value} :
    (name :: names).mapM f = (f name).bind fun v => (names.mapM f).map (v :: ·) := by
  rw [List.mapM_cons]
  cases f name with
  | none => rfl
  | some v => cases names.mapM f <;> rfl

theorem mapM_eq_some {names : List String} {values : List Value} {f : String → Option Value}
    (hlength : names.length = values.length)
    (hfound : ∀ pair ∈ names.zip values, f pair.1 = some pair.2) :
    names.mapM f = some values := by
  induction names generalizing values with
  | nil =>
      rw [List.length_eq_zero_iff.1 hlength.symm]
      rfl
  | cons name names ih =>
      cases values with
      | nil => cases hlength
      | cons value values =>
          rw [List.zip_cons_cons, List.forall_mem_cons] at hfound
          rw [mapM_field?_cons, hfound.1, ih (Nat.succ.inj hlength) hfound.2]
          rfl

/-- The fields of an object with no others. -/
theorem fields?_eq_some {names : List String} {values : List Value} (hnodup : names.Nodup)
    (hlength : names.length = values.length) (hv : v = object (names.zip values)) :
    v.fields? names = some values := by
  have hkeys : ((names.zip values).map (·.1)).Nodup := by
    rw [List.map_fst_zip (Nat.le_of_eq hlength)]
    exact hnodup
  rw [hv]
  exact mapM_eq_some hlength fun _ hmem => field?_of_mem hkeys hmem

/-- A record whose fields are not all found is not read. -/
theorem fields?_eq_none {names : List String} (hmem : name ∈ names)
    (h : field? given name = none) : (object given).fields? names = none := by
  show names.mapM (field? given) = none
  induction names with
  | nil => cases hmem
  | cons first names ih =>
      rw [mapM_field?_cons]
      rcases List.mem_cons.1 hmem with rfl | hmem
      · rw [h]
        rfl
      · rw [ih hmem]
        cases field? given first <;> rfl

end Value

-- ================================================================= edits

/-- What may be done to a value, as steps from one value to the next. -/
abbrev Edit := Value → Value → Prop

namespace Edit

/-- Nothing may be done. -/
def nothing : Edit := fun _ _ => False

/-- An id may be spelled otherwise. -/
inductive respell (kind : IdKind) : Edit
  | mk {id : Id kind} {cs cs' : List Char} (h : id.Spells cs) (h' : id.Spells cs') :
      respell kind (.text (String.ofList cs)) (.text (String.ofList cs'))

/-- Permissions may be listed in another order, and more or less often. -/
inductive relist : Edit
  | mk {ps ps' : List Permission} (h : ∀ p, p ∈ ps ↔ p ∈ ps') :
      relist (.ofTexts ps) (.ofTexts ps')

/-- An unknown key may be added to an object, and a field may be edited. -/
inductive object (fields : List (String × Edit)) : Edit
  | add {before after : List (String × Value)} {key : String} {value : Value}
      (hkey : key ∉ fields.map (·.1)) :
      object fields (.object (before ++ after)) (.object (before ++ (key, value) :: after))
  | within {before after : List (String × Value)} {key : String} {edit : Edit} {v v' : Value}
      (hfield : (key, edit) ∈ fields) (h : edit v v') :
      object fields (.object (before ++ (key, v) :: after)) (.object (before ++ (key, v') :: after))

end Edit

-- ================================================== reading what is edited

variable {fields : List (String × Edit)} {edit : Edit} {given' : List (String × Value)}

theorem Edit.object.exists_objects (h : Edit.object fields v v') :
    ∃ given given', v = .object given ∧ v' = .object given' := by
  cases h with
  | add => exact ⟨_, _, rfl, rfl⟩
  | within => exact ⟨_, _, rfl, rfl⟩

/-- Under the name of a field the same is found after an edit of an object, or the field
has been edited. -/
theorem Edit.field?_of_object (hnodup : (fields.map (·.1)).Nodup) (hfield : (name, edit) ∈ fields)
    (h : Edit.object fields (.object given) (.object given')) :
    Value.field? given name = Value.field? given' name
      ∨ ∃ v v', edit v v' ∧ Value.field? given name = some v
          ∧ Value.field? given' name = some v' := by
  generalize hv : Value.object given = v, hv' : Value.object given' = v' at h
  cases h with
  | @add before after key value hkey =>
      cases hv
      cases hv'
      have hne : key ≠ name := fun heq => hkey (heq ▸ List.mem_map_of_mem hfield)
      exact .inl (Value.field?_append_cons_of_ne hne).symm
  | @within before after key edit' x x' hedited h =>
      cases hv
      cases hv'
      by_cases hkey : key = name
      · subst hkey
        -- the names of the fields differ, so it is the field that is looked for
        have hsame : (key, edit') = (key, edit) :=
          List.inj_on_of_nodup_map hnodup hedited hfield rfl
        cases hsame
        by_cases hother : key ∈ (before ++ after).map (·.1)
        · -- a key given twice is not found, whatever is edited
          left
          rw [Value.field?_eq_none_of_repeated hother, Value.field?_eq_none_of_repeated hother]
        · exact .inr ⟨x, x', h, Value.field?_append_cons_self hother,
            Value.field?_append_cons_self hother⟩
      · left
        rw [Value.field?_append_cons_of_ne hkey, Value.field?_append_cons_of_ne hkey]

/-- Values of fields before and after an edit of one of them. -/
inductive Touched : List Edit → List Value → List Value → Prop
  | nil : Touched [] [] []
  | cons {edits : List Edit} {vs vs' : List Value} {edit : Edit} {v v' : Value}
      (hfirst : v = v' ∨ edit v v') (hrest : Touched edits vs vs') :
      Touched (edit :: edits) (v :: vs) (v' :: vs')

theorem Touched.mapM {f f' : String → Option Value}
    (h : ∀ name edit, (name, edit) ∈ fields →
      f name = f' name ∨ ∃ v v', edit v v' ∧ f name = some v ∧ f' name = some v') :
    ((fields.map (·.1)).mapM f = none ∧ (fields.map (·.1)).mapM f' = none)
      ∨ ∃ vs vs', (fields.map (·.1)).mapM f = some vs ∧ (fields.map (·.1)).mapM f' = some vs'
          ∧ Touched (fields.map (·.2)) vs vs' := by
  induction fields with
  | nil => exact .inr ⟨[], [], rfl, rfl, .nil⟩
  | cons field fields ih =>
      obtain ⟨name, edit⟩ := field
      simp only [List.map_cons, Value.mapM_field?_cons]
      have hfirst := h name edit List.mem_cons_self
      rcases ih fun name edit hmem => h name edit (List.mem_cons_of_mem _ hmem) with
        ⟨hnone, hnone'⟩ | ⟨vs, vs', hvs, hvs', hrest⟩
      · left
        rw [hnone, hnone']
        exact ⟨by cases f name <;> rfl, by cases f' name <;> rfl⟩
      · rw [hvs, hvs']
        rcases hfirst with hsame | ⟨v, v', hedit, hv, hv'⟩
        · rw [← hsame]
          cases f name with
          | none => exact .inl ⟨rfl, rfl⟩
          | some v => exact .inr ⟨v :: vs, v :: vs', rfl, rfl, .cons (.inl rfl) hrest⟩
        · rw [hv, hv']
          exact .inr ⟨v :: vs, v' :: vs', rfl, rfl, .cons (.inr hedit) hrest⟩

/-- A reader that does not notice that fields are touched reads the same after an edit of
an object. -/
theorem Edit.bind_fields?_of_object {α : Type} {read : List Value → Option α}
    (hnodup : (fields.map (·.1)).Nodup) (h : Edit.object fields v v')
    (hread : ∀ vs vs', Touched (fields.map (·.2)) vs vs' → read vs = read vs') :
    (v.fields? (fields.map (·.1))).bind read = (v'.fields? (fields.map (·.1))).bind read := by
  obtain ⟨given, given', rfl, rfl⟩ := h.exists_objects
  show ((fields.map (·.1)).mapM (Value.field? given)).bind read
    = ((fields.map (·.1)).mapM (Value.field? given')).bind read
  rcases Touched.mapM fun name edit hmem => field?_of_object hnodup hmem h with
    ⟨hnone, hnone'⟩ | ⟨vs, vs', hvs, hvs', htouched⟩
  · rw [hnone, hnone']
  · rw [hvs, hvs']
    exact hread vs vs' htouched

theorem Edit.eq_of_nothing (h : v = v' ∨ Edit.nothing v v') : v = v' := h.resolve_right id

/-- A field that may not be edited is like an unknown one. -/
theorem Edit.object_of_nothing (h : Edit.object ((name, .nothing) :: fields) v v') :
    Edit.object fields v v' := by
  cases h with
  | add hkey => exact .add fun hmem => hkey (List.mem_cons_of_mem name hmem)
  | within hfield h =>
      rcases List.mem_cons.1 hfield with hfirst | hfield
      · cases hfirst
        exact h.elim
      · exact .within hfield h

/-- The reader takes a value before and after the edit for the same. -/
def Edit.Neutral {α : Type} (edit : Edit) (read : Value → Option α) : Prop :=
  ∀ v v', edit v v' → read v = read v'

theorem Edit.Neutral.eq {α : Type} {read : Value → Option α} (hneutral : edit.Neutral read)
    (h : v = v' ∨ edit v v') : read v = read v' := by
  rcases h with rfl | h
  · rfl
  · exact hneutral v v' h

theorem Edit.neutral_nothing {α : Type} {read : Value → Option α} : Edit.nothing.Neutral read :=
  fun _ _ h => h.elim

theorem id?_text {kind : IdKind} (cs : List Char) :
    (id? (.text (String.ofList cs)) : Option (Id kind)) = Id.ofChars? cs := by
  show Id.ofChars? (String.ofList cs).toList = Id.ofChars? cs
  rw [String.toList_ofList]

/-- All spellings of an id are read alike. -/
theorem Edit.neutral_respell {kind : IdKind} :
    (Edit.respell kind).Neutral (id? : Value → Option (Id kind)) := by
  intro v v' h
  cases h with
  | mk h h' =>
      rw [id?_text, id?_text, Id.ofChars?_of_spells h, Id.ofChars?_of_spells h']

theorem Value.texts?_ofTexts (texts : List String) : (ofTexts texts).texts? = some texts := by
  show (texts.map Value.text).mapM Value.text? = some texts
  induction texts with
  | nil => rfl
  | cons text texts ih =>
      rw [List.map_cons, List.mapM_cons, ih]
      rfl

theorem permissions?_ofTexts (ps : List Permission) :
    permissions? (.ofTexts ps) = some (.ofList ps) := by
  unfold permissions?
  rw [Value.texts?_ofTexts]
  rfl

/-- Lists of the same permissions are read as the same set. -/
theorem Edit.neutral_relist : Edit.relist.Neutral permissions? := by
  intro v v' h
  cases h with
  | @mk ps ps' h =>
      have hsame : PermissionSet.ofList ps = PermissionSet.ofList ps' := by
        apply PermissionSet.ext_mem
        intro p
        rw [PermissionSet.mem_ofList, PermissionSet.mem_ofList]
        exact h p
      rw [permissions?_ofTexts, permissions?_ofTexts, hsame]

-- ============================================================= lost keys

/-- One key is missing, from whatever object in the value. -/
inductive Lacks : Value → Value → Prop
  | drop {before after : List (String × Value)} {key : String} {value : Value} :
      Lacks (.object (before ++ (key, value) :: after)) (.object (before ++ after))
  | field {before after : List (String × Value)} {key : String} {v v' : Value} (h : Lacks v v') :
      Lacks (.object (before ++ (key, v) :: after)) (.object (before ++ (key, v') :: after))
  | item {before after : List Value} {v v' : Value} (h : Lacks v v') :
      Lacks (.list (before ++ v :: after)) (.list (before ++ v' :: after))

/-- There is no object in the value, so no key can be lost. -/
def Plain (v : Value) : Prop := ∀ v', ¬ Lacks v v'

@[simp] theorem plain_text {text : String} : Plain (.text text) := nofun

@[simp] theorem plain_flag {flag : Bool} : Plain (.flag flag) := nofun

@[simp] theorem plain_whole {n : Int} : Plain (.whole n) := nofun

@[simp] theorem plain_ofTexts {texts : List String} : Plain (.ofTexts texts) := by
  intro v' h
  generalize hv : Value.ofTexts texts = v at h
  cases h with
  | drop => cases hv
  | field => cases hv
  | @item before after x x' h =>
      have hmem : x ∈ texts.map Value.text := by
        rw [Value.list.inj hv]
        exact List.mem_append_right before List.mem_cons_self
      obtain ⟨text, -, rfl⟩ := List.mem_map.1 hmem
      exact plain_text x' h

variable {record : List (String × Value)} {names : List String}

/-- An object that has lost a key is without one of its fields, or one of them has lost a
key. -/
theorem Lacks.field? (hnodup : (record.map (·.1)).Nodup) (h : Lacks (.object record) v') :
    ∃ given name v, v' = .object given ∧ (name, v) ∈ record
      ∧ (Value.field? given name = none ∨ ∃ w, Lacks v w ∧ Value.field? given name = some w) := by
  generalize hv : Value.object record = v at h
  cases h with
  | @drop before after key value =>
      cases hv
      exact ⟨before ++ after, key, value, rfl, List.mem_append_right before List.mem_cons_self,
        .inl (Value.field?_eq_none (Value.not_mem_others hnodup))⟩
  | @field before after key x x' h =>
      cases hv
      exact ⟨_, key, x, rfl, List.mem_append_right before List.mem_cons_self,
        .inr ⟨x', h, Value.field?_append_cons_self (Value.not_mem_others hnodup)⟩⟩
  | item => cases hv

/-- A record of plain fields that has lost a key is not read. -/
theorem Lacks.bind_fields?_eq_none {α : Type} {read : List Value → Option α}
    (hnodup : names.Nodup) (hrecord : v = .object record) (hnames : record.map (·.1) = names)
    (hplain : ∀ field ∈ record, Plain field.2) (h : Lacks v v') :
    (v'.fields? names).bind read = none := by
  subst hrecord hnames
  obtain ⟨given, name, v, rfl, hmem, hlost | ⟨w, hw, -⟩⟩ := h.field? hnodup
  · rw [Value.fields?_eq_none (List.mem_map_of_mem hmem) hlost]
    rfl
  · exact absurd hw (hplain (name, v) hmem w)

/-- If the first key of an object is not lost, then another is, or its value has lost one. -/
theorem Lacks.of_cons (h : Lacks (.object ((key, v) :: record)) v') :
    v' = .object record ∨ (∃ w, Lacks v w)
      ∨ ∃ rest, v' = .object ((key, v) :: rest) ∧ Lacks (.object record) (.object rest) := by
  generalize hwhole : Value.object ((key, v) :: record) = whole at h
  cases h with
  | @drop before after other value =>
      cases before with
      | nil =>
          cases hwhole
          exact .inl rfl
      | cons first before =>
          cases hwhole
          exact .inr (.inr ⟨before ++ after, rfl, .drop⟩)
  | @field before after other x x' h =>
      cases before with
      | nil =>
          cases hwhole
          exact .inr (.inl ⟨x', h⟩)
      | cons first before =>
          cases hwhole
          exact .inr (.inr ⟨before ++ (other, x') :: after, rfl, .field h⟩)
  | item => cases hwhole

end ProjectAccess.Record
