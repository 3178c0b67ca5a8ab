/-
Where settings come from.

Two settings, a path and a time, come from two sources, the environment and a file that
the environment names. This file says what comes of all of them (`resolve_by_sources`),
and first what each source gives by itself: variables a path and a time (`Variable.
GivesPath`, `Variable.GivesTime`), the file an override (`Overridden`) or nothing that
can be used (`Unusable`).

# Which failure comes first

A time that is no number is found before the file is looked for, so that it fails
whatever the file may be. After that only the file can fail. Both are seen in the two
stages of `resolve_eq`: the variables alone, then the override on top of them.

# Zero

A time of zero is none from either source, and the file has the last word. So zero in
the file takes away a time that the environment gives, and no time of zero is ever left.
-/
import ProjectAccess.Proofs.Text.Numerals
import ProjectAccess.Settings.Basic

namespace ProjectAccess

-- =========================================================== environment

/-- The text is no number of 64 bits, with white space around it or not. -/
def Unspelled (value : String) : Prop :=
  ¬ ∃ n < 2 ^ 64, Text.SpellsDecimal (Text.trim value.toList) n

/-- The path that a variable gives: its text as it is, unless that is blank. -/
inductive Variable.GivesPath : Variable → Option String → Prop where
  | unset : GivesPath .unset none
  | notUnicode : GivesPath .notUnicode none
  | blank {value : String} (h : Text.trim value.toList = []) : GivesPath (.text value) none
  | given {value : String} (h : Text.trim value.toList ≠ []) :
      GivesPath (.text value) (some value)

/-- The time that a variable gives: the number that its text spells, unless that is zero.
A text that spells none gives nothing, not even that there is no time. -/
inductive Variable.GivesTime : Variable → Option UInt64 → Prop where
  | unset : GivesTime .unset none
  | notUnicode : GivesTime .notUnicode none
  | zero {value : String} (h : Text.SpellsDecimal (Text.trim value.toList) 0) :
      GivesTime (.text value) none
  | given {value : String} {time : UInt64} (hpos : time ≠ 0)
      (h : Text.SpellsDecimal (Text.trim value.toList) time.toNat) :
      GivesTime (.text value) (some time)

namespace Variable

variable {v : Variable} {value : String} {path : Option String} {time : Option UInt64}

theorem text?_eq_some_iff : v.text? = some value ↔ v = .text value := by
  cases v <;> simp [text?]

theorem filter_text : (some value).filter (!Text.blank ·)
    = if Text.trim value.toList = [] then none else some value := by
  by_cases hblank : Text.trim value.toList = []
  · rw [if_pos hblank, Option.filter_some, Text.blank_iff.2 hblank]
    rfl
  · rw [if_neg hblank, Option.filter_some, Bool.eq_false_iff.2 (Text.blank_iff.not.2 hblank)]
    rfl

/-- The path that a variable gives is its text unless that is blank. -/
theorem givesPath_iff : v.GivesPath path ↔ path = v.text?.filter (!Text.blank ·) := by
  constructor
  · intro h
    cases h with
    | unset => rfl
    | notUnicode => rfl
    | blank h => rw [text?, filter_text, if_pos h]
    | given h => rw [text?, filter_text, if_neg h]
  · rintro rfl
    cases v with
    | unset => exact .unset
    | notUnicode => exact .notUnicode
    | text value =>
        rw [text?, filter_text]
        split
        next h => exact .blank h
        next h => exact .given h

/-- A text gives a time if it spells a number, and then that number unless it is zero. -/
theorem givesTime_text_iff :
    GivesTime (.text value) time
      ↔ ∃ number, Text.decimalWord? (Text.trim value.toList) = some number
        ∧ time = Settings.ttlOf number := by
  simp only [Text.decimalWord?_eq_some_iff]
  constructor
  · intro h
    cases h with
    | zero h => exact ⟨0, h, rfl⟩
    | given hpos h => exact ⟨_, h, (if_neg hpos).symm⟩
  · rintro ⟨number, h, rfl⟩
    by_cases hzero : number = 0
    · subst hzero
      exact .zero h
    · rw [Settings.ttlOf, if_neg hzero]
      exact .given hzero h

theorem givesTime_of_text?_eq_none (h : v.text? = none) : v.GivesTime time ↔ time = none := by
  constructor
  · intro htime
    cases htime with
    | unset => rfl
    | notUnicode => rfl
    | zero => cases h
    | given => cases h
  · rintro rfl
    cases v with
    | unset => exact .unset
    | notUnicode => exact .notUnicode
    | text => cases h

/-- No variable gives a time of zero. -/
theorem GivesTime.ne_zero (h : v.GivesTime time) : time ≠ some 0 := by
  cases h with
  | given hpos => exact fun hzero => hpos (Option.some.inj hzero)
  | _ => nofun

end Variable

namespace Settings

variable {read : String → Except FileError String} {env : Environment}
variable {s : Settings} {o : Override} {error : SettingsError}

/-- The variables are enough for settings if they give a path and a time. -/
theorem ofEnvironment_eq_ok_iff :
    ofEnvironment env = .ok s
      ↔ env.catalog.GivesPath s.catalogPath ∧ env.cacheTtl.GivesTime s.cacheTtl := by
  obtain ⟨path, time⟩ := s
  rw [Variable.givesPath_iff]
  cases htext : env.cacheTtl.text? with
  | none => simp [ofEnvironment, htext, Variable.givesTime_of_text?_eq_none htext, eq_comm]
  | some value =>
      rw [Variable.text?_eq_some_iff.1 htext, Variable.givesTime_text_iff]
      cases hnumber : Text.decimalWord? (Text.trim value.toList) with
      | none => simp [ofEnvironment, htext, hnumber]
      | some number => simp [ofEnvironment, htext, hnumber, eq_comm]

/-- The variables are not enough exactly if the time is a text that spells no number. -/
theorem ofEnvironment_eq_error_iff :
    ofEnvironment env = .error error
      ↔ ∃ value, error = .badTtl value ∧ env.cacheTtl = .text value ∧ Unspelled value := by
  simp only [← Variable.text?_eq_some_iff, Unspelled, ← Text.decimalWord?_eq_none_iff]
  cases htext : env.cacheTtl.text? with
  | none => simp [ofEnvironment, htext]
  | some value =>
      cases hnumber : Text.decimalWord? (Text.trim value.toList) with
      | none => simp [ofEnvironment, htext, hnumber, eq_comm]
      | some number => simp [ofEnvironment, htext, hnumber]

-- ============================================================== the file

/-- What is given by the file that the environment names, if it names one. -/
inductive Overridden (read : String → Except FileError String) (env : Environment) :
    Override → Prop where
  | nothing (h : ∀ file, env.override ≠ .text file) : Overridden read env ⟨none, none⟩
  | file {file content : String} {o : Override} (hfile : env.override = .text file)
      (hread : read file = .ok content) (hgives : Override.ofYaml content = .ok o) :
      Overridden read env o

/-- Why nothing can be made of the file that the environment names. -/
inductive Unusable (read : String → Except FileError String) (env : Environment) :
    SettingsError → Prop where
  | unread {file : String} {error : FileError} (hfile : env.override = .text file)
      (hread : read file = .error error) : Unusable read env (.overrideUnread file error)
  | unparsed {file content : String} {fault : Yaml.Fault} (hfile : env.override = .text file)
      (hread : read file = .ok content) (hfault : Override.ofYaml content = .error fault) :
      Unusable read env (.overrideUnparsed fault)

/-- What the file gives, or why nothing can be made of it. -/
def overrideFrom (read : String → Except FileError String) (env : Environment) :
    Except SettingsError Override :=
  match env.override.text? with
  | none => .ok ⟨none, none⟩
  | some file =>
    match read file with
    | .error error => .error (.overrideUnread file error)
    | .ok content => (Override.ofYaml content).mapError .overrideUnparsed

theorem Overridden.overrideFrom_eq (h : Overridden read env o) :
    overrideFrom read env = .ok o := by
  cases h with
  | nothing h =>
      have htext : env.override.text? = none :=
        Option.eq_none_iff_forall_ne_some.2 fun file => Variable.text?_eq_some_iff.not.2 (h file)
      rw [overrideFrom, htext]
  | file hfile hread hgives =>
      simp only [overrideFrom, hfile, Variable.text?, hread, hgives]
      rfl

theorem Unusable.overrideFrom_eq (h : Unusable read env error) :
    overrideFrom read env = .error error := by
  cases h with
  | unread hfile hread => simp only [overrideFrom, hfile, Variable.text?, hread]
  | unparsed hfile hread hfault =>
      simp only [overrideFrom, hfile, Variable.text?, hread, hfault]
      rfl

/-- The file gives something, or nothing can be made of it. -/
theorem overridden_or_unusable (read : String → Except FileError String) (env : Environment) :
    (∃ o, Overridden read env o) ∨ ∃ error, Unusable read env error := by
  cases htext : env.override.text? with
  | none =>
      refine .inl ⟨_, .nothing fun file hfile => ?_⟩
      rw [hfile] at htext
      cases htext
  | some file =>
      have hfile := Variable.text?_eq_some_iff.1 htext
      cases hread : read file with
      | error error => exact .inr ⟨_, .unread hfile hread⟩
      | ok content =>
          cases hgives : Override.ofYaml content with
          | error fault => exact .inr ⟨_, .unparsed hfile hread hgives⟩
          | ok o => exact .inl ⟨o, .file hfile hread hgives⟩

/-- What is made of the file is all that it gives, as it cannot be unusable as well. -/
theorem overrideFrom_eq_ok_iff : overrideFrom read env = .ok o ↔ Overridden read env o := by
  refine ⟨fun h => ?_, Overridden.overrideFrom_eq⟩
  rcases overridden_or_unusable read env with ⟨o', h'⟩ | ⟨error, h'⟩
  · cases h.symm.trans h'.overrideFrom_eq
    exact h'
  · cases h.symm.trans h'.overrideFrom_eq

/-- It fails for no other reason, as a file that is unusable gives nothing. -/
theorem overrideFrom_eq_error_iff :
    overrideFrom read env = .error error ↔ Unusable read env error := by
  refine ⟨fun h => ?_, Unusable.overrideFrom_eq⟩
  rcases overridden_or_unusable read env with ⟨o, h'⟩ | ⟨error', h'⟩
  · cases h.symm.trans h'.overrideFrom_eq
  · cases h.symm.trans h'.overrideFrom_eq
    exact h'

-- ============================================================== in stages

/-- Settings are resolved in two stages, and the first that fails is the failure. -/
theorem resolve_eq :
    Id.run (resolve read env)
      = (ofEnvironment env).bind fun s => (overrideFrom read env).map s.withOverride := by
  rw [resolve, overrideFrom]
  cases ofEnvironment env with
  | error error => rfl
  | ok s =>
      cases env.override.text? with
      | none => rfl
      | some file =>
          dsimp only [Except.bind]
          show (match read file with | .error error => _ | .ok content => _) = _
          cases read file with
          | error error => rfl
          | ok content =>
              dsimp only
              cases Override.ofYaml content with
              | error fault => rfl
              | ok o => rfl

/-- There are settings exactly if both stages succeed, and then those of the second on top
of the first. -/
theorem resolve_eq_ok_iff :
    Id.run (resolve read env) = .ok s
      ↔ ∃ base o, ofEnvironment env = .ok base ∧ Overridden read env o
        ∧ s = base.withOverride o := by
  rw [resolve_eq]
  simp only [← overrideFrom_eq_ok_iff]
  cases ofEnvironment env with
  | error error => simp [Except.bind]
  | ok base =>
      cases overrideFrom read env with
      | error error => simp [Except.bind, Except.map]
      | ok o => simp [Except.bind, Except.map, eq_comm]

/-- Resolving fails as the variables do, or if they are enough, as the file does. -/
theorem resolve_eq_error_iff :
    Id.run (resolve read env) = .error error
      ↔ ofEnvironment env = .error error
        ∨ (∃ base, ofEnvironment env = .ok base) ∧ Unusable read env error := by
  rw [resolve_eq]
  simp only [← overrideFrom_eq_error_iff]
  cases ofEnvironment env with
  | error error => simp [Except.bind]
  | ok base =>
      cases overrideFrom read env with
      | error error => simp [Except.bind, Except.map]
      | ok o => simp [Except.bind, Except.map]

/-- The variables are enough unless the time is a text that spells no number. -/
theorem exists_ofEnvironment_eq_ok_iff :
    (∃ base, ofEnvironment env = .ok base)
      ↔ ∀ value, env.cacheTtl = .text value → ¬ Unspelled value := by
  constructor
  · rintro ⟨base, hbase⟩ value hvalue hunspelled
    cases hbase.symm.trans (ofEnvironment_eq_error_iff.2 ⟨value, rfl, hvalue, hunspelled⟩)
  · intro hspelled
    cases henv : ofEnvironment env with
    | ok base => exact ⟨base, rfl⟩
    | error error =>
        obtain ⟨value, -, hvalue, hunspelled⟩ := ofEnvironment_eq_error_iff.1 henv
        exact absurd hunspelled (hspelled value hvalue)

-- ================================================================= zero

/-- The path of the override comes before that of the settings. -/
@[simp] theorem catalogPath_withOverride :
    (s.withOverride o).catalogPath = o.catalogPath.or s.catalogPath := by
  obtain ⟨path, time⟩ := o
  cases path <;> rfl

/-- So does its time, and zero counts as given. -/
@[simp] theorem cacheTtl_withOverride :
    (s.withOverride o).cacheTtl = o.cacheTtl.elim s.cacheTtl ttlOf := by
  obtain ⟨path, time⟩ := o
  cases time <;> rfl

theorem eq_withOverride_iff {left : Settings} :
    left = s.withOverride o ↔ left.catalogPath = o.catalogPath.or s.catalogPath
      ∧ left.cacheTtl = o.cacheTtl.elim s.cacheTtl ttlOf := by
  rw [← catalogPath_withOverride, ← cacheTtl_withOverride]
  cases left
  cases s.withOverride o
  simp

theorem ttlOf_ne_zero {number : UInt64} : ttlOf number ≠ some 0 := by
  by_cases hzero : number = 0
  · simp [ttlOf, hzero]
  · simp [ttlOf, hzero]

/-- An override leaves no time of zero either. -/
theorem cacheTtl_withOverride_ne_zero (h : s.cacheTtl ≠ some 0) :
    (s.withOverride o).cacheTtl ≠ some 0 := by
  rw [cacheTtl_withOverride]
  cases o.cacheTtl with
  | none => exact h
  | some given => exact ttlOf_ne_zero

/-- There is one thing at most that the file gives. -/
theorem Overridden.unique {o' : Override} (h : Overridden read env o)
    (h' : Overridden read env o') : o = o' :=
  Except.ok.inj (h.overrideFrom_eq.symm.trans h'.overrideFrom_eq)

-- ============================================================ main result

/-- Resolving fails with the time exactly if that is a text which spells no number of 64
bits, whatever files there are; otherwise exactly if nothing can be made of the file that
the environment names; and otherwise it ends with the path and the time of the file, each
for itself, or with that of the environment where the file gives none. Zero takes a time
away, and no time of zero is left. -/
theorem resolve_by_sources (read : String → Except FileError String) (env : Environment) :
    let outcome := Id.run (resolve read env)
    (∀ value, outcome = .error (.badTtl value) ↔ env.cacheTtl = .text value ∧ Unspelled value)
      ∧ (∀ error, outcome = .error error
        ↔ (∃ value, error = .badTtl value ∧ env.cacheTtl = .text value ∧ Unspelled value)
          ∨ (∀ value, env.cacheTtl = .text value → ¬ Unspelled value) ∧ Unusable read env error)
      ∧ (∀ s, outcome = .ok s ↔ ∃ path time o, env.catalog.GivesPath path
        ∧ env.cacheTtl.GivesTime time ∧ Overridden read env o
        ∧ s.catalogPath = o.catalogPath.or path
        ∧ s.cacheTtl = o.cacheTtl.elim time fun given => if given = 0 then none else some given)
      ∧ (∀ o s, Overridden read env o → o.cacheTtl = some 0 → outcome = .ok s → s.cacheTtl = none)
      ∧ ∀ path, outcome ≠ .ok { catalogPath := path, cacheTtl := some 0 } := by
  intro outcome
  refine ⟨?_, ?_, ?_, ?_, ?_⟩
  · intro value
    rw [resolve_eq_error_iff, ofEnvironment_eq_error_iff]
    constructor
    · rintro (⟨value', hvalue, h⟩ | ⟨-, hunusable⟩)
      · cases hvalue
        exact h
      · cases hunusable
    · exact fun h => .inl ⟨value, rfl, h⟩
  · intro error
    rw [resolve_eq_error_iff, ofEnvironment_eq_error_iff, exists_ofEnvironment_eq_ok_iff]
  · intro s
    rw [resolve_eq_ok_iff]
    simp only [ofEnvironment_eq_ok_iff, eq_withOverride_iff]
    constructor
    · intro ⟨base, o, ⟨hpath, htime⟩, ho, hs⟩
      exact ⟨_, _, o, hpath, htime, ho, hs⟩
    · intro ⟨path, time, o, hpath, htime, ho, hs⟩
      exact ⟨⟨path, time⟩, o, ⟨hpath, htime⟩, ho, hs⟩
  · intro o s ho hzero hs
    obtain ⟨base, o', -, ho', rfl⟩ := resolve_eq_ok_iff.1 hs
    rw [ho'.unique ho, cacheTtl_withOverride, hzero]
    rfl
  · intro path hs
    obtain ⟨base, o, hbase, -, hs⟩ := resolve_eq_ok_iff.1 hs
    have htime : base.cacheTtl ≠ some 0 := (ofEnvironment_eq_ok_iff.1 hbase).2.ne_zero
    exact cacheTtl_withOverride_ne_zero htime (congrArg cacheTtl hs).symm

end Settings

end ProjectAccess
