/-
Which catalog path is left, and what becomes of a blank one.

A blank path in the environment is as none, and the built-in catalog applies. A settings
file is taken at its word: a path that it gives is looked for as it stands, blank or not.
So blank paths are left by settings files and by nothing else (`blank_path_iff_given`),
and where one is left the built-in catalog does not apply.
-/
import ProjectAccess.Proofs.Settings.Resolution

namespace ProjectAccess

namespace Settings

/-- A path is given, and there is nothing in it but white space. -/
def BlankPath (path : Option String) : Prop := ∃ p, path = some p ∧ Text.trim p.toList = []

variable {read : String → Except FileError String} {env : Environment} {s : Settings}

theorem not_blankPath_of_givesPath {path : Option String} {v : Variable} (h : v.GivesPath path) :
    ¬ BlankPath path := by
  rintro ⟨p, rfl, hblank⟩
  cases h with
  | given hfilled => exact hfilled hblank

/-- An override on top of a path that is not blank leaves a blank one only if it is its own. -/
theorem blankPath_withOverride_iff {o : Override} (h : ¬ BlankPath s.catalogPath) :
    BlankPath (s.withOverride o).catalogPath ↔ BlankPath o.catalogPath := by
  rw [catalogPath_withOverride]
  cases hgiven : o.catalogPath with
  | none =>
      have hnone : ¬ BlankPath none := by simp [BlankPath]
      simp [h, hnone]
  | some given => simp

-- =============================================================== loading

theorem loadCatalog_of_none (h : s.catalogPath = none) :
    Id.run (loadCatalog read s) = .ok (.builtin, []) := by
  rw [loadCatalog, h]
  rfl

theorem loadCatalog_of_some {path : String} (h : s.catalogPath = some path) :
    Id.run (loadCatalog read s)
      = match read path with
        | .error error => .error (.catalogUnread path error)
        | .ok content =>
          match Catalog.ofYaml content with
          | .error fault => .error (.catalogUnparsed path fault)
          | .ok catalog => .ok (catalog, [.report (.catalogLoaded path)]) := by
  rw [loadCatalog, h]
  rfl

/-- The built-in catalog is the only one of which nothing is noted. -/
theorem loadCatalog_eq_builtin_iff :
    Id.run (loadCatalog read s) = .ok (.builtin, []) ↔ s.catalogPath = none := by
  refine ⟨fun h => ?_, loadCatalog_of_none⟩
  cases hpath : s.catalogPath with
  | none => rfl
  | some path =>
      rw [loadCatalog_of_some hpath] at h
      split at h
      · cases h
      · split at h
        · cases h
        · cases h

-- =========================================================== main result

/-- The path that is left is blank exactly if the file gives a blank one. The built-in
catalog applies exactly if neither source gives a path, a blank one of the environment
being none; a path that is left, blank or not, is looked for, and that there is no file
to be read there is the failure. -/
theorem blank_path_iff_given (read : String → Except FileError String) (env : Environment)
    (s : Settings) (h : Id.run (resolve read env) = .ok s) :
    (BlankPath s.catalogPath ↔ ∃ o, Overridden read env o ∧ BlankPath o.catalogPath)
      ∧ (Id.run (loadCatalog read s) = .ok (.builtin, [])
        ↔ env.catalog.GivesPath none ∧ ∃ o, Overridden read env o ∧ o.catalogPath = none)
      ∧ ∀ path error, s.catalogPath = some path → read path = .error error →
        Id.run (loadCatalog read s) = .error (.catalogUnread path error) := by
  obtain ⟨base, o, hbase, ho, rfl⟩ := resolve_eq_ok_iff.1 h
  have hpath : env.catalog.GivesPath base.catalogPath := (ofEnvironment_eq_ok_iff.1 hbase).1
  refine ⟨?_, ?_, ?_⟩
  · rw [blankPath_withOverride_iff (not_blankPath_of_givesPath hpath)]
    constructor
    · intro hblank
      exact ⟨o, ho, hblank⟩
    · intro ⟨o', ho', hblank⟩
      rwa [ho.unique ho']
  · rw [loadCatalog_eq_builtin_iff, catalogPath_withOverride, Option.or_eq_none_iff]
    constructor
    · intro ⟨hgiven, hnone⟩
      rw [hnone] at hpath
      exact ⟨hpath, o, ho, hgiven⟩
    · intro ⟨hnone, o', ho', hgiven⟩
      rw [ho.unique ho']
      refine ⟨hgiven, ?_⟩
      rw [Variable.givesPath_iff.1 hpath, ← Variable.givesPath_iff.1 hnone]
  · intro path error hsome hread
    rw [loadCatalog_of_some hsome, hread]

/-- A directory with a settings file. -/
def withSettings (content : String) : WorkingDirectory :=
  ⟨[("settings.yaml", .file (some content))]⟩

/-- An environment that names the settings file, and has a blank path itself. -/
def pointing : Environment :=
  { catalog := .text " ", cacheTtl := .unset, override := .text "settings.yaml" }

theorem resolve_pointing {content : String} {o : Override}
    (hread : (withSettings content).read "settings.yaml" = .ok content)
    (hgives : (Override.ofYaml content).toOption = some o) :
    Id.run (resolve (withSettings content).read pointing)
      = .ok ({ catalogPath := none, cacheTtl := none : Settings }.withOverride o) := by
  refine resolve_eq_ok_iff.2 ⟨_, o, ?_, .file rfl hread ?_, rfl⟩
  · exact ofEnvironment_eq_ok_iff.2 ⟨.blank rfl, .unset⟩
  · cases hyaml : Override.ofYaml content with
    | error fault =>
        rw [hyaml] at hgives
        cases hgives
    | ok o' =>
        rw [hyaml] at hgives
        cases hgives
        rfl

/-- A path of two blanks stays and is looked for. -/
theorem blanks_looked_for :
    let read := (withSettings "catalog_path: '  '").read
    let s : Settings := { catalogPath := some "  " }
    Id.run (resolve read pointing) = .ok s ∧ BlankPath s.catalogPath
      ∧ Id.run (loadCatalog read s) = .error (.catalogUnread "  " .notFound) := by
  intro read s
  have hs : Id.run (resolve read pointing) = .ok s :=
    resolve_pointing rfl (o := ⟨some "  ", none⟩) (by decide +kernel)
  obtain ⟨-, -, hlooked⟩ := blank_path_iff_given read pointing s hs
  exact ⟨hs, ⟨"  ", rfl, rfl⟩, hlooked "  " .notFound rfl rfl⟩

/-- So does the empty path, with which there is no catalog at all. -/
theorem empty_path_left :
    let read := (withSettings "catalog_path: ''").read
    let s : Settings := { catalogPath := some "" }
    Id.run (resolve read pointing) = .ok s ∧ Text.trim "".toList = []
      ∧ Id.run (loadCatalog read s) = .error (.catalogUnread "" .notFound) := by
  intro read s
  have hs : Id.run (resolve read pointing) = .ok s :=
    resolve_pointing rfl (o := ⟨some "", none⟩) (by decide +kernel)
  refine ⟨hs, rfl, ?_⟩
  rw [loadCatalog_of_some rfl]
  rfl

end Settings

end ProjectAccess
