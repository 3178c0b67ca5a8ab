/-
Settings: which catalog applies, and for how long memberships are cached.

Settings come from three variables of the environment. One names a catalog file, one
gives a time in milliseconds, and one names a file with settings that override those
of the environment, each for itself. A variable that is not text counts as unset, a
blank catalog path as none, and a time of zero as none.
-/
import ProjectAccess.Catalog.Builtin
import ProjectAccess.Catalog.File
import ProjectAccess.Journal
import ProjectAccess.Settings.Files

namespace ProjectAccess

open Yaml (Decoder)

-- =========================================================== environment

/-- A variable of the environment. -/
inductive Variable where
  | unset
  /-- The value is not encoded as Unicode. -/
  | notUnicode
  | text (value : String)
  deriving DecidableEq, Repr

/-- The text of a variable; other values count as none. -/
def Variable.text? : Variable → Option String
  | .text value => some value
  | _ => none

/-- The variables that settings come from. -/
structure Environment where
  catalog : Variable
  cacheTtl : Variable
  override : Variable
  deriving DecidableEq, Repr

namespace Environment

/-- Names a catalog file. -/
def catalogName : String := "TRELLIS_AUTHZ_CATALOG"

/-- Gives the time for which memberships are cached. -/
def cacheTtlName : String := "TRELLIS_AUTHZ_MEMBERSHIP_CACHE_TTL_MS"

/-- Names a file with settings. -/
def overrideName : String := "TRELLIS_AUTHZ_CONFIG"

end Environment

-- ================================================================= errors

/-- Why there are no settings, or not the catalog that they ask for. -/
inductive SettingsError where
  /-- The time in the environment is not a whole number of 64 bits. -/
  | badTtl (value : String)
  | overrideUnread (path : String) (error : FileError)
  | overrideUnparsed (fault : Yaml.Fault)
  | catalogUnread (path : String) (error : FileError)
  | catalogUnparsed (path : String) (fault : CatalogFault)
  deriving DecidableEq, Repr

/-- A link in the chain of causes of an error. -/
inductive Cause where
  | text (text : String)
  /-- A text is not the document that was asked for. -/
  | document (fault : Yaml.Fault)
  deriving DecidableEq, Repr

namespace SettingsError

/-- What was being done when the error came up. -/
def message : SettingsError → String
  | .badTtl _ => "parse " ++ Environment.cacheTtlName
  | .overrideUnread path _ => "read " ++ Environment.overrideName ++ ": " ++ path
  | .overrideUnparsed _ => "parse authz config yaml"
  | .catalogUnread path _ => "read permission catalog: " ++ path
  | .catalogUnparsed path _ => "parse permission catalog: " ++ path

/-- What made it fail. -/
def cause : SettingsError → Cause
  | .badTtl value =>
    .text (Failure.setting
      (Environment.cacheTtlName ++ " must be an integer, got " ++ Text.quoted value)).message
  | .overrideUnread _ error => .text error.message
  | .overrideUnparsed fault => .document fault
  | .catalogUnread _ error => .text error.message
  | .catalogUnparsed _ (.unreadable fault) => .document fault
  | .catalogUnparsed _ (.invalid problem) =>
    .text (Failure.invalidCatalog problem.detail).message

/-- The error and its cause. -/
def chain (e : SettingsError) : List Cause := [.text e.message, e.cause]

end SettingsError

-- =============================================================== settings

/-- Which catalog applies, and for how many milliseconds memberships are cached. -/
structure Settings where
  catalogPath : Option String := none
  cacheTtl : Option UInt64 := none
  deriving DecidableEq, Repr

/-- What a settings file gives. -/
structure Override where
  catalogPath : Option String
  cacheTtl : Option UInt64
  deriving DecidableEq, Repr

namespace Override

/-- Reads what a settings file gives; null is nothing. -/
def decode : Decoder Override := do
  let found ← Decoder.rootFields ["catalog_path", "membership_cache_ttl_ms"]
  let catalogPath ← Decoder.withDefault found "catalog_path" none (Decoder.nullable Decoder.text)
  let cacheTtl ←
    Decoder.withDefault found "membership_cache_ttl_ms" none (Decoder.nullable Decoder.word)
  pure { catalogPath, cacheTtl }

/-- What the text of a settings file gives. -/
def ofYaml (text : String) : Except Yaml.Fault Override :=
  (Yaml.Document.ofText text).bind decode.run

end Override

namespace Settings

/-- A time that counts: zero is none. -/
def ttlOf (milliseconds : UInt64) : Option UInt64 :=
  if milliseconds = 0 then none else some milliseconds

/-- The settings that the variables give by themselves. -/
def ofEnvironment (env : Environment) : Except SettingsError Settings :=
  let catalogPath := env.catalog.text?.filter (!Text.blank ·)
  match env.cacheTtl.text? with
  | none => .ok { catalogPath }
  | some value =>
    match Text.decimalWord? (Text.trim value.toList) with
    | none => .error (.badTtl value)
    | some milliseconds => .ok { catalogPath, cacheTtl := ttlOf milliseconds }

/-- The settings with those that a file gives in place of them. -/
def withOverride (s : Settings) (o : Override) : Settings :=
  { catalogPath := o.catalogPath <|> s.catalogPath
    cacheTtl := match o.cacheTtl with
      | some milliseconds => ttlOf milliseconds
      | none => s.cacheTtl }

/-- The settings that the variables give, with those of the file that one of them
names. -/
def resolve {m : Type → Type} [Monad m] (read : String → m (Except FileError String))
    (env : Environment) : m (Except SettingsError Settings) :=
  match ofEnvironment env, env.override.text? with
  | .error error, _ => pure (.error error)
  | .ok settings, none => pure (.ok settings)
  | .ok settings, some path => do
    match ← read path with
    | .error error => pure (.error (.overrideUnread path error))
    | .ok content =>
      match Override.ofYaml content with
      | .error fault => pure (.error (.overrideUnparsed fault))
      | .ok o => pure (.ok (settings.withOverride o))

/-- The catalog that the settings ask for, and what is noted when it comes from a
file. -/
def loadCatalog {m : Type → Type} [Monad m] (read : String → m (Except FileError String))
    (s : Settings) : m (Except SettingsError (Catalog × List Note)) :=
  match s.catalogPath with
  | none => pure (.ok (.builtin, []))
  | some path => do
    match ← read path with
    | .error error => pure (.error (.catalogUnread path error))
    | .ok content =>
      match Catalog.ofYaml content with
      | .error fault => pure (.error (.catalogUnparsed path fault))
      | .ok catalog => pure (.ok (catalog, [.report (.catalogLoaded path)]))

end Settings

end ProjectAccess
