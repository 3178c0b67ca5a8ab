/-
Catalogs written in YAML.

A catalog file is a mapping with a list of entries under the name of each tier, of
which any may be left out; an entry is a mapping with an `id` and a `label`.
Anything else that a mapping holds is ignored.
-/
import ProjectAccess.Catalog.Basic
import ProjectAccess.Yaml.Decode

namespace ProjectAccess

open Yaml (Decoder)

/-- Why a text is no catalog. -/
inductive CatalogFault where
  /-- It does not hold lists of entries. -/
  | unreadable (fault : Yaml.Fault)
  /-- The lists make no catalog. -/
  | invalid (problem : CatalogProblem)
  deriving DecidableEq, Repr

namespace CatalogEntry

/-- Reads an entry. -/
def decode (node : Yaml.Node) : Decoder CatalogEntry := do
  let found ← Decoder.fields ["id", "label"] node
  let id ← Decoder.required found "id" Decoder.text
  let label ← Decoder.required found "label" Decoder.text
  pure ⟨id, label⟩

end CatalogEntry

namespace Tiers

/-- Reads the entries of each tier. -/
def decode : Decoder Tiers := do
  let found ← Decoder.rootFields (Tier.all.map Tier.name)
  let tier (t : Tier) := Decoder.withDefault found t.name [] (Decoder.list CatalogEntry.decode)
  let anon ← tier .anon
  let user ← tier .user
  let member ← tier .member
  let owner ← tier .owner
  pure { anon, user, member, owner }

end Tiers

/-- The catalog that a text holds. -/
def Catalog.ofYaml (text : String) : Except CatalogFault Catalog :=
  match Yaml.Document.ofText text with
  | .error fault => .error (.unreadable fault)
  | .ok document =>
    match Tiers.decode.run document with
    | .error fault => .error (.unreadable fault)
    | .ok tiers =>
      match Catalog.ofTiers tiers with
      | .error problem => .error (.invalid problem)
      | .ok catalog => .ok catalog

end ProjectAccess
