/-
A catalog that is written as a file reads back as the same catalog.

The file is one line: a mapping from the names of tiers to sequences of entries, each a mapping
with an id and a label. The tiers come in any order, and those without entries may be left out
(`Tiers.node`). Whatever is in the texts, quotes and signs of the format included, the scanner,
the parser and the decoder give back the lists that were written, so that the outcome is that
of making a catalog from them (`Catalog.ofYaml_eq_ofTiers`). That any lists can be written so
is `Tiers.flow_written`.
-/
import ProjectAccess.Catalog.File
import ProjectAccess.Proofs.Yaml.Values
import ProjectAccess.Proofs.Yaml.Documents

namespace ProjectAccess

open Yaml (Decoder Document Flow Node)
open Yaml.Decoder (Fields Yields)

variable {d : Document}

-- =============================================================== entries

namespace CatalogEntry

/-- The fields of an entry. -/
def fields (e : CatalogEntry) : Fields := [("id", .quoted e.id), ("label", .quoted e.label)]

/-- The node of an entry. -/
def node (e : CatalogEntry) : Node := .mapping none e.fields.entries

/-- An entry is read from its node. -/
theorem yields_decode (e : CatalogEntry) : Yields (decode e.node) d e := by
  have honce : ∀ name ∈ ["id", "label"], (e.fields.map Prod.fst).count name ≤ 1 := by
    simp [fields]
  obtain ⟨found, hfields, hfound⟩ :=
    Decoder.exists_yields_fields none (Decoder.keyed_entries (d := d)) honce
  have hid : found.lookup "id" = some (.quoted e.id) := hfound "id" (by simp)
  have hlabel : found.lookup "label" = some (.quoted e.label) := hfound "label" (by simp)
  refine hfields.bind ?_
  refine (Decoder.yields_required hid Decoder.yields_text).bind ?_
  exact (Decoder.yields_required hlabel Decoder.yields_text).bind Decoder.yields_pure

/-- An entry can be written. -/
theorem flow_written (e : CatalogEntry) : Flow e.node e.node.written := by
  have hid : (Yaml.spell "id".toList).length + 2 ≤ Yaml.Layout.longestKey := by decide
  have hlabel : (Yaml.spell "label".toList).length + 2 ≤ Yaml.Layout.longestKey := by decide
  refine .mapping (Yaml.flowEntry_written hid (.scalar Yaml.spelling_spell) ?_)
  exact Yaml.flowEntry_written hlabel (.scalar Yaml.spelling_spell) .nil

end CatalogEntry

-- ================================================================ tiers

/-- Tiers have different names. -/
theorem Tier.name_injective : Function.Injective Tier.name := by
  intro tier tier' h
  have hname := ofName?_name tier
  rw [h, ofName?_name] at hname
  exact (Option.some.inj hname).symm

namespace Tiers

variable {t : Tiers} {order : List Tier}

/-- The node of the entries of a tier. -/
def tierNode (t : Tiers) (tier : Tier) : Node :=
  .sequence none ((t.entries tier).map CatalogEntry.node)

/-- The fields of tiers in an order. -/
def fields (t : Tiers) (order : List Tier) : Fields :=
  order.map fun tier => (tier.name, t.tierNode tier)

/-- The node of tiers in an order. -/
def node (t : Tiers) (order : List Tier) : Node := .mapping none (t.fields order).entries

/-- Of the fields the tiers of the order are found, each with its entries. -/
theorem lookup_fields {tier : Tier} :
    (t.fields order).lookup tier.name = if tier ∈ order then some (t.tierNode tier) else none := by
  induction order with
  | nil => rfl
  | cons first order ih =>
      unfold fields at ih ⊢
      rw [List.map_cons, List.lookup_cons]
      by_cases hfirst : tier = first
      · subst hfirst
        simp
      · have hname : (tier.name == first.name) = false :=
          beq_false_of_ne fun h => hfirst (Tier.name_injective h)
        simp only [hname, ih, List.mem_cons, hfirst, false_or]

/-- A tier that is left out has no entries, and none are read. -/
theorem yields_tier {found : Fields} {tier : Tier}
    (hfound : found.lookup tier.name = (t.fields order).lookup tier.name)
    (hleft : tier ∉ order → t.entries tier = []) :
    Yields (Decoder.withDefault found tier.name [] (Decoder.list CatalogEntry.decode)) d
      (t.entries tier) := by
  rw [lookup_fields] at hfound
  by_cases hmem : tier ∈ order
  · rw [if_pos hmem] at hfound
    exact Decoder.yields_withDefault hfound (Decoder.yields_list CatalogEntry.yields_decode)
  · rw [if_neg hmem] at hfound
    rw [hleft hmem]
    exact Decoder.yields_withDefault_of_none hfound

/-- The lists are read from their node. -/
theorem decode_of_node (horder : order.Nodup)
    (hleft : ∀ tier, tier ∉ order → t.entries tier = []) :
    decode.run ⟨some (t.node order)⟩ = .ok t := by
  have hnodup : ((t.fields order).map Prod.fst).Nodup := by
    unfold fields
    rw [List.map_map]
    exact horder.map Tier.name_injective
  have honce : ∀ name ∈ Tier.all.map Tier.name, ((t.fields order).map Prod.fst).count name ≤ 1 :=
    fun name _ => List.nodup_iff_count_le_one.1 hnodup name
  obtain ⟨found, hfields, hfound⟩ := Decoder.exists_yields_fields none
    (Decoder.keyed_entries (d := ⟨some (t.node order)⟩)) honce
  have htier (tier : Tier) : Yields
      (Decoder.withDefault found tier.name [] (Decoder.list CatalogEntry.decode))
      ⟨some (t.node order)⟩ (t.entries tier) :=
    yields_tier (hfound tier.name (List.mem_map_of_mem tier.mem_all)) (hleft tier)
  have hroot : Yields (Decoder.rootFields (Tier.all.map Tier.name)) ⟨some (t.node order)⟩ found :=
    hfields
  refine Yields.run ?_
  -- the decoder asks for the tiers in their own order, whatever that of the file is
  exact hroot.bind ((htier .anon).bind ((htier .user).bind ((htier .member).bind
    ((htier .owner).bind Decoder.yields_pure))))

/-- In every order of tiers the lists can be written. -/
theorem flow_written : Flow (t.node order) (t.node order).written := by
  have hname (tier : Tier) : (Yaml.spell tier.name.toList).length + 2 ≤ Yaml.Layout.longestKey := by
    cases tier <;> decide
  have hentries (tier : Tier) : Flow (t.tierNode tier) (t.tierNode tier).written :=
    .sequence (Yaml.flowItems_written CatalogEntry.flow_written)
  have hnode : t.node order
      = .mapping none (order.map fun tier => (.quoted tier.name, t.tierNode tier)) :=
    congrArg _ List.map_map
  rw [hnode]
  exact .mapping (Yaml.flowEntries_written hname hentries)

end Tiers

namespace Catalog

/-- Lists can be written as a file with the tiers in any order, of which only those without
entries may be missing; and every such file is read as the catalog that the lists make, or
has their problem. -/
theorem ofYaml_eq_ofTiers {t : Tiers} {order : List Tier} (horder : order.Nodup)
    (hleft : ∀ tier, tier ∉ order → t.entries tier = []) :
    (∃ text : String, Flow (t.node order) text.toList)
      ∧ ∀ text : String, Flow (t.node order) text.toList →
        ofYaml text = (ofTiers t).mapError .invalid := by
  constructor
  · exact ⟨.ofList (t.node order).written, by
      rw [String.toList_ofList]
      exact Tiers.flow_written⟩
  · intro text htext
    have hdocument : Document.ofText text = .ok ⟨some (t.node order)⟩ :=
      Document.ofText_of_flow htext
    unfold ofYaml
    simp only [hdocument, Tiers.decode_of_node horder hleft]
    cases ofTiers t <;> rfl

/-- Two tiers of four, not in their order, with signs of the format in the texts. -/
theorem ofYaml_owner_before_user :
    ofYaml ("\x7b\"owner\": [\x7b\"id\": \"[\\U000000e9]\", \"label\": \"\"\x7d], "
        ++ "\"user\": [\x7b\"id\": \"a: \\U00000022b\\U00000022 #\", \"label\": \"null\"\x7d]\x7d")
      = .ok ⟨{ user := [⟨"a: \"b\" #", "null"⟩], owner := [⟨"[é]", ""⟩] }, by decide⟩ := by
  have hleft : ∀ tier, tier ∉ [.owner, .user] → Tiers.entries
      { user := [⟨"a: \"b\" #", "null"⟩], owner := [⟨"[é]", ""⟩] } tier = [] := by
    intro tier hmissing
    cases tier <;> first | rfl | exact absurd hmissing (by decide)
  refine ((ofYaml_eq_ofTiers (by decide) hleft).2 _ ?_).trans rfl
  exact Eq.subst (motive := Flow _) (by decide) Tiers.flow_written

end Catalog

end ProjectAccess
