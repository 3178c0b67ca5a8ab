/-
How nodes are written on one line.

Scalars stand between double quotes, sequences between brackets and mappings between braces;
a comma and a blank divide items, and a colon and a blank follow a key. `Flow` is this as a
relation between nodes and texts, so that it leaves open in which case the digits of escapes
are. Keys are scalars and not longer than a key may be. `Node.flowTokens` are the words and
signs of a node that is written so; the mark of a key is one of them and has no sign of its
own in the text.
-/
import ProjectAccess.Proofs.Yaml.Quoted
import ProjectAccess.Yaml.Structure

namespace ProjectAccess.Yaml

-- ================================================================ texts

/-- A scalar that stands between double quotes. -/
abbrev Node.quoted (text : String) : Node := .scalar none ⟨text, .doubleQuoted, none⟩

/-- What stands in front of an item, given whether it is the first. -/
def divider (first : Bool) : List Char := if first then [] else [',', ' ']

mutual

/-- How a node is written on one line. -/
inductive Flow : Node → List Char → Prop
  | scalar {text : String} {cs : List Char} (h : Spelling text.toList cs) :
      Flow (.quoted text) ('\x22' :: (cs ++ ['\x22']))
  | sequence {items : List Node} {cs : List Char} (h : FlowItems true items cs) :
      Flow (.sequence none items) ('[' :: (cs ++ [']']))
  | mapping {entries : List (Node × Node)} {cs : List Char} (h : FlowEntries true entries cs) :
      Flow (.mapping none entries) ('\x7b' :: (cs ++ ['\x7d']))

/-- How items are written, the first of a sequence or later ones. -/
inductive FlowItems : Bool → List Node → List Char → Prop
  | nil {first : Bool} : FlowItems first [] []
  | cons {first : Bool} {item : Node} {items : List Node} {cs ds : List Char}
      (hitem : Flow item cs) (hitems : FlowItems false items ds) :
      FlowItems first (item :: items) (divider first ++ (cs ++ ds))

/-- How entries are written, the first of a mapping or later ones. -/
inductive FlowEntries : Bool → List (Node × Node) → List Char → Prop
  | nil {first : Bool} : FlowEntries first [] []
  | cons {first : Bool} {key : String} {value : Node} {entries : List (Node × Node)}
      {ks cs ds : List Char} (hkey : Spelling key.toList ks)
      (hshort : ks.length + 2 ≤ Layout.longestKey)
      (hvalue : Flow value cs) (hentries : FlowEntries false entries ds) :
      FlowEntries first ((.quoted key, value) :: entries)
        (divider first ++ ('\x22' :: (ks ++ '\x22' :: ':' :: ' ' :: (cs ++ ds))))

end

namespace Node

mutual

/-- A node as it is written with lower-case digits; keys should be scalars. -/
def written : Node → List Char
  | scalar _ s => '\x22' :: (spell s.text.toList ++ ['\x22'])
  | sequence _ items => '[' :: (writtenItems true items ++ [']'])
  | mapping _ entries => '\x7b' :: (writtenEntries true entries ++ ['\x7d'])
  | reference _ => []

/-- Items, the first of a sequence or later ones. -/
def writtenItems (first : Bool) : List Node → List Char
  | [] => []
  | item :: items => divider first ++ (written item ++ writtenItems false items)

/-- Entries, the first of a mapping or later ones. -/
def writtenEntries (first : Bool) : List (Node × Node) → List Char
  | [] => []
  | (key, value) :: entries =>
    divider first ++ (written key ++ ':' :: ' ' :: (written value ++ writtenEntries false entries))

end

end Node

section Writing

variable {α : Type} {first : Bool} {f : α → Node} {xs : List α}

/-- Items that can be written make up a sequence that can. -/
theorem flowItems_written (h : ∀ x, Flow (f x) (f x).written) :
    FlowItems first (xs.map f) (Node.writtenItems first (xs.map f)) := by
  induction xs generalizing first with
  | nil => exact .nil
  | cons x xs ih => exact .cons (h x) ih

/-- An entry can be written if its key is short enough to be one, and its value can be
written. -/
theorem flowEntry_written {key : String} {value : Node} {entries : List (Node × Node)}
    (hkey : (spell key.toList).length + 2 ≤ Layout.longestKey) (hvalue : Flow value value.written)
    (h : FlowEntries false entries (Node.writtenEntries false entries)) :
    FlowEntries first ((.quoted key, value) :: entries)
      (Node.writtenEntries first ((.quoted key, value) :: entries)) := by
  have hentries := @FlowEntries.cons first key value entries _ _ _ spelling_spell hkey hvalue h
  simpa [Node.writtenEntries, Node.written] using hentries

/-- Entries under short keys make up a mapping that can be written if their values can. -/
theorem flowEntries_written {key : α → String}
    (hkey : ∀ x, (spell (key x).toList).length + 2 ≤ Layout.longestKey)
    (h : ∀ x, Flow (f x) (f x).written) :
    FlowEntries first (xs.map fun x => (.quoted (key x), f x))
      (Node.writtenEntries first (xs.map fun x => (.quoted (key x), f x))) := by
  induction xs generalizing first with
  | nil => exact .nil
  | cons x xs ih => exact flowEntry_written (hkey x) (h x) ih

end Writing

theorem isAsciiGraphic_of_mem_divider {first : Bool} :
    ∀ c ∈ divider first, isAsciiGraphic c := by
  cases first <;> simp [divider, isAsciiGraphic]

theorem isAsciiGraphic_of_mem_enclosed {opening closing : Char} {cs : List Char}
    (hopening : isAsciiGraphic opening) (hclosing : isAsciiGraphic closing)
    (h : ∀ c ∈ cs, isAsciiGraphic c) : ∀ c ∈ opening :: (cs ++ [closing]), isAsciiGraphic c :=
  List.forall_mem_cons.2
    ⟨hopening, List.forall_mem_append.2 ⟨h, List.forall_mem_singleton.2 hclosing⟩⟩

mutual

/-- What is written on one line is printable. -/
theorem Flow.isAsciiGraphic {node : Node} {cs : List Char} :
    Flow node cs → ∀ c ∈ cs, isAsciiGraphic c
  | .scalar h => isAsciiGraphic_of_mem_enclosed rfl rfl h.isAsciiGraphic
  | .sequence h => isAsciiGraphic_of_mem_enclosed rfl rfl h.isAsciiGraphic
  | .mapping h => isAsciiGraphic_of_mem_enclosed rfl rfl h.isAsciiGraphic

theorem FlowItems.isAsciiGraphic {first : Bool} {items : List Node} {cs : List Char} :
    FlowItems first items cs → ∀ c ∈ cs, isAsciiGraphic c
  | .nil => nofun
  | .cons hitem hitems =>
      List.forall_mem_append.2 ⟨isAsciiGraphic_of_mem_divider,
        List.forall_mem_append.2 ⟨hitem.isAsciiGraphic, hitems.isAsciiGraphic⟩⟩

theorem FlowEntries.isAsciiGraphic {first : Bool} {entries : List (Node × Node)}
    {cs : List Char} : FlowEntries first entries cs → ∀ c ∈ cs, isAsciiGraphic c
  | .nil => nofun
  | .cons hkey _ hvalue hentries => by
      have hrest := List.forall_mem_append.2 ⟨hvalue.isAsciiGraphic, hentries.isAsciiGraphic⟩
      have hsigns : ∀ c ∈ ['\x22', ':', ' '], isAsciiGraphic c := by simp [isAsciiGraphic]
      have hafter := List.forall_mem_append.2 ⟨hsigns, hrest⟩
      refine List.forall_mem_append.2 ⟨isAsciiGraphic_of_mem_divider, ?_⟩
      exact List.forall_mem_cons.2 ⟨rfl, List.forall_mem_append.2 ⟨hkey.isAsciiGraphic, hafter⟩⟩

end

/-- Where all characters are graphic there are no breaks to unify. -/
theorem unifyBreaks_of_isAsciiGraphic {cs : List Char} (h : ∀ c ∈ cs, isAsciiGraphic c) :
    unifyBreaks cs = cs := by
  induction cs with
  | nil => rfl
  | cons c cs ih =>
      obtain ⟨hc, hcs⟩ := List.forall_mem_cons.1 h
      have hreturn : c ≠ '\r' := ne_of_isAsciiGraphic hc rfl
      have hnextLine : c ≠ '\u0085' := ne_of_isAsciiGraphic hc rfl
      rw [unifyBreaks, ih hcs, if_neg (not_or_intro hreturn hnextLine)]
      intro ds hds _
      exact hreturn hds

/-- A printable text is read character by character. -/
theorem characters_of_isAsciiGraphic {text : String} (h : ∀ c ∈ text.toList, isAsciiGraphic c) :
    characters text = .ok text.toList := by
  have hallowed : text.toList.all isAllowed := by
    refine List.all_eq_true.2 fun c hc => ?_
    obtain ⟨hlow, hhigh⟩ := isAsciiGraphic_iff.1 (h c hc)
    simp [isAllowed, hlow, hhigh]
  unfold characters
  rw [if_pos hallowed, unifyBreaks_of_isAsciiGraphic h]

-- =============================================================== tokens

/-- The token in front of an item, given whether it is the first. -/
def dividerTokens (first : Bool) : List Token := if first then [] else [.flowEntry]

namespace Node

mutual

/-- The tokens of a node in flow style. An alias has none here. -/
def flowTokens : Node → List Token
  | scalar _ s => [.scalar s.text s.style]
  | sequence _ items => .flowSequenceStart :: (itemTokens true items ++ [.flowSequenceEnd])
  | mapping _ entries => .flowMappingStart :: (entryTokens true entries ++ [.flowMappingEnd])
  | reference _ => []

/-- The tokens of items. -/
def itemTokens (first : Bool) : List Node → List Token
  | [] => []
  | item :: items => dividerTokens first ++ (flowTokens item ++ itemTokens false items)

/-- The tokens of entries. -/
def entryTokens (first : Bool) : List (Node × Node) → List Token
  | [] => []
  | (key, value) :: entries =>
    dividerTokens first
      ++ (.key :: (flowTokens key
        ++ .value :: (flowTokens value ++ entryTokens false entries)))

end

end Node

end ProjectAccess.Yaml
