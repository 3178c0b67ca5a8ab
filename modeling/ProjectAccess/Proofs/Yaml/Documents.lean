/-
From the tokens of a node back to the node.

The parser is bounded in depth, and a node costs it at most four levels for each of its tokens
(`readNode_of_flow`); a document allows for that many. So a mapping that is written on one line
is the document that is read from it (`ofText_of_flow`).
-/
import ProjectAccess.Proofs.Yaml.Tokens

namespace ProjectAccess.Yaml

variable {handles : Handles} {slot : Slot} {fuel : ℕ} {rest : List Token}
  {anchors : List (List Char × ℕ)} {node : Node} {cs : List Char}

-- ================================================================ nodes

theorem readNode_scalar {text : String} {style : ScalarStyle} :
    readNode handles slot (fuel + 1) ⟨.scalar text style :: rest, anchors⟩
      = .ok (.scalar none ⟨text, style, none⟩, ⟨rest, anchors⟩) := by
  cases slot <;> rfl

theorem readNode_sequence :
    readNode handles slot (fuel + 1) ⟨.flowSequenceStart :: rest, anchors⟩
      = (readFlowItems handles true fuel ⟨rest, anchors⟩).map fun (items, p) =>
        (.sequence none items, p) := by
  cases slot <;> rfl

theorem readNode_mapping :
    readNode handles slot (fuel + 1) ⟨.flowMappingStart :: rest, anchors⟩
      = (readFlowEntries handles true fuel ⟨rest, anchors⟩).map fun (entries, p) =>
        (.mapping none entries, p) := by
  cases slot <;> rfl

/-- A node in flow style starts with the token. -/
def Token.startsFlow : Token → Bool
  | .scalar _ _ | .flowSequenceStart | .flowMappingStart => true
  | _ => false

/-- What is written of a node starts with a token that can start one. -/
theorem Flow.exists_tokens (h : Flow node cs) :
    ∃ token tokens, node.flowTokens = token :: tokens ∧ token.startsFlow := by
  cases h with
  | scalar => exact ⟨_, _, rfl, rfl⟩
  | sequence => exact ⟨_, _, rfl, rfl⟩
  | mapping => exact ⟨_, _, rfl, rfl⟩

theorem Flow.length_flowTokens_pos (h : Flow node cs) : 0 < node.flowTokens.length := by
  obtain ⟨token, tokens, htokens, -⟩ := h.exists_tokens
  rw [htokens]
  exact Nat.succ_pos _

theorem readOptional_of_startsFlow {token : Token} {signs : List Token}
    (h : token.startsFlow) (hsigns : ∀ sign ∈ signs, sign.startsFlow = false) :
    readOptional handles slot signs (fuel + 1) ⟨token :: rest, anchors⟩
      = readNode handles slot fuel ⟨token :: rest, anchors⟩ := by
  have hother : token ∉ signs := fun hmem => by
    rw [hsigns token hmem] at h
    cases h
  unfold readOptional
  simp [hother]

/-- An item of a sequence that is read, and those after it. -/
theorem readFlowItems_item {first : Bool} (h : Flow node cs)
    (hread : readNode handles .flow fuel ⟨node.flowTokens ++ rest, anchors⟩
      = .ok (node, ⟨rest, anchors⟩)) :
    readFlowItems handles first (fuel + 1)
        ⟨dividerTokens first ++ (node.flowTokens ++ rest), anchors⟩
      = (readFlowItems handles false fuel ⟨rest, anchors⟩).map fun (items, p) =>
        (node :: items, p) := by
  obtain ⟨token, tokens, htokens, hstarts⟩ := h.exists_tokens
  rw [htokens, List.cons_append] at hread ⊢
  have hitem : readFlowItems handles first (fuel + 1)
      ⟨dividerTokens first ++ token :: (tokens ++ rest), anchors⟩
      = readNode handles .flow fuel ⟨token :: (tokens ++ rest), anchors⟩ >>= fun item =>
        readFlowItems handles false fuel item.2 >>= fun items =>
          .ok (item.1 :: items.1, items.2) := by
    cases first <;> cases token <;> first | rfl | cases hstarts
  rw [hitem, hread]
  show (readFlowItems handles false fuel ⟨rest, anchors⟩ >>= _) = _
  cases readFlowItems handles false fuel ⟨rest, anchors⟩ <;> rfl

/-- An entry of a mapping with a value that is read, and those after it. One level is for the
entry, and two at most are in front of a node in it. -/
theorem readFlowEntries_entry {first : Bool} {key : String} (h : Flow node cs)
    (hread : readNode handles .flow fuel ⟨node.flowTokens ++ rest, anchors⟩
      = .ok (node, ⟨rest, anchors⟩)) :
    readFlowEntries handles first (fuel + 3) ⟨dividerTokens first
        ++ .key :: .scalar key .doubleQuoted :: .value :: (node.flowTokens ++ rest), anchors⟩
      = (readFlowEntries handles false (fuel + 2) ⟨rest, anchors⟩).map fun (entries, p) =>
        ((.quoted key, node) :: entries, p) := by
  obtain ⟨token, tokens, htokens, hstarts⟩ := h.exists_tokens
  rw [htokens, List.cons_append] at hread ⊢
  have hkey : readOptional handles .flow [.value, .flowEntry, .flowMappingEnd] (fuel + 2)
      ⟨.scalar key .doubleQuoted :: .value :: token :: (tokens ++ rest), anchors⟩
      = .ok (.quoted key, ⟨.value :: token :: (tokens ++ rest), anchors⟩) := by
    rw [readOptional_of_startsFlow rfl (by decide), readNode_scalar]
  have hvalue : readValue handles .flow [.flowEntry, .flowMappingEnd] (fuel + 2)
      ⟨.value :: token :: (tokens ++ rest), anchors⟩ = .ok (node, ⟨rest, anchors⟩) :=
    (readOptional_of_startsFlow hstarts (by decide)).trans hread
  have hentry : readFlowEntries handles first (fuel + 3) ⟨dividerTokens first
      ++ .key :: .scalar key .doubleQuoted :: .value :: token :: (tokens ++ rest), anchors⟩
      = readOptional handles .flow [.value, .flowEntry, .flowMappingEnd] (fuel + 2)
          ⟨.scalar key .doubleQuoted :: .value :: token :: (tokens ++ rest), anchors⟩ >>= fun key =>
        readValue handles .flow [.flowEntry, .flowMappingEnd] (fuel + 2) key.2 >>= fun value =>
          readFlowEntries handles false (fuel + 2) value.2 >>= fun entries =>
            .ok ((key.1, value.1) :: entries.1, entries.2) := by
    cases first <;> rfl
  rw [hentry, hkey]
  show (readValue handles .flow _ (fuel + 2) _ >>= _) = _
  rw [hvalue]
  show (readFlowEntries handles false (fuel + 2) ⟨rest, anchors⟩ >>= _) = _
  cases readFlowEntries handles false (fuel + 2) ⟨rest, anchors⟩ <;> rfl

mutual

/-- The tokens of a node are read as the node, whatever comes after them. -/
theorem readNode_of_flow {handles : Handles} {slot : Slot} {fuel : ℕ} {rest : List Token}
    {anchors : List (List Char × ℕ)} {node : Node} {cs : List Char} : Flow node cs →
    4 * node.flowTokens.length ≤ fuel →
    readNode handles slot fuel ⟨node.flowTokens ++ rest, anchors⟩ = .ok (node, ⟨rest, anchors⟩)
  | .scalar h, hfuel => by
      simp only [Node.flowTokens, List.length_singleton] at hfuel
      obtain ⟨fuel, rfl⟩ : ∃ n, fuel = n + 1 := ⟨fuel - 1, by omega⟩
      exact readNode_scalar
  | .sequence h, hfuel => by
      simp only [Node.flowTokens, List.length_cons, List.length_append, List.length_nil,
        List.cons_append, List.append_assoc, List.nil_append] at hfuel ⊢
      obtain ⟨fuel, rfl⟩ : ∃ n, fuel = n + 1 := ⟨fuel - 1, by omega⟩
      rw [readNode_sequence, readFlowItems_of_flow h (by omega)]
      rfl
  | .mapping h, hfuel => by
      simp only [Node.flowTokens, List.length_cons, List.length_append, List.length_nil,
        List.cons_append, List.append_assoc, List.nil_append] at hfuel ⊢
      obtain ⟨fuel, rfl⟩ : ∃ n, fuel = n + 1 := ⟨fuel - 1, by omega⟩
      rw [readNode_mapping, readFlowEntries_of_flow h (by omega)]
      rfl

/-- The items of a sequence are read back, up to its end. -/
theorem readFlowItems_of_flow {handles : Handles} {first : Bool} {fuel : ℕ} {rest : List Token}
    {anchors : List (List Char × ℕ)} {items : List Node} {cs : List Char} :
    FlowItems first items cs → 4 * (Node.itemTokens first items).length < fuel →
    readFlowItems handles first fuel
        ⟨Node.itemTokens first items ++ .flowSequenceEnd :: rest, anchors⟩
      = .ok (items, ⟨rest, anchors⟩)
  | .nil, hfuel => by
      obtain ⟨fuel, rfl⟩ : ∃ n, fuel = n + 1 := ⟨fuel - 1, by omega⟩
      cases first <;> rfl
  | .cons hitem hitems, hfuel => by
      have hpositive := hitem.length_flowTokens_pos
      simp only [Node.itemTokens, List.length_append, List.append_assoc] at hfuel ⊢
      obtain ⟨fuel, rfl⟩ : ∃ n, fuel = n + 1 := ⟨fuel - 1, by omega⟩
      rw [readFlowItems_item hitem (readNode_of_flow hitem (by omega)),
        readFlowItems_of_flow hitems (by omega)]
      rfl

/-- The entries of a mapping are read back, up to its end. -/
theorem readFlowEntries_of_flow {handles : Handles} {first : Bool} {fuel : ℕ}
    {rest : List Token} {anchors : List (List Char × ℕ)} {entries : List (Node × Node)}
    {cs : List Char} : FlowEntries first entries cs →
    4 * (Node.entryTokens first entries).length < fuel →
    readFlowEntries handles first fuel
        ⟨Node.entryTokens first entries ++ .flowMappingEnd :: rest, anchors⟩
      = .ok (entries, ⟨rest, anchors⟩)
  | .nil, hfuel => by
      obtain ⟨fuel, rfl⟩ : ∃ n, fuel = n + 1 := ⟨fuel - 1, by omega⟩
      cases first <;> rfl
  | .cons _ _ hvalue hentries, hfuel => by
      simp only [Node.entryTokens, Node.flowTokens, List.length_append, List.length_cons,
        List.append_assoc, List.cons_append, List.nil_append] at hfuel ⊢
      obtain ⟨fuel, rfl⟩ : ∃ n, fuel = n + 3 := ⟨fuel - 3, by omega⟩
      rw [readFlowEntries_entry hvalue (readNode_of_flow hvalue (by omega)),
        readFlowEntries_of_flow hentries (by omega)]
      rfl

end

-- ============================================================ documents

/-- A document that starts with a node in flow style has no directives and no marked start. -/
theorem readDocument_of_startsFlow {token : Token} (h : token.startsFlow) :
    readDocument (token :: rest)
      = (readNode .standard .block (depthBound (token :: rest)) ⟨token :: rest, []⟩).map
        fun (root, p) => (⟨some root⟩, p.tokens) := by
  have hcontent : readDocument (token :: rest)
      = readContent .standard false (token :: rest) >>= fun content =>
        .ok (⟨some content.1⟩, content.2) := by
    have hunmarked : ¬ (token :: rest).length < (token :: rest).length := Nat.lt_irrefl _
    cases token <;> first | exact if_neg hunmarked | cases h
  rw [hcontent]
  unfold readContent
  cases readNode .standard .block (depthBound (token :: rest)) ⟨token :: rest, []⟩ <;> rfl

/-- A mapping that is written on one line is the document that is read from it. -/
theorem Document.ofText_of_flow {entries : List (Node × Node)} {text : String}
    (h : Flow (.mapping none entries) text.toList) :
    Document.ofText text = .ok ⟨some (.mapping none entries)⟩ := by
  obtain ⟨token, tokens, htokens, hstarts⟩ := h.exists_tokens
  have hdepth : 4 * (Node.mapping none entries).flowTokens.length
      ≤ depthBound (token :: tokens) := by
    rw [htokens]
    exact Nat.le_add_right _ _
  have hread : readNode .standard .block (depthBound (token :: tokens))
      ⟨(Node.mapping none entries).flowTokens ++ [], []⟩
      = .ok (.mapping none entries, ⟨[], []⟩) := readNode_of_flow h hdepth
  rw [List.append_nil, htokens] at hread
  unfold ofText
  rw [characters_of_isAsciiGraphic h.isAsciiGraphic]
  show (Yaml.tokens text.toList >>= _) = _
  rw [tokens_of_flow h, htokens]
  show (readDocument (token :: tokens) >>= _) = _
  rw [readDocument_of_startsFlow hstarts, hread]
  rfl

end ProjectAccess.Yaml
