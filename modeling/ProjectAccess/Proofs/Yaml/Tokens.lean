/-
From one line to its tokens.

Each sign of the text is a step from one view to another, and so is a scalar. A key is two: its
scalar is read as any other, and the colon after it finds the candidate that was kept at its
opening quote, as it is no further back than a key is long. The steps are put together along
the way in which nodes are written (`goes_flow`), and at the end of the text nothing is left
but to give out the tokens (`tokens_of_flow`).
-/
import ProjectAccess.Proofs.Yaml.Views

namespace ProjectAccess.Yaml

namespace Layout

variable {s : Layout} {c : Char} {rest : List Char} {v : View} {depth : ℕ} {read : List Token}
  {keyAllowed : Bool}

-- ============================================================ operations

theorem dropCandidate_of_optional (h : Optional s.candidate) :
    s.dropCandidate = .ok { s with candidate := none } := by
  unfold dropCandidate
  cases hcandidate : s.candidate with
  | none => rfl
  | some c =>
      rw [if_neg (by simp [h c hcandidate])]

/-- One sign is taken. -/
theorem Shows.take {token : Token} (h : s.Shows ⟨depth, read, keyAllowed, c :: rest⟩) :
    (s.take 1 token).Shows ⟨depth, token :: read, keyAllowed, rest⟩ :=
  { h with
    read := congrArg (token :: ·) h.read
    rest := congrArg (List.drop 1) h.rest
    column := Place.column_along_pos h.column }

/-- Another candidate, and whether a key may start, do not matter but for themselves. -/
theorem Shows.replace {candidate : Option Candidate} {allowed : Bool}
    (h : s.Shows ⟨depth, read, keyAllowed, rest⟩) (hcandidate : Optional candidate) :
    ({ s with candidate, keyAllowed := allowed } : Layout).Shows ⟨depth, read, allowed, rest⟩ :=
  { h with keyAllowed := rfl, optional := hcandidate }

/-- The candidate is put aside when a collection opens. -/
theorem Shows.suspend (h : s.Shows ⟨depth, read, keyAllowed, rest⟩) :
    ({ s with
      candidate := none, suspended := s.candidate :: s.suspended, keyAllowed := true } :
        Layout).Shows ⟨depth + 1, read, true, rest⟩ :=
  { h with
    depth := congrArg (· + 1) h.depth
    keyAllowed := rfl
    optional := optional_none
    optionalAround := List.forall_mem_cons.2 ⟨h.optional, h.optionalAround⟩ }

/-- The candidate around is taken up again when a collection closes. -/
theorem Shows.resume {candidate : Option Candidate} {suspended : List (Option Candidate)}
    (h : s.Shows ⟨depth + 1, read, keyAllowed, rest⟩)
    (hsuspended : s.suspended = candidate :: suspended) :
    ({ s with candidate, suspended, keyAllowed := false } : Layout).Shows
      ⟨depth, read, false, rest⟩ := by
  have hlength := h.depth
  have haround := h.optionalAround
  rw [hsuspended] at hlength haround
  obtain ⟨hcandidate, hothers⟩ := List.forall_mem_cons.1 haround
  exact { h with
    depth := Nat.succ.inj hlength
    keyAllowed := rfl
    optional := hcandidate
    optionalAround := hothers }

/-- The candidate as it is after a node may have started at the place. -/
def noted (s : Layout) : Option Candidate :=
  if s.keyAllowed then some ⟨s.read.length, s.here.toPlace, false⟩ else s.candidate

theorem Shows.optional_noted (h : s.Shows v) : Optional s.noted := by
  unfold noted
  split
  · intro c hc
    cases hc
    rfl
  · exact h.optional

/-- Inside of flow collections a candidate is noted without failure. -/
theorem noteCandidate_eq (h : s.Shows v) (hdepth : 0 < v.depth) :
    s.noteCandidate = .ok { s with candidate := s.noted } := by
  unfold noteCandidate noted
  split
  · -- a key is required only outside of flow collections
    rw [dropCandidate_of_optional h.optional, h.inFlow hdepth]
    rfl
  · rfl

/-- An opening sign is read, and the next token may be a key. -/
theorem exists_openFlow {token : Token} (h : s.Shows ⟨depth + 1, read, keyAllowed, c :: rest⟩) :
    ∃ s', s.openFlow token = .ok s' ∧ s'.Shows ⟨depth + 2, token :: read, true, rest⟩ := by
  unfold openFlow
  rw [noteCandidate_eq h (Nat.succ_pos _)]
  exact ⟨_, rfl, (h.replace h.optional_noted).suspend.take⟩

/-- A closing sign is read, and the next token is no key. -/
theorem exists_closeFlow {token : Token} (h : s.Shows ⟨depth + 1, read, keyAllowed, c :: rest⟩) :
    ∃ s', s.closeFlow token = .ok s' ∧ s'.Shows ⟨depth, token :: read, false, rest⟩ := by
  obtain ⟨candidate, suspended, hsuspended⟩ := List.exists_cons_of_length_eq_add_one h.depth
  unfold closeFlow
  rw [dropCandidate_of_optional h.optional]
  refine ⟨_, rfl, ?_⟩
  simp only [hsuspended]
  exact (h.resume hsuspended).take

/-- A comma is read, and the next token may be a key. -/
theorem exists_divideFlow (h : s.Shows ⟨depth + 1, read, keyAllowed, c :: rest⟩) :
    ∃ s', s.divideFlow = .ok s' ∧ s'.Shows ⟨depth + 1, .flowEntry :: read, true, rest⟩ := by
  unfold divideFlow
  rw [dropCandidate_of_optional h.optional]
  exact ⟨_, rfl, (h.replace optional_none).take⟩

/-- What the layout is after a scalar between quotes. -/
def pastScalar (text : String) (cs rest : List Char) (s : Layout) : Layout :=
  { s with
    here := ⟨s.here.along ('\x22' :: (cs ++ ['\x22'])), rest⟩
    read := .scalar text .doubleQuoted :: s.read
    keyAllowed := false
    candidate := s.noted }

variable {text : String} {cs : List Char}

/-- A quoted scalar is read up to its closing mark. -/
theorem takeQuoted_eq (h : s.Shows ⟨depth + 1, read, keyAllowed, '\x22' :: (cs ++ '\x22' :: rest)⟩)
    (hcs : Spelling text.toList cs) :
    s.takeQuoted .double = .ok (s.pastScalar text cs rest) := by
  unfold takeQuoted takeNode
  rw [noteCandidate_eq h (Nat.succ_pos _)]
  show ((s.here.quotedScalar .double).map _ >>= _) = _
  rw [Cursor.quotedScalar_of_spelling hcs h.rest]
  rfl

theorem Shows.pastScalar
    (h : s.Shows ⟨depth + 1, read, keyAllowed, '\x22' :: (cs ++ '\x22' :: rest)⟩) :
    (s.pastScalar text cs rest).Shows
      ⟨depth + 1, .scalar text .doubleQuoted :: read, false, rest⟩ :=
  { h with
    read := congrArg _ h.read
    keyAllowed := rfl
    rest := rfl
    column := Place.column_along_pos h.column
    optional := h.optional_noted }

/-- Where a key may start before the quotes, its place is still a candidate after them. -/
theorem candidate_renewed_pastScalar (hallowed : s.keyAllowed = true)
    (hcs : Spelling text.toList cs) (hshort : cs.length + 2 ≤ longestKey) :
    (s.pastScalar text cs rest).renewed.candidate
      = some ⟨s.read.length, s.here.toPlace, false⟩ := by
  have hquoted : ∀ c ∈ '\x22' :: (cs ++ ['\x22']), isAsciiGraphic c :=
    isAsciiGraphic_of_mem_enclosed rfl rfl hcs.isAsciiGraphic
  have hoctet : (s.here.along ('\x22' :: (cs ++ ['\x22']))).octet
      = s.here.octet + (cs.length + 2) := by
    rw [Place.octet_along hquoted, List.length_cons, List.length_append]
    rfl
  have hfresh : isStale (s.pastScalar text cs rest).here
      ⟨s.read.length, s.here.toPlace, false⟩ = false := by
    have hline : ¬ s.here.line < s.here.line := Nat.lt_irrefl _
    have hlength : ¬ s.here.octet + longestKey
        < (s.here.along ('\x22' :: (cs ++ ['\x22']))).octet := by omega
    unfold isStale
    exact Bool.or_eq_false_iff.2 ⟨decide_eq_false hline, decide_eq_false hlength⟩
  show fresh _ s.noted = _
  unfold noted fresh
  rw [if_pos hallowed]
  simp only [Option.filter, hfresh, Bool.not_false, if_true]

/-- The mark of the key comes in front of the token that was read since its candidate. -/
theorem exists_startValue {token : Token} {candidate : Candidate}
    (h : s.Shows ⟨depth + 1, token :: read, keyAllowed, c :: rest⟩)
    (hcandidate : s.candidate = some candidate) (htoken : candidate.token = read.length) :
    ∃ s', s.startValue = .ok s'
      ∧ s'.Shows ⟨depth + 1, .value :: token :: .key :: read, false, rest⟩ := by
  have hkey : (s.emitAt candidate.token .key).Shows
      ⟨depth + 1, token :: .key :: read, keyAllowed, c :: rest⟩ := by
    refine { h with read := ?_ }
    have hlater : (token :: read).length - read.length = 1 := Nat.add_sub_cancel_left ..
    unfold emitAt
    rw [h.read, htoken, hlater]
    rfl
  have hblock : (s.emitAt candidate.token .key).openBlock candidate.place.column candidate.token
      .blockMappingStart = s.emitAt candidate.token .key := by
    unfold openBlock
    rw [if_neg (by simp [hkey.inFlow (Nat.succ_pos _)])]
  unfold startValue
  rw [hcandidate]
  simp only [hblock]
  exact ⟨_, rfl, (hkey.replace optional_none).take⟩

-- ================================================================ signs

/-- A sign that always starts the same operation. -/
theorem goes_of_sign {f : Layout → Except Fault Layout} {after : ℕ} {tokens : List Token}
    {allowed : Bool} (hc : isAsciiGraphic c) (hblank : c ≠ ' ') (hcomment : c ≠ '#')
    (hsign : ∀ s : Layout, s.here.column ≠ 0 → s.readToken c rest = f s)
    (hf : ∀ s : Layout, s.Shows ⟨depth + 1, read, keyAllowed, c :: rest⟩ →
      ∃ s', f s = .ok s' ∧ s'.Shows ⟨after, tokens, allowed, rest⟩) :
    Goes ⟨depth + 1, read, keyAllowed, c :: rest⟩ ⟨after, tokens, allowed, rest⟩ := by
  refine goes_of_readToken (Nat.succ_pos _) rfl hc hblank hcomment (Nat.lt_succ_self _) ?_
  intro s hs
  rw [hsign s (Nat.pos_iff_ne_zero.1 hs.column)]
  exact hf s hs

theorem goes_openSequence :
    Goes ⟨depth + 1, read, keyAllowed, '[' :: rest⟩
      ⟨depth + 2, .flowSequenceStart :: read, true, rest⟩ :=
  goes_of_sign rfl (by decide) (by decide) (fun s h => by simp [readToken, h])
    fun _ => exists_openFlow

theorem goes_openMapping :
    Goes ⟨depth + 1, read, keyAllowed, '\x7b' :: rest⟩
      ⟨depth + 2, .flowMappingStart :: read, true, rest⟩ :=
  goes_of_sign rfl (by decide) (by decide) (fun s h => by simp [readToken, h])
    fun _ => exists_openFlow

theorem goes_closeSequence :
    Goes ⟨depth + 1, read, keyAllowed, ']' :: rest⟩
      ⟨depth, .flowSequenceEnd :: read, false, rest⟩ :=
  goes_of_sign rfl (by decide) (by decide) (fun s h => by simp [readToken, h])
    fun _ => exists_closeFlow

theorem goes_closeMapping :
    Goes ⟨depth + 1, read, keyAllowed, '\x7d' :: rest⟩
      ⟨depth, .flowMappingEnd :: read, false, rest⟩ :=
  goes_of_sign rfl (by decide) (by decide) (fun s h => by simp [readToken, h])
    fun _ => exists_closeFlow

theorem goes_divide :
    Goes ⟨depth + 1, read, keyAllowed, ',' :: rest⟩
      ⟨depth + 1, .flowEntry :: read, true, rest⟩ :=
  goes_of_sign rfl (by decide) (by decide) (fun s h => by simp [readToken, h])
    fun _ => exists_divideFlow

theorem length_lt_of_quoted :
    rest.length < ('\x22' :: (cs ++ '\x22' :: rest)).length := by
  simp only [List.length_cons, List.length_append]
  omega

theorem readToken_of_quoted
    (h : s.Shows ⟨depth + 1, read, keyAllowed, '\x22' :: (cs ++ '\x22' :: rest)⟩)
    (hcs : Spelling text.toList cs) :
    s.readToken '\x22' (cs ++ '\x22' :: rest) = .ok (s.pastScalar text cs rest) := by
  rw [← takeQuoted_eq h hcs]
  simp [readToken, Nat.pos_iff_ne_zero.1 h.column]

/-- The scanner goes past a quoted scalar and leaves its token. -/
theorem goes_scalar (hcs : Spelling text.toList cs) :
    Goes ⟨depth + 1, read, keyAllowed, '\x22' :: (cs ++ '\x22' :: rest)⟩
      ⟨depth + 1, .scalar text .doubleQuoted :: read, false, rest⟩ :=
  goes_of_readToken (Nat.succ_pos _) rfl rfl (by decide) (by decide) length_lt_of_quoted
    fun s hs => ⟨s.pastScalar text cs rest, readToken_of_quoted hs hcs, hs.pastScalar⟩

/-- A key and the colon after it, where a key may start. -/
theorem goes_key (hcs : Spelling text.toList cs) (hshort : cs.length + 2 ≤ longestKey) :
    Goes ⟨depth + 1, read, true, '\x22' :: (cs ++ '\x22' :: ':' :: rest)⟩
      ⟨depth + 1, .value :: .scalar text .doubleQuoted :: .key :: read, false, rest⟩ := by
  intro s hs
  have hquoted := hs.advance (Nat.succ_pos _) rfl rfl (by decide) (by decide)
  have hscalar : s.Leads (s.renewed.pastScalar text cs (':' :: rest)) := by
    refine leads_of_readToken hquoted hs.renewed.rest (readToken_of_quoted hs.renewed hcs) ?_
    rw [hs.rest]
    exact length_lt_of_quoted
  have hpast : (s.renewed.pastScalar text cs (':' :: rest)).Shows
      ⟨depth + 1, .scalar text .doubleQuoted :: read, false, ':' :: rest⟩ := hs.renewed.pastScalar
  -- after the scalar its place is a candidate, which the colon makes a key
  have hcandidate : (s.renewed.pastScalar text cs (':' :: rest)).renewed.candidate
      = some ⟨s.read.length, s.here.toPlace, false⟩ :=
    candidate_renewed_pastScalar hs.renewed.keyAllowed hcs hshort
  obtain ⟨s', hvalue, hs'⟩ :=
    exists_startValue hpast.renewed hcandidate (congrArg List.length hs.read)
  have hcolon : (s.renewed.pastScalar text cs (':' :: rest)).Leads s' := by
    have hadvance := hpast.advance (Nat.succ_pos _) rfl rfl (by decide) (by decide)
    refine leads_of_readToken hadvance hpast.renewed.rest ?_ ?_
    · rw [← hvalue]
      simp [readToken, Nat.pos_iff_ne_zero.1 hpast.renewed.column,
        hpast.renewed.inFlow (Nat.succ_pos _)]
    · rw [hs'.rest]
      exact Nat.lt_succ_self _
  exact ⟨s', hs', hscalar.trans hcolon⟩

-- =============================================================== nodes

/-- The scanner goes past what divides items, of which there is nothing before the first. -/
theorem goes_divider {first : Bool} :
    Goes ⟨depth + 1, read, first, divider first ++ rest⟩
      ⟨depth + 1, (dividerTokens first).reverse ++ read, true, rest⟩ := by
  cases first with
  | true => exact .refl
  | false => exact goes_divide.trans goes_blank

mutual

/-- A node that is written on one line is read to its tokens. -/
theorem goes_flow {node : Node} {cs rest : List Char} {depth : ℕ} {read : List Token}
    {keyAllowed : Bool} : Flow node cs →
    Goes ⟨depth + 1, read, keyAllowed, cs ++ rest⟩
      ⟨depth + 1, node.flowTokens.reverse ++ read, false, rest⟩
  | .scalar h => by
      rw [List.cons_append, List.append_assoc]
      exact goes_scalar h
  | .sequence h => by
      simp only [Node.flowTokens, List.reverse_cons, List.reverse_append, List.reverse_nil,
        List.append_assoc, List.cons_append, List.nil_append]
      exact goes_openSequence.trans ((goes_flowItems h).trans goes_closeSequence)
  | .mapping h => by
      simp only [Node.flowTokens, List.reverse_cons, List.reverse_append, List.reverse_nil,
        List.append_assoc, List.cons_append, List.nil_append]
      exact goes_openMapping.trans ((goes_flowEntries h).trans goes_closeMapping)

/-- The scanner goes past the items of a sequence and leaves their tokens. -/
theorem goes_flowItems {first : Bool} {items : List Node} {cs rest : List Char} {depth : ℕ}
    {read : List Token} : FlowItems first items cs →
    Goes ⟨depth + 1, read, first, cs ++ rest⟩
      ⟨depth + 1, (Node.itemTokens first items).reverse ++ read, first && items.isEmpty, rest⟩
  | .nil => by
      rw [List.isEmpty_nil, Bool.and_true]
      exact .refl
  | .cons hitem hitems => by
      simp only [Node.itemTokens, List.reverse_append, List.append_assoc, List.isEmpty_cons,
        Bool.and_false]
      exact goes_divider.trans ((goes_flow hitem).trans (goes_flowItems hitems))

/-- The scanner goes past the entries of a mapping and leaves their tokens. -/
theorem goes_flowEntries {first : Bool} {entries : List (Node × Node)} {cs rest : List Char}
    {depth : ℕ} {read : List Token} : FlowEntries first entries cs →
    Goes ⟨depth + 1, read, first, cs ++ rest⟩
      ⟨depth + 1, (Node.entryTokens first entries).reverse ++ read,
        first && entries.isEmpty, rest⟩
  | .nil => by
      rw [List.isEmpty_nil, Bool.and_true]
      exact .refl
  | .cons hkey hshort hvalue hentries => by
      simp only [Node.entryTokens, Node.flowTokens, List.reverse_append, List.reverse_cons,
        List.append_assoc, List.cons_append, List.nil_append,
        List.isEmpty_cons, Bool.and_false]
      exact goes_divider.trans ((goes_key hkey hshort).trans
        (goes_blank.trans ((goes_flow hvalue).trans (goes_flowEntries hentries))))

end

-- ================================================================ texts

/-- The layout after the brace with which a text starts. -/
def opened (rest : List Char) : Layout where
  here := ⟨⟨0, 1, 1⟩, rest⟩
  read := [.flowMappingStart]
  suspended := [some ⟨0, {}, false⟩]

theorem readAll_open {fuel : ℕ} :
    readAll (fuel + 1) { here := .start ('\x7b' :: rest) } = readAll fuel (opened rest) := by
  have hmarker {mark : Char} (h : mark ≠ '\x7b') :
      startsWithMarker mark ('\x7b' :: rest) = false := by
    match rest with
    | [] => rfl
    | [_] => rfl
    | _ :: _ :: _ => simp [startsWithMarker, h.symm]
  have hadvance : advance { here := .start ('\x7b' :: rest) }
      = .ok { here := .start ('\x7b' :: rest) } := rfl
  have hread : readToken { here := .start ('\x7b' :: rest) } '\x7b' rest = .ok (opened rest) := by
    unfold readToken
    simp only [Cursor.start, hmarker (by decide : '-' ≠ '\x7b'),
      hmarker (by decide : '.' ≠ '\x7b')]
    rfl
  rw [readAll, hadvance]
  simp only [Cursor.start] at hread ⊢
  rw [hread]

theorem opened_shows : (opened rest).Shows ⟨1, [.flowMappingStart], true, rest⟩ where
  depth := rfl
  read := rfl
  keyAllowed := rfl
  rest := rfl
  column := Nat.one_pos
  indent := rfl
  outer := rfl
  optional := optional_none
  optionalAround := by
    intro candidate hcandidate c hc
    rw [List.mem_singleton.1 hcandidate] at hc
    cases hc
    rfl

/-- Where the text ends the tokens do. -/
theorem readAll_of_shows {fuel : ℕ} (h : s.Shows ⟨0, read, keyAllowed, []⟩) :
    readAll (fuel + 1) s = .ok read.reverse := by
  have hskip : skipBlanksFrom s.inFlow s.keyAllowed false s.here.toPlace s.here.rest
      = (s.here, s.keyAllowed) := by
    have hrest : s.here.rest = [] := h.rest
    have hhere : (⟨s.here.toPlace, []⟩ : Cursor) = s.here := by rw [← hrest]
    rw [hrest, skipBlanksFrom, hhere]
  have hadvance : s.advance = .ok s.renewed := by
    unfold Layout.advance skipBlanks
    rw [hskip]
    show (s.renewCandidates.map _) = _
    rw [h.renewCandidates]
    exact congrArg Except.ok (h.renewed.closeBlocks_eq_self rfl)
  rw [readAll, hadvance]
  simp only [h.renewed.rest, h.renewed.closeBlocks_eq_self rfl,
    dropCandidate_of_optional h.renewed.optional]
  exact congrArg (Except.ok ∘ List.reverse) h.renewed.read

end Layout

/-- The tokens of a mapping that is written on one line. -/
theorem tokens_of_flow {entries : List (Node × Node)} {cs : List Char}
    (h : Flow (.mapping none entries) cs) :
    tokens cs = .ok (Node.mapping none entries).flowTokens := by
  cases h with
  | @mapping _ cs h =>
  have hgoes := @Layout.goes_flowEntries true entries cs ['\x7d'] 0 [.flowMappingStart] h
  obtain ⟨s, hs, n, hlength, hread⟩ :=
    (hgoes.trans Layout.goes_closeMapping) _ Layout.opened_shows
  have hsteps : n ≤ cs.length + 1 := by
    rw [hs.rest] at hlength
    exact Nat.le_trans hlength (Nat.le_of_eq List.length_append)
  have hfuel : ('\x7b' :: (cs ++ ['\x7d'])).length = (cs.length + 1 - n) + n + 1 := by
    rw [List.length_cons, List.length_append, List.length_singleton]
    omega
  unfold tokens
  rw [Layout.readAll_open, hfuel, hread, Layout.readAll_of_shows hs]
  simp only [Node.flowTokens, List.reverse_cons, List.reverse_append, List.reverse_reverse,
    List.reverse_nil, List.nil_append, List.cons_append]

end ProjectAccess.Yaml
