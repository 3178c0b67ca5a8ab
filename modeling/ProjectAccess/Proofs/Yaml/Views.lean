/-
Layouts inside flow collections.

Inside a flow collection little of a layout decides how it is read on: how many collections
are open, whether a key may start, and what is left; no candidate can be required there, so
that forgetting one never fails. A `View` is that much, with the tokens so far, and `Goes`
leads from one view to another whatever else the layouts are. Steps are therefore put together
by `Goes.trans`, and the number of tokens that the scanner still may read is looked after in
`Leads`, once and for all.
-/
import ProjectAccess.Proofs.Yaml.Flow

namespace ProjectAccess.Yaml

namespace Layout

variable {s s' s'' t : Layout} {here : Cursor} {c : Char} {rest : List Char}

-- ========================================================== reading on

/-- From the one layout the reading comes to the other, with a character or more for each
token in between. -/
def Leads (s s' : Layout) : Prop :=
  ∃ n, n + s'.here.rest.length ≤ s.here.rest.length
    ∧ ∀ fuel, readAll (fuel + n + 1) s = readAll (fuel + 1) s'

theorem Leads.refl : s.Leads s := ⟨0, Nat.le_of_eq (Nat.zero_add _), fun _ => rfl⟩

theorem Leads.trans (h : s.Leads s') (h' : s'.Leads s'') : s.Leads s'' := by
  obtain ⟨n, hn, hread⟩ := h
  obtain ⟨n', hn', hread'⟩ := h'
  refine ⟨n' + n, by omega, fun fuel => ?_⟩
  rw [← Nat.add_assoc, hread (fuel + n'), hread']

-- ========================================================== candidates

/-- The candidate, if there is one, need not be a key. -/
def Optional (candidate : Option Candidate) : Prop := ∀ c ∈ candidate, c.required = false

/-- The candidate, unless it is too far back. -/
def fresh (here : Cursor) (candidate : Option Candidate) : Option Candidate :=
  candidate.filter fun c => !isStale here c

theorem optional_none : Optional none := fun c hc => absurd hc (Option.not_mem_none c)

theorem Optional.fresh {candidate : Option Candidate} (h : Optional candidate) :
    Optional (fresh here candidate) :=
  fun c hc => h c (Option.filter_eq_some_iff.1 hc).1

/-- A candidate that need not be a key is kept or given up, without failure. -/
theorem renew_of_optional {candidate : Option Candidate} (h : Optional candidate) :
    renew here candidate = .ok (fresh here candidate) := by
  cases candidate with
  | none => rfl
  | some c =>
      have hc := h c rfl
      unfold renew Layout.fresh
      cases hstale : isStale here c <;> simp [Option.filter, hstale, hc]

theorem mapM_renew_of_optional {candidates : List (Option Candidate)}
    (h : ∀ candidate ∈ candidates, Optional candidate) :
    candidates.mapM (renew here) = .ok (candidates.map (fresh here)) := by
  induction candidates with
  | nil => rfl
  | cons candidate candidates ih =>
      obtain ⟨hcandidate, hcandidates⟩ := List.forall_mem_cons.1 h
      rw [List.mapM_cons, renew_of_optional hcandidate, ih hcandidates]
      rfl

/-- The layout without the candidates that are too far back. -/
def renewed (s : Layout) : Layout :=
  { s with candidate := fresh s.here s.candidate, suspended := s.suspended.map (fresh s.here) }

-- =============================================================== views

/-- What decides how a layout inside flow collections is read on, and the tokens so far. -/
structure View where
  /-- The number of flow collections that are open. -/
  depth : ℕ
  /-- The tokens so far, the last first. -/
  read : List Token
  keyAllowed : Bool
  rest : List Char

/-- The layout has the view, and is in no block. -/
structure Shows (s : Layout) (v : View) : Prop where
  depth : s.suspended.length = v.depth
  read : s.read = v.read
  keyAllowed : s.keyAllowed = v.keyAllowed
  rest : s.here.rest = v.rest
  column : 0 < s.here.column
  indent : s.indent = -1
  outer : s.outer = []
  optional : Optional s.candidate
  optionalAround : ∀ candidate ∈ s.suspended, Optional candidate

/-- Every layout of the one view is read on to one of the other. -/
def Goes (v w : View) : Prop := ∀ s : Layout, s.Shows v → ∃ s', s'.Shows w ∧ s.Leads s'

variable {v w x : View}

theorem Goes.refl : Goes v v := fun s hs => ⟨s, hs, .refl⟩

theorem Goes.trans (h : Goes v w) (h' : Goes w x) : Goes v x := by
  intro s hs
  obtain ⟨s', hs', hleads⟩ := h s hs
  obtain ⟨s'', hs'', hleads'⟩ := h' s' hs'
  exact ⟨s'', hs'', hleads.trans hleads'⟩

/-- Where a flow collection is open, the layout is in flow style. -/
theorem Shows.inFlow (h : s.Shows v) (hdepth : 0 < v.depth) : s.inFlow = true := by
  have hlength := h.depth
  unfold Layout.inFlow
  cases hsuspended : s.suspended with
  | nil => rw [hsuspended, List.length_nil] at hlength; omega
  | cons => rfl

/-- Candidates that are too far back are no part of what is shown. -/
theorem Shows.renewed (h : s.Shows v) : s.renewed.Shows v :=
  { h with
    depth := (List.length_map _).trans h.depth
    optional := h.optional.fresh
    optionalAround := by
      intro candidate hcandidate
      obtain ⟨around, haround, rfl⟩ := List.mem_map.1 hcandidate
      exact (h.optionalAround around haround).fresh }

/-- Candidates that are too far back are given up without failure, as none has to be a key. -/
theorem Shows.renewCandidates (h : s.Shows v) : s.renewCandidates = .ok s.renewed := by
  unfold Layout.renewCandidates
  rw [renew_of_optional h.optional, mapM_renew_of_optional h.optionalAround]
  rfl

/-- In a flow collection nothing is done before a sign but that candidates are renewed. -/
theorem Shows.advance (h : s.Shows v) (hdepth : 0 < v.depth) (hrest : v.rest = c :: rest)
    (hc : isAsciiGraphic c) (hblank : c ≠ ' ') (hcomment : c ≠ '#') :
    s.advance = .ok s.renewed := by
  have hrest : s.here.rest = c :: rest := h.rest.trans hrest
  have htab : c ≠ '\t' := ne_of_isAsciiGraphic hc rfl
  have hskip : skipBlanksFrom s.inFlow s.keyAllowed false s.here.toPlace s.here.rest
      = (s.here, s.keyAllowed) := by
    have hhere : (⟨s.here.toPlace, c :: rest⟩ : Cursor) = s.here := by rw [← hrest]
    rw [hrest, skipBlanksFrom, isBreak_of_isAsciiGraphic hc, hhere]
    simp only [Nat.pos_iff_ne_zero.1 h.column, hblank, htab, hcomment, false_and, or_false,
      Bool.false_eq_true, if_false]
  unfold Layout.advance skipBlanks
  rw [hskip]
  show (s.renewCandidates.map _) = _
  rw [h.renewCandidates]
  show Except.ok (closeBlocks _ s.renewed) = _
  unfold closeBlocks
  rw [if_pos (h.renewed.inFlow hdepth)]

/-- At the end of a text without blocks there are no blocks to close. -/
theorem Shows.closeBlocks_eq_self {column : ℤ} (h : s.Shows v) (hdepth : v.depth = 0) :
    s.closeBlocks column = s := by
  have hsuspended := List.length_eq_zero_iff.1 (h.depth.trans hdepth)
  have houter := h.outer
  obtain ⟨here, read, indent, outer, keyAllowed, candidate, suspended⟩ := s
  cases hsuspended
  cases houter
  rfl

-- ================================================================ steps

/-- One token that is read, and takes something of the text, is a step ahead. -/
theorem leads_of_readToken (hadvance : s.advance = .ok t) (hrest : t.here.rest = c :: rest)
    (hread : t.readToken c rest = .ok s')
    (hless : s'.here.rest.length < s.here.rest.length) : s.Leads s' := by
  refine ⟨1, by omega, fun fuel => ?_⟩
  rw [readAll, hadvance]
  simp only [hrest, hread]

/-- A sign that is read from every layout of a view. -/
theorem goes_of_readToken (hdepth : 0 < v.depth) (hrest : v.rest = c :: rest)
    (hc : isAsciiGraphic c) (hblank : c ≠ ' ') (hcomment : c ≠ '#')
    (hless : w.rest.length < v.rest.length)
    (hread : ∀ s : Layout, s.Shows v → ∃ s', s.readToken c rest = .ok s' ∧ s'.Shows w) :
    Goes v w := by
  intro s hs
  obtain ⟨s', hs', hw⟩ := hread s.renewed hs.renewed
  refine ⟨s', hw, leads_of_readToken (hs.advance hdepth hrest hc hblank hcomment)
    (hs.renewed.rest.trans hrest) hs' ?_⟩
  rw [hw.rest, hs.rest]
  exact hless

variable {depth : ℕ} {read : List Token} {keyAllowed : Bool}

/-- A blank between two signs is passed over. -/
theorem goes_blank :
    Goes ⟨depth + 1, read, keyAllowed, ' ' :: rest⟩ ⟨depth + 1, read, keyAllowed, rest⟩ := by
  intro s hs
  have hskip : ({ s with here := ⟨s.here.past ' ', rest⟩ } : Layout).skipBlanks = s.skipBlanks := by
    unfold skipBlanks
    rw [hs.rest, skipBlanksFrom]
    simp [isBreak, inFlow]
  refine ⟨{ s with here := ⟨s.here.past ' ', rest⟩ }, ⟨hs.depth, hs.read, hs.keyAllowed, rfl,
    Nat.succ_pos _, hs.indent, hs.outer, hs.optional, hs.optionalAround⟩, 0, ?_, fun fuel => ?_⟩
  · rw [hs.rest, Nat.zero_add]
    exact Nat.le_succ rest.length
  · rw [readAll, readAll]
    unfold Layout.advance
    rw [hskip]

end Layout

end ProjectAccess.Yaml
