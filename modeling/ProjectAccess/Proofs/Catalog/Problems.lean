/-
Which lists make a catalog, and what is wrong with the others.

Entries are scanned from the widest tier to the narrowest and in list order. One offends
if its id is blank, or if an entry before it has the same id (`Tiers.Offends`, with the
text of the problem). Lists make a catalog exactly if no entry offends, and otherwise
their problem is that of the first one that does (`ofTiers_by_scan`).

# The scan

The scan remembers ids with their tiers, and looks every id up in what it remembers. As
long as nothing has offended, that is all the entries before, with the tier of each
(`Tiers.seenIn`): entries that are sound are passed over, and leave the scan in front of
the next one with those ids remembered and no others (`problemAfter?_of_sound`). The
first problem is then a matter of one entry, and there is such an entry in all lists that
are not sound (`sound_or_offends`).
-/
import Mathlib.Data.List.Induction
import Mathlib.Data.List.Nodup
import ProjectAccess.Catalog.Basic

namespace ProjectAccess

namespace Tiers

/-- No id is blank, and none is listed twice. -/
structure Sound (l : List (Tier × CatalogEntry)) : Prop where
  filled : ∀ place ∈ l, Text.trim place.2.id.toList ≠ []
  nodup : (l.map (·.2.id)).Nodup

/-- What is wrong with an entry after others, and the text that says so. A blank id is
not looked for among the others; of these only one may have the same id. -/
inductive Offends (before : List (Tier × CatalogEntry)) :
    Tier × CatalogEntry → CatalogProblem → String → Prop where
  | blank {tier : Tier} {entry : CatalogEntry} (hblank : Text.trim entry.id.toList = []) :
      Offends before (tier, entry) (.blank tier) ("empty permission id in " ++ tier.name ++ " tier")
  | repeated {tier first : Tier} {entry earlier : CatalogEntry}
      (hfilled : Text.trim entry.id.toList ≠ [])
      (honly : before.filter (·.2.id = entry.id) = [(first, earlier)]) :
      Offends before (tier, entry) (.repeated entry.id first tier)
        (entry.id ++ " listed in both " ++ first.name ++ " and " ++ tier.name ++ " tiers")

/-- What the scan remembers of entries: the ids with their tiers, the last one first. -/
def seenIn (l : List (Tier × CatalogEntry)) : List (Permission × Tier) :=
  (l.map fun place => (place.2.id, place.1)).reverse

variable {t : Tiers} {l before after : List (Tier × CatalogEntry)} {place : Tier × CatalogEntry}
variable {id : Permission} {first : Tier} {problem : CatalogProblem} {text : String}

-- ===================================================== what is remembered

theorem seenIn_snoc : seenIn (before ++ [place]) = (place.2.id, place.1) :: seenIn before := by
  simp [seenIn]

theorem lookup_seenIn_eq_none_iff :
    (seenIn before).lookup id = none ↔ id ∉ before.map (·.2.id) := by
  induction before using List.reverseRecOn with
  | nil => simp [seenIn]
  | append_singleton before place ih =>
      by_cases hid : id = place.2.id
      · simp [seenIn_snoc, hid]
      · rw [seenIn_snoc, List.lookup_cons, beq_false_of_ne hid]
        simpa [hid] using ih

theorem filter_eq_nil_of_not_mem (h : id ∉ before.map (·.2.id)) :
    before.filter (·.2.id = id) = [] := by
  rw [List.filter_eq_nil_iff]
  intro place hplace hid
  apply h
  rw [← of_decide_eq_true hid]
  exact List.mem_map_of_mem hplace

/-- The tier that is remembered for an id is that of the one entry that has it. -/
theorem filter_of_lookup_seenIn (hnodup : (before.map (·.2.id)).Nodup)
    (h : (seenIn before).lookup id = some first) :
    ∃ earlier, before.filter (·.2.id = id) = [(first, earlier)] := by
  induction before using List.reverseRecOn with
  | nil => simp [seenIn] at h
  | append_singleton before place ih =>
      rw [List.map_append, List.map_singleton, List.nodup_middle, List.append_nil] at hnodup
      obtain ⟨hnew, hnodup⟩ := List.nodup_cons.1 hnodup
      rw [seenIn_snoc, List.lookup_cons] at h
      by_cases hid : id = place.2.id
      · -- no entry before this one has the id
        subst hid
        have hfirst : place.1 = first := by simpa using h
        refine ⟨place.2, ?_⟩
        rw [List.filter_append, filter_eq_nil_of_not_mem hnew, ← hfirst]
        simp
      · rw [beq_false_of_ne hid] at h
        obtain ⟨earlier, honly⟩ := ih hnodup h
        refine ⟨earlier, ?_⟩
        rw [List.filter_append, honly]
        simp [Ne.symm hid]

-- ========================================================= one entry more

/-- After sound entries the next one is sound as well, or it offends. -/
theorem sound_snoc_or_offends (h : Sound before) (place : Tier × CatalogEntry) :
    Sound (before ++ [place]) ∨ ∃ problem text, Offends before place problem text := by
  obtain ⟨tier, entry⟩ := place
  by_cases hblank : Text.trim entry.id.toList = []
  · exact .inr ⟨_, _, .blank hblank⟩
  · cases hseen : (seenIn before).lookup entry.id with
    | some first =>
        obtain ⟨earlier, honly⟩ := filter_of_lookup_seenIn h.nodup hseen
        exact .inr ⟨_, _, .repeated hblank honly⟩
    | none =>
        have hnew := lookup_seenIn_eq_none_iff.1 hseen
        refine .inl ⟨?_, ?_⟩
        · intro place hplace
          rcases List.mem_append.1 hplace with hplace | hplace
          · exact h.filled place hplace
          · rw [List.mem_singleton.1 hplace]
            exact hblank
        · rw [List.map_append, List.map_singleton, List.nodup_middle, List.append_nil]
          exact List.nodup_cons.2 ⟨hnew, h.nodup⟩

/-- Lists are sound, or some entry of theirs is the first that offends. -/
theorem sound_or_offends (l : List (Tier × CatalogEntry)) :
    Sound l ∨ ∃ before place after problem text,
      l = before ++ place :: after ∧ Sound before ∧ Offends before place problem text := by
  induction l using List.reverseRecOn with
  | nil => exact .inl ⟨nofun, List.nodup_nil⟩
  | append_singleton l last ih =>
      rcases ih with hsound | ⟨before, place, after, problem, text, rfl, hsound, hoffends⟩
      · rcases sound_snoc_or_offends hsound last with hsound' | ⟨problem, text, hoffends⟩
        · exact .inl hsound'
        · exact .inr ⟨l, last, [], problem, text, rfl, hsound, hoffends⟩
      · refine .inr ⟨before, place, after ++ [last], problem, text, ?_, hsound, hoffends⟩
        simp

-- ================================================================ the scan

/-- The scan stops at an entry that offends. -/
theorem problemAfter?_of_offends (hsound : Sound before)
    (h : Offends before place problem text) :
    problemAfter? (seenIn before) (place :: after) = some problem ∧ problem.detail = text := by
  cases h with
  | blank hblank => exact ⟨if_pos (Text.blank_iff.2 hblank), rfl⟩
  | @repeated tier first entry earlier hfilled honly =>
      refine ⟨?_, rfl⟩
      have hlookup : (seenIn before).lookup entry.id = some first := by
        cases hseen : (seenIn before).lookup entry.id with
        | none =>
            rw [filter_eq_nil_of_not_mem (lookup_seenIn_eq_none_iff.1 hseen)] at honly
            cases honly
        | some first' =>
            -- what is remembered is the tier of the only entry with the id
            obtain ⟨earlier', honly'⟩ := filter_of_lookup_seenIn hsound.nodup hseen
            rw [honly] at honly'
            cases honly'
            rfl
      rw [problemAfter?, if_neg (Text.blank_iff.not.2 hfilled), hlookup]

/-- The scan passes over sound entries, and remembers them. -/
theorem problemAfter?_of_sound {passed : List (Tier × CatalogEntry)}
    (before after : List (Tier × CatalogEntry)) (h : Sound (before ++ passed)) :
    problemAfter? (seenIn before) (passed ++ after)
      = problemAfter? (seenIn (before ++ passed)) after := by
  induction passed generalizing before with
  | nil => rw [List.nil_append, List.append_nil]
  | cons place passed ih =>
      obtain ⟨tier, entry⟩ := place
      have hfilled : Text.trim entry.id.toList ≠ [] := h.filled (tier, entry) (by simp)
      have hnew : entry.id ∉ before.map (·.2.id) := by
        have hnodup := h.nodup
        rw [List.map_append, List.map_cons, List.nodup_middle, List.nodup_cons] at hnodup
        exact fun hold => hnodup.1 (List.mem_append_left _ hold)
      rw [List.append_cons] at h ⊢
      rw [← ih _ h, seenIn_snoc, List.cons_append, problemAfter?,
        if_neg (Text.blank_iff.not.2 hfilled), lookup_seenIn_eq_none_iff.2 hnew]

theorem problem?_of_sound (h : Sound t.placed) : t.problem? = none := by
  have hscan : problemAfter? [] (t.placed ++ []) = problemAfter? (seenIn t.placed) [] :=
    problemAfter?_of_sound [] [] h
  rw [List.append_nil] at hscan
  exact hscan

theorem problem?_of_offends (hplaced : t.placed = before ++ place :: after)
    (hsound : Sound before) (hoffends : Offends before place problem text) :
    t.problem? = some problem ∧ problem.detail = text := by
  have hscan : problemAfter? [] (before ++ place :: after)
      = problemAfter? (seenIn before) (place :: after) :=
    problemAfter?_of_sound [] _ hsound
  rw [problem?, hplaced, hscan]
  exact problemAfter?_of_offends hsound hoffends

end Tiers

namespace Catalog

variable {t : Tiers} {c : Catalog} {problem : CatalogProblem} {text : String}

-- ============================================================ main result

theorem ofTiers_of_problem? (h : t.problem? = some problem) : ofTiers t = .error problem := by
  unfold ofTiers
  split
  next found hfound =>
    rw [h] at hfound
    cases hfound
    rfl
  next hnone =>
    rw [h] at hnone
    cases hnone

/-- A catalog consists of the lists that it was made of, and these have no problem. -/
theorem of_ofTiers_eq_ok (h : ofTiers t = .ok c) : t.problem? = none ∧ c.tiers = t := by
  unfold ofTiers at h
  split at h
  next => cases h
  next hnone =>
    cases h
    exact ⟨hnone, rfl⟩

theorem exists_ofTiers_eq_ok_iff : (∃ c, ofTiers t = .ok c) ↔ Tiers.Sound t.placed := by
  constructor
  · rintro ⟨c, hc⟩
    rcases Tiers.sound_or_offends t.placed with
      hsound | ⟨before, place, after, problem, text, hsplit, hsound, hoffends⟩
    · exact hsound
    · have hproblem := (Tiers.problem?_of_offends hsplit hsound hoffends).1
      rw [(of_ofTiers_eq_ok hc).1] at hproblem
      cases hproblem
  · intro hsound
    unfold ofTiers
    split
    next found hfound =>
      rw [Tiers.problem?_of_sound hsound] at hfound
      cases hfound
    next => exact ⟨_, rfl⟩

theorem ofTiers_eq_error_iff :
    ofTiers t = .error problem ∧ problem.detail = text
      ↔ ∃ before place after, t.placed = before ++ place :: after ∧ Tiers.Sound before
        ∧ Tiers.Offends before place problem text := by
  constructor
  · rintro ⟨herror, rfl⟩
    rcases Tiers.sound_or_offends t.placed with
      hsound | ⟨before, place, after, found, text, hsplit, hsound, hoffends⟩
    · obtain ⟨c, hc⟩ := exists_ofTiers_eq_ok_iff.2 hsound
      cases hc.symm.trans herror
    · -- the scan finds the problem of this entry, and there is no other outcome
      obtain ⟨hfound, rfl⟩ := Tiers.problem?_of_offends hsplit hsound hoffends
      cases (ofTiers_of_problem? hfound).symm.trans herror
      exact ⟨before, place, after, hsplit, hsound, hoffends⟩
  · rintro ⟨before, place, after, hsplit, hsound, hoffends⟩
    obtain ⟨hproblem, htext⟩ := Tiers.problem?_of_offends hsplit hsound hoffends
    exact ⟨ofTiers_of_problem? hproblem, htext⟩

/-- Four lists make a catalog, and then the one that consists of them, exactly if no id
in them is blank and none is listed twice. Otherwise what is wrong is what is wrong with
the first entry, tier by tier and in list order, whose id is blank or was listed before. -/
theorem ofTiers_by_scan (anon user member owner : List CatalogEntry) :
    let scanned := anon.map (Tier.anon, ·) ++ user.map (Tier.user, ·)
      ++ member.map (Tier.member, ·) ++ owner.map (Tier.owner, ·)
    let outcome := ofTiers { anon, user, member, owner }
    ((∃ c, outcome = .ok c) ↔ Tiers.Sound scanned)
      ∧ (∀ c, outcome = .ok c → c.tiers = { anon, user, member, owner })
      ∧ ∀ problem text, outcome = .error problem ∧ problem.detail = text
        ↔ ∃ before place after, scanned = before ++ place :: after ∧ Tiers.Sound before
          ∧ Tiers.Offends before place problem text := by
  intro scanned outcome
  have hplaced : Tiers.placed { anon, user, member, owner } = scanned := by
    simp [Tiers.placed, Tier.all, Tiers.entries, scanned]
  rw [← hplaced]
  refine ⟨exists_ofTiers_eq_ok_iff, ?_, fun problem text => ofTiers_eq_error_iff⟩
  intro c hc
  exact (of_ofTiers_eq_ok hc).2

end Catalog

end ProjectAccess
