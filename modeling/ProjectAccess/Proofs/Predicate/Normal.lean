/-
Negation normal form: every negation of a tree pushed to a leaf.

A negation above a conjunction goes to the members and makes a disjunction of it, one
above a disjunction makes a conjunction, and two in a row go away. `Predicate.push` does
all of it in one walk, which is told whether an odd number of negations has been left
behind on the way down. Members keep their order, so that the list of a conjunction read
up to the first false member is the list of the disjunction of their negations read up
to the first true one.

# What is proved

`nnf_observed_alike`: nobody can tell a tree from its normal form. In every context both
have the same answer, and the same checks of the application are run for it, in the same
order and with the same answers; and both require the membership or neither does.

The walk is followed for both parities at once, in three inductions over the tree: its
value is turned round if the parity is odd (`value_push`), the checks that are run stay
(`asked_push`), and so does each leaf with the parity of the negations above it
(`signedLeaves_push`), from which the tree requires the membership or not.
-/
import ProjectAccess.Proofs.Predicate.Polarity

namespace ProjectAccess

namespace Predicate

variable {a : Answers} {odd decides : Bool} {p : Predicate} {ps : List Predicate}

-- ============================================================= junctions

/-- The conjunction of trees if `false` decides, their disjunction if `true` does. -/
def junction (decides : Bool) (of : List Predicate) : Predicate :=
  if decides then any of else all of

/-- A junction has the value that decides exactly if some member has it. -/
theorem value_junction :
    (junction decides ps).value a = (decides == ps.any fun p => p.value a == decides) := by
  cases decides with
  | false =>
      show (all ps).value a = _
      rw [value_all]
      simp [List.any_eq_not_all_not]
  | true =>
      show (any ps).value a = _
      rw [value_any]
      simp

theorem asked_junction : (junction decides ps).asked a = askedUntil a decides ps := by
  cases decides <;> rfl

theorem signedLeaves_junction :
    (junction decides ps).signedLeaves odd = signedLeavesOf odd ps := by
  cases decides <;> rfl

-- =============================================================== pushing

mutual

/-- The tree, or its negation if the parity is odd, with all negations at the leaves. -/
def push (odd : Bool) : Predicate → Predicate
  | not of => of.push (!odd)
  | all of => junction odd (pushEach odd of)
  | any of => junction (!odd) (pushEach odd of)
  | leaf => if odd then not leaf else leaf

/-- The same for each tree of a list. -/
def pushEach (odd : Bool) : List Predicate → List Predicate
  | [] => []
  | p :: ps => p.push odd :: pushEach odd ps

end

/-- The negation normal form of a tree. -/
def nnf (p : Predicate) : Predicate := p.push false

theorem pushEach_eq_map : pushEach odd ps = ps.map (push odd) := by
  induction ps with
  | nil => rfl
  | cons p ps ih => rw [pushEach, ih, List.map_cons]

@[simp] theorem nnf_not_not : (not (not p)).nnf = p.nnf := rfl

@[simp] theorem nnf_not_all : (not (all ps)).nnf = any (ps.map fun p => (not p).nnf) :=
  congrArg any pushEach_eq_map

@[simp] theorem nnf_not_any : (not (any ps)).nnf = all (ps.map fun p => (not p).nnf) :=
  congrArg all pushEach_eq_map

/-- The trees with negations above leaves only, one at most. -/
inductive Normal : Predicate → Prop where
  | leaf {leaf : Predicate} (h : leaf.isLeaf = true) : Normal leaf
  | notLeaf {leaf : Predicate} (h : leaf.isLeaf = true) : Normal (.not leaf)
  | junction {decides : Bool} {of : List Predicate} (h : ∀ p ∈ of, Normal p) :
      Normal (junction decides of)

theorem normal_push (odd : Bool) (p : Predicate) : (p.push odd).Normal := by
  have hmembers : ∀ {ps : List Predicate} {decides odd : Bool},
      (∀ p ∈ ps, ∀ odd, (p.push odd).Normal) → (junction decides (pushEach odd ps)).Normal := by
    intro ps decides odd ih
    refine .junction fun q hq => ?_
    rw [pushEach_eq_map] at hq
    obtain ⟨p, hp, rfl⟩ := List.mem_map.1 hq
    exact ih p hp odd
  induction p generalizing odd with
  | not of ih => exact ih (!odd)
  | all of ih => exact hmembers ih
  | any of ih => exact hmembers ih
  | _ =>
      cases odd with
      | false => exact .leaf rfl
      | true => exact .notLeaf rfl

-- ========================================================= what is kept

/-- The value of what is pushed is that of the tree, turned round if the parity is odd. -/
theorem value_push (a : Answers) (odd : Bool) (p : Predicate) :
    (p.push odd).value a = (odd != p.value a) := by
  have hmembers : ∀ {ps : List Predicate} (decides odd : Bool),
      (∀ p ∈ ps, ∀ odd, (p.push odd).value a = (odd != p.value a)) →
      (junction (odd != decides) (pushEach odd ps)).value a
        = (odd != (junction decides ps).value a) := by
    intro ps decides odd ih
    -- a member decides the new junction exactly if it decided the old one
    have hsome : (ps.any fun p => (p.push odd).value a == (odd != decides))
        = ps.any fun p => p.value a == decides := by
      rw [Bool.eq_iff_iff, List.any_eq_true, List.any_eq_true]
      refine exists_congr fun p => and_congr_right fun hp => ?_
      rw [ih p hp odd]
      cases odd <;> simp
    rw [value_junction, value_junction, pushEach_eq_map, List.any_map]
    show ((odd != decides) == ps.any fun p => (p.push odd).value a == (odd != decides)) = _
    rw [hsome]
    cases odd <;> cases decides <;> simp
  induction p generalizing odd with
  | not of ih =>
      show (of.push (!odd)).value a = (odd != !of.value a)
      rw [ih]
      cases odd <;> simp
  | all of ih =>
      have hof := hmembers false odd ih
      rw [Bool.bne_false] at hof
      exact hof
  | any of ih =>
      have hof := hmembers true odd ih
      rw [Bool.bne_true] at hof
      exact hof
  | _ => cases odd <;> simp [push, value]

/-- The checks that are run stay the same, whatever the parity. -/
theorem asked_push (a : Answers) (odd : Bool) (p : Predicate) :
    (p.push odd).asked a = p.asked a := by
  have hmembers : ∀ {ps : List Predicate} (decides odd : Bool),
      (∀ p ∈ ps, ∀ odd, (p.push odd).asked a = p.asked a) →
      askedUntil a (odd != decides) (pushEach odd ps) = askedUntil a decides ps := by
    intro ps decides odd ih
    induction ps with
    | nil => rfl
    | cons p ps ihs =>
        obtain ⟨hp, hps⟩ := List.forall_mem_cons.1 ih
        rw [pushEach, askedUntil, askedUntil, hp, ihs hps, value_push]
        cases odd <;> simp
  induction p generalizing odd with
  | not of ih => exact ih (!odd)
  | all of ih =>
      have hof := hmembers false odd ih
      rw [Bool.bne_false, ← asked_junction] at hof
      exact hof
  | any of ih =>
      have hof := hmembers true odd ih
      rw [Bool.bne_true, ← asked_junction] at hof
      exact hof
  | _ => cases odd <;> rfl

/-- The leaves stay, and each is under an odd number of negations if it was. -/
theorem signedLeaves_push (odd : Bool) (p : Predicate) :
    (p.push odd).signedLeaves false = p.signedLeaves odd := by
  have hmembers : ∀ {ps : List Predicate} (odd : Bool),
      (∀ p ∈ ps, ∀ odd, (p.push odd).signedLeaves false = p.signedLeaves odd) →
      signedLeavesOf false (pushEach odd ps) = signedLeavesOf odd ps := by
    intro ps odd ih
    induction ps with
    | nil => rfl
    | cons p ps ihs =>
        obtain ⟨hp, hps⟩ := List.forall_mem_cons.1 ih
        rw [pushEach, signedLeavesOf, signedLeavesOf, hp, ihs hps]
  induction p generalizing odd with
  | not of ih => exact ih (!odd)
  | all of ih => exact signedLeaves_junction.trans (hmembers odd ih)
  | any of ih => exact signedLeaves_junction.trans (hmembers odd ih)
  | _ => cases odd <;> rfl

/-- Trees with the same leaves require the membership alike. -/
theorem requiresMembership_congr {q : Predicate} (h : p.leaves = q.leaves) :
    p.requiresMembership = q.requiresMembership := by
  rw [Bool.eq_iff_iff, requiresMembership_iff, requiresMembership_iff, h]

-- ========================================================== main result

/-- A tree and its negation normal form are observed alike: both require the membership
or neither does, and in every context they have the same answer, after the same checks of
the application in the same order and with the same answers. -/
theorem nnf_observed_alike (p : Predicate) :
    p.nnf.Normal
      ∧ p.nnf.requiresMembership = p.requiresMembership
      ∧ ∀ c : Context,
        p.nnf.evaluate c = p.evaluate c
          ∧ p.nnf.asked c.answers = p.asked c.answers
          ∧ (p.evaluate c).observed
              = (p.asked c.answers).map fun check => ⟨check.name, check.holds c⟩ := by
  have hleaves : p.nnf.leaves = p.leaves := by
    rw [← map_signedLeaves false, ← map_signedLeaves false, nnf, signedLeaves_push]
  refine ⟨normal_push false p, requiresMembership_congr hleaves, fun c => ?_⟩
  have hasked : p.nnf.asked c.answers = p.asked c.answers := asked_push _ _ _
  have hvalue : p.nnf.value c.answers = p.value c.answers :=
    (value_push _ _ _).trans (Bool.false_bne _)
  have htrace : p.nnf.trace c.answers = p.trace c.answers := by
    rw [trace_eq_map_asked, hasked, ← trace_eq_map_asked]
  refine ⟨?_, hasked, ?_⟩
  · rw [evaluate_eq, evaluate_eq, verdict, hvalue, htrace, verdict]
  · rw [evaluate_eq]
    exact trace_eq_map_asked _ _

end Predicate

end ProjectAccess
