/-
On which side of negation a leaf stands.

A negation turns a question round: what grows under it, shrinks above it. So a leaf
counts together with the number of negations above it, of which only the parity
matters, and `Predicate.signedLeaves` lists the leaves with it.

# What is proved

`value_moves`: a tree moves as its leaves do. If under new answers no leaf below an
even number of negations is lost and none below an odd number is gained, the tree is
not lost. Both directions go through the induction together, since a negation
exchanges them (`Moves`).

`Rises` names the trees to which this applies when somebody is given more than
before: what is asked of them is asked on the side of yes, and that somebody is
anonymous, on the side of no. `value_of_rises` is the tree read so.
-/
import ProjectAccess.Proofs.Predicate.Answers

namespace ProjectAccess

namespace Predicate

-- ========================================================= signed leaves

mutual

/-- The leaves of a tree, each with whether an odd number of negations is above it.
The first argument says so of the tree itself. -/
def signedLeaves (odd : Bool) : Predicate → List (Bool × Predicate)
  | not of => of.signedLeaves (!odd)
  | all of => signedLeavesOf odd of
  | any of => signedLeavesOf odd of
  | leaf => [(odd, leaf)]

/-- The leaves of the trees of a list, each with the parity of the negations above it. -/
def signedLeavesOf (odd : Bool) : List Predicate → List (Bool × Predicate)
  | [] => []
  | p :: ps => p.signedLeaves odd ++ signedLeavesOf odd ps

end

variable {odd : Bool} {sign : Bool × Predicate} {leaf p : Predicate} {ps : List Predicate}

theorem mem_signedLeavesOf :
    sign ∈ signedLeavesOf odd ps ↔ ∃ p ∈ ps, sign ∈ p.signedLeaves odd := by
  induction ps with
  | nil => simp [signedLeavesOf]
  | cons p ps ih => simp [signedLeavesOf, ih]

/-- Apart from the signs, these are the leaves. -/
theorem map_signedLeaves (odd : Bool) : (p.signedLeaves odd).map (·.2) = p.leaves := by
  have hmembers : ∀ {ps : List Predicate} (odd : Bool),
      (∀ p ∈ ps, ∀ odd, (p.signedLeaves odd).map (·.2) = p.leaves) →
      (signedLeavesOf odd ps).map (·.2) = leavesOf ps := by
    intro ps odd ih
    induction ps with
    | nil => rfl
    | cons p ps ihs =>
        have hp := ih p (List.mem_cons_self ..) odd
        have hps := ihs fun q hq => ih q (List.mem_cons_of_mem p hq)
        rw [signedLeavesOf, leavesOf, List.map_append, hp, hps]
  induction p generalizing odd with
  | not of ih => exact ih (!odd)
  | all of ih => exact hmembers odd ih
  | any of ih => exact hmembers odd ih
  | _ => rfl

-- ============================================================== movement

/-- From one value to the next nothing is lost, or under an odd number of negations
nothing is gained. -/
def Moves (odd before after : Bool) : Prop :=
  if odd then after = true → before = true else before = true → after = true

/-- A negation exchanges loss and gain. -/
theorem Moves.negate {before after : Bool} (h : Moves (!odd) before after) :
    Moves odd (!before) (!after) := by
  cases odd <;> cases before <;> cases after <;> simp_all [Moves]

theorem Moves.all {before after : Predicate → Bool}
    (h : ∀ p ∈ ps, Moves odd (before p) (after p)) : Moves odd (ps.all before) (ps.all after) := by
  cases odd with
  | false =>
      intro hbefore
      rw [List.all_eq_true] at hbefore ⊢
      exact fun p hp => h p hp (hbefore p hp)
  | true =>
      intro hafter
      rw [List.all_eq_true] at hafter ⊢
      exact fun p hp => h p hp (hafter p hp)

theorem Moves.any {before after : Predicate → Bool}
    (h : ∀ p ∈ ps, Moves odd (before p) (after p)) : Moves odd (ps.any before) (ps.any after) := by
  cases odd with
  | false =>
      intro hbefore
      rw [List.any_eq_true] at hbefore ⊢
      obtain ⟨p, hp, hvalue⟩ := hbefore
      exact ⟨p, hp, h p hp hvalue⟩
  | true =>
      intro hafter
      rw [List.any_eq_true] at hafter ⊢
      obtain ⟨p, hp, hvalue⟩ := hafter
      exact ⟨p, hp, h p hp hvalue⟩

/-- A tree moves as its leaves do. -/
theorem value_moves {a b : Answers}
    (h : ∀ sign leaf, (sign, leaf) ∈ p.signedLeaves odd →
      Moves sign (leaf.value a) (leaf.value b)) :
    Moves odd (p.value a) (p.value b) := by
  induction p generalizing odd with
  | not of ih => exact (ih h).negate
  | all of ih =>
      have hmembers : ∀ p ∈ of, Moves odd (p.value a) (p.value b) := fun p hp =>
        ih p hp fun sign leaf hmem => h sign leaf (mem_signedLeavesOf.2 ⟨p, hp, hmem⟩)
      rw [value_all, value_all]
      exact .all hmembers
  | any of ih =>
      have hmembers : ∀ p ∈ of, Moves odd (p.value a) (p.value b) := fun p hp =>
        ih p hp fun sign leaf hmem => h sign leaf (mem_signedLeavesOf.2 ⟨p, hp, hmem⟩)
      rw [value_any, value_any]
      exact .any hmembers
  | _ => exact h _ _ (List.mem_singleton_self _)

-- ================================================================ rising

/-- Leaves that can only become true when more is given, and under an odd number of
negations those that can only become false. The checks of the application are
neither. -/
def leafRises : Bool × Predicate → Bool
  | (_, allowAny) => true
  | (odd, isAuthenticated) => !odd
  | (odd, isProjectOwner) => !odd
  | (odd, isProjectMember) => !odd
  | (odd, hasPermission _) => !odd
  | (odd, isAnonymous) => odd
  | _ => false

/-- No question of the kind that more gifts answer with yes stands under an odd number
of negations, that somebody is anonymous is never asked under an even number, and
there are no checks of the application. -/
def rises (p : Predicate) : Bool := (p.signedLeaves false).all leafRises

theorem leafRises_of_rises (h : p.rises = true) (hmem : sign ∈ p.signedLeaves false) :
    leafRises sign = true :=
  List.all_eq_true.1 h sign hmem

theorem checkFree_of_rises (h : p.rises = true) : p.CheckFree := by
  intro check hleaf
  rw [← map_signedLeaves false, List.mem_map] at hleaf
  obtain ⟨⟨odd, _⟩, hmem, rfl⟩ := hleaf
  cases leafRises_of_rises h hmem

end Predicate

/-- Every question but that for the checks of the application that has the answer yes
keeps it. -/
structure Answers.Grow (a b : Answers) : Prop where
  authenticated : a.authenticated = true → b.authenticated = true
  owner : a.owner = true → b.owner = true
  member : a.member = true → b.member = true
  permitted : ∀ id, a.permitted id = true → b.permitted id = true

namespace Predicate

variable {a b : Answers} {p : Predicate}

/-- A leaf that rises moves with the answers. -/
theorem moves_of_leafRises {odd : Bool} {leaf : Predicate} (h : leafRises (odd, leaf) = true)
    (hgrow : a.Grow b) : Moves odd (leaf.value a) (leaf.value b) := by
  cases leaf with
  | allowAny => cases odd <;> exact id
  | isAuthenticated =>
      cases odd with
      | false => exact hgrow.authenticated
      | true => cases h
  | isAnonymous =>
      cases odd with
      | false => cases h
      | true =>
          have hmoves : Moves (!true) a.authenticated b.authenticated := hgrow.authenticated
          exact hmoves.negate
  | isProjectOwner =>
      cases odd with
      | false => exact hgrow.owner
      | true => cases h
  | isProjectMember =>
      cases odd with
      | false => exact hgrow.member
      | true => cases h
  | hasPermission id =>
      cases odd with
      | false => exact hgrow.permitted id
      | true => cases h
  | not of => cases h
  | all of => cases h
  | any of => cases h
  | custom check => cases h

/-- A tree that rises and is true stays true when the answers grow. -/
theorem value_of_rises (h : p.rises = true) (hgrow : a.Grow b) (hvalue : p.value a = true) :
    p.value b = true := by
  have hmoves : Moves false (p.value a) (p.value b) :=
    value_moves fun _ _ hmem => moves_of_leafRises (leafRises_of_rises h hmem) hgrow
  -- above no negation, to move is to be kept
  exact hmoves hvalue

end Predicate

end ProjectAccess
