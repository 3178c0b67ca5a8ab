/-
Which checks are run, told by where they stand in the tree.

A `Place` is a way down from the root: at every node the number of the child to go to.
Whether the check at a place is run depends on the way only (`Reached`): no conjunction
on it has a false child, and no disjunction a true one, to the left of the child where the
way goes on. Nothing to the right matters, and nothing that is beside the way below a
child to the left but that child's value.

# What is proved

`checks_run_by_place`: the checks that evaluation runs are those at the places that are
reached, each of them once, in the order of the places. Places are ordered by the first
node where they part, so that is the order of the tree from left to right. The places and
their order leave no choice: there is one such list.

`placed` is that list, by the same walk as `asked` but with the places kept. A node that
is passed has its child numbers put in front of what its children yield, in `placedUntil`
counted up from the number of the first. The walk is tied to the condition in one
induction over trees (`mem_placed`), through what the condition says of the first node of
the way and of the rest of it (`reached_cons`).
-/
import ProjectAccess.Proofs.Predicate.Answers

namespace ProjectAccess

namespace Predicate

-- ================================================================ places

/-- The children of a tree, from left to right. -/
def children : Predicate → List Predicate
  | not of => [of]
  | all of => of
  | any of => of
  | _ => []

/-- The way down to a place in a tree: the numbers of the children to go to. -/
abbrev Place := List Nat

/-- The tree that stands at a place. -/
def at? (p : Predicate) : Place → Option Predicate
  | [] => some p
  | i :: place => p.children[i]?.bind fun child => child.at? place

/-- No child before the one with the number decides the value of the tree. -/
def Undecided (a : Answers) (i : Nat) : Predicate → Prop
  | all of => ∀ p ∈ of.take i, p.value a = true
  | any of => ∀ p ∈ of.take i, p.value a = false
  | _ => True

/-- No node above the place is decided before the way to the place goes on from it. -/
def Reached (a : Answers) (p : Predicate) (place : Place) : Prop :=
  ∀ above i below, place = above ++ i :: below →
    ∀ node, p.at? above = some node → node.Undecided a i

variable {a : Answers} {p child : Predicate} {ps : List Predicate} {decides : Bool}
variable {place : Place} {check : Check} {i : Nat}

theorem at?_cons : p.at? (i :: place) = p.children[i]?.bind fun child => child.at? place := rfl

theorem reached_nil : p.Reached a [] := fun above i below hsplit =>
  absurd hsplit.symm (List.append_ne_nil_of_right_ne_nil above (List.cons_ne_nil i below))

/-- The root is the first node above a place. The others are those above the rest of the
place in the child. -/
theorem reached_cons :
    p.Reached a (i :: place)
      ↔ p.Undecided a i ∧ ∀ child, p.children[i]? = some child → child.Reached a place := by
  constructor
  · intro h
    refine ⟨h [] i place rfl p rfl, fun child hchild above j below hsplit node hnode => ?_⟩
    refine h (i :: above) j below (congrArg (i :: ·) hsplit) node ?_
    rw [at?_cons, hchild]
    exact hnode
  · rintro ⟨hroot, hrest⟩ above j below hsplit node hnode
    cases above with
    | nil =>
        obtain ⟨rfl, -⟩ := List.cons.inj hsplit
        cases hnode
        exact hroot
    | cons i' above =>
        obtain ⟨rfl, hplace⟩ := List.cons.inj hsplit
        obtain ⟨child, hchild, hnode⟩ := Option.bind_eq_some_iff.1 hnode
        exact hrest child hchild above j below hplace node hnode

/-- The check stands at the place, and the place is reached. -/
def Runs (a : Answers) (p : Predicate) (place : Place) (check : Check) : Prop :=
  p.at? place = some (custom check) ∧ p.Reached a place

/-- A check below the root is run if its child is come to and it is run for the child. -/
theorem runs_cons :
    p.Runs a (i :: place) check
      ↔ p.Undecided a i ∧ ∃ child, p.children[i]? = some child ∧ child.Runs a place check := by
  unfold Runs
  rw [reached_cons, at?_cons, Option.bind_eq_some_iff]
  constructor
  · rintro ⟨⟨child, hchild, hat⟩, hroot, hrest⟩
    exact ⟨hroot, child, hchild, hat, hrest child hchild⟩
  · rintro ⟨hroot, child, hchild, hat, hreached⟩
    refine ⟨⟨child, hchild, hat⟩, hroot, fun child' hchild' => ?_⟩
    rw [hchild] at hchild'
    cases hchild'
    exact hreached

-- ============================================================== the walk

/-- What is at a place in a child with a number, as it is in the parent. -/
def under (i : Nat) : Place × Check → Place × Check := Prod.map (i :: ·) id

mutual

/-- The checks that are run for a tree, in order, each with its place. -/
def placed (a : Answers) : Predicate → List (Place × Check)
  | not of => (of.placed a).map (under 0)
  | all of => placedUntil a false 0 of
  | any of => placedUntil a true 0 of
  | custom check => [([], check)]
  | _ => []

/-- The same for children that are numbered from `i`, up to and with the first one that
has the value which decides. -/
def placedUntil (a : Answers) (decides : Bool) (i : Nat) : List Predicate → List (Place × Check)
  | [] => []
  | p :: ps =>
    (p.placed a).map (under i)
      ++ if p.value a = decides then [] else placedUntil a decides (i + 1) ps

end

theorem mem_map_under {run : List (Place × Check)} :
    (place, check) ∈ run.map (under i) ↔ ∃ rest, place = i :: rest ∧ (rest, check) ∈ run := by
  rw [List.mem_map]
  constructor
  · rintro ⟨⟨rest, _⟩, hmem, heq⟩
    cases heq
    exact ⟨rest, rfl, hmem⟩
  · rintro ⟨rest, rfl, hmem⟩
    exact ⟨(rest, check), hmem, rfl⟩

/-- Among numbered children, those of a child are run if no child before it decides. -/
theorem mem_placedUntil :
    (place, check) ∈ placedUntil a decides i ps
      ↔ ∃ j rest child, place = (i + j) :: rest ∧ ps[j]? = some child
          ∧ (∀ q ∈ ps.take j, q.value a ≠ decides) ∧ (rest, check) ∈ child.placed a := by
  induction ps generalizing i with
  | nil => simp [placedUntil]
  | cons p ps ih =>
      rw [placedUntil, List.mem_append, mem_map_under]
      constructor
      · rintro (⟨rest, rfl, hmem⟩ | hothers)
        · exact ⟨0, rest, p, rfl, rfl, nofun, hmem⟩
        · split at hothers
          next => cases hothers
          next hp =>
            obtain ⟨j, rest, child, rfl, hchild, hbefore, hmem⟩ := ih.1 hothers
            refine ⟨j + 1, rest, child, by rw [Nat.add_right_comm, Nat.add_assoc], hchild, ?_, hmem⟩
            rw [List.take_succ_cons]
            exact List.forall_mem_cons.2 ⟨hp, hbefore⟩
      · rintro ⟨j, rest, child, rfl, hchild, hbefore, hmem⟩
        cases j with
        | zero =>
            cases hchild
            exact .inl ⟨rest, rfl, hmem⟩
        | succ j =>
            rw [List.take_succ_cons] at hbefore
            obtain ⟨hp, hbefore⟩ := List.forall_mem_cons.1 hbefore
            rw [if_neg hp]
            refine .inr (ih.2 ⟨j, rest, child, ?_, hchild, hbefore, hmem⟩)
            rw [Nat.add_right_comm, Nat.add_assoc]

/-- The walk comes to the root only if that is a check. -/
theorem mem_placed_nil : ([], check) ∈ p.placed a ↔ p.at? [] = some (custom check) := by
  have hbelow : ∀ {decides : Bool} {ps : List Predicate},
      ([], check) ∉ placedUntil a decides 0 ps := by
    intro decides ps hmem
    obtain ⟨_, _, _, hplace, -⟩ := mem_placedUntil.1 hmem
    cases hplace
  cases p with
  | not of =>
      refine iff_of_false (fun hmem => ?_) nofun
      obtain ⟨_, hplace, -⟩ := mem_map_under.1 hmem
      cases hplace
  | all of => exact iff_of_false hbelow nofun
  | any of => exact iff_of_false hbelow nofun
  | custom check' => simp [placed, at?, eq_comm]
  | _ => exact iff_of_false List.not_mem_nil nofun

/-- It goes on from the root to a child if no child before that one decides. -/
theorem mem_placed_cons :
    (i :: place, check) ∈ p.placed a
      ↔ p.Undecided a i
        ∧ ∃ child, p.children[i]? = some child ∧ (place, check) ∈ child.placed a := by
  have hjunction : ∀ {decides : Bool} {ps : List Predicate},
      (i :: place, check) ∈ placedUntil a decides 0 ps
        ↔ (∀ q ∈ ps.take i, q.value a ≠ decides)
          ∧ ∃ child, ps[i]? = some child ∧ (place, check) ∈ child.placed a := by
    intro decides ps
    rw [mem_placedUntil]
    constructor
    · rintro ⟨j, rest, child, hplace, hchild, hbefore, hmem⟩
      rw [Nat.zero_add] at hplace
      cases hplace
      exact ⟨hbefore, child, hchild, hmem⟩
    · rintro ⟨hbefore, child, hchild, hmem⟩
      exact ⟨i, place, child, by rw [Nat.zero_add], hchild, hbefore, hmem⟩
  cases p with
  | not of =>
      rw [placed, mem_map_under]
      constructor
      · rintro ⟨rest, hplace, hmem⟩
        cases hplace
        exact ⟨trivial, of, rfl, hmem⟩
      · rintro ⟨-, child, hchild, hmem⟩
        obtain ⟨rfl, rfl⟩ : i = 0 ∧ of = child := by
          simpa [children, List.getElem?_singleton] using hchild
        exact ⟨place, rfl, hmem⟩
  | all of =>
      rw [placed, hjunction]
      simp only [ne_eq, Bool.not_eq_false]
      rfl
  | any of =>
      rw [placed, hjunction]
      simp only [ne_eq, Bool.not_eq_true]
      rfl
  | _ =>
      -- there is no child to go to
      refine iff_of_false (by simp [placed]) ?_
      rintro ⟨-, child, hchild, -⟩
      cases hchild

/-- The walk comes to the checks at the places that are reached, and to no others. -/
theorem mem_placed : (place, check) ∈ p.placed a ↔ p.Runs a place check := by
  induction place generalizing p with
  | nil => rw [mem_placed_nil, Runs, and_iff_left reached_nil]
  | cons i place ih =>
      rw [mem_placed_cons, runs_cons]
      simp only [ih]

/-- It comes to places on the left first. -/
theorem pairwise_placed (a : Answers) (p : Predicate) :
    (p.placed a).Pairwise fun x y => x.1 < y.1 := by
  have hunder : ∀ {run : List (Place × Check)} (i : Nat), run.Pairwise (fun x y => x.1 < y.1) →
      (run.map (under i)).Pairwise fun x y => x.1 < y.1 := by
    intro run i h
    refine List.pairwise_map.2 (h.imp fun hlt => ?_)
    exact List.cons_lt_cons_iff.2 (.inr ⟨rfl, hlt⟩)
  have hmembers : ∀ {ps : List Predicate} (decides : Bool) (i : Nat),
      (∀ p ∈ ps, (p.placed a).Pairwise fun x y => x.1 < y.1) →
      (placedUntil a decides i ps).Pairwise fun x y => x.1 < y.1 := by
    intro ps decides i ih
    induction ps generalizing i with
    | nil => exact .nil
    | cons p ps ihs =>
        obtain ⟨hp, hps⟩ := List.forall_mem_cons.1 ih
        rw [placedUntil]
        refine List.pairwise_append.2 ⟨hunder i hp, ?_, ?_⟩
        · split
          · exact .nil
          · exact ihs (i + 1) hps
        · rintro ⟨x, _⟩ hx ⟨y, _⟩ hy
          -- what comes after a child has a higher number in front
          obtain ⟨x, rfl, -⟩ := mem_map_under.1 hx
          split at hy
          · cases hy
          · obtain ⟨j, y, _, rfl, -⟩ := mem_placedUntil.1 hy
            exact List.cons_lt_cons_iff.2 (.inl (by omega))
  induction p with
  | not of ih => exact hunder 0 ih
  | all of ih => exact hmembers false 0 ih
  | any of ih => exact hmembers true 0 ih
  | custom check => exact List.pairwise_singleton _ _
  | _ => exact .nil

/-- Without the places it is the walk that tells the checks. -/
theorem map_snd_placed (a : Answers) (p : Predicate) : (p.placed a).map Prod.snd = p.asked a := by
  have hunder : ∀ {run : List (Place × Check)} {i : Nat},
      (run.map (under i)).map Prod.snd = run.map Prod.snd := by
    intro run i
    rw [List.map_map]
    rfl
  have hmembers : ∀ {ps : List Predicate} (decides : Bool) (i : Nat),
      (∀ p ∈ ps, (p.placed a).map Prod.snd = p.asked a) →
      (placedUntil a decides i ps).map Prod.snd = askedUntil a decides ps := by
    intro ps decides i ih
    induction ps generalizing i with
    | nil => rfl
    | cons p ps ihs =>
        obtain ⟨hp, hps⟩ := List.forall_mem_cons.1 ih
        rw [placedUntil, askedUntil, List.map_append, hunder, hp]
        split
        · rfl
        · rw [ihs (i + 1) hps]
  induction p with
  | not of ih => exact hunder.trans ih
  | all of ih => exact hmembers false 0 ih
  | any of ih => exact hmembers true 0 ih
  | _ => rfl

-- ========================================================== main result

/-- Evaluation finds the plain boolean value of a tree. The checks that it runs are those
that stand at a place that is reached, where every child of a conjunction before the one
that the way goes on to is true, and every such child of a disjunction is false. Each of
them is run once, in the order of their places from left to right. -/
theorem checks_run_by_place (p : Predicate) (c : Context) :
    (p.evaluate c).answer = p.value c.answers
      ∧ ∃ run : List (Place × Check),
          (p.evaluate c).observed = run.map (fun (_, check) => ⟨check.name, check.holds c⟩)
          ∧ run.Pairwise (fun x y => x.1 < y.1)
          ∧ ∀ place check, (place, check) ∈ run
              ↔ p.at? place = some (custom check) ∧ p.Reached c.answers place := by
  rw [evaluate_eq]
  refine ⟨rfl, p.placed c.answers, ?_, pairwise_placed _ _, fun _ _ => mem_placed⟩
  show p.trace c.answers = _
  rw [trace_eq_map_asked, ← map_snd_placed, List.map_map]
  rfl

end Predicate

end ProjectAccess
