/-
What a predicate comes to, apart from the walk that finds it out.

A tree asks few questions: whether the subject is authenticated, is the owner,
is a member, has some permission, passes some check of the application. `Answers`
holds an answer to each, whatever it comes from. Under answers a tree has a plain
boolean value (`Predicate.value`), in which a conjunction is a conjunction and
nothing is skipped, and a list of the checks that are run for it
(`Predicate.trace`), in which the children after the deciding one are. The trace
tells a check by its name; the checks themselves are `Predicate.asked`.

# What is proved

- `evaluate_eq`: evaluation in a context finds exactly the value and the trace
  under the answers of that context. Nothing else of a context is ever read.
- `verdict_congr`: value and trace depend on the leaves of the tree only, and on
  each leaf only through its own value. Two contexts, or two gates, that agree on
  the leaves agree on the tree; everything that compares two evaluations below
  goes through here.
- `requiresMembership_iff`: the flag that spares the gate a lookup is raised
  exactly if some leaf, at any depth, may read the membership.

The induction over trees is `Predicate.induct`: the child lists of `all` and `any`
give a hypothesis for each of their members.
-/
import ProjectAccess.Predicate

namespace ProjectAccess

namespace Predicate

-- ============================================================= induction

/-- Induction over trees: an inner node is reached from all of its children. -/
@[elab_as_elim, induction_eliminator]
theorem induct {motive : Predicate → Prop}
    (allowAny : motive .allowAny)
    (isAuthenticated : motive .isAuthenticated)
    (isAnonymous : motive .isAnonymous)
    (isProjectOwner : motive .isProjectOwner)
    (isProjectMember : motive .isProjectMember)
    (hasPermission : ∀ id, motive (.hasPermission id))
    (not : ∀ of, motive of → motive (.not of))
    (all : ∀ of, (∀ p ∈ of, motive p) → motive (.all of))
    (any : ∀ of, (∀ p ∈ of, motive p) → motive (.any of))
    (custom : ∀ check, motive (.custom check)) (p : Predicate) : motive p := by
  refine @Predicate.rec motive (fun ps => ∀ p ∈ ps, motive p) allowAny isAuthenticated
    isAnonymous isProjectOwner isProjectMember hasPermission not all any custom ?_ ?_ p
  · intro p hp
    cases hp
  · intro head tail hhead htail p hp
    rcases List.mem_cons.1 hp with rfl | hp
    · exact hhead
    · exact htail p hp

-- ================================================================ leaves

mutual

/-- The leaves of a tree, from left to right. -/
def leaves : Predicate → List Predicate
  | not of => of.leaves
  | all of => leavesOf of
  | any of => leavesOf of
  | leaf => [leaf]

/-- The leaves of the trees of a list, from left to right. -/
def leavesOf : List Predicate → List Predicate
  | [] => []
  | p :: ps => p.leaves ++ leavesOf ps

end

/-- A leaf of a list is a leaf of one of its members. -/
theorem mem_leavesOf {leaf : Predicate} {ps : List Predicate} :
    leaf ∈ leavesOf ps ↔ ∃ p ∈ ps, leaf ∈ p.leaves := by
  induction ps with
  | nil => simp [leavesOf]
  | cons p ps ih => simp [leavesOf, ih]

/-- The tree is a leaf. -/
def isLeaf : Predicate → Bool
  | not _ | all _ | any _ => false
  | _ => true

/-- The leaves of a tree are leaves. -/
theorem isLeaf_of_mem_leaves {leaf p : Predicate} (h : leaf ∈ p.leaves) : leaf.isLeaf = true := by
  induction p with
  | not of ih => exact ih h
  | all of ih =>
      obtain ⟨p, hp, hleaf⟩ := mem_leavesOf.1 h
      exact ih p hp hleaf
  | any of ih =>
      obtain ⟨p, hp, hleaf⟩ := mem_leavesOf.1 h
      exact ih p hp hleaf
  | _ =>
      rw [List.mem_singleton.1 h]
      rfl

/-- There is no check of the application in the tree. -/
def CheckFree (p : Predicate) : Prop := ∀ check, custom check ∉ p.leaves

/-- The leaves whose answer may depend on the membership: the two that read it, and
the checks that say so. -/
inductive ReadsMembership : Predicate → Prop where
  | member : ReadsMembership .isProjectMember
  | permission (id : Permission) : ReadsMembership (.hasPermission id)
  | check (check : Check) (h : check.needsMembership = true) : ReadsMembership (.custom check)

/-- One of the members of a list requires the membership. -/
theorem anyRequiresMembership_iff {ps : List Predicate} :
    anyRequiresMembership ps = true ↔ ∃ p ∈ ps, p.requiresMembership = true := by
  induction ps with
  | nil => simp [anyRequiresMembership]
  | cons p ps ih => simp [anyRequiresMembership, ih]

/-- What the members of a list say of their own leaves, the list says of all of them. -/
private theorem anyRequiresMembership_of_members {ps : List Predicate}
    (ih : ∀ p ∈ ps, p.requiresMembership = true ↔ ∃ leaf ∈ p.leaves, leaf.ReadsMembership) :
    anyRequiresMembership ps = true ↔ ∃ leaf ∈ leavesOf ps, leaf.ReadsMembership := by
  rw [anyRequiresMembership_iff]
  constructor
  · rintro ⟨p, hp, hreq⟩
    obtain ⟨leaf, hleaf, hreads⟩ := (ih p hp).1 hreq
    exact ⟨leaf, mem_leavesOf.2 ⟨p, hp, hleaf⟩, hreads⟩
  · rintro ⟨leaf, hleaf, hreads⟩
    obtain ⟨p, hp, hleaf⟩ := mem_leavesOf.1 hleaf
    exact ⟨p, hp, (ih p hp).2 ⟨leaf, hleaf, hreads⟩⟩

/-- A tree requires the membership exactly if one of its leaves may read it. -/
theorem requiresMembership_iff {p : Predicate} :
    p.requiresMembership = true ↔ ∃ leaf ∈ p.leaves, leaf.ReadsMembership := by
  have hleaf : ∀ leaf : Predicate, leaf.leaves = [leaf] →
      (leaf.requiresMembership = true ↔ leaf.ReadsMembership) →
      (leaf.requiresMembership = true ↔ ∃ l ∈ leaf.leaves, l.ReadsMembership) := by
    intro leaf hl h
    rw [hl, h]
    simp
  induction p with
  | allowAny => exact hleaf _ rfl (iff_of_false Bool.false_ne_true nofun)
  | isAuthenticated => exact hleaf _ rfl (iff_of_false Bool.false_ne_true nofun)
  | isAnonymous => exact hleaf _ rfl (iff_of_false Bool.false_ne_true nofun)
  | isProjectOwner => exact hleaf _ rfl (iff_of_false Bool.false_ne_true nofun)
  | isProjectMember => exact hleaf _ rfl (iff_of_true rfl .member)
  | hasPermission id => exact hleaf _ rfl (iff_of_true rfl (.permission id))
  | not of ih => exact ih
  | all of ih => exact anyRequiresMembership_of_members ih
  | any of ih => exact anyRequiresMembership_of_members ih
  | custom check =>
      refine hleaf _ rfl ⟨fun h => .check check h, fun h => ?_⟩
      cases h with
      | check _ h => exact h

end Predicate

-- =============================================================== answers

/-- Answers to all questions that a leaf may ask. -/
structure Answers where
  authenticated : Bool
  /-- The subject is the owner of the project. -/
  owner : Bool
  /-- The subject is a member of the project. -/
  member : Bool
  /-- The subject has the permission in the project. -/
  permitted : Permission → Bool
  /-- The check of the application passes. -/
  passed : Check → Bool

/-- The answers that a context gives. -/
def Context.answers (c : Context) : Answers where
  authenticated := c.subject.isAuthenticated
  owner := c.project?.any fun project => c.subject.userId?.any project.isOwnedBy
  member := c.project?.isSome && c.membership.isSome
  permitted id := c.permissions?.any (·.contains id)
  passed check := check.holds c

namespace Context

variable {c : Context} {project : Project}

/-- If there is a project the three questions about it are about that project. -/
theorem owner_answers_iff (h : c.project? = some project) :
    c.answers.owner = true ↔ c.subject.userId? = some project.owner := by
  simp only [answers, h, Option.any_some, Option.any_eq_true, Project.isOwnedBy, beq_iff_eq]
  constructor
  · rintro ⟨user, huser, rfl⟩
    exact huser
  · intro huser
    exact ⟨project.owner, huser, rfl⟩

theorem member_answers_iff (h : c.project? = some project) :
    c.answers.member = true ↔ ∃ m, c.membership = some m := by
  simp only [answers, h, Option.isSome_some, Bool.true_and, Option.isSome_iff_exists]

theorem permitted_answers_iff (h : c.project? = some project) {id : Permission} :
    c.answers.permitted id = true
      ↔ id ∈ effectivePermissions c.catalog c.subject project c.membership := by
  simp only [answers, permissions?, h, Option.map_some, Option.any_some, PermissionSet.contains,
    decide_eq_true_eq]

end Context

namespace Predicate

mutual

/-- The plain boolean value of a tree. -/
def value (a : Answers) : Predicate → Bool
  | allowAny => true
  | isAuthenticated => a.authenticated
  | isAnonymous => !a.authenticated
  | isProjectOwner => a.owner
  | isProjectMember => a.member
  | hasPermission id => a.permitted id
  | not of => !of.value a
  | all of => everyValue a of
  | any of => someValue a of
  | custom check => a.passed check

/-- All of the values are true. -/
def everyValue (a : Answers) : List Predicate → Bool
  | [] => true
  | p :: ps => p.value a && everyValue a ps

/-- One of the values is true. -/
def someValue (a : Answers) : List Predicate → Bool
  | [] => false
  | p :: ps => p.value a || someValue a ps

end

mutual

/-- The checks that are run for a tree, in order. -/
def trace (a : Answers) : Predicate → List Observation
  | not of => of.trace a
  | all of => traceUntil a false of
  | any of => traceUntil a true of
  | custom check => [⟨check.name, a.passed check⟩]
  | _ => []

/-- The checks that are run for the members of a list up to and with the first one
that has the value which decides. -/
def traceUntil (a : Answers) (decides : Bool) : List Predicate → List Observation
  | [] => []
  | p :: ps => p.trace a ++ if p.value a = decides then [] else traceUntil a decides ps

end

mutual

/-- The checks that are run for a tree, in order, with all that they are. -/
def asked (a : Answers) : Predicate → List Check
  | not of => of.asked a
  | all of => askedUntil a false of
  | any of => askedUntil a true of
  | custom check => [check]
  | _ => []

/-- The same for the members of a list, up to and with the first one that has the value
which decides. -/
def askedUntil (a : Answers) (decides : Bool) : List Predicate → List Check
  | [] => []
  | p :: ps => p.asked a ++ if p.value a = decides then [] else askedUntil a decides ps

end

/-- Value and trace together. -/
def verdict (a : Answers) (p : Predicate) : Verdict := ⟨p.value a, p.trace a⟩

/-- A conjunction is true if all of its members are. -/
theorem value_all (a : Answers) (ps : List Predicate) :
    (all ps).value a = ps.all (·.value a) := by
  show everyValue a ps = _
  induction ps with
  | nil => rfl
  | cons p ps ih => rw [everyValue, ih, List.all_cons]

/-- A disjunction is true if one of its members is. -/
theorem value_any (a : Answers) (ps : List Predicate) :
    (any ps).value a = ps.any (·.value a) := by
  show someValue a ps = _
  induction ps with
  | nil => rfl
  | cons p ps ih => rw [someValue, ih, List.any_cons]

/-- What is observed of the checks that are run is their names and answers. -/
theorem trace_eq_map_asked (a : Answers) (p : Predicate) :
    p.trace a = (p.asked a).map fun check => ⟨check.name, a.passed check⟩ := by
  have hmembers : ∀ {ps : List Predicate} (decides : Bool),
      (∀ p ∈ ps, p.trace a = (p.asked a).map fun check => ⟨check.name, a.passed check⟩) →
      traceUntil a decides ps
        = (askedUntil a decides ps).map fun check => ⟨check.name, a.passed check⟩ := by
    intro ps decides ih
    induction ps with
    | nil => rfl
    | cons p ps ihs =>
        obtain ⟨hp, hps⟩ := List.forall_mem_cons.1 ih
        rw [traceUntil, askedUntil, List.map_append, hp, ihs hps]
        split <;> rfl
  induction p with
  | not of ih => exact ih
  | all of ih => exact hmembers false ih
  | any of ih => exact hmembers true ih
  | _ => rfl

-- ============================================================ evaluation

/-- Evaluation in a context finds the value and the trace under its answers. -/
theorem evaluate_eq (c : Context) (p : Predicate) : p.evaluate c = p.verdict c.answers := by
  induction p with
  | allowAny => rfl
  | isAuthenticated => rfl
  | isAnonymous => rfl
  | isProjectOwner => rfl
  | isProjectMember => rfl
  | hasPermission id => rfl
  | not of ih =>
      rw [evaluate, ih]
      rfl
  | all of ih =>
      show evaluateAll c of = ⟨everyValue c.answers of, traceUntil c.answers false of⟩
      induction of with
      | nil => rfl
      | cons p ps ihs =>
          have hp := ih p (List.mem_cons_self ..)
          have hps := ihs fun q hq => ih q (List.mem_cons_of_mem p hq)
          rw [evaluateAll, hp, hps]
          cases hv : p.value c.answers <;> simp [verdict, everyValue, traceUntil, hv]
  | any of ih =>
      show evaluateAny c of = ⟨someValue c.answers of, traceUntil c.answers true of⟩
      induction of with
      | nil => rfl
      | cons p ps ihs =>
          have hp := ih p (List.mem_cons_self ..)
          have hps := ihs fun q hq => ih q (List.mem_cons_of_mem p hq)
          rw [evaluateAny, hp, hps]
          cases hv : p.value c.answers <;> simp [verdict, someValue, traceUntil, hv]
  | custom check => rfl

-- ============================================================== congruence

/-- Members with the same verdicts make lists with the same values and traces. -/
private theorem members_congr {a b : Answers} {ps : List Predicate}
    (h : ∀ p ∈ ps, p.verdict a = p.verdict b) :
    everyValue a ps = everyValue b ps ∧ someValue a ps = someValue b ps
      ∧ ∀ decides, traceUntil a decides ps = traceUntil b decides ps := by
  induction ps with
  | nil => exact ⟨rfl, rfl, fun _ => rfl⟩
  | cons p ps ih =>
      have hp := h p (List.mem_cons_self ..)
      obtain ⟨hvalue, htrace⟩ : p.value a = p.value b ∧ p.trace a = p.trace b := by
        simpa only [verdict, Verdict.mk.injEq] using hp
      obtain ⟨hevery, hsome, hrest⟩ := ih fun q hq => h q (List.mem_cons_of_mem p hq)
      refine ⟨?_, ?_, fun decides => ?_⟩
      · rw [everyValue, everyValue, hvalue, hevery]
      · rw [someValue, someValue, hvalue, hsome]
      · rw [traceUntil, traceUntil, hvalue, htrace, hrest]

/-- Answers under which the leaves have the same values give the tree the same
verdict. -/
theorem verdict_congr {a b : Answers} {p : Predicate}
    (h : ∀ leaf ∈ p.leaves, leaf.value a = leaf.value b) : p.verdict a = p.verdict b := by
  have hmembers : ∀ {ps : List Predicate},
      (∀ p ∈ ps, (∀ leaf ∈ p.leaves, leaf.value a = leaf.value b) →
        p.verdict a = p.verdict b) →
      (∀ leaf ∈ leavesOf ps, leaf.value a = leaf.value b) →
      ∀ p ∈ ps, p.verdict a = p.verdict b := by
    intro ps ih h p hp
    exact ih p hp fun leaf hleaf => h leaf (mem_leavesOf.2 ⟨p, hp, hleaf⟩)
  induction p with
  | allowAny => rfl
  | isAuthenticated => rw [verdict, h _ (List.mem_singleton_self _)]; rfl
  | isAnonymous => rw [verdict, h _ (List.mem_singleton_self _)]; rfl
  | isProjectOwner => rw [verdict, h _ (List.mem_singleton_self _)]; rfl
  | isProjectMember => rw [verdict, h _ (List.mem_singleton_self _)]; rfl
  | hasPermission id => rw [verdict, h _ (List.mem_singleton_self _)]; rfl
  | not of ih =>
      have hof := ih h
      simp only [verdict, Verdict.mk.injEq] at hof
      rw [verdict, verdict, value, value, trace, trace, hof.1, hof.2]
  | all of ih =>
      obtain ⟨hevery, -, htrace⟩ := members_congr (hmembers ih h)
      rw [verdict, verdict, value, value, trace, trace, hevery, htrace]
  | any of ih =>
      obtain ⟨-, hsome, htrace⟩ := members_congr (hmembers ih h)
      rw [verdict, verdict, value, value, trace, trace, hsome, htrace]
  | custom check =>
      have hpassed : a.passed check = b.passed check := h _ (List.mem_singleton_self _)
      simp only [verdict, value, trace, hpassed]

end Predicate

end ProjectAccess
