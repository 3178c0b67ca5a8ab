/-
Trees read from outside of every project.

Three questions of a tree are about the project: whether the subject is its owner, is
a member of it, and has some permission in it. `Answers.Outside` says that all three
are answered no. There are two ways to be outside. There may be no project, as with
an object that is detached; or there may be one that is private and shuts the subject
out. From outside the two look alike: without checks of the application a tree cannot
tell them apart (`verdict_of_outside`).

# Negations

A tree that asks about the project only (`Predicate.AsksProject`) is thus read with no
for every leaf (`AsksProject.value_of_outside`). Its value is not therefore no: a
negation makes yes of it. If all leaves stand under negations of the same parity, and
no conjunction or disjunction is empty, the parity is the value
(`AsksProject.value_of_sign`).
-/
import ProjectAccess.Proofs.Access.Permissions
import ProjectAccess.Proofs.Predicate.Polarity

namespace ProjectAccess

namespace Answers

/-- What is asked about the project is answered no. -/
structure Outside (a : Answers) : Prop where
  owner : a.owner = false
  member : a.member = false
  permitted : ∀ id, a.permitted id = false

/-- Every question is answered no. -/
def no : Answers := ⟨false, false, false, fun _ => false, fun _ => false⟩

theorem outside_no : no.Outside := ⟨rfl, rfl, fun _ => rfl⟩

end Answers

namespace Context

variable {c : Context} {project : Project}

/-- Without a project a subject is outside. -/
theorem outside_of_projectless (h : c.project? = none) : c.answers.Outside where
  owner := by simp only [answers, h, Option.any_none]
  member := by simp only [answers, h, Option.isSome_none, Bool.false_and]
  permitted _ := by simp only [answers, permissions?, h, Option.map_none, Option.any_none]

/-- So is who is shut out of the project. -/
theorem outside_of_shutOut (h : c.project? = some project)
    (hout : ShutOut c.subject project c.membership) : c.answers.Outside := by
  obtain ⟨hnone, hnotOwner, -⟩ := id hout
  refine ⟨Bool.eq_false_iff.2 ?owner, Bool.eq_false_iff.2 ?member,
    fun id => Bool.eq_false_iff.2 ?permitted⟩
  case owner =>
    rw [ne_eq, owner_answers_iff h]
    intro hnamed
    rw [ownerLike_iff.2 (.inl hnamed)] at hnotOwner
    cases hnotOwner
  case member =>
    rw [ne_eq, member_answers_iff h, hnone]
    rintro ⟨m, hm⟩
    cases hm
  case permitted =>
    rw [ne_eq, permitted_answers_iff h, effectivePermissions_of_shutOut hout]
    exact PermissionSet.not_mem_empty

end Context

namespace Predicate

variable {a b : Answers} {p : Predicate} {odd : Bool}

/-- From outside, trees without checks of the application depend only on whether the
subject is authenticated. -/
theorem verdict_of_outside (hfree : p.CheckFree) (ha : a.Outside) (hb : b.Outside)
    (hsubject : a.authenticated = b.authenticated) : p.verdict a = p.verdict b := by
  refine verdict_congr fun leaf hleaf => ?_
  cases leaf with
  | allowAny => rfl
  | isAuthenticated => exact hsubject
  | isAnonymous => exact congrArg (!·) hsubject
  | isProjectOwner => exact ha.owner.trans hb.owner.symm
  | isProjectMember => exact ha.member.trans hb.member.symm
  | hasPermission id => exact (ha.permitted id).trans (hb.permitted id).symm
  | not of => cases isLeaf_of_mem_leaves hleaf
  | all of => cases isLeaf_of_mem_leaves hleaf
  | any of => cases isLeaf_of_mem_leaves hleaf
  | custom check => exact absurd hleaf (hfree check)

/-- A tree that asks about the project and nothing else, in which every conjunction and
every disjunction has a member. -/
inductive AsksProject : Predicate → Prop where
  | owner : AsksProject .isProjectOwner
  | member : AsksProject .isProjectMember
  | permission (id : Permission) : AsksProject (.hasPermission id)
  | not {of : Predicate} (h : AsksProject of) : AsksProject (.not of)
  | all {of : List Predicate} (hne : of ≠ []) (h : ∀ p ∈ of, AsksProject p) : AsksProject (.all of)
  | any {of : List Predicate} (hne : of ≠ []) (h : ∀ p ∈ of, AsksProject p) : AsksProject (.any of)

namespace AsksProject

variable {leaf : Predicate}

theorem of_mem_leaves (h : p.AsksProject) (hleaf : leaf ∈ p.leaves) : leaf.AsksProject := by
  induction h with
  | owner => rw [List.mem_singleton.1 hleaf]; exact .owner
  | member => rw [List.mem_singleton.1 hleaf]; exact .member
  | permission id => rw [List.mem_singleton.1 hleaf]; exact .permission id
  | not h ih => exact ih hleaf
  | all hne h ih =>
      obtain ⟨p, hp, hleaf⟩ := mem_leavesOf.1 hleaf
      exact ih p hp hleaf
  | any hne h ih =>
      obtain ⟨p, hp, hleaf⟩ := mem_leavesOf.1 hleaf
      exact ih p hp hleaf

theorem checkFree (h : p.AsksProject) : p.CheckFree := by
  intro check hleaf
  cases h.of_mem_leaves hleaf

/-- From outside such a leaf is false. -/
theorem value_of_isLeaf (h : leaf.AsksProject) (hleaf : leaf.isLeaf = true) (ha : a.Outside) :
    leaf.value a = false := by
  cases h with
  | owner => exact ha.owner
  | member => exact ha.member
  | permission id => exact ha.permitted id
  | not h => cases hleaf
  | all hne h => cases hleaf
  | any hne h => cases hleaf

/-- From outside such a tree is read with no for every leaf. -/
theorem value_of_outside (h : p.AsksProject) (ha : a.Outside) : p.value a = p.value .no := by
  have hverdict : p.verdict a = p.verdict .no := verdict_congr fun leaf hleaf => by
    have hasks := h.of_mem_leaves hleaf
    have hisLeaf := isLeaf_of_mem_leaves hleaf
    rw [hasks.value_of_isLeaf hisLeaf ha, hasks.value_of_isLeaf hisLeaf Answers.outside_no]
  exact congrArg Verdict.answer hverdict

/-- What all members of a list are, their conjunction is, unless there is no member. -/
private theorem all_eq {of : List Predicate} {value : Predicate → Bool} {b : Bool} (hne : of ≠ [])
    (h : ∀ p ∈ of, value p = b) : of.all value = b := by
  obtain ⟨p, hp⟩ := List.exists_mem_of_ne_nil of hne
  cases b with
  | false => exact List.all_eq_false.2 ⟨p, hp, by rw [h p hp]; exact Bool.false_ne_true⟩
  | true => exact List.all_eq_true.2 h

private theorem any_eq {of : List Predicate} {value : Predicate → Bool} {b : Bool} (hne : of ≠ [])
    (h : ∀ p ∈ of, value p = b) : of.any value = b := by
  obtain ⟨p, hp⟩ := List.exists_mem_of_ne_nil of hne
  cases b with
  | false => exact List.any_eq_false.2 fun q hq => by rw [h q hq]; exact Bool.false_ne_true
  | true => exact List.any_eq_true.2 ⟨p, hp, h p hp⟩

/-- If all leaves have the same sign, the value is yes exactly if that is not the sign from
which they are counted. -/
theorem value_of_sign (h : p.AsksProject) (ha : a.Outside) {sign : Bool}
    (hsign : ∀ s leaf, (s, leaf) ∈ p.signedLeaves odd → s = sign) : p.value a = (odd != sign) := by
  induction h generalizing odd with
  | owner =>
      rw [hsign _ _ (List.mem_singleton_self _), bne_self_eq_false]
      exact ha.owner
  | member =>
      rw [hsign _ _ (List.mem_singleton_self _), bne_self_eq_false]
      exact ha.member
  | permission id =>
      rw [hsign _ _ (List.mem_singleton_self _), bne_self_eq_false]
      exact ha.permitted id
  | not h ih =>
      rw [value, ih hsign]
      cases odd <;> cases sign <;> rfl
  | all hne h ih =>
      rw [value_all]
      exact all_eq hne fun p hp => ih p hp fun s leaf hmem =>
        hsign s leaf (mem_signedLeavesOf.2 ⟨p, hp, hmem⟩)
  | any hne h ih =>
      rw [value_any]
      exact any_eq hne fun p hp => ih p hp fun s leaf hmem =>
        hsign s leaf (mem_signedLeavesOf.2 ⟨p, hp, hmem⟩)

end AsksProject

end Predicate

end ProjectAccess
