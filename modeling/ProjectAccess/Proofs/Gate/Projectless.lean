/-
Targets that belong to no project.

A detached object and a collection have no project, so what a guard asks about the
project is answered no. `authorize_projectless` says what becomes of a guard that asks
about nothing else: the gate decides by the value that the guard has as a Boolean
formula with no for every leaf.

That is a denial if every leaf stands under an even number of negations. It is not one
in general, and if every leaf stands under an odd number the subject is let through,
whoever it is: without a project `not` is granted what the project would have to deny
(`not_forall_detached_denied`).
-/
import ProjectAccess.Proofs.Gate.Rulings
import ProjectAccess.Proofs.Predicate.Outside

namespace ProjectAccess

namespace Gate

/-- On a target without a project, a guard that asks about the project only is decided by
its value if every answer is no. That is a denial if all of its leaves stand under an
even number of negations, and no denial if all stand under an odd number. -/
theorem authorize_projectless (g : Gate) (store : MemberKey → Lookup) (subject : Subject)
    (resource : Resource) (action : Action) (guard : Predicate)
    (hsuper : subject.isSuperuser = false) (hproject : resource.project? = none)
    (hguard : g.registry.guard? resource.type action = some guard)
    (hasks : guard.AsksProject) :
    ((g.authorize subject resource action).answeredBy store).answer
        = .ok ⟨guard.value .no, .policyEvaluated⟩
      ∧ ∀ sign, (∀ s leaf, (s, leaf) ∈ guard.signedLeaves false → s = sign) →
        ((g.authorize subject resource action).answeredBy store).answer
          = .ok ⟨sign, .policyEvaluated⟩ := by
  have hout : (Context.answers ⟨g.catalog, subject, resource, action, none⟩).Outside :=
    Context.outside_of_projectless hproject
  have hanswer : ((g.authorize subject resource action).answeredBy store).answer
      = .ok ⟨guard.value .no, .policyEvaluated⟩ := by
    have hfree : ∀ p, g.registry.guard? resource.type action = some p → p.CheckFree := by
      intro p hp
      rw [hguard] at hp
      cases hp
      exact hasks.checkFree
    rw [answer_authorize (membershipIn_of_project?_none hproject) hfree,
      ruling_guarded hsuper hguard, Predicate.evaluate_eq, Predicate.verdict,
      hasks.value_of_outside hout]
  refine ⟨hanswer, fun sign hsign => ?_⟩
  rw [hanswer, hasks.value_of_sign Answers.outside_no hsign, Bool.false_bne]

/-- A conjunction of a question about the membership and a double negation. -/
def workers : Predicate := .all [.isProjectMember, .not (.not (.hasPermission "edit"))]

/-- Its leaves stand under an even number of negations, so it denies a user the page that
belongs to no project. -/
theorem authorize_detached_page_denied :
    workers.AsksProject
      ∧ (∀ s leaf, (s, leaf) ∈ workers.signedLeaves false → s = false)
      ∧ (((guarding "page" Action.update workers).authorize (.registered ⟨7⟩)
            (.object "page" none) Action.update).answeredBy fun _ => .ok none).answer
          = .ok ⟨false, .policyEvaluated⟩ := by
  have hasks : workers.AsksProject := by
    refine .all (List.cons_ne_nil _ _) ?_
    simp only [List.forall_mem_cons]
    exact ⟨.member, .not (.not (.permission "edit")), nofun⟩
  have heven : ∀ s leaf, (s, leaf) ∈ workers.signedLeaves false → s = false := by
    intro s leaf hmem
    simp only [workers, Predicate.signedLeaves, Predicate.signedLeavesOf, List.append_nil,
      List.cons_append, List.nil_append, List.mem_cons, List.not_mem_nil, Prod.mk.injEq,
      Bool.not_false, Bool.not_true, or_false] at hmem
    rcases hmem with ⟨hs, -⟩ | ⟨hs, -⟩ <;> exact hs
  exact ⟨hasks, heven, (authorize_projectless _ _ _ (.object "page" none) _ _ rfl rfl
    guard?_guarding hasks).2 false heven⟩

/-- Behind a guard that keeps the owner out, a page that belongs to no project is open to
a user without any standing. -/
theorem not_forall_detached_denied :
    ¬ ∀ (g : Gate) (store : MemberKey → Lookup) (subject : Subject) (resource : Resource)
        (action : Action) (guard : Predicate),
      subject.isSuperuser = false → resource.project? = none →
      g.registry.guard? resource.type action = some guard → guard.AsksProject →
      ∃ reason, ((g.authorize subject resource action).answeredBy store).answer
        = .ok ⟨false, reason⟩ := by
  intro hdenied
  obtain ⟨reason, hanswer⟩ := hdenied (guarding "page" Action.update (.not .isProjectOwner))
    (fun _ => .ok none) (.registered ⟨7⟩) (.object "page" none) Action.update
    (.not .isProjectOwner) rfl rfl guard?_guarding (.not .owner)
  have hallowed : (((guarding "page" Action.update (.not .isProjectOwner)).authorize
      (.registered ⟨7⟩) (.object "page" none) Action.update).answeredBy
      fun _ => .ok none).answer = .ok ⟨true, .policyEvaluated⟩ := rfl
  rw [hallowed] at hanswer
  cases hanswer

end Gate

end ProjectAccess
