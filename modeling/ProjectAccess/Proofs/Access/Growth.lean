/-
Who is given more keeps what was had.

A situation is what permissions are computed from: a subject, a project, and the
membership of the one in the other. `Situation.AtMost` orders situations by what is
given in them. Somebody anonymous may log in, a project may open up and give more to
everybody, a membership may come about, its role may grant more, and its flag may be
set; all of that may happen at once.

The difficulty is the privacy of projects, which takes away whatever was accumulated.
It takes from strangers only, and nobody becomes a stranger on the way up
(`AtMost.not_shutOut`): a member stays a member, the owner stays the owner, and a
project that was open stays open.
-/
import ProjectAccess.Proofs.Access.Permissions
import ProjectAccess.Proofs.Predicate.Polarity

namespace ProjectAccess

/-- A subject, a project, and the membership of the subject in the project. -/
structure Situation where
  subject : Subject
  project : Project
  membership : Option Membership
  deriving DecidableEq

namespace Situation

/-- What the subject may do in the project. -/
def permissions (s : Situation) (catalog : Catalog) : PermissionSet :=
  effectivePermissions catalog s.subject s.project s.membership

/-- What a predicate is evaluated for if an action on a resource is asked for. -/
def context (s : Situation) (catalog : Catalog) (resource : Resource) (action : Action) :
    Context :=
  ⟨catalog, s.subject, resource, action, s.membership⟩

/-- In the second situation at least as much is given as in the first. -/
structure AtMost (s s' : Situation) : Prop where
  subject : s'.subject = s.subject
    ∨ s.subject = .anonymous ∧ s.membership = none ∧ ∃ user, s'.subject = .user user
  id : s'.project.id = s.project.id
  owner : s'.project.owner = s.project.owner
  anon : ∀ id ∈ s.project.anonPermissions, id ∈ s'.project.anonPermissions
  registered : ∀ id ∈ s.project.publicPermissions, id ∈ s'.project.publicPermissions
  opened : s'.project.isPrivate = true → s.project.isPrivate = true
  membership : ∀ m, s.membership = some m → ∃ m', s'.membership = some m'
    ∧ (∀ id ∈ m.role.permissions, id ∈ m'.role.permissions)
    ∧ (m.isOwner = true → m'.isOwner = true)

variable {s s' : Situation} {catalog : Catalog}

theorem AtMost.userId? (h : s.AtMost s') {user : UserId} (huser : s.subject.userId? = some user) :
    s'.subject.userId? = some user := by
  rcases h.subject with hsame | ⟨hanonymous, -, -⟩
  · rw [hsame, huser]
  · rw [hanonymous] at huser
    cases huser

theorem AtMost.isAuthenticated (h : s.AtMost s') (hsubject : s.subject.isAuthenticated = true) :
    s'.subject.isAuthenticated = true := by
  rcases h.subject with hsame | ⟨-, -, user, huser⟩
  · rw [hsame, hsubject]
  · rw [huser]
    rfl

theorem AtMost.ownerLike (h : s.AtMost s')
    (howner : ownerLike s.subject s.project s.membership = true) :
    ProjectAccess.ownerLike s'.subject s'.project s'.membership = true := by
  rw [ownerLike_iff] at howner ⊢
  rcases howner with hnamed | ⟨m, hm, hflag⟩
  · exact .inl (h.owner ▸ h.userId? hnamed)
  · obtain ⟨m', hm', -, hflag'⟩ := h.membership m hm
    exact .inr ⟨m', hm', hflag' hflag⟩

/-- Nobody comes to be shut out. -/
theorem AtMost.not_shutOut (h : s.AtMost s')
    (hin : ¬ ShutOut s.subject s.project s.membership) :
    ¬ ShutOut s'.subject s'.project s'.membership := by
  rintro ⟨hnone, hnotOwner, hprivate⟩
  refine hin ⟨?_, ?_, h.opened hprivate⟩
  · cases hm : s.membership with
    | none => rfl
    | some m =>
        obtain ⟨m', hm', -⟩ := h.membership m hm
        rw [hnone] at hm'
        cases hm'
  · cases howner : ProjectAccess.ownerLike s.subject s.project s.membership with
    | false => rfl
    | true =>
        rw [h.ownerLike howner] at hnotOwner
        cases hnotOwner

theorem AtMost.permissions (h : s.AtMost s') {id : Permission}
    (hid : id ∈ s.permissions catalog) : id ∈ s'.permissions catalog := by
  obtain ⟨hin, hsource⟩ := mem_effectivePermissions.1 hid
  refine mem_effectivePermissions.2 ⟨h.not_shutOut hin, ?_⟩
  cases hsource with
  | everybody hid => exact .everybody (h.anon id hid)
  | authenticated hsubject hid =>
      exact .authenticated (h.isAuthenticated hsubject) (h.registered id hid)
  | role hmember hid =>
      obtain ⟨m', hm', hgrants, -⟩ := h.membership _ hmember
      exact .role hm' (hgrants id hid)
  | ownership howner hid => exact .ownership (h.ownerLike howner) hid

-- ============================================================== answers

variable {resource resource' : Resource} {action : Action}

/-- Every question that is answered yes keeps that answer. -/
theorem AtMost.answers (h : s.AtMost s') (hproject : resource.project? = some s.project)
    (hproject' : resource'.project? = some s'.project) :
    (s.context catalog resource action).answers.Grow
      (s'.context catalog resource' action).answers := by
  have hbefore : (s.context catalog resource action).project? = some s.project := hproject
  have hafter : (s'.context catalog resource' action).project? = some s'.project := hproject'
  refine ⟨h.isAuthenticated, fun hyes => ?owner, fun hyes => ?member, fun id hyes => ?permitted⟩
  case owner =>
    rw [Context.owner_answers_iff hbefore] at hyes
    rw [Context.owner_answers_iff hafter, h.owner]
    exact h.userId? hyes
  case member =>
    obtain ⟨m, hm⟩ := (Context.member_answers_iff hbefore).1 hyes
    obtain ⟨m', hm', -⟩ := h.membership m hm
    exact (Context.member_answers_iff hafter).2 ⟨m', hm'⟩
  case permitted =>
    rw [Context.permitted_answers_iff hbefore] at hyes
    rw [Context.permitted_answers_iff hafter]
    exact h.permissions hyes

/-- A tree that rises and is true stays true. -/
theorem AtMost.evaluate (h : s.AtMost s') (hproject : resource.project? = some s.project)
    (hproject' : resource'.project? = some s'.project) {p : Predicate} (hrises : p.rises = true)
    (htrue : (p.evaluate (s.context catalog resource action)).answer = true) :
    (p.evaluate (s'.context catalog resource' action)).answer = true := by
  rw [Predicate.evaluate_eq] at htrue ⊢
  exact Predicate.value_of_rises hrises (h.answers hproject hproject') htrue

end Situation

end ProjectAccess
