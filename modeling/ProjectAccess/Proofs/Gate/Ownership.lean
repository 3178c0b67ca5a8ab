/-
No privilege of owners without ownership.

Some permissions are for owners: those that a catalog lists in its last tier. They come
with ownership, and this file says that they come with nothing else, whatever has been
done to the directory, as long as every role handed in was accepted
(`Catalog.checkRole`) and the project gives none of them away itself.

Four parts have to hold together for that. The tiers do not overlap
(`Catalog.tier_unique`), so a role that is accepted carries no such permission. Roles
come into the directory from outside only (`Directory.roles_run`). The membership that
the gate is told of is the one that is stored. And of the four sources of a permission
(`Source`) none but ownership is then left.
-/
import ProjectAccess.Proofs.Access.Permissions
import ProjectAccess.Proofs.Catalog.Tiers
import ProjectAccess.Proofs.Directory.Runs
import ProjectAccess.Proofs.Gate.Lookups

namespace ProjectAccess

/-- The titles to a project: the project names the subject as its owner, or the membership
of the subject is flagged. -/
inductive Owns (d : Directory) (project : Project) : Subject → Prop where
  | named {user : User} (h : user.id = project.owner) : Owns d project (.user user)
  | flagged {user : User} {m : Membership} (hm : d.lookup ⟨user.id, project.id⟩ = some m)
      (hflag : m.isOwner = true) : Owns d project (.user user)

variable {d : Directory} {project : Project} {subject : Subject} {catalog : Catalog}

/-- The membership of a subject in a project that is stored in the directory. -/
def Directory.membership? (d : Directory) (project : Project) (subject : Subject) :
    Option Membership :=
  subject.userId?.bind fun user => d.lookup ⟨user, project.id⟩

/-- The titles are those by which a subject has the rights of an owner. -/
theorem owns_iff :
    Owns d project subject ↔ ownerLike subject project (d.membership? project subject) = true := by
  rw [ownerLike_iff]
  constructor
  · rintro (hnamed | ⟨hm, hflag⟩)
    · exact .inl (congrArg some hnamed)
    · exact .inr ⟨_, hm, hflag⟩
  · intro h
    cases subject with
    | anonymous => rcases h with hnamed | ⟨m, hm, -⟩ <;> contradiction
    | user user =>
        rcases h with hnamed | ⟨m, hm, hflag⟩
        · exact .named (Option.some.inj hnamed)
        · exact .flagged hm hflag

/-- A permission of owners that no other source names is effective exactly for those with
the rights of an owner. -/
theorem mem_effectivePermissions_of_owner {membership : Option Membership} {id : Permission}
    (hid : id ∈ catalog.ids .owner) (hanon : id ∉ project.anonPermissions)
    (hpublic : id ∉ project.publicPermissions)
    (hrole : ∀ m, membership = some m → id ∉ m.role.permissions) :
    id ∈ effectivePermissions catalog subject project membership
      ↔ ownerLike subject project membership = true := by
  rw [mem_effectivePermissions]
  constructor
  · rintro ⟨-, hsource⟩
    cases hsource with
    | everybody h => exact absurd h hanon
    | authenticated hsubject h => exact absurd h hpublic
    | role hmember h => exact absurd h (hrole _ hmember)
    | ownership howner h => exact howner
  · intro howner
    refine ⟨fun hout => ?_, .ownership howner hid⟩
    obtain ⟨-, hnotOwner, -⟩ := hout
    rw [howner] at hnotOwner
    cases hnotOwner

namespace Gate

/-- The gate is told the membership that is stored. -/
theorem answer_permissionsFor_directory (g : Gate) :
    ((g.permissionsFor subject project).answeredBy fun key => .ok (d.lookup key)).answer
      = .ok (effectivePermissions g.catalog subject project (d.membership? project subject)) := by
  have hproject : (Resource.project project).project? = some project := rfl
  rw [answer_permissionsFor hproject]
  cases subject <;> rfl

-- ========================================================== main result

/-- After any changes that hand in accepted roles only, in a project that gives no
permission of owners to everybody or to registered users, each permission of owners is
effective exactly for those who own the project.

The catalog is any: that no id is listed twice is part of being one, so this is said of
the built-in catalog and of all that `Catalog.ofTiers` accepts. Anonymous subjects own
nothing, and superusers own what others in their place would own. -/
theorem owner_permission_iff_owns (g : Gate) (changes : List Directory.Change)
    (subject : Subject) (project : Project)
    (hroles : ∀ change ∈ changes, ∀ role, change.role? = some role →
      g.catalog.checkRole role.permissions = .ok ())
    (hproject : ∀ id ∈ g.catalog.ids .owner,
      id ∉ project.anonPermissions ∧ id ∉ project.publicPermissions) :
    ∃ permissions,
      ((g.permissionsFor subject project).answeredBy fun key =>
          .ok ((Directory.run .empty changes).lookup key)).answer = .ok permissions
        ∧ ∀ id ∈ g.catalog.ids .owner,
            (id ∈ permissions ↔ Owns (Directory.run .empty changes) project subject) := by
  refine ⟨_, answer_permissionsFor_directory g, fun id hid => ?_⟩
  obtain ⟨hanon, hpublic⟩ := hproject id hid
  -- roles that are found were handed in, and accepted
  have hstored : (Directory.run .empty changes).Roles fun role =>
      g.catalog.checkRole role.permissions = .ok () := Directory.roles_run hroles
  have hrole : ∀ m, (Directory.run .empty changes).membership? project subject = some m →
      id ∉ m.role.permissions := by
    intro m hm hmem
    obtain ⟨user, -, hlookup⟩ := Option.bind_eq_some_iff.1 hm
    exact Catalog.not_mem_owner_of_checkRole (hstored _ m hlookup) hmem hid
  rw [mem_effectivePermissions_of_owner hid hanon hpublic hrole, owns_iff]

/-- A gate with one permission of members and one of owners. -/
def estate : Gate where
  catalog := ⟨{ member := [⟨"edit", "Edit"⟩], owner := [⟨"sell", "Sell"⟩] }, by decide⟩
  registry := .empty
  backend := "memory"

/-- A project that everybody may edit. -/
def manor : Project := (Project.new ⟨1⟩ ⟨2⟩).withAnonPermissions ["edit"]

/-- Two users join the project with the same role, and one of them is flagged as an owner.
The role is changed afterwards, which leaves the flag. -/
def joining : List Directory.Change :=
  let editor : Role := .new ⟨3⟩ ⟨1⟩ "Editor" ["edit"]
  [.add (.new ⟨7⟩ editor), .add (.new ⟨8⟩ editor), .setOwner ⟨⟨7⟩, ⟨1⟩⟩ true,
    .updateRole ⟨⟨7⟩, ⟨1⟩⟩ (.new ⟨4⟩ ⟨1⟩ "Guest" [])]

/-- The one who is flagged may sell. The other may not, though a superuser. -/
theorem owner_sells_and_superuser_not :
    let stored : MemberKey → Lookup := fun key => .ok ((Directory.run .empty joining).lookup key)
    let sells (subject : Subject) : Prop := ∃ permissions,
      ((estate.permissionsFor subject manor).answeredBy stored).answer = .ok permissions
        ∧ "sell" ∈ permissions
    (∀ change ∈ joining, ∀ role, change.role? = some role →
        estate.catalog.checkRole role.permissions = .ok ())
      ∧ sells (.registered ⟨7⟩) ∧ ¬ sells (.superuser ⟨8⟩) := by
  intro stored sells
  have hroles : ∀ change ∈ joining, ∀ role, change.role? = some role →
      estate.catalog.checkRole role.permissions = .ok () := by
    simp only [joining, List.forall_mem_cons]
    refine ⟨?_, ?_, ?_, ?_, nofun⟩ <;> rintro role ⟨⟩ <;> rfl
  have hsells : ∀ subject : Subject,
      sells subject ↔ Owns (Directory.run .empty joining) manor subject := by
    intro subject
    obtain ⟨permissions, hanswer, howner⟩ :=
      owner_permission_iff_owns estate joining subject manor hroles (by decide)
    have hlisted : "sell" ∈ estate.catalog.ids .owner := by decide
    rw [← howner "sell" hlisted]
    constructor
    · rintro ⟨permissions', hanswer', hsell⟩
      rw [hanswer] at hanswer'
      cases hanswer'
      exact hsell
    · exact fun hsell => ⟨permissions, hanswer, hsell⟩
  refine ⟨hroles, (hsells _).2 (.flagged rfl rfl), fun hsuper => ?_⟩
  rcases (hsells _).1 hsuper with hnamed | ⟨hm, hflag⟩
  · cases hnamed
  · cases hm
    cases hflag

end Gate

end ProjectAccess
