/-
Roles of one project in another.

A role is of one project, and a member is meant to hold a role of the project that the
membership is in (`Membership.Belongs`). A change of role makes sure of it and refuses
roles of other projects. An addition does not: it files the membership with the role that
it comes with, and from then on the role grants its permissions in a project that it is
not of.

`foreign_role_iff_added` says when that happens, for every run of changes: a stored role
is foreign exactly if it came in with an addition and has been neither replaced by a role
of the project nor removed with its member since. There is no other way for it to come in,
so a run that adds such members only as belong keeps all roles where they are from. What a
foreign role does is not limited by where it is from: whoever holds it has all of its
permissions in the project of the membership.

The step is read off the turn of a change (`Directory.Turn`), which is the only thing that
happens at its key. Once a member is there, additions under the key are refused and a flag
leaves the role alone, so what ends a foreign role can be read off the changes themselves
(`Change.Settles`), without asking how they went.
-/
import ProjectAccess.Proofs.Directory.Roll
import ProjectAccess.Proofs.Gate.Ownership

namespace ProjectAccess

/-- The role is one of the project that the membership is in. -/
def Membership.Belongs (m : Membership) : Prop := m.role.projectId = m.projectId

namespace Directory

/-- Removes whoever is under the key, or gives out a role of its project. -/
def Change.Settles (key : MemberKey) : Change → Prop
  | .add _ => False
  | .updateRole k role => k = key ∧ role.projectId = key.projectId
  | .setOwner _ _ => False
  | .remove k => k = key

/-- There is a membership, with a role of another project. -/
def HasForeign (entry : Option Membership) : Prop := ∃ m, entry = some m ∧ ¬ m.Belongs

/-- A foreign role came in with an addition under the key, and no change after that has
settled it. -/
def AddedForeign (d : Directory) (changes : List Change) (key : MemberKey) : Prop :=
  ∃ before m rest, changes = before ++ .add m :: rest ∧ m.key = key ∧ ¬ m.Belongs
    ∧ (d.run before).lookup key = none ∧ ∀ change ∈ rest, ¬ change.Settles key

variable {d : Directory} {key : MemberKey} {change : Change} {changes : List Change}
variable {before after : Option Membership} {response : Response} {m : Membership}

theorem hasForeign_some : HasForeign (some m) ↔ ¬ m.Belongs := by
  constructor
  · rintro ⟨_, hm, hforeign⟩
    cases hm
    exact hforeign
  · exact fun hforeign => ⟨m, rfl, hforeign⟩

theorem not_hasForeign_none : ¬ HasForeign none := by
  rintro ⟨m, hm, -⟩
  cases hm

theorem key_of_settles (h : change.Settles key) : change.key = key := by
  cases change with
  | add _ => cases h
  | updateRole k role => exact h.1
  | setOwner _ _ => cases h
  | remove k => exact h

-- ================================================================= a step

/-- By its turn a change leaves a foreign role where there was one that it does not settle,
or where it has added one. -/
theorem Turn.hasForeign_iff (h : Turn (.alter change) before response after)
    (hbefore : ∀ m, before = some m → m.key = change.key) :
    HasForeign after
      ↔ HasForeign before ∧ ¬ change.Settles change.key
        ∨ before = none ∧ ∃ m, change = .add m ∧ ¬ m.Belongs := by
  cases h with
  | added => simp [hasForeign_some, not_hasForeign_none]
  | addedTwice => simp [Change.Settles]
  | @roleGiven key role m hproject =>
      -- the member was filed under the project of the role
      have hm : m.projectId = key.projectId := congrArg MemberKey.projectId (hbefore m rfl)
      have hbelongs : ({ m with role } : Membership).Belongs := hproject.trans hm.symm
      have hsettles : (Change.updateRole key role).Settles key := ⟨rfl, hproject⟩
      simp [hasForeign_some, hbelongs, hsettles, Change.key]
  | roleForeign hproject => simp [Change.Settles, Change.key, hproject]
  | roleForNobody hproject => simp [not_hasForeign_none]
  | flagged => simp [hasForeign_some, Change.Settles, Membership.Belongs]
  | flaggedNobody => simp [not_hasForeign_none]
  | removed => simp [not_hasForeign_none, Change.Settles, Change.key]
  | removedNobody => simp [not_hasForeign_none]

/-- A call that changes the directory does what the change does. -/
theorem take_alter : (d.take (.alter change)).2 = d.after change := by
  unfold take Directory.after
  dsimp only
  cases d.attempt change <;> rfl

/-- The same of the directory, under any key. -/
theorem hasForeign_after_iff :
    HasForeign ((d.after change).lookup key)
      ↔ HasForeign (d.lookup key) ∧ ¬ change.Settles key
        ∨ d.lookup key = none ∧ ∃ m, change = .add m ∧ m.key = key ∧ ¬ m.Belongs := by
  by_cases hkey : key = change.key
  · subst hkey
    have hturn : Turn (.alter change) (d.lookup change.key) (d.take (.alter change)).1
        ((d.after change).lookup change.key) := take_alter ▸ turn_take
    rw [hturn.hasForeign_iff fun _ => key_of_lookup]
    refine or_congr_right (and_congr_right fun _ => exists_congr fun m => ?_)
    exact and_congr_right fun hadd => by simp [hadd, Change.key]
  · rw [← take_alter, lookup_take_of_ne hkey]
    constructor
    · exact fun hforeign => .inl ⟨hforeign, fun hsettles => hkey (key_of_settles hsettles).symm⟩
    · rintro (⟨hforeign, -⟩ | ⟨-, m, rfl, hm, -⟩)
      · exact hforeign
      · exact absurd hm.symm hkey

-- ================================================================== a run

theorem addedForeign_cons :
    d.AddedForeign (change :: changes) key
      ↔ (d.lookup key = none ∧ (∃ m, change = .add m ∧ m.key = key ∧ ¬ m.Belongs)
            ∧ ∀ change ∈ changes, ¬ change.Settles key)
        ∨ (d.after change).AddedForeign changes key := by
  constructor
  · rintro ⟨before, m, rest, hchanges, hm, hforeign, hnone, hrest⟩
    cases before with
    | nil =>
        obtain ⟨rfl, rfl⟩ := List.cons.inj hchanges
        exact .inl ⟨hnone, ⟨m, rfl, hm, hforeign⟩, hrest⟩
    | cons first before =>
        obtain ⟨rfl, rfl⟩ := List.cons.inj hchanges
        exact .inr ⟨before, m, rest, rfl, hm, hforeign, hnone, hrest⟩
  · rintro (⟨hnone, ⟨m, rfl, hm, hforeign⟩, hrest⟩
        | ⟨before, m, rest, rfl, hm, hforeign, hnone, hrest⟩)
    · exact ⟨[], m, changes, rfl, hm, hforeign, hnone, hrest⟩
    · exact ⟨change :: before, m, rest, rfl, hm, hforeign, hnone, hrest⟩

/-- After a run there is a foreign role under a key if one was left there all along, or one
was added on the way. -/
theorem hasForeign_run_iff :
    HasForeign ((d.run changes).lookup key)
      ↔ (HasForeign (d.lookup key) ∧ ∀ change ∈ changes, ¬ change.Settles key)
        ∨ d.AddedForeign changes key := by
  induction changes generalizing d with
  | nil =>
      have hnone : ¬ d.AddedForeign [] key := by
        rintro ⟨before, m, rest, hchanges, -⟩
        cases before <;> cases hchanges
      simp [run, hnone]
  | cons change changes ih =>
      show HasForeign (((d.after change).run changes).lookup key) ↔ _
      rw [ih, hasForeign_after_iff, addedForeign_cons, List.forall_mem_cons, or_and_right,
        and_assoc, and_assoc, or_assoc]

/-- Without memberships there is none with a foreign role. -/
theorem hasForeign_run_empty_iff :
    HasForeign ((run .empty changes).lookup key) ↔ empty.AddedForeign changes key :=
  hasForeign_run_iff.trans (or_iff_right fun h => not_hasForeign_none h.1)

end Directory

namespace Gate

/-- A member has all permissions of the role that is stored, whatever project it is of. -/
theorem role_permissions_effective {d : Directory} {m : Membership} (g : Gate) (user : User)
    (project : Project) (hm : d.lookup ⟨user.id, project.id⟩ = some m) :
    ∃ permissions,
      ((g.permissionsFor (.user user) project).answeredBy fun key =>
          .ok (d.lookup key)).answer = .ok permissions
        ∧ ∀ id ∈ m.role.permissions, id ∈ permissions := by
  have hmember : d.membership? project (.user user) = some m := hm
  refine ⟨_, answer_permissionsFor_directory g, fun id hid => ?_⟩
  rw [mem_effectivePermissions]
  refine ⟨fun hout => ?_, .role hmember hid⟩
  obtain ⟨hnone, -, -⟩ := hout
  rw [hmember] at hnone
  cases hnone

-- ========================================================== main result

/-- After any run of changes, a member holds a role of another project exactly if an
addition has brought it in and no change has settled it since. If none of those who are
added does, nobody who is stored does. A member has all permissions of the role, and it is
not asked what project the role is of. -/
theorem foreign_role_iff_added (changes : List Directory.Change) :
    (∀ key, (∃ m, (Directory.run .empty changes).lookup key = some m
          ∧ m.role.projectId ≠ m.projectId)
        ↔ Directory.empty.AddedForeign changes key)
      ∧ ((∀ m, .add m ∈ changes → m.Belongs) →
          ∀ m ∈ (Directory.run .empty changes).members, m.Belongs)
      ∧ ∀ (g : Gate) (user : User) (project : Project) (m : Membership),
          (Directory.run .empty changes).lookup ⟨user.id, project.id⟩ = some m →
          ∃ permissions,
            ((g.permissionsFor (.user user) project).answeredBy fun key =>
                .ok ((Directory.run .empty changes).lookup key)).answer = .ok permissions
              ∧ ∀ id ∈ m.role.permissions, id ∈ permissions := by
  refine ⟨fun key => Directory.hasForeign_run_empty_iff, fun hadded m hm => ?_,
    fun g user project _ => role_permissions_effective g user project⟩
  by_contra hforeign
  -- so the role was brought in by an addition
  have hlookup : (Directory.run .empty changes).lookup m.key = some m :=
    Directory.lookup_eq_some_iff.2 ⟨hm, rfl⟩
  obtain ⟨before, m₀, rest, rfl, -, hforeign₀, -, -⟩ :=
    Directory.hasForeign_run_empty_iff.1 ⟨m, hlookup, hforeign⟩
  have hmem : .add m₀ ∈ before ++ .add m₀ :: rest :=
    List.mem_append_right before (List.mem_cons_self ..)
  exact hforeign₀ (hadded m₀ hmem)

/-- A member of one project with a role of another, which may edit. -/
def stowaway : Membership := ⟨⟨7⟩, ⟨2⟩, .new ⟨3⟩ ⟨1⟩ "Editor" ["edit"], false⟩

/-- The stowaway is taken aboard, and may edit a private project that gives nothing away. -/
theorem not_forall_role_of_own_project :
    (¬ ∀ changes : List Directory.Change, ∀ m ∈ (Directory.run .empty changes).members,
        m.role.projectId = m.projectId)
      ∧ ∃ permissions,
        ((estate.permissionsFor (.registered ⟨7⟩)
            ((Project.new ⟨2⟩ ⟨9⟩).withPrivate true)).answeredBy fun key =>
              .ok ((Directory.run .empty [.add stowaway]).lookup key)).answer = .ok permissions
          ∧ "edit" ∈ permissions := by
  constructor
  · intro hbelongs
    have hstored : stowaway ∈ (Directory.run .empty [.add stowaway]).members :=
      List.mem_singleton_self stowaway
    exact absurd (hbelongs [.add stowaway] stowaway hstored) (by decide)
  · have hlookup : (Directory.run .empty [.add stowaway]).lookup ⟨⟨7⟩, ⟨2⟩⟩ = some stowaway := rfl
    obtain ⟨permissions, hanswer, hrole⟩ := role_permissions_effective estate ⟨⟨7⟩, false⟩
      ((Project.new ⟨2⟩ ⟨9⟩).withPrivate true) hlookup
    exact ⟨permissions, hanswer, hrole "edit" (by decide)⟩

end Gate

end ProjectAccess
