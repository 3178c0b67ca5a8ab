/-
Nothing that is there to be shown influences access.

A role has an id, a name and a place among other roles, and a catalog has tiers and labels.
Applications show them. What counts of a membership is its `Standing`, and of a catalog
what it lists for owners. This file carries that from permissions and predicates to the
gate, and through the directory to whatever is asked after further changes
(`access_by_standing`).

# The directory

Seen by standings alone the directory is a directory still: what a call makes of the
standing at its place (`Call.effect`) depends on that standing and on nothing else of the
membership (`Turn.standing`). Calls of the same effect at the same place may be exchanged
one by one (`standing_serve`), and a change of role to one with the same permissions has
no effect at all (`effect_updateRole`). So there is no need to follow the memberships
through a run, which do differ.

# The gate

The gate hands a membership to `effectivePermissions` and to guards, and notes whether
there is one. Guards with checks of the application are left out, because such a check may
read the name of a role and decide by it.
-/
import ProjectAccess.Proofs.Access.Standing
import ProjectAccess.Proofs.Gate.Histories
import ProjectAccess.Proofs.Policy.Guards

namespace ProjectAccess

-- ============================================================== repeats

/-- The role made anew from its parts, so that it lists no permission twice. -/
def Role.withoutRepeats (r : Role) : Role := .new r.id r.projectId r.name r.permissions r.order

/-- The membership with its role made anew. -/
def Membership.withoutRepeats (m : Membership) : Membership :=
  { m with role := m.role.withoutRepeats }

theorem Role.mem_withoutRepeats {r : Role} {id : Permission} :
    id ∈ r.withoutRepeats.permissions ↔ id ∈ r.permissions := mem_firsts

theorem Membership.standing_withoutRepeats (m : Membership) :
    m.withoutRepeats.standing = m.standing :=
  standing_eq_iff.2 ⟨rfl, fun _ => Role.mem_withoutRepeats⟩

namespace Directory

/-- The call with all roles that it hands in made anew. -/
def Call.withoutRepeats : Call → Call
  | .alter (.add m) => .alter (.add m.withoutRepeats)
  | .alter (.updateRole key role) => .alter (.updateRole key role.withoutRepeats)
  | call => call

-- ============================================================== effects

/-- What a call makes of the standing at its place. -/
def Call.effect (call : Call) (standing : Option Standing) : Option Standing :=
  match call with
  | .alter (.add m) => standing <|> some m.standing
  | .alter (.updateRole key role) =>
    if role.projectId = key.projectId then
      standing.map ({ · with permissions := .ofList role.permissions })
    else standing
  | .alter (.setOwner _ isOwner) => standing.map ({ · with isOwner })
  | .alter (.remove _) => none
  | .lookup _ => standing

variable {call call' : Call} {calls calls' : List Call} {before after : Option Membership}
variable {response : Response} {d d' : Directory} {key : MemberKey} {role : Role}

theorem Turn.standing (h : Turn call before response after) :
    standing? after = call.effect (standing? before) := by
  cases h with
  | roleGiven hproject => exact (if_pos hproject).symm
  | roleForeign hproject => exact (if_neg hproject).symm
  | roleForNobody hproject => exact (if_pos hproject).symm
  | _ => rfl

/-- A role with the same permissions has no effect, whatever becomes of the change. -/
theorem effect_updateRole
    (hrole : ∀ m, before = some m → ∀ id, id ∈ role.permissions ↔ id ∈ m.role.permissions) :
    Call.effect (.alter (.updateRole key role)) (standing? before) = standing? before := by
  show (if role.projectId = key.projectId then _ else _) = _
  split
  · cases before with
    | none => rfl
    | some m =>
        have hgiven : ({ m with role } : Membership).standing = m.standing :=
          Membership.standing_eq_iff.2 ⟨rfl, hrole m rfl⟩
        exact congrArg some hgiven
  · rfl

/-- Nor does it make a difference if a role is handed in with repeats. -/
theorem effect_withoutRepeats (call : Call) : call.withoutRepeats.effect = call.effect := by
  funext standing
  fun_cases Call.withoutRepeats call with
  | case1 m => exact congrArg (standing <|> some ·) m.standing_withoutRepeats
  | case2 key role =>
      have hset : PermissionSet.ofList role.withoutRepeats.permissions
          = .ofList role.permissions :=
        PermissionSet.ofList_eq_ofList_iff.2 fun _ => Role.mem_withoutRepeats
      show (if role.projectId = key.projectId then _ else _) = _
      rw [hset]
      rfl
  | case3 => rfl

theorem key_withoutRepeats (call : Call) : call.withoutRepeats.key = call.key := by
  fun_cases Call.withoutRepeats call <;> rfl

-- ================================================================= runs

/-- A call has its effect at its place, and none at any other. -/
theorem standing_take :
    standing? ((d.take call).2.lookup key)
      = if key = call.key then call.effect (standing? (d.lookup key))
        else standing? (d.lookup key) := by
  split
  next hkey =>
    subst hkey
    exact turn_take.standing
  next hkey => rw [lookup_take_of_ne hkey]

/-- A change of role to one with the same permissions leaves every standing as it is. -/
theorem standing_take_updateRole
    (hrole : ∀ m, d.lookup key = some m → ∀ id, id ∈ role.permissions ↔ id ∈ m.role.permissions)
    (k : MemberKey) :
    standing? ((d.take (.alter (.updateRole key role))).2.lookup k) = standing? (d.lookup k) := by
  rw [standing_take]
  split
  next hkey => exact effect_updateRole (hkey ▸ hrole)
  next => rfl

/-- Where the standings were the same, they are the same after calls that have the same
effects at the same places. -/
theorem standing_serve
    (hcalls : List.Forall₂ (fun call call' => call'.key = call.key ∧ call'.effect = call.effect)
      calls calls')
    (h : standing? (d.lookup key) = standing? (d'.lookup key)) :
    standing? ((d.serve calls).2.lookup key) = standing? ((d'.serve calls').2.lookup key) := by
  induction hcalls generalizing d d' with
  | nil => exact h
  | @cons call call' _ _ hcall _ ih =>
      obtain ⟨hkey, heffect⟩ := hcall
      have hstep : standing? ((d.take call).2.lookup key)
          = standing? ((d'.take call').2.lookup key) := by
        rw [standing_take, standing_take, hkey, heffect, h]
      exact ih hstep

end Directory

namespace Gate

-- =========================================================== the replies

/-- No guard holds a check of the application. -/
def CheckFree (g : Gate) : Prop :=
  ∀ type action guard, g.registry.guard? type action = some guard → guard.CheckFree

/-- Whatever is asked, one gate replies with one store as the other with the other: by the
same answer, the same checks and the same notes. -/
structure RepliesAlike (g g' : Gate) (store store' : MemberKey → Lookup) : Prop where
  permissionsFor (subject : Subject) (project : Project) :
    (g.permissionsFor subject project).answeredBy store
      = (g'.permissionsFor subject project).answeredBy store'
  authorize (subject : Subject) (resource : Resource) (action : Action) :
    (g.authorize subject resource action).answeredBy store
      = (g'.authorize subject resource action).answeredBy store'

/-- The stores fail alike, and otherwise know of memberships that count for the same. -/
def StandAlike (store store' : MemberKey → Lookup) : Prop :=
  ∀ key, (store key).map standing? = (store' key).map standing?

variable {g : Gate} {catalog' : Catalog} {store store' : MemberKey → Lookup}
variable {subject : Subject} {project : Project} {resource : Resource} {action : Action}
variable {guard : Predicate} {membership membership' : Option Membership}

/-- Lookups that count for the same fail alike, or both tell of somebody or nobody. -/
theorem lookup_cases {result result' : Lookup}
    (h : result.map standing? = result'.map standing?) :
    (∃ e, result = .error e ∧ result' = .error e)
      ∨ ∃ m m', result = .ok m ∧ result' = .ok m' ∧ standing? m = standing? m' := by
  cases result with
  | error e =>
      cases result' with
      | error e' =>
          cases h
          exact .inl ⟨e, rfl, rfl⟩
      | ok m' => cases h
  | ok m =>
      cases result' with
      | error e' => cases h
      | ok m' => exact .inr ⟨m, m', rfl, rfl, Except.ok.inj h⟩

/-- It is noted whether there is a membership, and not which. -/
theorem lookupNotes_congr {id : ProjectId} {result result' : Lookup}
    (h : result.map standing? = result'.map standing?) :
    g.lookupNotes id result = ({ g with catalog := catalog' } : Gate).lookupNotes id result' := by
  rcases lookup_cases h with ⟨e, rfl, rfl⟩ | ⟨m, m', rfl, rfl, hm⟩
  · rfl
  · cases m with
    | none =>
        cases m' with
        | none => rfl
        | some _ => cases hm
    | some _ =>
        cases m' with
        | none => cases hm
        | some _ => rfl

/-- Answers that count for the same are gone on from alike. -/
theorem andThen_congr {α : Type} {r r' : Reply (Option Membership)}
    {f f' : Option Membership → Reply α}
    (hanswer : r.answer.map standing? = r'.answer.map standing?)
    (hobserved : r.observed = r'.observed) (hnotes : r.notes = r'.notes)
    (hf : ∀ m m', standing? m = standing? m' → f m = f' m') : r.andThen f = r'.andThen f' := by
  unfold Reply.andThen
  rw [hobserved, hnotes]
  rcases lookup_cases hanswer with ⟨e, he, he'⟩ | ⟨m, m', hok, hok', hm⟩
  · rw [he, he']
  · rw [hok, hok']
    dsimp only
    rw [hf m m' hm]

/-- What is done with a resolved subject is the same if it is the same for memberships that
count for the same. -/
theorem answeredBy_resolve_congr {α : Type} {f f' : Option Membership → Reply α}
    (hstore : StandAlike store store')
    (hf : ∀ m m', standing? m = standing? m' → f m = f' m') :
    ((g.resolve subject project).map (·.andThen f)).answeredBy store
      = ((({ g with catalog := catalog' } : Gate).resolve subject project).map
          (·.andThen f')).answeredBy store' := by
  rw [Inquiry.answeredBy_map, Inquiry.answeredBy_map]
  cases subject with
  | anonymous => exact andThen_congr rfl rfl rfl hf
  | user user =>
      have hkey := hstore ⟨user.id, project.id⟩
      exact andThen_congr hkey rfl (lookupNotes_congr hkey) hf

theorem evaluate_congr_standing (hfree : guard.CheckFree)
    (hcatalog : g.catalog.SameOwnerTier catalog')
    (hm : standing? membership = standing? membership') :
    g.evaluate subject resource action guard membership
      = ({ g with catalog := catalog' } : Gate).evaluate subject resource action guard
          membership' := by
  have hverdict : guard.evaluate ⟨g.catalog, subject, resource, action, membership⟩
      = guard.evaluate ⟨catalog', subject, resource, action, membership'⟩ :=
    Predicate.evaluate_congr_standing hfree hcatalog hm
  unfold evaluate
  dsimp only
  rw [hverdict]

/-- The gate replies by the standings that the store tells of, and by what its catalog
lists for owners. -/
theorem repliesAlike_of_standAlike (hfree : g.CheckFree)
    (hcatalog : g.catalog.SameOwnerTier catalog') (hstore : StandAlike store store') :
    g.RepliesAlike { g with catalog := catalog' } store store' where
  permissionsFor subject project :=
    answeredBy_resolve_congr hstore fun m m' hm => by
      rw [effectivePermissions_congr hcatalog rfl hm]
  authorize subject resource action := by
    cases hsuper : subject.isSuperuser with
    | true =>
        rw [authorize_superuser hsuper, authorize_superuser hsuper]
        rfl
    | false =>
        cases hguard : g.registry.guard? resource.type action with
        | none =>
            unfold authorize
            dsimp only
            rw [hsuper, hguard]
            rfl
        | some guard =>
            have hguardFree : guard.CheckFree := hfree resource.type action guard hguard
            rw [authorize_guarded hsuper hguard,
              authorize_guarded (g := { g with catalog := catalog' }) hsuper hguard]
            split
            · exact answeredBy_resolve_congr hstore fun m m' hm =>
                evaluate_congr_standing hguardFree hcatalog hm
            · exact evaluate_congr_standing hguardFree hcatalog rfl

theorem standAlike_store {d d' : Directory}
    (h : ∀ key, standing? (d.lookup key) = standing? (d'.lookup key)) :
    StandAlike d.store d'.store := fun key => congrArg Except.ok (h key)

/-- Repeats in some of the roles that a store tells of do not count. -/
theorem standAlike_withoutRepeats
    (h : ∀ key, store' key = store key
      ∨ store' key = (store key).map (Option.map Membership.withoutRepeats)) :
    StandAlike store store' := by
  intro key
  rcases h key with hsame | hanew
  · rw [hsame]
  · rw [hanew]
    cases store key with
    | error e => rfl
    | ok m =>
        cases m with
        | none => rfl
        | some m =>
            exact congrArg (fun standing => Except.ok (some standing))
              m.standing_withoutRepeats.symm

-- ========================================================== main result

/-- Permissions and predicates without checks of the application are the same for catalogs
that list the same for owners and for memberships that count for the same. A gate without
such checks replies alike to whatever is asked after any calls on a directory, whether or
not a role was first replaced by one with the same permissions, and whether or not roles
were handed in with repeats; and so it does if some of the roles in its store have them. -/
theorem access_by_standing :
    (∀ (catalog catalog' : Catalog) (m m' : Membership) (subject : Subject),
      catalog.SameOwnerTier catalog' → m.isOwner = m'.isOwner →
      (∀ id, id ∈ m.role.permissions ↔ id ∈ m'.role.permissions) →
      (∀ project, effectivePermissions catalog subject project (some m)
          = effectivePermissions catalog' subject project (some m'))
        ∧ ∀ resource action (p : Predicate), p.CheckFree →
          p.evaluate ⟨catalog, subject, resource, action, some m⟩
            = p.evaluate ⟨catalog', subject, resource, action, some m'⟩)
      ∧ ∀ (g : Gate) (catalog' : Catalog), g.CheckFree → g.catalog.SameOwnerTier catalog' →
        (∀ (d : Directory) (key : MemberKey) (role : Role) (calls : List Directory.Call),
          (∀ m, d.lookup key = some m → ∀ id, id ∈ role.permissions ↔ id ∈ m.role.permissions) →
          g.RepliesAlike { g with catalog := catalog' } (d.serve calls).2.store
            (d.serve (.alter (.updateRole key role) :: calls)).2.store)
        ∧ (∀ (d : Directory) (calls calls' : List Directory.Call),
          List.Forall₂ (fun call call' => call' = call ∨ call' = call.withoutRepeats) calls calls' →
          g.RepliesAlike { g with catalog := catalog' } (d.serve calls).2.store
            (d.serve calls').2.store)
        ∧ ∀ store store' : MemberKey → Lookup,
          (∀ key, store' key = store key
            ∨ store' key = (store key).map (Option.map Membership.withoutRepeats)) →
          g.RepliesAlike { g with catalog := catalog' } store store' := by
  refine ⟨fun catalog catalog' m m' subject hcatalog howner hrole => ?_,
    fun g catalog' hfree hcatalog => ⟨fun d key role calls hrole => ?_,
      fun d calls calls' hcalls => ?_, fun store store' hstore => ?_⟩⟩
  · have hm : standing? (some m) = standing? (some m') :=
      congrArg some (Membership.standing_eq_iff.2 ⟨howner, hrole⟩)
    exact ⟨fun project => effectivePermissions_congr hcatalog rfl hm,
      fun resource action p hfree => p.evaluate_congr_standing hfree hcatalog hm⟩
  · refine repliesAlike_of_standAlike hfree hcatalog (standAlike_store fun k => ?_)
    -- the calls that follow are the same, and start from the same standings
    have hcalls : List.Forall₂ (fun call call' : Directory.Call =>
        call'.key = call.key ∧ call'.effect = call.effect) calls calls :=
      List.forall₂_same.2 fun _ _ => ⟨rfl, rfl⟩
    have hend : standing? ((d.serve calls).2.lookup k)
        = standing? (((d.take (.alter (.updateRole key role))).2.serve calls).2.lookup k) :=
      Directory.standing_serve hcalls (Directory.standing_take_updateRole hrole k).symm
    exact hend
  · refine repliesAlike_of_standAlike hfree hcatalog (standAlike_store fun k => ?_)
    refine Directory.standing_serve (hcalls.imp fun call call' hcall => ?_) rfl
    rcases hcall with rfl | rfl
    · exact ⟨rfl, rfl⟩
    · exact ⟨Directory.key_withoutRepeats call, Directory.effect_withoutRepeats call⟩
  · exact repliesAlike_of_standAlike hfree hcatalog (standAlike_withoutRepeats hstore)

/-- A directory with a reader in it. -/
def readingRoom : Directory :=
  (Directory.empty.take (.alter (.add (.new ⟨7⟩ (.new ⟨4⟩ ⟨1⟩ "Reader" ["view_project"]))))).2

/-- A role that lets its holder do the same, under another name. -/
def visitor : Role := ⟨⟨9⟩, ⟨1⟩, "Visitor", ["view_project", "view_project"], 3⟩

/-- The reader becomes a visitor, and is let into the private project as before. -/
theorem authorize_eq_after_updateRole :
    let reference := Gate.mk .builtin .reference Directory.backend
    let asks (calls : List Directory.Call) : Reply Decision :=
      (reference.authorize (.registered ⟨7⟩) (.project archive) Action.retrieve).answeredBy
        (readingRoom.serve calls).2.store
    let promotion : Directory.Call := .alter (.updateRole ⟨⟨7⟩, ⟨1⟩⟩ visitor)
    (readingRoom.serve [promotion]).2.lookup ⟨⟨7⟩, ⟨1⟩⟩ = some ⟨⟨7⟩, ⟨1⟩, visitor, false⟩
      ∧ (asks []).answer = .ok ⟨true, .policyEvaluated⟩
      ∧ asks [] = asks [promotion] := by
  intro reference asks promotion
  have hfree : reference.CheckFree := fun _ _ _ hguard =>
    Predicate.checkFree_of_rises (Registry.rises_of_reference hguard)
  have hrole : ∀ m, readingRoom.lookup ⟨⟨7⟩, ⟨1⟩⟩ = some m →
      ∀ id, id ∈ visitor.permissions ↔ id ∈ m.role.permissions := by
    rintro m ⟨⟩ id
    show id ∈ ["view_project", "view_project"] ↔ id ∈ ["view_project"]
    simp
  have hreplies := (access_by_standing.2 reference reference.catalog hfree fun _ => Iff.rfl).1
    readingRoom ⟨⟨7⟩, ⟨1⟩⟩ visitor [] hrole
  exact ⟨rfl, rfl, hreplies.authorize (.registered ⟨7⟩) (.project archive) Action.retrieve⟩

end Gate

end ProjectAccess
