/-
The members of a project, as they are listed.

A store that files memberships under their keys goes through them in an order of its own
(`Roll.Enumerates`). To list a project, it keeps those for the project and sorts them by
the order of the role and by its name (`listing`). Which memberships come out, and that
they come out sorted, depends on nothing but what is filed (`Roll.Lists`); the order of
the store shows in one place only, between members of roles with the same order and name
(`AlikeUpToTies`). The directory settles these ties by user, and its list is the one that
a store would give in some order (`exists_membersOf_eq_listing`).

# Filing

Members are kept by the project that their membership is for, not by the one that they are
filed under. That it is the same is what calls preserve (`Roll.Leads.filed`). Without it a
user who is filed under two projects could be listed twice in one of them.
-/
import Mathlib.Data.List.Nodup
import Mathlib.Data.List.Permutation
import Mathlib.Data.Prod.Lex
import ProjectAccess.Proofs.Directory.Roll
import ProjectAccess.Proofs.Text.Bytes

namespace ProjectAccess

namespace Directory

-- ================================================================= ranks

/-- Where a member comes in a list: by the order of the role, as a whole number with its
sign, and then by the bytes of its name. -/
def rank (m : Membership) : ℤ ×ₗ List ℕ := toLex (m.role.order.toInt, Text.bytes m.role.name)

/-- A member may stand before another: the order of its role is less, or it is the same
and the name of its role is no greater. -/
def notBehind (a b : Membership) : Bool :=
  if a.role.order ≠ b.role.order then a.role.order < b.role.order
  else a.role.name ≤ b.role.name

variable {a b : Membership}

theorem rank_le_iff :
    rank a ≤ rank b ↔ a.role.order < b.role.order
      ∨ a.role.order = b.role.order ∧ a.role.name ≤ b.role.name := by
  rw [rank, rank, Prod.Lex.toLex_le_toLex, Text.bytes_le_iff, Int32.toInt_inj,
    Int32.lt_iff_toInt_lt]

theorem rank_eq_iff :
    rank a = rank b ↔ a.role.order = b.role.order ∧ a.role.name = b.role.name := by
  rw [rank, rank, toLex_inj, Prod.mk.injEq, Int32.toInt_inj, Text.bytes_injective.eq_iff]

theorem notBehind_iff (a b : Membership) : notBehind a b = true ↔ rank a ≤ rank b := by
  rw [rank_le_iff, notBehind]
  by_cases horder : a.role.order = b.role.order
  · simp [horder]
  · simp [horder]

/-- The directory lists by rank, and by user where ranks are the same. -/
theorem listedBefore_iff (a b : Membership) :
    listedBefore a b = true
      ↔ toLex (rank a, a.userId.value.toNat) ≤ toLex (rank b, b.userId.value.toNat) := by
  have huser : a.userId ≤ b.userId ↔ a.userId.value.toNat ≤ b.userId.value.toNat := Iff.rfl
  rw [Prod.Lex.toLex_le_toLex, lt_iff_le_and_ne, rank_le_iff, ← huser]
  dsimp only
  rw [ne_eq, rank_eq_iff, listedBefore]
  by_cases horder : a.role.order = b.role.order
  · by_cases hname : a.role.name = b.role.name
    · simp [horder, hname]
    · simp [horder, hname, lt_iff_le_and_ne]
  · simp [horder]

-- =============================================================== listings

/-- The members of a project, sorted, among memberships that come in some order. Members
of the same rank stay in the order in which they come. -/
def listing (project : ProjectId) (values : List Membership) : List Membership :=
  (values.filter (·.projectId = project)).mergeSort notBehind

/-- The places of a roll at which something stands, each once and in some order. -/
structure Roll.Enumerates (r : Roll) (places : List MemberKey) : Prop where
  nodup : places.Nodup
  taken : ∀ key, key ∈ places ↔ (r key).isSome = true

/-- The list of a project: the memberships that are filed under it, each once, one for a
user at most, and sorted by rank. -/
structure Roll.Lists (r : Roll) (project : ProjectId) (l : List Membership) : Prop where
  mem : ∀ m, m ∈ l ↔ ∃ user, r ⟨user, project⟩ = some m
  nodup : l.Nodup
  users : (l.map (·.userId)).Nodup
  sorted : l.Pairwise (rank · ≤ rank ·)

/-- No two members of the project have roles with the same order and name. -/
def Roll.Untied (r : Roll) (project : ProjectId) : Prop :=
  ∀ user user' m m', r ⟨user, project⟩ = some m → r ⟨user', project⟩ = some m' →
    m.role.order = m'.role.order → m.role.name = m'.role.name → m = m'

/-- Lists that differ by the order of members whose roles have the same order and name:
those stand in the same places, and are the same members. -/
structure AlikeUpToTies (l l' : List Membership) : Prop where
  titles : l.map (fun m => (m.role.order, m.role.name))
    = l'.map (fun m => (m.role.order, m.role.name))
  members : ∀ title, (l.filter (fun m => (m.role.order, m.role.name) = title)).Perm
    (l'.filter (fun m => (m.role.order, m.role.name) = title))

variable {roll roll' : Roll} {places : List MemberKey} {project : ProjectId}
variable {l l' values : List Membership} {m : Membership} {d : Directory}

theorem mem_listing : m ∈ listing project values ↔ m ∈ values ∧ m.projectId = project := by
  simp [listing]

/-- A sort that compares keys leaves the keys in order. -/
theorem sorted_mergeSort {κ : Type} [LinearOrder κ] {key : Membership → κ}
    {le : Membership → Membership → Bool} (hle : ∀ a b, le a b = true ↔ key a ≤ key b)
    (l : List Membership) : (l.mergeSort le).Pairwise (key · ≤ key ·) := by
  have hsorted : (l.mergeSort le).Pairwise (le · ·) := by
    apply List.pairwise_mergeSort
    · intro a b c hab hbc
      exact (hle a c).2 (((hle a b).1 hab).trans ((hle b c).1 hbc))
    · intro a b
      simpa [hle] using le_total (key a) (key b)
  exact hsorted.imp (hle _ _).1

theorem sorted_listing : (listing project values).Pairwise (rank · ≤ rank ·) :=
  sorted_mergeSort notBehind_iff _

theorem nodup_listing (h : values.Nodup) : (listing project values).Nodup :=
  (List.mergeSort_perm _ _).nodup_iff.2 (h.filter _)

/-- What is listed is what is filed, in whatever order a store goes through it. -/
theorem mem_listing_filterMap (hfiled : roll.Filed) (h : roll.Enumerates places) :
    m ∈ listing project (places.filterMap roll) ↔ roll ⟨m.userId, project⟩ = some m := by
  rw [mem_listing, List.mem_filterMap]
  constructor
  · rintro ⟨⟨key, -, hm⟩, rfl⟩
    rw [← hfiled key m hm] at hm
    exact hm
  · intro hm
    refine ⟨⟨_, (h.taken _).2 ?_, hm⟩, ?_⟩
    · rw [hm, Option.isSome_some]
    · exact congrArg MemberKey.projectId (hfiled _ m hm)

theorem lists_listing (hfiled : roll.Filed) (h : roll.Enumerates places) :
    roll.Lists project (listing project (places.filterMap roll)) := by
  have hnodup : (listing project (places.filterMap roll)).Nodup := by
    apply nodup_listing
    apply h.nodup.filterMap
    intro key key' m hm hm'
    exact (hfiled _ _ hm).symm.trans (hfiled _ _ hm')
  refine ⟨?_, hnodup, ?_, sorted_listing⟩
  · intro m
    rw [mem_listing_filterMap hfiled h]
    constructor
    · exact fun hm => ⟨_, hm⟩
    · rintro ⟨user, hm⟩
      have huser : m.userId = user := congrArg MemberKey.userId (hfiled _ m hm)
      rw [huser]
      exact hm
  · apply hnodup.map_on
    intro m hm m' hm' huser
    -- both are filed under the same user and project
    rw [mem_listing_filterMap hfiled h] at hm hm'
    rw [huser, hm'] at hm
    exact (Option.some.inj hm).symm

-- ================================================================== ties

theorem titles_eq_of_ranks_eq (h : l.map rank = l'.map rank) :
    l.map (fun m => (m.role.order, m.role.name))
      = l'.map (fun m => (m.role.order, m.role.name)) := by
  rw [← List.forall₂_eq_eq_eq, List.forall₂_map_left_iff, List.forall₂_map_right_iff] at h ⊢
  apply h.imp
  intro a b hab
  exact Prod.ext_iff.2 (rank_eq_iff.1 hab)

theorem Roll.Lists.perm (h : roll.Lists project l) (h' : roll'.Lists project l')
    (hsame : ∀ user, roll' ⟨user, project⟩ = roll ⟨user, project⟩) : l.Perm l' := by
  rw [List.perm_ext_iff_of_nodup h.nodup h'.nodup]
  intro m
  rw [h.mem, h'.mem]
  simp only [hsame]

/-- Lists of the same memberships are alike, whatever runs and stores they come from. -/
theorem Roll.Lists.alike (h : roll.Lists project l) (h' : roll'.Lists project l')
    (hsame : ∀ user, roll' ⟨user, project⟩ = roll ⟨user, project⟩) : AlikeUpToTies l l' := by
  have hperm : l.Perm l' := h.perm h' hsame
  have hranks : l.map rank = l'.map rank := by
    refine List.Perm.eq_of_pairwise (fun _ _ _ _ => le_antisymm) ?_ ?_ (hperm.map rank)
    · exact List.pairwise_map.2 h.sorted
    · exact List.pairwise_map.2 h'.sorted
  exact ⟨titles_eq_of_ranks_eq hranks, fun title => hperm.filter _⟩

/-- Without ties they are equal. -/
theorem Roll.Lists.eq_of_untied (h : roll.Lists project l) (h' : roll'.Lists project l')
    (hsame : ∀ user, roll' ⟨user, project⟩ = roll ⟨user, project⟩) (huntied : roll.Untied project) :
    l' = l := by
  refine List.Perm.eq_of_pairwise ?_ h'.sorted h.sorted (h.perm h' hsame).symm
  intro m' m hm' hm hle hle'
  obtain ⟨user', hm'⟩ := (h'.mem m').1 hm'
  obtain ⟨user, hm⟩ := (h.mem m).1 hm
  rw [hsame] at hm'
  obtain ⟨horder, hname⟩ := rank_eq_iff.1 (le_antisymm hle hle')
  exact huntied user' user m' m hm' hm horder hname

-- ========================================================== the directory

theorem Roll.Enumerates.perm {places' : List MemberKey} (h : roll.Enumerates places)
    (hperm : places.Perm places') : roll.Enumerates places' :=
  ⟨hperm.nodup_iff.1 h.nodup, fun key => hperm.mem_iff.symm.trans (h.taken key)⟩

theorem enumerates_keys (d : Directory) :
    Roll.Enumerates d.lookup (d.members.map Membership.key) :=
  ⟨d.nodup, fun _ => mem_keys_iff⟩

theorem filterMap_lookup_keys (h : ∀ m ∈ l, m ∈ d.members) :
    (l.map Membership.key).filterMap d.lookup = l := by
  have hsome : ∀ m ∈ l, (d.lookup ∘ Membership.key) m = some m :=
    fun m hm => lookup_eq_some_iff.2 ⟨h m hm, rfl⟩
  rw [List.filterMap_map, List.filterMap_congr hsome, List.filterMap_some]

/-- The list of the directory is sorted by rank. -/
theorem sorted_membersOf : (d.membersOf project).Pairwise (notBehind · ·) := by
  apply (sorted_mergeSort listedBefore_iff _).imp
  intro a b hle
  rw [notBehind_iff]
  rcases Prod.Lex.toLex_le_toLex.1 hle with hlt | ⟨heq, -⟩
  · exact hlt.le
  · exact heq.le

/-- The directory lists a project as a store would that goes through its members first,
in the order in which the directory lists them. -/
theorem exists_membersOf_eq_listing (d : Directory) (project : ProjectId) :
    ∃ places, Roll.Enumerates d.lookup places
      ∧ d.membersOf project = listing project (places.filterMap d.lookup) := by
  let others := d.members.filter fun m => !decide (m.projectId = project)
  have hperm : d.members.Perm (d.membersOf project ++ others) := by
    refine .trans (List.filter_append_perm (·.projectId = project) _).symm ?_
    exact List.Perm.append_right others (List.mergeSort_perm _ _).symm
  refine ⟨_, (enumerates_keys d).perm (hperm.map Membership.key), ?_⟩
  have hmembers : (d.membersOf project).filter (·.projectId = project) = d.membersOf project := by
    rw [List.filter_eq_self]
    intro m hm
    exact (List.mem_filter.1 (List.mem_mergeSort.1 hm)).2
  have hothers : others.filter (·.projectId = project) = [] := by
    rw [List.filter_eq_nil_iff]
    intro m hm
    simpa using (List.mem_filter.1 hm).2
  rw [filterMap_lookup_keys fun m hm => hperm.mem_iff.2 hm, listing, List.filter_append,
    hmembers, hothers, List.append_nil, List.mergeSort_of_pairwise sorted_membersOf]

-- ========================================================== main result

/-- After every run of calls, the list of a project has the memberships that are filed
under it, each once and one for a user at most, sorted by rank, in whatever order a store
goes through what is filed; and the directory gives one of these lists. After two runs
that leave the same in the project, the lists differ by the order of members whose roles
have the same order and name, and not at all if there are no two of these. -/
theorem members_listed (log : List (Call × Response)) (roll : Roll)
    (h : Roll.blank.Leads log roll) (project : ProjectId) :
    (∃ places, roll.Enumerates places
        ∧ (empty.serve (log.map (·.1))).2.membersOf project
          = listing project (places.filterMap roll))
      ∧ ∀ places, roll.Enumerates places →
        roll.Lists project (listing project (places.filterMap roll))
          ∧ ∀ log' roll' places', Roll.blank.Leads log' roll' → roll'.Enumerates places' →
            (∀ user, roll' ⟨user, project⟩ = roll ⟨user, project⟩) →
            AlikeUpToTies (listing project (places.filterMap roll))
                (listing project (places'.filterMap roll'))
              ∧ (roll.Untied project → listing project (places'.filterMap roll')
                = listing project (places.filterMap roll)) := by
  have hroll : (empty.serve (log.map (·.1))).2.lookup = roll :=
    (leads_iff.1 (show _ = _ ∧ Roll.Leads empty.lookup log roll from ⟨rfl, h⟩)).2
  have hfiled : roll.Filed := h.filed Roll.filed_blank
  refine ⟨?_, ?_⟩
  · rw [← hroll]
    exact exists_membersOf_eq_listing _ project
  · intro places hplaces
    have hlists : roll.Lists project (listing project (places.filterMap roll)) :=
      lists_listing hfiled hplaces
    refine ⟨hlists, ?_⟩
    intro log' roll' places' h' hplaces' hsame
    have hlists' : roll'.Lists project (listing project (places'.filterMap roll')) :=
      lists_listing (h'.filed Roll.filed_blank) hplaces'
    exact ⟨hlists.alike hlists' hsame, hlists.eq_of_untied hlists' hsame⟩

/-- Two users join a project with the same role and a third one with a role of negative
order. The first is in another project as well. -/
def assembly : List Call :=
  let clerk : Role := .new ⟨3⟩ ⟨1⟩ "Clerk" [] 5
  [.alter (.add (.new ⟨7⟩ clerk)), .alter (.add (.new ⟨8⟩ clerk)),
    .alter (.add (.new ⟨9⟩ (.new ⟨4⟩ ⟨1⟩ "Usher" [] (-1)))),
    .alter (.add (.new ⟨7⟩ (.new ⟨5⟩ ⟨2⟩ "Clerk" [])))]

/-- The usher comes first. The clerks follow as a store has them, forwards or backwards. -/
theorem listings_of_assembly_alike :
    let d := (empty.serve assembly).2
    let keys := d.members.map Membership.key
    let forwards := listing ⟨1⟩ (keys.filterMap d.lookup)
    let backwards := listing ⟨1⟩ (keys.reverse.filterMap d.lookup)
    Roll.blank.Leads (empty.serve assembly).1 d.lookup
      ∧ forwards.map (·.userId) = [⟨9⟩, ⟨8⟩, ⟨7⟩] ∧ backwards.map (·.userId) = [⟨9⟩, ⟨7⟩, ⟨8⟩]
      ∧ Roll.Lists d.lookup ⟨1⟩ forwards ∧ AlikeUpToTies forwards backwards := by
  intro d keys forwards backwards
  have hleads : Roll.blank.Leads (empty.serve assembly).1 d.lookup :=
    (leads_iff.2 (show (empty.serve assembly).1 = _ ∧ _ from ⟨rfl, rfl⟩)).2
  have hforwards : Roll.Enumerates d.lookup keys := enumerates_keys d
  have hbackwards : Roll.Enumerates d.lookup keys.reverse :=
    hforwards.perm (List.reverse_perm keys).symm
  obtain ⟨hlists, hruns⟩ := (members_listed _ _ hleads ⟨1⟩).2 keys hforwards
  refine ⟨hleads, ?_, ?_, hlists, (hruns _ _ _ hleads hbackwards fun _ => rfl).1⟩
  · simp only [forwards, keys, d]
    cbv
  · simp only [backwards, keys, d]
    cbv

end Directory

end ProjectAccess
