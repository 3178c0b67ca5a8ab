/-
The directory as a roll.

A roll has a place for every user and project, with a membership in it or nothing. It
is what the directory is to those who call it, and this file says so of every run of
calls: from a roll without entries, a directory without members goes through the same
responses and the same entries as the roll (`calls_refine_roll`).

# The turns

Every call is at one place. `Turn` lists what may happen there: how a call is answered,
given what stands at its place, and what stands there afterwards. It has a constructor
for each way a call can go, refusals included. A step of the roll (`Roll.Step`) is a
turn at the place of the call, and every other place stays as it is.

Turns are single valued (`Turn.unique`), and the directory makes one for every call
(`turn_take`). So responses and entries of the directory are the only ones that the roll
allows, and "exactly if" is never said apart: a refusal is given just where the turn
that gives it is the one there is.

# Filing

Nothing in a roll says that the membership at a place is for the user and the project of
that place. It is a property of the turns that calls keep it so (`Turn.filed`), because
an addition is made at the place of its own membership and a change of a membership
leaves its user and project alone.
-/
import Mathlib.Data.List.Nodup
import Mathlib.Logic.Function.Basic
import ProjectAccess.Proofs.Directory.Changes

namespace ProjectAccess

namespace Directory

-- ================================================================ calls

/-- What the directory may be asked for. -/
inductive Call where
  | alter (change : Change)
  | lookup (key : MemberKey)
  deriving DecidableEq

/-- The user and the project that a call concerns. -/
def Call.key : Call → MemberKey
  | .alter change => change.key
  | .lookup key => key

/-- What there is under the key after the call, or why the call is refused. -/
abbrev Response := Except StoreError (Option Membership)

/-- Takes a call. -/
def take (d : Directory) (call : Call) : Response × Directory :=
  match call with
  | .lookup key => (.ok (d.lookup key), d)
  | .alter change =>
    match d.attempt change with
    | .ok (left, d') => (.ok left, d')
    | .error error => (.error error, d)

/-- Takes calls one after the other, and keeps a log of calls and responses. -/
def serve (d : Directory) : List Call → List (Call × Response) × Directory
  | [] => ([], d)
  | call :: calls =>
    let (response, d) := d.take call
    let (log, d) := d.serve calls
    ((call, response) :: log, d)

/-- The failure of an addition under a key that is in use. -/
def alreadyMember (key : MemberKey) : StoreError :=
  .conflict ("user " ++ key.userId.text ++ " is already a member of project "
    ++ key.projectId.text)

/-- The failure of a change to a role of another project. -/
def foreignRole (role : Role) : StoreError :=
  .conflict ("role " ++ role.id.text ++ " belongs to project " ++ role.projectId.text)

-- ================================================================ turns

/-- What may happen at the place of a call: how the call is answered, given what stands
there before it, and what stands there after it. -/
inductive Turn : Call → Option Membership → Response → Option Membership → Prop where
  | added {m : Membership} : Turn (.alter (.add m)) none (.ok (some m)) (some m)
  | addedTwice {m m₀ : Membership} :
      Turn (.alter (.add m)) (some m₀) (.error (alreadyMember m.key)) (some m₀)
  | roleGiven {key : MemberKey} {role : Role} {m : Membership}
      (hproject : role.projectId = key.projectId) :
      Turn (.alter (.updateRole key role)) (some m)
        (.ok (some { m with role })) (some { m with role })
  /-- Whether there is anybody to give the role to does not matter. -/
  | roleForeign {key : MemberKey} {role : Role} {before : Option Membership}
      (hproject : role.projectId ≠ key.projectId) :
      Turn (.alter (.updateRole key role)) before (.error (foreignRole role)) before
  | roleForNobody {key : MemberKey} {role : Role} (hproject : role.projectId = key.projectId) :
      Turn (.alter (.updateRole key role)) none (.error (notFound key)) none
  | flagged {key : MemberKey} {isOwner : Bool} {m : Membership} :
      Turn (.alter (.setOwner key isOwner)) (some m)
        (.ok (some { m with isOwner })) (some { m with isOwner })
  | flaggedNobody {key : MemberKey} {isOwner : Bool} :
      Turn (.alter (.setOwner key isOwner)) none (.error (notFound key)) none
  | removed {key : MemberKey} {m : Membership} :
      Turn (.alter (.remove key)) (some m) (.ok none) none
  | removedNobody {key : MemberKey} :
      Turn (.alter (.remove key)) none (.error (notFound key)) none
  | lookedUp {key : MemberKey} {before : Option Membership} :
      Turn (.lookup key) before (.ok before) before

variable {call : Call} {before after after' : Option Membership} {response response' : Response}
variable {d d' : Directory} {key : MemberKey} {m : Membership}

/-- A call goes one way only. -/
theorem Turn.unique (h : Turn call before response after) (h' : Turn call before response' after') :
    response = response' ∧ after = after' := by
  cases h with
  | roleGiven hproject =>
      cases h' with
      | roleGiven => exact ⟨rfl, rfl⟩
      | roleForeign hforeign => exact absurd hproject hforeign
  | roleForeign hforeign =>
      cases h' with
      | roleGiven hproject => exact absurd hproject hforeign
      | roleForeign => exact ⟨rfl, rfl⟩
      | roleForNobody hproject => exact absurd hproject hforeign
  | roleForNobody hproject =>
      cases h' with
      | roleForeign hforeign => exact absurd hproject hforeign
      | roleForNobody => exact ⟨rfl, rfl⟩
  | _ =>
      -- in all other calls the way is told by what stands at the place
      cases h'
      exact ⟨rfl, rfl⟩

/-- What stands at the place of a call is for its user and project, if it was before. -/
theorem Turn.filed (h : Turn call before response after)
    (hbefore : ∀ {m}, before = some m → m.key = call.key) :
    ∀ {m}, after = some m → m.key = call.key := by
  cases h with
  | added =>
      rintro m ⟨⟩
      rfl
  | roleGiven =>
      -- the user and the project are not touched
      rintro m ⟨⟩
      have hkey := hbefore rfl
      exact hkey
  | flagged =>
      -- the user and the project are not touched
      rintro m ⟨⟩
      have hkey := hbefore rfl
      exact hkey
  | removed => nofun
  | _ => exact hbefore

/-- A change that succeeds is answered with what it leaves. -/
theorem Turn.left_of_ok {change : Change} {left : Option Membership}
    (h : Turn (.alter change) before (.ok left) after) : after = left := by
  cases h <;> rfl

-- ======================================================== the directory

theorem mem_keys_iff : key ∈ d.members.map Membership.key ↔ (d.lookup key).isSome = true := by
  unfold lookup
  rw [List.find?_isSome, List.mem_map]
  simp only [beq_iff_eq]

theorem update_of_some {f : Membership → Membership} {hf : ∀ m, (f m).key = m.key}
    (h : d.lookup key = some m) : d.update key f hf = .ok (f m, d.modify key f hf) := by
  unfold update
  rw [h]

theorem update_of_none {f : Membership → Membership} {hf : ∀ m, (f m).key = m.key}
    (h : d.lookup key = none) : d.update key f hf = .error (notFound key) := by
  unfold update
  rw [h]

theorem updateRole_eq_update {role : Role} (hproject : role.projectId = key.projectId) :
    d.updateRole key role = d.update key (fun m => { m with role }) fun _ => rfl :=
  if_neg (not_not.2 hproject)

/-- An attempt makes a turn: to what it answers with if it succeeds, and to nothing new
if it does not. -/
theorem turn_attempt (d : Directory) (change : Change) :
    match d.attempt change with
    | .ok (left, _) => Turn (.alter change) (d.lookup change.key) (.ok left) left
    | .error error =>
      Turn (.alter change) (d.lookup change.key) (.error error) (d.lookup change.key) := by
  cases change with
  | add m =>
      unfold attempt add Change.key
      cases hlookup : d.lookup m.key with
      | none =>
          have hnew : m.key ∉ d.members.map Membership.key := by
            rw [mem_keys_iff, hlookup]
            exact Bool.false_ne_true
          dsimp only
          rw [dif_neg hnew]
          exact .added
      | some m₀ =>
          have hold : m.key ∈ d.members.map Membership.key := by
            rw [mem_keys_iff, hlookup]
            rfl
          dsimp only
          rw [dif_pos hold]
          exact .addedTwice
  | updateRole key role =>
      unfold attempt Change.key
      by_cases hproject : role.projectId = key.projectId
      · cases hlookup : d.lookup key with
        | none =>
            have hrole : d.updateRole key role = .error (notFound key) :=
              (updateRole_eq_update hproject).trans (update_of_none hlookup)
            dsimp only
            rw [hrole]
            exact .roleForNobody hproject
        | some m =>
            have hrole : d.updateRole key role = .ok ({ m with role }, _) :=
              (updateRole_eq_update hproject).trans (update_of_some hlookup)
            dsimp only
            rw [hrole]
            exact .roleGiven hproject
      · have hrole : d.updateRole key role = .error (foreignRole role) := if_pos hproject
        dsimp only
        rw [hrole]
        exact .roleForeign hproject
  | setOwner key isOwner =>
      unfold attempt Change.key
      cases hlookup : d.lookup key with
      | none =>
          have howner : d.setOwner key isOwner = .error (notFound key) := update_of_none hlookup
          dsimp only
          rw [howner]
          exact .flaggedNobody
      | some m =>
          have howner : d.setOwner key isOwner = .ok (m.withOwner isOwner, _) :=
            update_of_some hlookup
          dsimp only
          rw [howner]
          exact .flagged
  | remove key =>
      unfold attempt Change.key
      cases hlookup : d.lookup key with
      | none =>
          have hremove : d.remove key = .error (notFound key) := by
            unfold remove
            rw [hlookup]
            rfl
          dsimp only
          rw [hremove]
          exact .removedNobody
      | some m =>
          have hremove : ∃ d', d.remove key = .ok d' := by
            unfold remove
            rw [hlookup]
            exact ⟨_, rfl⟩
          obtain ⟨d', hremove⟩ := hremove
          dsimp only
          rw [hremove]
          exact .removed

/-- The directory makes a turn at the place of every call. -/
theorem turn_take :
    Turn call (d.lookup call.key) (d.take call).1 ((d.take call).2.lookup call.key) := by
  cases call with
  | lookup key => exact Turn.lookedUp
  | alter change =>
      have hturn := turn_attempt d change
      unfold take Call.key
      dsimp only
      cases hattempt : d.attempt change with
      | ok result =>
          obtain ⟨left, d'⟩ := result
          rw [hattempt] at hturn
          dsimp only
          rw [lookup_attempt hattempt, if_pos rfl]
          exact hturn
      | error error =>
          rw [hattempt] at hturn
          exact hturn

/-- And every other place stays as it is. -/
theorem lookup_take_of_ne (hkey : key ≠ call.key) : (d.take call).2.lookup key = d.lookup key := by
  cases call with
  | lookup _ => rfl
  | alter change =>
      unfold take
      dsimp only
      cases hattempt : d.attempt change with
      | ok result => exact (lookup_attempt hattempt).trans (if_neg hkey)
      | error error => rfl

/-- A call that is refused leaves the directory itself as it is. -/
theorem take_of_error {error : StoreError} (h : (d.take call).1 = .error error) :
    (d.take call).2 = d := by
  cases call with
  | lookup _ => rfl
  | alter change =>
      unfold take at h ⊢
      dsimp only at h ⊢
      cases hattempt : d.attempt change with
      | ok result =>
          rw [hattempt] at h
          cases h
      | error error => rfl

/-- What is found are the members, each under its own user and project. -/
theorem lookup_eq_some_iff : d.lookup key = some m ↔ m ∈ d.members ∧ m.key = key := by
  constructor
  · intro h
    exact ⟨List.mem_of_find?_eq_some h, key_of_lookup h⟩
  · rintro ⟨hmem, rfl⟩
    have hfound : m.key ∈ d.members.map Membership.key := List.mem_map_of_mem hmem
    obtain ⟨m', hlookup⟩ := Option.isSome_iff_exists.1 (mem_keys_iff.1 hfound)
    -- the one that is found has the same key, and keys are not repeated
    have hsame : m' = m :=
      List.inj_on_of_nodup_map d.nodup (List.mem_of_find?_eq_some hlookup) hmem
        (key_of_lookup hlookup)
    rw [hlookup, hsame]

-- ================================================================= rolls

/-- What stands at each place. -/
abbrev Roll := MemberKey → Option Membership

namespace Roll

def blank : Roll := fun _ => none

/-- What stands at a place is for its user and project. -/
def Filed (r : Roll) : Prop := ∀ key m, r key = some m → m.key = key

/-- A call makes a turn at its place. -/
inductive Step (r : Roll) (call : Call) (response : Response) : Roll → Prop where
  | turn {after : Option Membership} (h : Turn call (r call.key) response after) :
      Step r call response (Function.update r call.key after)

/-- The responses to calls, one after the other, and what they lead to. -/
inductive Leads : Roll → List (Call × Response) → Roll → Prop where
  | nil {r : Roll} : Leads r [] r
  | cons {r r' r'' : Roll} {call : Call} {response : Response} {log : List (Call × Response)}
      (h : Step r call response r') (rest : Leads r' log r'') :
      Leads r ((call, response) :: log) r''

variable {r r' : Roll} {log : List (Call × Response)}

theorem Step.filed (h : Step r call response r') (hr : r.Filed) : r'.Filed := by
  obtain ⟨hturn⟩ := h
  intro key m hm
  by_cases hkey : key = call.key
  · rw [hkey, Function.update_self] at hm
    rw [hkey]
    exact hturn.filed (fun h => hr _ _ h) hm
  · rw [Function.update_of_ne hkey] at hm
    exact hr key m hm

theorem Leads.filed (h : Leads r log r') (hr : r.Filed) : r'.Filed := by
  induction h with
  | nil => exact hr
  | cons hstep _ ih => exact ih (hstep.filed hr)

theorem filed_blank : blank.Filed := nofun

end Roll

-- ============================================================ refinement

variable {roll : Roll} {calls : List Call} {log : List (Call × Response)}

/-- The directory takes the one step that the roll allows. -/
theorem step_iff :
    Roll.Step d.lookup call response roll
      ↔ (d.take call).1 = response ∧ (d.take call).2.lookup = roll := by
  have hafter : (d.take call).2.lookup
      = Function.update d.lookup call.key ((d.take call).2.lookup call.key) := by
    funext key
    by_cases hkey : key = call.key
    · rw [hkey, Function.update_self]
    · rw [Function.update_of_ne hkey, lookup_take_of_ne hkey]
  constructor
  · rintro ⟨hturn⟩
    obtain ⟨hresponse, hplace⟩ := turn_take.unique hturn
    exact ⟨hresponse, by rw [hafter, hplace]⟩
  · rintro ⟨rfl, rfl⟩
    rw [hafter]
    exact .turn turn_take

/-- The responses to calls and what they lead to are those of the roll, and the roll has
no others. -/
theorem leads_iff :
    (log.map (·.1) = calls ∧ Roll.Leads d.lookup log roll)
      ↔ (d.serve calls).1 = log ∧ (d.serve calls).2.lookup = roll := by
  induction calls generalizing d log with
  | nil =>
      rw [List.map_eq_nil_iff]
      constructor
      · rintro ⟨rfl, hleads⟩
        cases hleads
        exact ⟨rfl, rfl⟩
      · rintro ⟨rfl, rfl⟩
        exact ⟨rfl, .nil⟩
  | cons call calls ih =>
      constructor
      · rintro ⟨hcalls, hleads⟩
        cases hleads with
        | nil => cases hcalls
        | cons hstep rest =>
            obtain ⟨rfl, hrest⟩ := List.cons.inj hcalls
            obtain ⟨rfl, rfl⟩ := step_iff.1 hstep
            obtain ⟨rfl, hroll⟩ := ih.1 ⟨hrest, rest⟩
            exact ⟨rfl, hroll⟩
      · rintro ⟨rfl, hroll⟩
        obtain ⟨hrest, hleads⟩ := ih.2 ⟨rfl, hroll⟩
        exact ⟨congrArg (call :: ·) hrest, .cons (step_iff.2 ⟨rfl, rfl⟩) hleads⟩

-- ============================================================= histories

/-- No change under the key has succeeded. -/
def Untouched (key : MemberKey) (log : List (Call × Response)) : Prop :=
  ∀ change left, (.alter change, .ok left) ∈ log → change.key ≠ key

/-- The last change under the key that has succeeded left this. -/
def LastLeft (key : MemberKey) (log : List (Call × Response)) (left : Option Membership) : Prop :=
  ∃ before change after, log = before ++ (.alter change, .ok left) :: after ∧ change.key = key
    ∧ Untouched key after

theorem LastLeft.cons {entry : Call × Response} {left : Option Membership}
    (h : LastLeft key log left) : LastLeft key (entry :: log) left := by
  obtain ⟨before, change, after, rfl, hkey, hafter⟩ := h
  exact ⟨entry :: before, change, after, rfl, hkey, hafter⟩

/-- A call is a change under the key that succeeds and is answered with what it leaves
there, or there is no such change and no difference. -/
theorem take_at (d : Directory) (call : Call) (key : MemberKey) :
    (∃ change, call = .alter change ∧ change.key = key
        ∧ (d.take call).1 = .ok ((d.take call).2.lookup key))
      ∨ Untouched key [(call, (d.take call).1)]
        ∧ (d.take call).2.lookup key = d.lookup key := by
  by_cases hkey : key = call.key
  · cases call with
    | lookup _ =>
        refine .inr ⟨fun change left hmem => ?_, rfl⟩
        cases List.mem_singleton.1 hmem
    | alter change =>
        have hturn : Turn (.alter change) (d.lookup change.key) (d.take (.alter change)).1
            ((d.take (.alter change)).2.lookup change.key) := turn_take
        cases hresponse : (d.take (.alter change)).1 with
        | ok left =>
            rw [hresponse] at hturn
            refine .inl ⟨change, rfl, hkey.symm, ?_⟩
            rw [hkey]
            exact congrArg Except.ok hturn.left_of_ok.symm
        | error error =>
            refine .inr ⟨fun change left hmem => ?_, by rw [take_of_error hresponse]⟩
            cases List.mem_singleton.1 hmem
  · refine .inr ⟨fun change left hmem => ?_, lookup_take_of_ne hkey⟩
    rw [← (Prod.mk.inj (List.mem_singleton.1 hmem)).1] at hkey
    exact Ne.symm hkey

/-- What is under a key in the end is what the last successful change there left, or
what was there from the beginning. -/
theorem lookup_serve (key : MemberKey) :
    LastLeft key (d.serve calls).1 ((d.serve calls).2.lookup key)
      ∨ Untouched key (d.serve calls).1 ∧ (d.serve calls).2.lookup key = d.lookup key := by
  induction calls generalizing d with
  | nil => exact .inr ⟨nofun, rfl⟩
  | cons call calls ih =>
      rcases ih (d := (d.take call).2) with hlast | ⟨hrest, hsame⟩
      · exact .inl hlast.cons
      · -- no change succeeds after this call, so it is the last one or there is none
        rcases take_at d call key with ⟨change, rfl, hkey, hresponse⟩ | ⟨hcall, hbefore⟩
        · refine .inl ⟨[], change, _, ?_, hkey, hrest⟩
          rw [← hsame] at hresponse
          exact congrArg (fun response => (_, response) :: _) hresponse
        · refine .inr ⟨fun change left hmem => ?_, hsame.trans hbefore⟩
          rcases List.mem_cons.1 hmem with hhere | hlater
          · exact hcall change left (List.mem_singleton.2 hhere)
          · exact hrest change left hlater

-- ========================================================== main result

/-- From a roll without entries, a directory without members goes through calls as the
roll does: by the same responses to the same entries, and the roll has no others. Each
entry is filed under its own user and project, a call that is refused leaves the
directory as it is, no call touches another key, and what is found under a key is what
the last successful change there left, or nothing if there was none. -/
theorem calls_refine_roll (calls : List Call) :
    ∃ log d, empty.serve calls = (log, d)
      ∧ (∀ log' roll, log'.map (·.1) = calls ∧ Roll.blank.Leads log' roll
          ↔ log' = log ∧ roll = d.lookup)
      ∧ (∀ log' roll, Roll.blank.Leads log' roll → roll.Filed)
      ∧ (∀ key m, d.lookup key = some m ↔ m ∈ d.members ∧ m.key = key)
      ∧ (∀ call error, (d.take call).1 = .error error → (d.take call).2 = d)
      ∧ (∀ call key, key ≠ call.key → (d.take call).2.lookup key = d.lookup key)
      ∧ ∀ key, LastLeft key log (d.lookup key) ∨ Untouched key log ∧ d.lookup key = none := by
  refine ⟨(empty.serve calls).1, (empty.serve calls).2, rfl, fun log' roll => ?_,
    fun _ _ hleads => hleads.filed Roll.filed_blank, fun _ _ => lookup_eq_some_iff,
    fun _ _ => take_of_error, fun _ _ => lookup_take_of_ne, lookup_serve⟩
  have hblank : Roll.blank = empty.lookup := rfl
  rw [hblank, leads_iff, eq_comm, and_congr_right_iff]
  exact fun _ => eq_comm

end Directory

end ProjectAccess
