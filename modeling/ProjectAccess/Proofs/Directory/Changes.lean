/-
What a change does to the directory, read off its lookups.

The four kinds of change are brought into one (`Directory.Change`). All of them
concern one user and one project, and a change that succeeds answers with what there
is under that key from then on: a membership, or none after a removal. That is all it
does (`lookup_attempt`): under every other key the directory says what it said before.
-/
import ProjectAccess.Directory

namespace ProjectAccess

namespace Directory

/-- A change to the memberships. -/
inductive Change where
  | add (membership : Membership)
  | updateRole (key : MemberKey) (role : Role)
  | setOwner (key : MemberKey) (isOwner : Bool)
  | remove (key : MemberKey)
  deriving DecidableEq

/-- The user and the project that a change concerns. -/
def Change.key : Change → MemberKey
  | .add membership => membership.key
  | .updateRole key _ => key
  | .setOwner key _ => key
  | .remove key => key

/-- Attempts a change: what there is under its key after it, and the directory. -/
def attempt (d : Directory) (change : Change) :
    Except StoreError (Option Membership × Directory) :=
  match change with
  | .add membership => (d.add membership).map fun (m, d) => (some m, d)
  | .updateRole key role => (d.updateRole key role).map fun (m, d) => (some m, d)
  | .setOwner key isOwner => (d.setOwner key isOwner).map fun (m, d) => (some m, d)
  | .remove key => (d.remove key).map fun d => (none, d)

variable {d d' : Directory} {key k : MemberKey} {m m' : Membership}

-- ============================================================== lookups

/-- A membership that is found is the one that was looked for. -/
theorem key_of_lookup (h : d.lookup key = some m) : m.key = key := by
  unfold lookup at h
  have hkey := List.find?_some h
  simpa using hkey

/-- A change in place shows under its key only. -/
theorem lookup_modify {f : Membership → Membership} {hf : ∀ m, (f m).key = m.key} :
    (d.modify k f hf).lookup key = if key = k then (d.lookup key).map f else d.lookup key := by
  have hkeys : ((·.key == key) ∘ fun m : Membership => if m.key = k then f m else m)
      = (·.key == key) := by
    funext m
    show ((if m.key = k then f m else m).key == key) = (m.key == key)
    split
    · rw [hf]
    · rfl
  have hfound : (d.modify k f hf).lookup key
      = (d.lookup key).map fun m => if m.key = k then f m else m := by
    show (d.members.map _).find? _ = (d.members.find? _).map _
    rw [List.find?_map, hkeys]
  rw [hfound]
  cases hlookup : d.lookup key with
  | none => rw [Option.map_none, Option.map_none, ite_self]
  | some m =>
      rw [Option.map_some, key_of_lookup hlookup]
      by_cases hkey : key = k
      · rw [if_pos hkey, if_pos hkey, Option.map_some]
      · rw [if_neg hkey, if_neg hkey]

/-- An update answers with what there is under the key from then on. -/
theorem lookup_update {f : Membership → Membership} {hf : ∀ m, (f m).key = m.key}
    (h : d.update k f hf = .ok (m, d')) :
    d'.lookup key = if key = k then some m else d.lookup key := by
  unfold update at h
  split at h
  next m' hlookup =>
    cases h
    rw [lookup_modify]
    by_cases hkey : key = k
    · rw [if_pos hkey, if_pos hkey, hkey, hlookup, Option.map_some]
    · rw [if_neg hkey, if_neg hkey]
  next => cases h

/-- So does an addition. -/
theorem lookup_add (h : d.add m = .ok (m', d')) :
    d'.lookup key = if key = m.key then some m' else d.lookup key := by
  unfold add at h
  split at h
  · cases h
  · cases h
    show (m :: d.members).find? (·.key == key) = _
    rw [List.find?_cons]
    by_cases hkey : key = m.key
    · rw [if_pos hkey, hkey, beq_self_eq_true]
    · rw [if_neg hkey, beq_eq_false_iff_ne.2 (Ne.symm hkey)]
      rfl

/-- After a removal there is nothing under the key. -/
theorem lookup_remove (h : d.remove k = .ok d') :
    d'.lookup key = if key = k then none else d.lookup key := by
  unfold remove at h
  split at h
  · cases h
    show (d.members.filter _).find? (·.key == key) = _
    rw [List.find?_filter]
    by_cases hkey : key = k
    · rw [if_pos hkey, List.find?_eq_none]
      intro m _
      simp [hkey]
    · rw [if_neg hkey]
      show _ = d.members.find? (·.key == key)
      congr 1
      funext m
      by_cases hm : m.key = key
      · simp [hm, hkey]
      · simp [hm]
  · cases h

-- ============================================================== changes

/-- What succeeds after all succeeded before. -/
theorem exists_of_map_eq_ok {ε α β : Type} {x : Except ε α} {f : α → β} {b : β}
    (h : x.map f = .ok b) : ∃ a, x = .ok a ∧ f a = b := by
  cases x with
  | error e => cases h
  | ok a => exact ⟨a, rfl, Except.ok.inj h⟩

/-- A change that succeeds answers with what there is under its key from then on, and
leaves everything else as it was. -/
theorem lookup_attempt {change : Change} {left : Option Membership}
    (h : d.attempt change = .ok (left, d')) :
    d'.lookup key = if key = change.key then left else d.lookup key := by
  cases change with
  | add membership =>
      obtain ⟨_, hadd, hleft⟩ := exists_of_map_eq_ok h
      cases hleft
      exact lookup_add hadd
  | updateRole key role =>
      obtain ⟨_, hrole, hleft⟩ := exists_of_map_eq_ok h
      cases hleft
      unfold updateRole at hrole
      split at hrole
      · cases hrole
      · exact lookup_update hrole
  | setOwner key isOwner =>
      obtain ⟨_, howner, hleft⟩ := exists_of_map_eq_ok h
      cases hleft
      exact lookup_update howner
  | remove key =>
      obtain ⟨_, hremove, hleft⟩ := exists_of_map_eq_ok h
      cases hleft
      exact lookup_remove hremove

end Directory

end ProjectAccess
