/-
What a run of changes leaves in the directory.

Changes are attempted one after the other, and one that fails is passed over. Roles
come into the directory from outside only: the role of a membership that a change
leaves behind was handed in with that change, or was there before under the same key
(`role_of_attempt`). So whatever holds of every role that is handed in during a run
holds of every role that is found after it (`roles_run`).
-/
import ProjectAccess.Proofs.Directory.Changes

namespace ProjectAccess

namespace Directory

/-- The directory after a change that is attempted. -/
def after (d : Directory) (change : Change) : Directory :=
  match d.attempt change with
  | .ok (_, d') => d'
  | .error _ => d

/-- The directory after changes that are attempted one after the other. -/
def run (d : Directory) (changes : List Change) : Directory := changes.foldl after d

/-- The role that is handed in with a change. -/
def Change.role? : Change → Option Role
  | .add membership => some membership.role
  | .updateRole _ role => some role
  | .setOwner _ _ => none
  | .remove _ => none

/-- Every role that is found in the directory is of a kind. -/
def Roles (d : Directory) (kind : Role → Prop) : Prop :=
  ∀ key m, d.lookup key = some m → kind m.role

variable {d d' : Directory} {key : MemberKey} {change : Change} {m : Membership}

theorem exists_of_update_eq_ok {f : Membership → Membership} {hf : ∀ m, (f m).key = m.key}
    (h : d.update key f hf = .ok (m, d')) : ∃ m₀, d.lookup key = some m₀ ∧ m = f m₀ := by
  unfold update at h
  split at h
  next m₀ hlookup =>
    cases h
    exact ⟨m₀, hlookup, rfl⟩
  next => cases h

/-- The role that a change leaves behind was handed in with it or was there before. -/
theorem role_of_attempt (h : d.attempt change = .ok (some m, d')) :
    change.role? = some m.role ∨ ∃ m₀, d.lookup change.key = some m₀ ∧ m₀.role = m.role := by
  cases change with
  | add membership =>
      obtain ⟨_, hadd, hleft⟩ := exists_of_map_eq_ok h
      cases hleft
      unfold add at hadd
      split at hadd
      · cases hadd
      · cases hadd
        exact .inl rfl
  | updateRole key role =>
      obtain ⟨_, hrole, hleft⟩ := exists_of_map_eq_ok h
      cases hleft
      unfold updateRole at hrole
      split at hrole
      · cases hrole
      · obtain ⟨m₀, -, hm⟩ := exists_of_update_eq_ok hrole
        rw [hm]
        exact .inl rfl
  | setOwner key isOwner =>
      obtain ⟨_, howner, hleft⟩ := exists_of_map_eq_ok h
      cases hleft
      obtain ⟨m₀, hlookup, hm⟩ := exists_of_update_eq_ok howner
      rw [hm]
      exact .inr ⟨m₀, hlookup, rfl⟩
  | remove key =>
      obtain ⟨_, -, hleft⟩ := exists_of_map_eq_ok h
      cases hleft

variable {kind : Role → Prop}

theorem roles_empty : (empty : Directory).Roles kind := nofun

/-- A change keeps the roles of a kind if the one that it hands in is. -/
theorem Roles.after (h : d.Roles kind) (hchange : ∀ role, change.role? = some role → kind role) :
    (d.after change).Roles kind := by
  unfold Directory.after
  split
  next left d' hattempt =>
    intro key m hm
    rw [lookup_attempt hattempt] at hm
    by_cases hkey : key = change.key
    · rw [if_pos hkey] at hm
      cases hm
      rcases role_of_attempt hattempt with hhanded | ⟨m₀, hbefore, hrole⟩
      · exact hchange m.role hhanded
      · exact hrole ▸ h _ m₀ hbefore
    · rw [if_neg hkey] at hm
      exact h key m hm
  next => exact h

/-- After a run that starts without members every role is of the kind of those handed in. -/
theorem roles_run {changes : List Change}
    (hchanges : ∀ change ∈ changes, ∀ role, change.role? = some role → kind role) :
    (run empty changes).Roles kind := by
  -- by induction over the changes, from any directory in which it is so already
  have hrun : ∀ d : Directory, d.Roles kind → (d.run changes).Roles kind := by
    induction changes with
    | nil => exact fun d h => h
    | cons change changes ih =>
        obtain ⟨hchange, hrest⟩ := List.forall_mem_cons.1 hchanges
        exact fun d h => ih hrest _ (h.after hchange)
  exact hrun empty roles_empty

end Directory

end ProjectAccess
