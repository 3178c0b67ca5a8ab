/-
What a registry answers that has been put together by calls.

A policy starts without bindings and goes through calls, each of which binds an action,
to one predicate or to several together, or names the predicate that is enough. Policies
that are finished are registered one after the other. `answers_after_calls` says what
guards an action on a type in the end.

Three times the last one counts, and nothing of the earlier ones is left: the last policy
registered for the type, in it the last predicate bound to the action, and the last one
named as enough (`last_write`). The three are read off different calls, so it makes no
difference how calls of one sort stand among those of another. What is enough is not put
before the bound predicate until somebody asks for the guard, which is why it may be named
before the action is bound or after that.
-/
import ProjectAccess.Proofs.Policy.Guards

namespace ProjectAccess

-- ========================================================= calls on a policy

/-- A call on a policy that is being put together. -/
inductive PolicyCall where
  | withEnough (enough : Predicate)
  | bind (action : Action) (guard : Predicate)
  | bindAll (action : Action) (guards : List Predicate)

namespace PolicyCall

/-- The predicate that the call names as enough. -/
def enough? : PolicyCall → Option Predicate
  | withEnough enough => some enough
  | bind _ _ => none
  | bindAll _ _ => none

/-- The predicate to which the call binds the action. -/
def bound? (action : Action) : PolicyCall → Option Predicate
  | withEnough _ => none
  | bind name guard => if action = name then some guard else none
  | bindAll name guards => if action = name then some (.all guards) else none

/-- The predicate that is named as enough last. -/
def lastEnough? (calls : List PolicyCall) : Option Predicate :=
  (calls.filterMap enough?).getLast?

/-- The predicate to which the action is bound last. -/
def lastBound? (action : Action) (calls : List PolicyCall) : Option Predicate :=
  (calls.filterMap (bound? action)).getLast?

/-- What guards the action after the calls. -/
def guardAfter? (calls : List PolicyCall) (action : Action) : Option Predicate :=
  match lastBound? action calls, lastEnough? calls with
  | none, _ => none
  | some bound, none => some bound
  | some bound, some enough => some (.any [enough, bound])

variable {calls : List PolicyCall} {action : Action}

theorem lastBound?_eq_none_iff :
    lastBound? action calls = none ↔ ∀ call ∈ calls, call.bound? action = none := by
  rw [lastBound?, List.getLast?_eq_none_iff, List.filterMap_eq_nil_iff]

theorem guardAfter?_eq_none_iff :
    guardAfter? calls action = none ↔ ∀ call ∈ calls, call.bound? action = none := by
  rw [← lastBound?_eq_none_iff]
  unfold guardAfter?
  split
  next h => exact iff_of_true rfl h
  next h _ => exact iff_of_false nofun (h ▸ nofun)
  next h _ => exact iff_of_false nofun (h ▸ nofun)

end PolicyCall

-- ================================================================ enough

namespace Predicate

variable {a : Answers} {enough bound : Predicate}

theorem value_enough : (any [enough, bound]).value a = (enough.value a || bound.value a) := by
  simp [value_any]

/-- If what is enough is true, its own checks are the only ones that are run. -/
theorem asked_enough (h : enough.value a = true) :
    (any [enough, bound]).asked a = enough.asked a := by
  show enough.asked a ++ (if enough.value a = true then [] else _) = _
  rw [if_pos h, List.append_nil]

theorem verdict_enough (h : enough.value a = true) :
    (any [enough, bound]).verdict a = enough.verdict a := by
  rw [verdict, verdict, value_enough, trace_eq_map_asked, asked_enough h, ← trace_eq_map_asked, h,
    Bool.true_or]

end Predicate

-- ============================================================== policies

namespace ResourcePolicy

open PolicyCall

/-- The policy after a call. -/
def call (p : ResourcePolicy) : PolicyCall → ResourcePolicy
  | .withEnough enough => p.withEnough enough
  | .bind action guard => p.bind action guard
  | .bindAll action guards => p.bindAll action guards

/-- The policy for a type that is put together by calls. -/
def build (type : ResourceType) (calls : List PolicyCall) : ResourcePolicy :=
  calls.foldl call (new type)

variable {type : ResourceType} {calls : List PolicyCall} {action : Action}

/-- No call makes it a policy for another type. -/
theorem resourceType_build : (build type calls).resourceType = type := by
  have hrun : ∀ p : ResourcePolicy, (calls.foldl call p).resourceType = p.resourceType := by
    induction calls with
    | nil => exact fun _ => rfl
    | cons c calls ih =>
        intro p
        have hcall : (p.call c).resourceType = p.resourceType := by cases c <;> rfl
        exact (ih (p.call c)).trans hcall
  exact hrun (new type)

theorem enough_build : (build type calls).enough = lastEnough? calls := by
  have hcall : ∀ (p : ResourcePolicy) (c : PolicyCall),
      (p.call c).enough = c.enough?.or p.enough := by
    intro p c
    cases c <;> rfl
  exact (last_write (·.enough) hcall calls (new type)).trans Option.or_none

/-- In a policy the last predicate is bound that the calls give for an action. -/
theorem get?_build : (build type calls).bound.get? action = lastBound? action calls := by
  have hcall : ∀ (p : ResourcePolicy) (c : PolicyCall),
      (p.call c).bound.get? action = (c.bound? action).or (p.bound.get? action) := by
    intro p c
    cases c with
    | withEnough enough => rfl
    | bind name guard => exact Table.get?_put_eq_or
    | bindAll name guards => exact Table.get?_put_eq_or
  exact (last_write (·.bound.get? action) hcall calls (new type)).trans Option.or_none

/-- The guard of a built policy is read off its calls. -/
theorem guard?_build : (build type calls).guard? action = guardAfter? calls action := by
  unfold guard? guardAfter?
  rw [get?_build, enough_build]
  cases lastBound? action calls <;> cases lastEnough? calls <;> rfl

end ResourcePolicy

-- ======================================================== registrations

/-- A policy that is registered, told by its type and the calls that put it together. -/
structure Registration where
  type : ResourceType
  calls : List PolicyCall

namespace Registration

def policy (reg : Registration) : ResourcePolicy := .build reg.type reg.calls

/-- The last policy that is registered for the type. -/
def lastFor? (type : ResourceType) (regs : List Registration) : Option Registration :=
  (regs.filter (·.type = type)).getLast?

end Registration

namespace Registry

open Registration PolicyCall

/-- The registry after policies are registered one after the other. -/
def registerAll (r : Registry) (regs : List Registration) : Registry :=
  regs.foldl (fun r reg => r.register reg.policy) r

variable {r : Registry} {regs regs' : List Registration} {type : ResourceType} {action : Action}

theorem policy?_registerAll :
    (r.registerAll regs).policy? type
      = ((lastFor? type regs).map policy).or (r.policy? type) := by
  have hregister : ∀ (r : Registry) (reg : Registration),
      (r.register reg.policy).policy? type
        = (if reg.type = type then some reg.policy else none).or (r.policy? type) := by
    intro r reg
    have htype : type = reg.policy.resourceType ↔ reg.type = type := by
      rw [policy, ResourcePolicy.resourceType_build, eq_comm]
    rw [← if_congr htype rfl rfl]
    exact Table.get?_put_eq_or
  have hlast : (regs.filterMap fun reg => if reg.type = type then some reg.policy else none)
      = (regs.filter (·.type = type)).map policy := by
    induction regs with
    | nil => rfl
    | cons reg regs ih =>
        by_cases htype : reg.type = type
        · simp [htype, ih]
        · simp [htype, ih]
  refine (last_write (·.policy? type) hregister regs r).trans ?_
  rw [hlast, List.getLast?_map, lastFor?]

/-- It makes no difference how policies for one type stand among those for another. -/
theorem registerAll_congr
    (h : ∀ type, regs.filter (·.type = type) = regs'.filter (·.type = type)) :
    r.registerAll regs = r.registerAll regs' := by
  have hpolicies : (r.registerAll regs).policies = (r.registerAll regs').policies := by
    refine Table.ext_get? fun type => ?_
    show (r.registerAll regs).policy? type = (r.registerAll regs').policy? type
    rw [policy?_registerAll, policy?_registerAll, lastFor?, lastFor?, h]
  exact congrArg Registry.mk hpolicies

/-- The guard of a type and an action is read off the calls of the policy that was
registered last. -/
theorem guard?_registerAll :
    (r.registerAll regs).guard? type action
      = match lastFor? type regs with
        | some reg => guardAfter? reg.calls action
        | none => r.guard? type action := by
  unfold guard?
  rw [policy?_registerAll]
  cases lastFor? type regs with
  | none => rfl
  | some reg => exact ResourcePolicy.guard?_build

-- ========================================================== main result

/-- What a registry answers after policies have been registered, each put together by
calls. The policy of a type is the last one that is registered for it, with nothing left of
the others, and only a type without one keeps the policy from the beginning. An action is
guarded exactly if that policy binds it, by the predicate bound last, behind the one named
last as enough if there is one. Registrations for different types may change places, and
what is enough makes up for the bound predicate without running any check of it. -/
theorem answers_after_calls (start : Registry) (regs : List Registration) :
    (∀ type, (start.registerAll regs).policy? type
        = match lastFor? type regs with
          | some reg => some reg.policy
          | none => start.policy? type)
      ∧ (∀ type action, (start.registerAll regs).guard? type action
        = match lastFor? type regs with
          | some reg => guardAfter? reg.calls action
          | none => start.guard? type action)
      ∧ (∀ type action, (start.registerAll regs).guard? type action = none
        ↔ match lastFor? type regs, start.policy? type with
          | some reg, _ => ∀ call ∈ reg.calls, call.bound? action = none
          | none, some p => action ∉ p.actions
          | none, none => True)
      ∧ (∀ regs', (∀ type, regs.filter (·.type = type) = regs'.filter (·.type = type)) →
          start.registerAll regs = start.registerAll regs')
      ∧ ∀ type action reg enough bound, lastFor? type regs = some reg →
          lastEnough? reg.calls = some enough → lastBound? action reg.calls = some bound →
          ∃ guard, (start.registerAll regs).guard? type action = some guard
            ∧ ∀ c : Context,
              (guard.evaluate c).answer
                  = ((enough.evaluate c).answer || (bound.evaluate c).answer)
                ∧ ((enough.evaluate c).answer = true →
                  guard.evaluate c = enough.evaluate c
                    ∧ guard.asked c.answers = enough.asked c.answers) := by
  refine ⟨fun type => ?_, fun _ _ => guard?_registerAll, fun type action => ?_,
    fun _ => registerAll_congr, ?_⟩
  · rw [policy?_registerAll]
    cases lastFor? type regs <;> rfl
  · rw [guard?_registerAll]
    cases lastFor? type regs with
    | some reg => exact guardAfter?_eq_none_iff
    | none =>
        -- the policy is the one from the beginning, if there is one
        unfold guard?
        cases start.policy? type with
        | none => exact iff_of_true rfl trivial
        | some p => exact ResourcePolicy.guard?_eq_none_iff
  · intro type action reg enough bound hreg henough hbound
    refine ⟨.any [enough, bound], ?_, fun c => ?_⟩
    · rw [guard?_registerAll, hreg]
      show guardAfter? reg.calls action = _
      rw [guardAfter?, henough, hbound]
    · rw [Predicate.evaluate_eq, Predicate.evaluate_eq, Predicate.evaluate_eq]
      exact ⟨Predicate.value_enough,
        fun h => ⟨Predicate.verdict_enough h, Predicate.asked_enough h⟩⟩

/-- What is enough is in front, though the action is bound once before it is named and once
more afterwards. -/
example :
    (empty.registerAll [⟨"page", [.bind Action.update .isProjectMember, .withEnough .isProjectOwner,
        .bindAll Action.update [.isAuthenticated, .hasPermission "edit"]]⟩]).guard?
        "page" Action.update
      = some (.any [.isProjectOwner, .all [.isAuthenticated, .hasPermission "edit"]]) := rfl

end Registry

end ProjectAccess
