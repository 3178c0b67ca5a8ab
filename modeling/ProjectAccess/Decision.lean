/-
Decisions: whether access is granted, and on what ground.
-/
import ProjectAccess.Subject

namespace ProjectAccess

/-- The ground of a decision. -/
inductive Reason where
  /-- A superuser asked. -/
  | superuserBypass
  /-- Nothing guards the action, so it is denied. -/
  | noPolicy
  /-- The guard of the action was evaluated. -/
  | policyEvaluated
  deriving DecidableEq, Repr

namespace Reason

/-- All grounds. -/
def all : List Reason := [.superuserBypass, .noPolicy, .policyEvaluated]

/-- The word for a ground in records, log events and metrics. -/
def name : Reason → String
  | .superuserBypass => "superuser_bypass"
  | .noPolicy => "no_policy"
  | .policyEvaluated => "policy_evaluated"

/-- The name of a ground where a decision is shown as a value. -/
def title : Reason → String
  | .superuserBypass => "SuperuserBypass"
  | .noPolicy => "NoPolicy"
  | .policyEvaluated => "PolicyEvaluated"

/-- The ground that a word names. -/
def ofName? (s : String) : Option Reason := all.find? (·.name == s)

theorem ofName?_name (r : Reason) : ofName? r.name = some r := by cases r <;> decide

end Reason

/-- How a denial is reported to the one who asked. -/
inductive Denial where
  /-- Nobody is logged in; logging in may help. -/
  | unauthenticated
  /-- The user may not. -/
  | forbidden
  deriving DecidableEq, Repr

namespace Denial

/-- Both kinds of denial. -/
def all : List Denial := [.unauthenticated, .forbidden]

/-- The word for a kind of denial in records. -/
def name : Denial → String
  | .unauthenticated => "unauthenticated"
  | .forbidden => "forbidden"

/-- The kind of denial that a word names. -/
def ofName? (s : String) : Option Denial := all.find? (·.name == s)

theorem ofName?_name (d : Denial) : ofName? d.name = some d := by cases d <;> decide

end Denial

/-- Whether access is granted, and why. -/
structure Decision where
  allow : Bool
  reason : Reason
  deriving DecidableEq, Repr

namespace Decision

/-- How the decision is reported to the subject, if it is a denial. -/
def denial? (d : Decision) (subject : Subject) : Option Denial :=
  if d.allow then none
  else if subject.isAuthenticated then some .forbidden
  else some .unauthenticated

/-- The word for the outcome in metrics. -/
def outcome (d : Decision) : String := if d.allow then "allow" else "deny"

/-- The decision shown as a value. -/
def text (d : Decision) : String :=
  "Decision \x7b allow: " ++ (if d.allow then "true" else "false") ++ ", reason: "
    ++ d.reason.title ++ " \x7d"

end Decision

end ProjectAccess
