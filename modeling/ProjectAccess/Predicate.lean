/-
Predicates: rules of access as trees.

A leaf asks about the subject, the project, the membership or the permissions, or
is a check that the application brings along; the inner nodes are negation,
conjunction and disjunction. A leaf whose subject matter is missing is false.
Evaluation goes from left to right and stops as soon as the answer is known; it
tells, besides the answer, which of the application's checks were run and what each
answered.
-/
import ProjectAccess.Access
import ProjectAccess.Resource
import ProjectAccess.Shape

namespace ProjectAccess

/-- What a predicate is evaluated for. -/
structure Context where
  catalog : Catalog
  subject : Subject
  resource : Resource
  action : Action
  membership : Option Membership

namespace Context

/-- The project of the resource. -/
def project? (c : Context) : Option Project := c.resource.project?

/-- What the subject may do in the project, if there is one. -/
def permissions? (c : Context) : Option PermissionSet :=
  c.project?.map fun project => effectivePermissions c.catalog c.subject project c.membership

end Context

/-- A leaf that the application brings along. -/
structure Check where
  name : String
  /-- How the check is shown. -/
  shape : Shape
  /-- The answer may depend on the membership. -/
  needsMembership : Bool
  holds : Context → Bool

/-- A rule of access. -/
inductive Predicate where
  | allowAny
  | isAuthenticated
  | isAnonymous
  /-- The project names the subject as its owner. -/
  | isProjectOwner
  /-- The subject is a member of the project. -/
  | isProjectMember
  /-- The subject has the permission in the project. -/
  | hasPermission (id : Permission)
  | not (of : Predicate)
  | all (of : List Predicate)
  | any (of : List Predicate)
  | custom (check : Check)

/-- A check that was run, and its answer. -/
structure Observation where
  name : String
  answer : Bool
  deriving DecidableEq, Repr

/-- The answer of a predicate, and the checks that were run for it, in order. -/
structure Verdict where
  answer : Bool
  observed : List Observation
  deriving DecidableEq, Repr

/-- An answer for which no check was run. -/
def Verdict.plain (answer : Bool) : Verdict := ⟨answer, []⟩

namespace Predicate

/-- Nobody is allowed. -/
def denyAll : Predicate := .not .allowAny

instance : Inhabited Predicate := ⟨denyAll⟩

mutual

/-- Evaluates a predicate. -/
def evaluate (context : Context) : Predicate → Verdict
  | allowAny => .plain true
  | isAuthenticated => .plain context.subject.isAuthenticated
  | isAnonymous => .plain (!context.subject.isAuthenticated)
  | isProjectOwner =>
    .plain (context.project?.any fun project => context.subject.userId?.any project.isOwnedBy)
  | isProjectMember => .plain (context.project?.isSome && context.membership.isSome)
  | hasPermission id => .plain (context.permissions?.any (·.contains id))
  | not of =>
    let inner := of.evaluate context
    ⟨!inner.answer, inner.observed⟩
  | all of => evaluateAll context of
  | any of => evaluateAny context of
  | custom check =>
    let answer := check.holds context
    ⟨answer, [⟨check.name, answer⟩]⟩

/-- Evaluates a conjunction up to the first predicate that is false. -/
def evaluateAll (context : Context) : List Predicate → Verdict
  | [] => .plain true
  | p :: ps =>
    let first := p.evaluate context
    if first.answer then
      let others := evaluateAll context ps
      ⟨others.answer, first.observed ++ others.observed⟩
    else first

/-- Evaluates a disjunction up to the first predicate that is true. -/
def evaluateAny (context : Context) : List Predicate → Verdict
  | [] => .plain false
  | p :: ps =>
    let first := p.evaluate context
    if first.answer then first
    else
      let others := evaluateAny context ps
      ⟨others.answer, first.observed ++ others.observed⟩

end

mutual

/-- The answer may depend on the membership. -/
def requiresMembership : Predicate → Bool
  | allowAny | isAuthenticated | isAnonymous | isProjectOwner => false
  | isProjectMember | hasPermission _ => true
  | not of => of.requiresMembership
  | all of => anyRequiresMembership of
  | any of => anyRequiresMembership of
  | custom check => check.needsMembership

/-- The answer of one of the predicates may depend on the membership. -/
def anyRequiresMembership : List Predicate → Bool
  | [] => false
  | p :: ps => p.requiresMembership || anyRequiresMembership ps

end

-- ================================================================ showing

mutual

/-- How a predicate is shown. -/
def shape : Predicate → Shape
  | allowAny => .word "AllowAny"
  | isAuthenticated => .word "IsAuthenticated"
  | isAnonymous => .word "IsAnonymous"
  | isProjectOwner => .word "IsProjectOwner"
  | isProjectMember => .word "IsProjectMember"
  | hasPermission id => .word ("HasProjectPerm(" ++ Text.quoted id ++ ")")
  | not of => .tuple "Not" [of.shape]
  | all of => .tuple "And" [.list (shapes of)]
  | any of => .tuple "Or" [.list (shapes of)]
  | custom check => .tuple "Custom" [check.shape]

/-- How predicates are shown one by one. -/
def shapes : List Predicate → List Shape
  | [] => []
  | p :: ps => p.shape :: shapes ps

end

end Predicate

end ProjectAccess
