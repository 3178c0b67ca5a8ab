/-
Directives: lines in front of a document that are about it.

One gives the version of the language, others say what a handle of tags stands for.
-/
import ProjectAccess.Yaml.Property

namespace ProjectAccess.Yaml

/-- A number of at most nine digits. -/
def Cursor.versionNumber (here : Cursor) : Except Fault (Nat × Cursor) :=
  let (digits, after) := here.span Char.isDigit
  match Text.natural? 10 digits with
  | some n => if digits.length ≤ 9 then .ok (n, after) else .error .malformedDirective
  | none => .error .malformedDirective

/-- The version that a directive declares. -/
def Cursor.versionDirective (here : Cursor) : Except Fault (Token × Cursor) := do
  let (major, after) ← here.skipGaps.versionNumber
  if after.rest.head? = some '.' then
    let (minor, after) ← (after.skip 1).versionNumber
    .ok (.versionDirective major minor, after)
  else .error .malformedDirective

/-- The handle that a directive declares, and what it stands for. -/
def Cursor.tagDirective (here : Cursor) : Except Fault (Token × Cursor) := do
  let (handle, after) ← here.skipGaps.tagHandle
  if handle ≠ ['!'] ∧ handle.getLast? ≠ some '!' then .error .malformedDirective
  else if after.rest.head?.any isGap then
    let (full, after) ← after.skipGaps.tagText isLongTagChar false
    if separated after.rest then .ok (.tagDirective handle full, after)
    else .error .malformedDirective
  else .error .malformedDirective

/-- The directive of the line that starts here. -/
def Cursor.directive (here : Cursor) : Except Fault (Token × Cursor) := do
  let (name, after) := (here.skip 1).span isNameChar
  let (token, after) ←
    if !separated after.rest then .error .malformedDirective
    else if name = ['Y', 'A', 'M', 'L'] then after.versionDirective
    else if name = ['T', 'A', 'G'] then after.tagDirective
    else .error .malformedDirective
  match after.endOfLine? with
  | some next => .ok (token, next)
  | none => .error .malformedDirective

end ProjectAccess.Yaml
