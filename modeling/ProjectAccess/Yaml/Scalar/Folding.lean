/-
Folding: what the white space between two words of a scalar amounts to.

Within a line it stands for itself. One line break is a space, a break followed
by others is dropped and the others are kept, and the blanks around breaks never
count. The two Unicode separators are breaks that are kept.
-/
import ProjectAccess.Yaml.Character

namespace ProjectAccess.Yaml

/-- White space between words, as far as it has been read. -/
inductive Gap where
  /-- Spaces and tabs of one line, the last first. -/
  | blanks (seen : List Char)
  /-- A first break, absent if it was escaped, and the breaks after it, the last
  first. -/
  | breaks (first : Option Char) (others : List Char)
  deriving DecidableEq, Repr

namespace Gap

/-- No white space. -/
def none : Gap := .blanks []

/-- The gap goes over the end of a line. -/
def isBroken : Gap → Bool
  | .blanks _ => false
  | .breaks _ _ => true

/-- The gap with one white space character more. -/
def push (c : Char) : Gap → Gap
  | .blanks seen => if isBreak c then .breaks (some c) [] else .blanks (c :: seen)
  | .breaks first others => if isBreak c then .breaks first (c :: others) else .breaks first others

/-- The characters that the gap stands for. -/
def fold : Gap → List Char
  | .blanks seen => seen.reverse
  | .breaks (some '\n') [] => [' ']
  | .breaks (some '\n') others => others.reverse
  | .breaks (some c) others => c :: others.reverse
  | .breaks Option.none others => others.reverse

end Gap

end ProjectAccess.Yaml
