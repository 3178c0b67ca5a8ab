/-
Values shown as text, on one line or spread over lines.

A shape is a word, or a tuple or list of shapes. On one line the parts are divided
by a comma and a space. Spread out, every part stands on a line of its own, four
spaces deeper than what holds it, and a comma follows it; where there are no parts
the brackets stay together.
-/
import ProjectAccess.Text.Quoted

namespace ProjectAccess

/-- A value as it is shown. -/
inductive Shape where
  /-- A part that is never spread out. -/
  | word (text : String)
  /-- Parts in parentheses under a name. -/
  | tuple (name : String) (parts : List Shape)
  /-- Parts in brackets. -/
  | list (parts : List Shape)
  deriving Repr

namespace Shape

/-- The characters between parts on one line. -/
def divider : List Char := [',', ' ']

mutual

/-- The shape on one line. -/
def inline : Shape → List Char
  | word text => text.toList
  | tuple name [] => name.toList
  | tuple name (part :: parts) => name.toList ++ '(' :: (inlineParts (part :: parts) ++ [')'])
  | list parts => '[' :: (inlineParts parts ++ [']'])

/-- Parts on one line. -/
def inlineParts : List Shape → List Char
  | [] => []
  | [part] => inline part
  | part :: parts => inline part ++ divider ++ inlineParts parts

end

/-- A new line at a depth of so many levels. -/
def newLine (depth : Nat) : List Char := '\n' :: List.replicate (4 * depth) ' '

mutual

/-- The shape spread over lines, the first of which begins elsewhere; the others are
at least at the depth. -/
def spread (depth : Nat) : Shape → List Char
  | word text => text.toList
  | tuple name [] => name.toList
  | tuple name (part :: parts) =>
    name.toList ++ '(' :: (spreadParts (depth + 1) (part :: parts) ++ newLine depth ++ [')'])
  | list [] => ['[', ']']
  | list (part :: parts) =>
    '[' :: (spreadParts (depth + 1) (part :: parts) ++ newLine depth ++ [']'])

/-- Parts on lines of their own at the depth. -/
def spreadParts (depth : Nat) : List Shape → List Char
  | [] => []
  | part :: parts => newLine depth ++ spread depth part ++ ',' :: spreadParts depth parts

end

/-- The text on one line. -/
def compact (s : Shape) : String := String.ofList s.inline

/-- The text over several lines. -/
def pretty (s : Shape) : String := String.ofList (s.spread 0)

end Shape

end ProjectAccess
