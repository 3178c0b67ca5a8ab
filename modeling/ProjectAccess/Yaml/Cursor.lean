/-
A place in a text, and what is left to read from there.

Lines matter only for telling whether two places share one, columns for the
indentation that structures a document, and octets for the length of a key.
-/
import ProjectAccess.Yaml.Character

namespace ProjectAccess.Yaml

/-- A place in a text. Lines and columns are counted from zero. -/
structure Place where
  line : Nat := 0
  column : Nat := 0
  /-- The octets of UTF-8 between the start of the line and the place. -/
  octet : Nat := 0
  deriving DecidableEq, Repr

namespace Place

/-- The place after a character: on the next line if the character is a break. -/
def past (c : Char) (p : Place) : Place :=
  if isBreak c then { line := p.line + 1 }
  else { p with column := p.column + 1, octet := p.octet + c.utf8Size }

/-- The place after characters none of which ends a line. -/
def along (cs : List Char) (p : Place) : Place :=
  { p with
    column := p.column + cs.length
    octet := cs.foldl (fun octet c => octet + c.utf8Size) p.octet }

end Place

/-- The characters left, and the place of the first of them. -/
structure Cursor extends Place where
  rest : List Char
  deriving DecidableEq, Repr

namespace Cursor

/-- The start of a text. -/
def start (cs : List Char) : Cursor := ⟨{}, cs⟩

/-- Goes on by characters of the same line. -/
def skip (count : Nat) (here : Cursor) : Cursor :=
  ⟨here.along (here.rest.take count), here.rest.drop count⟩

/-- The characters of a class that come next, none of which ends a line, and the
place after them. -/
def span (p : Char → Bool) (here : Cursor) : List Char × Cursor :=
  let taken := here.rest.takeWhile p
  (taken, ⟨here.along taken, here.rest.dropWhile p⟩)

/-- The place after the spaces and tabs that come next. -/
def skipGaps (here : Cursor) : Cursor := (here.span isGap).2

/-- The place after what is left of the line and, if it ends in one, its break. -/
def endLine (here : Cursor) : Cursor :=
  match here.rest with
  | c :: rest => if isBreak c then ⟨here.past c, rest⟩ else here
  | [] => here

/-- The place after blanks, a comment and the break that end a line; there is
none if anything else is left of the line. -/
def endOfLine? (here : Cursor) : Option Cursor :=
  let here := here.skipGaps
  let here := if here.rest.head? = some '#' then (here.span (!isBreak ·)).2 else here
  if atLineEnd here.rest then some here.endLine else none

end Cursor

end ProjectAccess.Yaml
