/-
Scalars without quotes.

A plain scalar goes on over the end of a line as long as the next line is
indented deeply enough. It ends before a comment, before a colon that white space
follows, before a line that delimits documents, and, inside a flow collection,
before the signs of the collection.
-/
import ProjectAccess.Yaml.Cursor
import ProjectAccess.Yaml.Scalar.Folding

namespace ProjectAccess.Yaml

namespace Plain

/-- What surrounds a plain scalar. -/
structure Surroundings where
  /-- The scalar stands inside a flow collection. -/
  inFlow : Bool
  /-- The least column on which a further line of the scalar may start. -/
  indent : Int
  deriving DecidableEq, Repr

/-- The signs that open, close and divide flow collections. -/
def isFlowSign (c : Char) : Bool := c ∈ [',', '[', ']', '\x7b', '\x7d']

/-- What the scalar does at a character that is no white space. -/
inductive Step where
  | take
  | stop
  | refuse (fault : Fault)
  deriving DecidableEq, Repr

/-- Whether a word goes on with the character, given those after it. -/
def wordStep (around : Surroundings) (c : Char) (rest : List Char) : Step :=
  if around.inFlow ∧ c = ':' ∧ rest.head?.any (fun d => isFlowSign d || d == '?') then
    .refuse .indicatorInScalar
  else if c = ':' ∧ separated rest then .stop
  else if around.inFlow ∧ isFlowSign c then .stop
  else .take

/-- Whether a word may start with the character after white space, given the column
of the character and those after it. -/
def startStep (around : Surroundings) (c : Char) (rest : List Char) (column : Nat) : Step :=
  if ¬around.inFlow ∧ (column : Int) < around.indent then .stop
  else if column = 0 ∧ startsWithDelimiter (c :: rest) then .stop
  else if c = '#' then .stop
  else wordStep around c rest

/-- What the next character of a plain scalar belongs to. -/
inductive Mode where
  | words
  | gap (gap : Gap)
  deriving DecidableEq, Repr

/-- Where a scalar ends: its text, the place after the white space that follows,
and whether that goes over the end of a line. -/
structure End where
  text : List Char
  after : Cursor
  brokenAfter : Bool
  deriving DecidableEq, Repr

/-- The end of a scalar at a place, when `text` has been read, the last character
first. -/
def Mode.finish (mode : Mode) (text : List Char) (after : Cursor) : End :=
  { text := text.reverse
    after
    brokenAfter := match mode with
      | .words => false
      | .gap white => white.isBroken }

/-- Reads on in a plain scalar of which `text` has been read, the last character
first. -/
def read (around : Surroundings) (mode : Mode) (text : List Char) (place : Place) :
    List Char → Except Fault End
  | [] => .ok (mode.finish text ⟨place, []⟩)
  | c :: rest =>
    let here : Cursor := ⟨place, c :: rest⟩
    if isBreak c then
      let gap := match mode with
        | .words => Gap.none
        | .gap gap => gap
      read around (.gap (gap.push c)) text (place.past c) rest
    else if isGap c then
      match mode with
      | .words => read around (.gap (Gap.none.push c)) text (place.past c) rest
      | .gap gap =>
        if gap.isBroken ∧ (place.column : Int) < around.indent ∧ c = '\t' then .error .tabInIndentation
        else read around (.gap (gap.push c)) text (place.past c) rest
    else
      let (decision, before) := match mode with
        | .words => (wordStep around c rest, text)
        | .gap gap => (startStep around c rest place.column, gap.fold.reverse ++ text)
      match decision with
      | .take => read around .words (c :: before) (place.past c) rest
      | .stop => .ok (mode.finish text here)
      | .refuse fault => .error fault

end Plain

/-- The plain scalar that starts here. -/
def Cursor.plainScalar (around : Plain.Surroundings) (here : Cursor) : Except Fault Plain.End :=
  Plain.read around .words [] here.toPlace here.rest

end ProjectAccess.Yaml
