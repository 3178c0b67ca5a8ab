/-
Scalars that are written as indented lines after a header.

The header tells whether lines are kept (`|`) or folded (`>`), what becomes of the
breaks at the end, and optionally how deep the lines are indented; without that
the first line that is not blank decides. When lines are folded, a single break
between two lines that start with no white space is a space.
-/
import ProjectAccess.Yaml.Cursor
import ProjectAccess.Yaml.Token

namespace ProjectAccess.Yaml

/-- What becomes of the breaks at the end of a block scalar. -/
inductive Chomping where
  /-- The last line keeps its break. -/
  | clip
  /-- All breaks are dropped. -/
  | strip
  /-- All breaks are kept. -/
  | keep
  deriving DecidableEq, Repr

namespace Block

/-- What the header of a block scalar says. -/
structure Header where
  chomping : Chomping
  /-- How much deeper than the surrounding block the lines are indented. -/
  increment : Option Nat
  deriving DecidableEq, Repr

/-- The chomping that a sign asks for. -/
def chomping? (c : Char) : Option Chomping :=
  if c = '+' then some .keep else if c = '-' then some .strip else none

/-- The increment that a character gives: a digit, of which zero is refused. -/
def increment? (c : Char) : Except Fault (Option Nat) :=
  if c = '0' then .error .malformedBlockHeader
  else .ok (if c.isDigit then some (c.toNat - '0'.toNat) else none)

/-- The header at the start of some text, and what follows it: a sign and a digit,
each optional, in either order. -/
def readHeader (cs : List Char) : Except Fault (Header × List Char) :=
  match cs with
  | [] => .ok (⟨.clip, none⟩, [])
  | c :: rest =>
    match chomping? c with
    | some chomping =>
      match rest with
      | [] => .ok (⟨chomping, none⟩, [])
      | d :: rest' => (increment? d).map fun
        | some n => (⟨chomping, some n⟩, rest')
        | none => (⟨chomping, none⟩, rest)
    | none => (increment? c).map fun
      | none => (⟨.clip, none⟩, cs)
      | some n => match rest with
        | [] => (⟨.clip, some n⟩, [])
        | d :: rest' => match chomping? d with
          | some chomping => (⟨chomping, some n⟩, rest')
          | none => (⟨.clip, some n⟩, rest)

/-- The lines of a block scalar read so far. Every text has its last character
first. -/
structure Lines where
  /-- Lines without the break of the last. -/
  text : List Char := []
  /-- The break of the last line, if there is one. -/
  lastBreak : List Char := []
  /-- The breaks of the blank lines after it. -/
  blankBreaks : List Char := []
  /-- The last line starts with white space. -/
  startsBlank : Bool := false
  deriving DecidableEq, Repr

/-- The lines so far, joined to a further line that starts with the character. -/
def Lines.join (folded : Bool) (lines : Lines) (c : Char) : Lines :=
  let breaks :=
    if folded ∧ lines.lastBreak = ['\n'] ∧ ¬lines.startsBlank ∧ ¬isGap c then
      if lines.blankBreaks.isEmpty then [' '] else lines.blankBreaks
    else lines.blankBreaks ++ lines.lastBreak
  { text := breaks ++ lines.text, startsBlank := isGap c }

/-- The text of all lines. -/
def Lines.finish (lines : Lines) : Chomping → List Char
  | .strip => lines.text.reverse
  | .clip => (lines.lastBreak ++ lines.text).reverse
  | .keep => (lines.blankBreaks ++ lines.lastBreak ++ lines.text).reverse

/-- What the next character of a block scalar belongs to. -/
inductive Mode where
  /-- A line of the scalar. -/
  | line
  /-- The indentation of a line. -/
  | indentation
  deriving DecidableEq, Repr

/-- How deep the lines are indented. -/
inductive Indent where
  | known (columns : Nat)
  /-- Not decided yet: the deepest blank line so far. -/
  | deepest (columns : Nat)
  deriving DecidableEq, Repr

/-- The character belongs to the indentation when it is a space. -/
def Indent.covers (column : Nat) : Indent → Bool
  | .known columns => column < columns
  | .deepest _ => true

/-- The indentation with a line taken into account that is blank up to a column. -/
def Indent.note (column : Nat) : Indent → Indent
  | .known columns => .known columns
  | .deepest columns => .deepest (max columns column)

/-- The number of columns once the first line that is not blank is reached; at
least `least`, which is positive. -/
def Indent.settle (least : Nat) : Indent → Nat
  | .known columns => columns
  | .deepest columns => max columns least

/-- Reads on in the lines of a block scalar: the lines, and the place after them. -/
def read (folded : Bool) (least : Nat) (mode : Mode) (indent : Indent) (lines : Lines)
    (place : Place) : List Char → Except Fault (Lines × Cursor)
  | [] => .ok (lines, ⟨place, []⟩)
  | c :: rest =>
    match mode with
    | .line =>
      if isBreak c then
        read folded least .indentation indent { lines with lastBreak := [c] } (place.past c) rest
      else
        read folded least .line indent { lines with text := c :: lines.text } (place.past c) rest
    | .indentation =>
      if c = ' ' ∧ indent.covers place.column then
        read folded least .indentation indent lines (place.past c) rest
      else if c = '\t' ∧ indent.covers place.column then .error .tabInIndentation
      else if isBreak c then
        read folded least .indentation (indent.note place.column)
          { lines with blankBreaks := c :: lines.blankBreaks } (place.past c) rest
      else
        let columns := (indent.note place.column).settle least
        if place.column = columns then
          let lines := lines.join folded c
          read folded least .line (.known columns) { lines with text := c :: lines.text }
            (place.past c) rest
        else .ok (lines, ⟨place, c :: rest⟩)

end Block

/-- The text of the block scalar whose indicator is next, and the place after it.
`parent` is the indentation of the block around it, negative outside of any. -/
def Cursor.blockScalar (folded : Bool) (parent : Int) (here : Cursor) :
    Except Fault (String × Cursor) :=
  match Block.readHeader here.rest.tail with
  | .error fault => .error fault
  | .ok (header, rest) =>
    match (here.skip (here.rest.length - rest.length)).endOfLine? with
    | none => .error .malformedBlockHeader
    | some first =>
      let indent := match header.increment with
        | some n => Block.Indent.known (parent.toNat + n)
        | none => .deepest 0
      let least := max (parent + 1).toNat 1
      (Block.read folded least .indentation indent {} first.toPlace first.rest).map
        fun (lines, after) => (String.ofList (lines.finish header.chomping), after)

end ProjectAccess.Yaml
