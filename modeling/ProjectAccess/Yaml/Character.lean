/-
The characters of YAML texts: which may occur, which end a line, and which have
a part in names and tags.

A text is read as the list of its characters in which every line break but the
two Unicode separators is a line feed: what follows never has to know that a
carriage return and a line feed are one break. No token depends on the spelling
of a break.
-/
import ProjectAccess.Yaml.Fault

namespace ProjectAccess.Yaml

/-- The mark that may stand in front of a line, as white space of one column. -/
def byteOrderMark : Char := '\ufeff'

/-- The character may occur in a text: controls are excluded, but for tab, line
feed, carriage return and next line. -/
def isAllowed (c : Char) : Bool :=
  let n := c.toNat
  n == 0x9 || n == 0xA || n == 0xD || (0x20 ≤ n && n ≤ 0x7E) || n == 0x85
    || (0xA0 ≤ n && n ≤ 0xFFFD) || 0x10000 ≤ n

/-- The characters with every carriage return, next line, and carriage return
with line feed written as one line feed. -/
def unifyBreaks : List Char → List Char
  | '\r' :: '\n' :: cs => '\n' :: unifyBreaks cs
  | c :: cs => (if c = '\r' ∨ c = '\u0085' then '\n' else c) :: unifyBreaks cs
  | [] => []

/-- The characters of a text. -/
def characters (text : String) : Except Fault (List Char) :=
  let cs := text.toList
  if cs.all isAllowed then .ok (unifyBreaks cs) else .error .controlCharacter

/-- The character ends a line. -/
def isBreak (c : Char) : Bool := c == '\n' || c == '\u2028' || c == '\u2029'

/-- The character is a space or a tab. -/
def isGap (c : Char) : Bool := c == ' ' || c == '\t'

/-- The character separates words: a space, a tab or a line break. -/
def isSeparator (c : Char) : Bool := isGap c || isBreak c

/-- What is left begins with a separator or is nothing. -/
def separated (cs : List Char) : Bool := cs.head?.all isSeparator

/-- What is left of the line is nothing. -/
def atLineEnd (cs : List Char) : Bool := cs.head?.all isBreak

/-- The character may occur in names of anchors, handles and directives. -/
def isNameChar (c : Char) : Bool := c.isAlphanum || c == '_' || c == '-'

/-- The character may occur in a tag, apart from the brackets and commas of flow
collections. -/
def isTagChar (c : Char) : Bool :=
  isNameChar c || c ∈ [';', '/', '?', ':', '@', '&', '=', '+', '$', '.', '%', '!', '~', '*',
    '\x27', '(', ')']

/-- The character may occur in a tag that does not end where a flow collection
goes on. -/
def isLongTagChar (c : Char) : Bool := isTagChar c || c == ',' || c == '[' || c == ']'

/-- Three equal marks at the start of a line delimit a document. -/
def startsWithMarker (mark : Char) : List Char → Bool
  | a :: b :: c :: cs => a == mark && b == mark && c == mark && separated cs
  | _ => false

/-- A line that starts like this delimits a document. -/
def startsWithDelimiter (cs : List Char) : Bool :=
  startsWithMarker '-' cs || startsWithMarker '.' cs

end ProjectAccess.Yaml
