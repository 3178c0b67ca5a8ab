/-
Scalars between quotes.

Between single quotes a quote is written twice and nothing else is special.
Between double quotes a backslash starts an escape: a single character, a code
point in two, four or eight hexadecimal digits, or an escaped line break, which
joins two lines without a space. In both, white space that goes over the end of a
line is folded. A line inside the quotes must not look like the delimiter of a
document.
-/
import ProjectAccess.Text.Numeral
import ProjectAccess.Yaml.Cursor
import ProjectAccess.Yaml.Token
import ProjectAccess.Yaml.Scalar.Folding

namespace ProjectAccess.Yaml

/-- The quotes around a scalar. -/
inductive Quote where
  | single
  | double
  deriving DecidableEq, Repr

namespace Quote

/-- The mark that opens and closes the scalar. -/
def mark : Quote → Char
  | .single => '\x27'
  | .double => '\x22'

/-- The style of a scalar between these quotes. -/
def style : Quote → ScalarStyle
  | .single => .singleQuoted
  | .double => .doubleQuoted

end Quote

namespace Quoted

/-- What the next character of a quoted scalar belongs to. -/
inductive Mode where
  /-- Words of the scalar. -/
  | words
  /-- White space between words. -/
  | gap (gap : Gap)
  /-- A quote has been read that closes the scalar unless another follows. -/
  | quote
  /-- A backslash has been read. -/
  | escape
  /-- So many digits of a code point are missing, and those read have the value. -/
  | code (missing value : Nat)
  deriving DecidableEq, Repr

/-- The character that an escape of one letter stands for. -/
def escaped? (c : Char) : Option Char :=
  [('0', '\x00'), ('a', '\x07'), ('b', '\x08'), ('t', '\t'), ('\t', '\t'), ('n', '\n'),
    ('v', '\x0b'), ('f', '\x0c'), ('r', '\r'), ('e', '\x1b'), (' ', ' '), ('\x22', '\x22'),
    ('/', '/'), ('\\', '\\'), ('N', '\u0085'), ('_', '\u00a0'), ('L', '\u2028'),
    ('P', '\u2029')].lookup c

/-- The number of digits of a code point that a letter announces. -/
def codeLength? (c : Char) : Option Nat :=
  [('x', 2), ('u', 4), ('U', 8)].lookup c

/-- The character of a code point. -/
def codePoint? (n : Nat) : Option Char :=
  if n.isValidChar then some (Char.ofNat n) else none

/-- What a character does to a quoted scalar. -/
inductive Step where
  /-- The scalar goes on with these characters, the last first. -/
  | next (mode : Mode) (text : List Char)
  /-- The character closes the scalar, which has this text, the last character
  first. -/
  | close (text : List Char)
  /-- The scalar was closed before the character. -/
  | closed
  deriving DecidableEq, Repr

/-- The step of a character that is no white space. -/
def wordStep (quote : Quote) (text : List Char) (c : Char) : Step :=
  match quote with
  | .single => if c = quote.mark then .next .quote text else .next .words (c :: text)
  | .double =>
    if c = quote.mark then .close text
    else if c = '\\' then .next .escape text
    else .next .words (c :: text)

/-- The step of the next character, which stands at the place. -/
def step (quote : Quote) (mode : Mode) (text : List Char) (c : Char) (here : Cursor) :
    Except Fault Step :=
  match mode with
  | .words =>
    .ok (if isSeparator c then .next (.gap (Gap.none.push c)) text else wordStep quote text c)
  | .gap gap =>
    if isSeparator c then .ok (.next (.gap (gap.push c)) text)
    else if here.column = 0 ∧ startsWithDelimiter here.rest then .error .unclosedQuote
    else .ok (wordStep quote (gap.fold.reverse ++ text) c)
  | .quote => .ok (if c = quote.mark then .next .words (c :: text) else .closed)
  | .escape =>
    if isBreak c then .ok (.next (.gap (.breaks none [])) text)
    else match escaped? c, codeLength? c with
      | some e, _ => .ok (.next .words (e :: text))
      | none, some n => .ok (.next (.code n 0) text)
      | none, none => .error .malformedEscape
  | .code missing value =>
    match Text.digit? 16 c with
    | none => .error .malformedEscape
    | some d =>
      if 1 < missing then .ok (.next (.code (missing - 1) (value * 16 + d)) text)
      else match codePoint? (value * 16 + d) with
        | some e => .ok (.next .words (e :: text))
        | none => .error .malformedEscape

/-- Reads on in a quoted scalar of which `text` has been read, the last character
first: the whole text, and the place after the closing quote. -/
def read (quote : Quote) (mode : Mode) (text : List Char) (place : Place) :
    List Char → Except Fault (List Char × Cursor)
  | [] => if mode = .quote then .ok (text.reverse, ⟨place, []⟩) else .error .unclosedQuote
  | c :: rest =>
    match step quote mode text c ⟨place, c :: rest⟩ with
    | .error fault => .error fault
    | .ok (.close text) => .ok (text.reverse, ⟨place.past c, rest⟩)
    | .ok .closed => .ok (text.reverse, ⟨place, c :: rest⟩)
    | .ok (.next mode text) => read quote mode text (place.past c) rest

end Quoted

/-- The text of a quoted scalar whose opening quote is next, and the place after
its closing quote. -/
def Cursor.quotedScalar (quote : Quote) (here : Cursor) : Except Fault (String × Cursor) :=
  let inside := here.skip 1
  (Quoted.read quote .words [] inside.toPlace inside.rest).map
    fun (text, after) => (String.ofList text, after)

end ProjectAccess.Yaml
