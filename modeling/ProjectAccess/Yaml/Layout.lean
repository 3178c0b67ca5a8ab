/-
From characters to tokens.

Two things make the tokens of a text depend on more than the next characters. One
is indentation: a block collection starts when its first entry stands deeper than
the block around it and ends when a later line stands less deep. The other is that
a key is only known as such when the colon after it is read: every place where a
key may start is kept as a candidate, one for each flow collection that is open
and one for the blocks, and when a colon follows, the announcement of the key is
put in front of the tokens that were read since. A candidate is given up when its
line ends or after 1024 octets.

`tokens` reads a whole text. Each step of it reads one token and at least one
character.
-/
import ProjectAccess.Yaml.Directive
import ProjectAccess.Yaml.Scalar.Block
import ProjectAccess.Yaml.Scalar.Plain
import ProjectAccess.Yaml.Scalar.Quoted

namespace ProjectAccess.Yaml

/-- A place where the key of a mapping may have started. -/
structure Candidate where
  /-- The number of tokens read before it. -/
  token : Nat
  place : Place
  /-- Nothing but a key may stand here. -/
  required : Bool
  deriving DecidableEq, Repr

/-- How far a text has been read. -/
structure Layout where
  here : Cursor
  /-- The tokens so far, the last first. -/
  read : List Token := []
  /-- The column of the innermost block, negative outside of any. -/
  indent : Int := -1
  /-- The columns of the blocks around it. -/
  outer : List Int := []
  /-- A key may start at the next token. -/
  keyAllowed : Bool := true
  /-- The candidate of the innermost collection. -/
  candidate : Option Candidate := none
  /-- The candidates of the collections around it; one for each flow collection
  that is open. -/
  suspended : List (Option Candidate) := []
  deriving DecidableEq, Repr

namespace Layout

/-- The place is inside a flow collection. -/
def inFlow (s : Layout) : Bool := !s.suspended.isEmpty

/-- The layout with a token more. -/
def emit (token : Token) (s : Layout) : Layout := { s with read := token :: s.read }

/-- The layout with a token more, and that many characters less. -/
def take (count : Nat) (token : Token) (s : Layout) : Layout :=
  { s.emit token with here := s.here.skip count }

/-- The layout with a token more, which ended at the place. -/
def takeTo (after : Cursor) (token : Token) (s : Layout) : Layout :=
  { s.emit token with here := after }

/-- The layout with a token put in after the first `count` tokens. -/
def emitAt (count : Nat) (token : Token) (s : Layout) : Layout :=
  let later := s.read.length - count
  { s with read := s.read.take later ++ token :: s.read.drop later }

-- ================================================================== blocks

/-- Opens a block at a column that is deeper than the innermost block. The token
goes after the first `count` tokens. -/
def openBlock (column : Nat) (count : Nat) (token : Token) (s : Layout) : Layout :=
  if !s.inFlow ∧ s.indent < column then
    { s.emitAt count token with indent := column, outer := s.indent :: s.outer }
  else s

/-- Closes blocks that are deeper than a column, given the columns of the innermost
and of those around it. -/
def closeBlocksFrom (column : Int) (s : Layout) : (indent : Int) → (outer : List Int) → Layout
  | indent, [] => { s with indent, outer := [] }
  | indent, next :: outer =>
    if column < indent then closeBlocksFrom column (s.emit .blockEnd) next outer
    else { s with indent, outer := next :: outer }

/-- Closes the blocks that are deeper than a column, unless a flow collection is
open. -/
def closeBlocks (column : Int) (s : Layout) : Layout :=
  if s.inFlow then s else closeBlocksFrom column s s.indent s.outer

-- ==================================================================== keys

/-- Forgets the candidate of the innermost collection. -/
def dropCandidate (s : Layout) : Except Fault Layout :=
  if s.candidate.any (·.required) then .error .keyWithoutValue
  else .ok { s with candidate := none }

/-- Keeps the place as a candidate if a key may start here. -/
def noteCandidate (s : Layout) : Except Fault Layout :=
  if s.keyAllowed then
    s.dropCandidate.map fun t =>
      { t with
        candidate := some {
          token := s.read.length
          place := s.here.toPlace
          required := !s.inFlow && s.indent == s.here.column } }
  else .ok s

/-- The greatest length of a key with the white space after it, in octets. -/
def longestKey : Nat := 1024

/-- The candidate is too far back. -/
def isStale (here : Cursor) (c : Candidate) : Bool :=
  c.place.line < here.line || c.place.octet + longestKey < here.octet

/-- The candidate, if a key may still have started there. -/
def renew (here : Cursor) : Option Candidate → Except Fault (Option Candidate)
  | none => .ok none
  | some c =>
    if isStale here c then
      if c.required then .error .keyWithoutValue else .ok none
    else .ok (some c)

/-- The layout without the candidates that are too far back. -/
def renewCandidates (s : Layout) : Except Fault Layout := do
  let candidate ← renew s.here s.candidate
  let suspended ← s.suspended.mapM (renew s.here)
  .ok { s with candidate, suspended }

-- ============================================================= white space

/-- Skips white space and comments from a place that is, or is not, in a comment;
tells also whether a key may start after it. Tabs are no white space where a key
may start in a block. -/
def skipBlanksFrom (inFlow : Bool) (keyAllowed comment : Bool) (place : Place) :
    List Char → Cursor × Bool
  | [] => (⟨place, []⟩, keyAllowed)
  | c :: rest =>
    if isBreak c then skipBlanksFrom inFlow (keyAllowed || !inFlow) false (place.past c) rest
    else if comment then skipBlanksFrom inFlow keyAllowed true (place.past c) rest
    else if (place.column = 0 ∧ c = byteOrderMark) ∨ c = ' ' ∨ (c = '\t' ∧ (inFlow ∨ !keyAllowed)) then
      skipBlanksFrom inFlow keyAllowed false (place.past c) rest
    else if c = '#' then skipBlanksFrom inFlow keyAllowed true (place.past c) rest
    else (⟨place, c :: rest⟩, keyAllowed)

/-- Skips white space and comments. -/
def skipBlanks (s : Layout) : Layout :=
  let (here, keyAllowed) :=
    skipBlanksFrom s.inFlow s.keyAllowed false s.here.toPlace s.here.rest
  { s with here, keyAllowed }

-- ================================================================== tokens

/-- A directive or the delimiter of a document ends all blocks. -/
def closeDocument (s : Layout) : Except Fault Layout :=
  (s.closeBlocks (-1)).dropCandidate.map ({ · with keyAllowed := false })

/-- A flow collection opens. -/
def openFlow (token : Token) (s : Layout) : Except Fault Layout :=
  s.noteCandidate.map fun s =>
    { s with candidate := none, suspended := s.candidate :: s.suspended, keyAllowed := true }.take
      1 token

/-- A flow collection closes. -/
def closeFlow (token : Token) (s : Layout) : Except Fault Layout :=
  s.dropCandidate.map fun s =>
    match s.suspended with
    | [] => { s with keyAllowed := false }.take 1 token
    | candidate :: suspended =>
      { s with candidate, suspended, keyAllowed := false }.take 1 token

/-- Entries of a flow collection are divided. -/
def divideFlow (s : Layout) : Except Fault Layout :=
  s.dropCandidate.map fun s => { s with keyAllowed := true }.take 1 .flowEntry

/-- An entry of a sequence in a block. -/
def startEntry (s : Layout) : Except Fault Layout :=
  if !s.inFlow ∧ !s.keyAllowed then .error .misplacedEntry
  else
    (s.openBlock s.here.column s.read.length .blockSequenceStart).dropCandidate.map fun s =>
      { s with keyAllowed := true }.take 1 .blockEntry

/-- A key that is announced by its own mark. -/
def startKey (s : Layout) : Except Fault Layout :=
  if !s.inFlow ∧ !s.keyAllowed then .error .misplacedKey
  else
    (s.openBlock s.here.column s.read.length .blockMappingStart).dropCandidate.map fun s =>
      { s with keyAllowed := !s.inFlow }.take 1 .key

/-- The colon after a key: after the candidate if there is one, otherwise after a
key that was announced or is empty. -/
def startValue (s : Layout) : Except Fault Layout :=
  match s.candidate with
  | some c =>
    let s := (s.emitAt c.token .key).openBlock c.place.column c.token .blockMappingStart
    .ok ({ s with candidate := none, keyAllowed := false }.take 1 .value)
  | none =>
    if !s.inFlow ∧ !s.keyAllowed then .error .misplacedValue
    else
      let s := s.openBlock s.here.column s.read.length .blockMappingStart
      .ok ({ s with keyAllowed := !s.inFlow }.take 1 .value)

/-- An anchor, tag or scalar, with which a key may start. -/
def takeNode (s : Layout) (read : Cursor → Except Fault (Token × Cursor)) :
    Except Fault Layout := do
  let s ← s.noteCandidate
  let (token, after) ← read s.here
  .ok ({ s with keyAllowed := false }.takeTo after token)

/-- A plain scalar; after one that is followed by the end of a line a key may
start. -/
def takePlain (s : Layout) : Except Fault Layout := do
  let s ← s.noteCandidate
  let scalar ← s.here.plainScalar ⟨s.inFlow, s.indent + 1⟩
  .ok ({ s with keyAllowed := scalar.brokenAfter }.takeTo scalar.after
    (.scalar (String.ofList scalar.text) .plain))

/-- A block scalar. -/
def takeBlock (folded : Bool) (s : Layout) : Except Fault Layout := do
  let s ← s.dropCandidate
  let (text, after) ← s.here.blockScalar folded s.indent
  .ok ({ s with keyAllowed := true }.takeTo after
    (.scalar text (if folded then .folded else .literal)))

/-- A scalar between quotes. -/
def takeQuoted (quote : Quote) (s : Layout) : Except Fault Layout :=
  s.takeNode fun here =>
    (here.quotedScalar quote).map fun (text, after) => (.scalar text quote.style, after)

/-- An anchor or an alias. -/
def takeName (token : List Char → Token) (s : Layout) : Except Fault Layout :=
  s.takeNode fun here => here.anchorName.map fun (name, after) => (token name, after)

/-- The signs with which no plain scalar starts, unless a word goes on after them. -/
def isIndicator (c : Char) : Bool :=
  c ∈ ['-', '?', ':', ',', '[', ']', '\x7b', '\x7d', '#', '&', '*', '!', '|', '>', '\x27',
    '\x22', '%', '@', '\x60']

/-- A plain scalar may start with the character, given those after it. -/
def startsPlain (inFlow : Bool) (c : Char) (rest : List Char) : Bool :=
  !(isSeparator c || isIndicator c)
    || (c == '-' && !rest.head?.any isGap)
    || (!inFlow && (c == '?' || c == ':') && !separated rest)

/-- Reads the token that starts with the character. -/
def readToken (s : Layout) (c : Char) (rest : List Char) : Except Fault Layout :=
  if s.here.column = 0 ∧ c = '%' then do
    let s ← s.closeDocument
    let (token, after) ← s.here.directive
    .ok (s.takeTo after token)
  else if s.here.column = 0 ∧ startsWithMarker '-' s.here.rest then
    s.closeDocument.map (·.take 3 .documentStart)
  else if s.here.column = 0 ∧ startsWithMarker '.' s.here.rest then
    s.closeDocument.map (·.take 3 .documentEnd)
  else if c = '[' then s.openFlow .flowSequenceStart
  else if c = '\x7b' then s.openFlow .flowMappingStart
  else if c = ']' then s.closeFlow .flowSequenceEnd
  else if c = '\x7d' then s.closeFlow .flowMappingEnd
  else if c = ',' then s.divideFlow
  else if c = '-' ∧ separated rest then s.startEntry
  else if c = '?' ∧ (s.inFlow ∨ separated rest) then s.startKey
  else if c = ':' ∧ (s.inFlow ∨ separated rest) then s.startValue
  else if c = '*' then s.takeName .alias
  else if c = '&' then s.takeName .anchor
  else if c = '!' then s.takeNode (·.tag s.inFlow)
  else if c = '|' ∧ !s.inFlow then s.takeBlock false
  else if c = '>' ∧ !s.inFlow then s.takeBlock true
  else if c = '\x27' then s.takeQuoted .single
  else if c = '\x22' then s.takeQuoted .double
  else if startsPlain s.inFlow c rest then s.takePlain
  else .error .unexpectedCharacter

/-- The layout before the next token: white space skipped, candidates renewed, and
blocks closed that ended. -/
def advance (s : Layout) : Except Fault Layout :=
  s.skipBlanks.renewCandidates.map fun s => s.closeBlocks s.here.column

/-- Reads the tokens that are left, at most so many. -/
def readAll : Nat → Layout → Except Fault (List Token)
  | 0, _ => .error .unexpectedCharacter
  | fuel + 1, s =>
    match s.advance with
    | .error fault => .error fault
    | .ok s =>
      match s.here.rest with
      | [] => (s.closeBlocks (-1)).dropCandidate.map (·.read.reverse)
      | c :: rest =>
        match s.readToken c rest with
        | .error fault => .error fault
        | .ok s => readAll fuel s

end Layout

/-- The tokens of a text. -/
def tokens (cs : List Char) : Except Fault (List Token) :=
  Layout.readAll (cs.length + 1) { here := .start cs }

end ProjectAccess.Yaml
