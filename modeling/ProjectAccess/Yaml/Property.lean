/-
Anchors, aliases and tags: what is written in front of a node, or in its place.

A tag is given in full, in angle brackets, or by a handle and a suffix. It may hold
octets in hexadecimal, which have to make up whole characters of UTF-8. What follows
an octet of value zero is lost.
-/
import ProjectAccess.Text.Numeral
import ProjectAccess.Yaml.Cursor
import ProjectAccess.Yaml.Token

namespace ProjectAccess.Yaml

-- ==================================================== anchors and aliases

/-- The character may follow a name at once. -/
def endsName (c : Char) : Bool :=
  isSeparator c || c ∈ ['?', ':', ',', ']', '\x7d', '%', '@', '\x60']

/-- The name that follows the mark of an anchor or alias. -/
def Cursor.anchorName (here : Cursor) : Except Fault (List Char × Cursor) :=
  let (name, after) := (here.skip 1).span isNameChar
  if name.isEmpty ∨ after.rest.head?.any (!endsName ·) then .error .malformedAnchor
  else .ok (name, after)

-- =================================================================== tags

namespace Tag

/-- The number of octets of a character of UTF-8, by its first octet. -/
def octetCount? (octet : Nat) : Option Nat :=
  if octet < 0x80 then some 1
  else if 0xC0 ≤ octet ∧ octet < 0xE0 then some 2
  else if 0xE0 ≤ octet ∧ octet < 0xF0 then some 3
  else if 0xF0 ≤ octet ∧ octet < 0xF8 then some 4
  else none

/-- The octet may follow the first octet of a character. -/
def continues (octet : Nat) : Bool := 0x80 ≤ octet && octet < 0xC0

/-- The octet of two hexadecimal digits. -/
def octet? (high low : Char) : Option Nat :=
  (Text.digit? 16 high).bind fun h => (Text.digit? 16 low).map (h * 16 + ·)

/-- The characters that a tag may hold at some place, octets decoded, and what
follows them. `missing` octets of a character are to follow, at once. -/
def readOctets (allowed : Char → Bool) (missing : Nat) :
    List Char → Except Fault (TagText × List Char)
  | '%' :: high :: low :: rest =>
    match octet? high low with
    | none => .error .malformedTag
    | some octet =>
      let left? := if missing = 0 then (octetCount? octet).map (· - 1)
        else if continues octet then some (missing - 1) else none
      match left? with
      | none => .error .malformedTag
      | some left => (readOctets allowed left rest).map fun (text, after) =>
        (Char.ofNat octet :: text, after)
  | c :: rest =>
    if missing ≠ 0 ∨ c = '%' then .error .malformedTag
    else if allowed c then
      (readOctets allowed 0 rest).map fun (text, after) => (c :: text, after)
    else .ok ([], c :: rest)
  | [] => if missing ≠ 0 then .error .malformedTag else .ok ([], [])

/-- A tag ends at its first octet of value zero. -/
def cut (text : TagText) : TagText := text.takeWhile (· ≠ '\x00')

end Tag

/-- The octets of a tag that come next, at least one unless a head precedes them. -/
def Cursor.tagText (allowed : Char → Bool) (hasHead : Bool) (here : Cursor) :
    Except Fault (TagText × Cursor) :=
  match Tag.readOctets allowed 0 here.rest with
  | .error fault => .error fault
  | .ok (text, rest) =>
    if text.isEmpty ∧ ¬hasHead then .error .malformedTag
    else .ok (Tag.cut text, here.skip (here.rest.length - rest.length))

/-- The handle that comes next: a mark, a name, and a mark that closes it unless
it is missing. -/
def Cursor.tagHandle (here : Cursor) : Except Fault (TagText × Cursor) :=
  if here.rest.head? = some '!' then
    let (name, after) := (here.skip 1).span isNameChar
    if after.rest.head? = some '!' then .ok ('!' :: name ++ ['!'], after.skip 1)
    else .ok ('!' :: name, after)
  else .error .malformedTag

/-- The handle and the suffix of the tag that comes next. A tag in full has no
handle, and neither has the lone mark. -/
def Cursor.tagParts (here : Cursor) : Except Fault (TagText × TagText × Cursor) :=
  if (here.skip 1).rest.head? = some '<' then do
    let (text, after) ← (here.skip 2).tagText isLongTagChar false
    if after.rest.head? = some '>' then .ok ([], text, after.skip 1) else .error .malformedTag
  else do
    let (handle, after) ← here.tagHandle
    if 2 ≤ handle.length ∧ handle.getLast? = some '!' then
      let (suffix, after) ← after.tagText isTagChar false
      .ok (handle, suffix, after)
    else
      let (more, after) ← after.tagText isTagChar true
      let suffix := handle.tail ++ more
      .ok (if suffix.isEmpty then ([], ['!'], after) else (['!'], suffix, after))

/-- The tag that comes next. White space follows it, or inside a flow collection
a comma. -/
def Cursor.tag (inFlow : Bool) (here : Cursor) : Except Fault (Token × Cursor) :=
  match here.tagParts with
  | .error fault => .error fault
  | .ok (handle, suffix, after) =>
    if separated after.rest ∨ (inFlow ∧ after.rest.head? = some ',') then
      .ok (.tag handle suffix, after)
    else .error .malformedTag

end ProjectAccess.Yaml
