/-
The words and signs of a YAML text.

Indentation is made explicit: a block collection has a start and an end among
the tokens, and the key of a mapping is announced before its first token even
where the text shows only the colon after it.
-/
import ProjectAccess.Yaml.Character

namespace ProjectAccess.Yaml

/-- How a scalar is written. -/
inductive ScalarStyle where
  | plain
  | singleQuoted
  | doubleQuoted
  | literal
  | folded
  deriving DecidableEq, Repr

/-- A tag, or the part of one that is written out, octet by octet. -/
abbrev TagText := List Char

/-- A word or sign of a text. -/
inductive Token where
  | versionDirective (major minor : Nat)
  | tagDirective (handle full : TagText)
  | documentStart
  | documentEnd
  | blockSequenceStart
  | blockMappingStart
  | blockEnd
  | flowSequenceStart
  | flowSequenceEnd
  | flowMappingStart
  | flowMappingEnd
  | blockEntry
  | flowEntry
  | key
  | value
  | alias (name : List Char)
  | anchor (name : List Char)
  | tag (handle suffix : TagText)
  | scalar (text : String) (style : ScalarStyle)
  deriving DecidableEq, Repr

end ProjectAccess.Yaml
