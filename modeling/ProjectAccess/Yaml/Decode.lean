/-
Reading values out of a document.

A text is any scalar, as it is written. A list is a sequence and a record is a
mapping, and an absent node is an empty one of either. Aliases are followed
wherever a value is read, but not in what is ignored; a document whose aliases are
followed a hundred times as often as it is long is refused.
-/
import ProjectAccess.Yaml.Structure

namespace ProjectAccess.Yaml

/-- Reads from a document; the state is the number of aliases followed so far. -/
abbrev Decoder (α : Type) : Type := ReaderT Document (StateT Nat (Except Fault)) α

namespace Decoder

/-- What a decoder reads from a document. -/
def run {α : Type} (decoder : Decoder α) (d : Document) : Except Fault α :=
  (StateT.run (ReaderT.run decoder d) 0).map (·.1)

/-- The node itself, or the one that it stands for. -/
def resolve : Node → Decoder Node
  | .reference number => do
    let d ← read
    let followed ← get
    if 100 * d.weight < followed + 1 then throw .tooManyAliases
    set (followed + 1)
    match d.target? number with
    | some node => pure node
    | none => throw .undefinedAlias
  | node => pure node

/-- Reads a text. -/
def text (node : Node) : Decoder String := do
  match ← resolve node with
  | .scalar _ s => pure s.text
  | _ => throw .typeMismatch

/-- Reads a list of nodes. -/
def items (node : Node) : Decoder (List Node) := do
  match ← resolve node with
  | .sequence _ nodes => pure nodes
  | .scalar _ s => if s.isAbsent then pure [] else throw .typeMismatch
  | _ => throw .typeMismatch

/-- Reads a list of values. -/
def list {α : Type} (read : Node → Decoder α) (node : Node) : Decoder (List α) := do
  (← items node).mapM read

-- ================================================================ records

/-- The fields of a record by their names. -/
abbrev Fields := List (String × Node)

/-- The entries that are known fields. Others are passed over; a field that is given
twice is refused. -/
def knownFields (names : List String) (found : Fields) : List (Node × Node) → Decoder Fields
  | [] => pure found
  | (key, value) :: entries => do
    let name ← text key
    if !names.contains name then knownFields names found entries
    else if (found.lookup name).isSome then throw (.repeatedField name)
    else knownFields names ((name, value) :: found) entries

/-- Reads the fields of a record. -/
def fields (names : List String) (node : Node) : Decoder Fields := do
  match ← resolve node with
  | .mapping _ entries => knownFields names [] entries
  | .scalar _ s => if s.isAbsent then pure [] else throw .typeMismatch
  | _ => throw .typeMismatch

/-- Reads the fields of the record that a whole document is. -/
def rootFields (names : List String) : Decoder Fields := do
  match (← read).root with
  | none => pure []
  | some root => fields names root

/-- Reads a field that has to be given. -/
def required {α : Type} (found : Fields) (name : String) (read : Node → Decoder α) : Decoder α :=
  match found.lookup name with
  | some node => read node
  | none => throw (.missingField name)

/-- Reads a field, or takes a value in its place if it is not given. -/
def withDefault {α : Type} (found : Fields) (name : String) (default : α)
    (read : Node → Decoder α) : Decoder α :=
  match found.lookup name with
  | some node => read node
  | none => pure default

-- ======================================================== null and numbers

/-- The words for no value. -/
def isNullWord (text : String) : Bool := text ∈ ["null", "Null", "NULL", "~"]

/-- The scalar stands for no value. Only a plain scalar does: one that is empty or
a null word, or one with the tag of null, which is then refused unless it is such a
word. Any other tag makes it a value. -/
def isNull (s : Scalar) : Except Fault Bool :=
  if s.style ≠ .plain then .ok false
  else match s.tag with
    | none => .ok (s.text.isEmpty || isNullWord s.text)
    | some tag =>
      if tag = "tag:yaml.org,2002:null".toList then
        if isNullWord s.text then .ok true else .error .typeMismatch
      else .ok false

/-- Reads a value that may be null. -/
def nullable {α : Type} (read : Node → Decoder α) (node : Node) : Decoder (Option α) := do
  let node ← resolve node
  match node with
  | .scalar _ s => if ← isNull s then pure none else some <$> read node
  | _ => some <$> read node

/-- The number in a radix that a mark announces. A sign cannot follow the mark. -/
def markedWord? (mark : Char) (radix : Nat) : List Char → Option UInt64
  | '0' :: c :: digits => if c = mark then Text.word? radix digits else none
  | _ => none

/-- A decimal number without superfluous zeros in front. -/
def plainWord? (digits : List Char) : Option UInt64 :=
  if 2 ≤ digits.length ∧ digits.head? = some '0' then none else Text.word? 10 digits

/-- The whole number that a scalar spells, after an optional plus sign: hexadecimal,
octal or binary after a mark, and else decimal. -/
def wordOf? (cs : List Char) : Option UInt64 :=
  let digits := match cs with
    | '+' :: digits => digits
    | digits => digits
  markedWord? 'x' 16 digits <|> markedWord? 'o' 8 digits <|> markedWord? 'b' 2 digits
    <|> plainWord? digits

/-- The scalar may spell a number: it is plain, or literal with the tag of integers. -/
def isNumeric (s : Scalar) : Bool :=
  s.style == .plain || (s.style == .literal && s.tag == some "tag:yaml.org,2002:int".toList)

/-- Reads a whole number of 64 bits. -/
def word (node : Node) : Decoder UInt64 := do
  match ← resolve node with
  | .scalar _ s =>
    match (if isNumeric s then wordOf? s.text.toList else none) with
    | some n => pure n
    | none => throw .typeMismatch
  | _ => throw .typeMismatch

end Decoder

end ProjectAccess.Yaml
