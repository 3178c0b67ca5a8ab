/-
Values of records: texts, truth values, whole numbers, lists and objects, as they
are exchanged with other programs.
-/

namespace ProjectAccess.Record

/-- A value. Numbers that are not written as whole numbers are told apart only from
everything else. -/
inductive Value where
  | null
  | flag (value : Bool)
  | whole (value : Int)
  | fraction
  | text (value : String)
  | list (items : List Value)
  | object (fields : List (String × Value))
  deriving Repr, Inhabited

namespace Value

/-- The texts of a list. -/
def ofTexts (texts : List String) : Value := .list (texts.map .text)

/-- The value under a key, which has to be given exactly once. -/
def field? (fields : List (String × Value)) (key : String) : Option Value :=
  match fields.filter (·.1 == key) with
  | [(_, value)] => some value
  | _ => none

/-- The values of a record's fields in their order: those of an object under the
names, of which others are ignored, or the items of a list of just that length. -/
def fields? (names : List String) : Value → Option (List Value)
  | object fields => names.mapM (field? fields)
  | list items => if items.length = names.length then some items else none
  | _ => none

/-- The truth value. -/
def flag? : Value → Option Bool
  | flag value => some value
  | _ => none

/-- The text. -/
def text? : Value → Option String
  | text value => some value
  | _ => none

/-- The whole number, if it fits 32 bits. -/
def int32? : Value → Option Int32
  | whole value =>
    if Int32.minValue.toInt ≤ value ∧ value ≤ Int32.maxValue.toInt then some (Int32.ofInt value)
    else none
  | _ => none

/-- The texts of a list that holds nothing else. -/
def texts? : Value → Option (List String)
  | list items => items.mapM text?
  | _ => none

/-- The word of an enumeration: a text, or an object with nothing under the word. -/
def word? : Value → Option String
  | text value => some value
  | object [(key, null)] => some key
  | _ => none

end Value

end ProjectAccess.Record
