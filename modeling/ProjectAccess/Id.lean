/-
Identifiers of users, projects and roles.

An id is 128 bits and knows what it identifies, so an id of a user is never
taken for one of a project. Ids are read in four spellings and written in one:
32 lower-case hexadecimal digits in groups of 8, 4, 4, 4 and 12, joined by
hyphens. Ids are ordered by value, which is the order of their written form.
-/
import ProjectAccess.Text.Blank
import ProjectAccess.Text.Numeral
import ProjectAccess.Text.Quoted

namespace ProjectAccess

/-- What an id identifies. -/
inductive IdKind where
  | user
  | project
  | role
  deriving DecidableEq, Repr

/-- The name of a kind of id in messages. -/
def IdKind.name : IdKind → String
  | .user => "UserId"
  | .project => "ProjectId"
  | .role => "RoleId"

/-- An identifier: 128 bits, of which every pattern is allowed. -/
structure Id (kind : IdKind) where
  value : BitVec 128
  deriving DecidableEq, Repr

abbrev UserId := Id .user
abbrev ProjectId := Id .project
abbrev RoleId := Id .role

/-- A text that spells no id of the kind. -/
structure IdError where
  kind : IdKind
  text : String
  deriving DecidableEq, Repr

/-- What was expected, and the text as it was given, white space included. -/
def IdError.detail (e : IdError) : String :=
  e.kind.name ++ " " ++ Text.quoted e.text

namespace Id

variable {kind : IdKind}

instance : LT (Id kind) := ⟨fun a b => a.value.toNat < b.value.toNat⟩
instance : LE (Id kind) := ⟨fun a b => a.value.toNat ≤ b.value.toNat⟩

instance (a b : Id kind) : Decidable (a < b) :=
  inferInstanceAs (Decidable (a.value.toNat < b.value.toNat))

instance (a b : Id kind) : Decidable (a ≤ b) :=
  inferInstanceAs (Decidable (a.value.toNat ≤ b.value.toNat))

-- ============================================================= writing

/-- The sizes of the groups of digits in the hyphenated spelling. -/
def groups : List Nat := [8, 4, 4, 4, 12]

/-- Digits in groups of the given sizes, joined by hyphens. -/
def hyphenate : List Nat → List Char → List Char
  | [], cs => cs
  | [_], cs => cs
  | size :: sizes, cs => cs.take size ++ '-' :: hyphenate sizes (cs.drop size)

/-- The 36 characters of the written form. -/
def chars (id : Id kind) : List Char :=
  hyphenate groups (Text.hexDigits 32 id.value.toNat)

/-- The written form: lower-case and hyphenated. -/
def text (id : Id kind) : String := String.ofList id.chars

/-- The written form under the name of the kind. -/
def label (id : Id kind) : String := kind.name ++ "(" ++ id.text ++ ")"

instance : ToString (Id kind) := ⟨text⟩

-- ============================================================= reading

/-- The digits of groups of exactly the given sizes, joined by hyphens. -/
def unhyphenate? : List Nat → List Char → Option (List Char)
  | [], _ => none
  | [size], cs => if cs.length = size then some cs else none
  | size :: sizes, cs =>
    match cs.drop size with
    | '-' :: rest => (unhyphenate? sizes rest).map (cs.take size ++ ·)
    | _ => none

/-- The inside of a pair of braces. -/
def unbrace? : List Char → Option (List Char)
  | '\x7b' :: rest => if rest.getLast? = some '\x7d' then some rest.dropLast else none
  | _ => none

/-- What follows the name of the id's namespace, written in either case. -/
def afterNamespace? (cs : List Char) : Option (List Char) :=
  if (cs.take 9).map Char.toLower = ['u', 'r', 'n', ':', 'u', 'u', 'i', 'd', ':'] then
    some (cs.drop 9)
  else none

/-- The 32 digits of any of the four spellings: bare, hyphenated, hyphenated in
braces, and hyphenated after the namespace. The length tells them apart. -/
def digits? (cs : List Char) : Option (List Char) :=
  if cs.length = 32 then some cs
  else if cs.length = 36 then unhyphenate? groups cs
  else if cs.length = 38 then (unbrace? cs).bind (unhyphenate? groups)
  else if cs.length = 45 then (afterNamespace? cs).bind (unhyphenate? groups)
  else none

/-- The id that a text spells, with no white space around it. -/
def ofChars? (cs : List Char) : Option (Id kind) :=
  (digits? cs).bind fun digits => (Text.natural? 16 digits).map fun n => ⟨BitVec.ofNat 128 n⟩

/-- The id that a text spells once the white space around it is removed. -/
def parse (kind : IdKind) (text : String) : Except IdError (Id kind) :=
  match ofChars? (Text.trim text.toList) with
  | some id => .ok id
  | none => .error ⟨kind, text⟩

end Id

end ProjectAccess
