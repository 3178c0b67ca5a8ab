/-
From tokens to a document.

Collections nest, and where the text has no node between two signs there is an
empty scalar. Directives in front of a document give meaning to the handles of its
tags. A text holds one document at most, and may end in delimiters.
-/
import ProjectAccess.Yaml.Layout
import ProjectAccess.Yaml.Node

namespace ProjectAccess.Yaml

-- ============================================================= directives

/-- What the handles of tags stand for. -/
abbrev Handles := List (TagText × TagText)

/-- The handles that need no directive. -/
def Handles.standard : Handles :=
  [(['!'], ['!']), (['!', '!'], "tag:yaml.org,2002:".toList)]

/-- Reads the directives in front of a document, given whether the version was
declared and which handles were: all handles, and the tokens after them. A handle
that is declared is not the standard one. -/
def readDirectives (versioned : Bool) (handles : Handles) :
    List Token → Except Fault (Handles × List Token)
  | .versionDirective major minor :: rest =>
    if versioned then .error .repeatedDirective
    else if major = 1 ∧ (minor = 1 ∨ minor = 2) then readDirectives true handles rest
    else .error .unsupportedVersion
  | .tagDirective handle full :: rest =>
    if (handles.lookup handle).isSome then .error .repeatedDirective
    else readDirectives versioned ((handle, full) :: handles) rest
  | rest => .ok (handles ++ Handles.standard, rest)

/-- The whole tag of a handle and a suffix. -/
def Handles.resolve (handles : Handles) (handle suffix : TagText) : Except Fault TagText :=
  if handle.isEmpty then .ok suffix
  else match handles.lookup handle with
    | some full => .ok (full ++ suffix)
    | none => .error .undefinedTagHandle

-- ============================================================= properties

/-- What is written in front of a node. -/
structure Properties where
  anchor : Option (List Char) := none
  tag : Option (TagText × TagText) := none
  deriving DecidableEq, Repr

/-- The properties that come first: an anchor, a tag, or both in either order. -/
def Properties.read : List Token → Properties × List Token
  | .anchor name :: .tag handle suffix :: rest => (⟨some name, some (handle, suffix)⟩, rest)
  | .anchor name :: rest => (⟨some name, none⟩, rest)
  | .tag handle suffix :: .anchor name :: rest => (⟨some name, some (handle, suffix)⟩, rest)
  | .tag handle suffix :: rest => (⟨none, some (handle, suffix)⟩, rest)
  | rest => (⟨none, none⟩, rest)

/-- No property is written. -/
def Properties.isEmpty (p : Properties) : Bool := p.anchor.isNone && p.tag.isNone

/-- The whole tag that the properties give. -/
def Properties.resolveTag (p : Properties) (handles : Handles) : Except Fault (Option TagText) :=
  match p.tag with
  | none => .ok none
  | some (handle, suffix) => (handles.resolve handle suffix).map some

-- ================================================================== nodes

/-- How far the tokens have been read, and the numbers of the anchors so far. -/
structure Progress where
  tokens : List Token
  anchors : List (List Char × Nat) := []
  deriving DecidableEq, Repr

namespace Progress

/-- Goes on with the tokens. -/
def goOn (p : Progress) (tokens : List Token) : Progress := { p with tokens }

/-- Numbers an anchor by the names that are known. A name that is known already
gets a new number. -/
def number (p : Progress) : Option (List Char) → Option Nat × Progress
  | none => (none, p)
  | some name =>
    (some p.anchors.length,
      { p with anchors := (name, p.anchors.length) :: p.anchors.filter (·.1 ≠ name) })

end Progress

/-- Where a node stands, which decides how it may start. -/
inductive Slot where
  | flow
  | block
  /-- A key or a value in a block, where a sequence need not be indented. -/
  | entry
  deriving DecidableEq, Repr

mutual

/-- Reads a node. The first number bounds the depth of the recursion. -/
def readNode (handles : Handles) (slot : Slot) :
    Nat → Progress → Except Fault (Node × Progress)
  | 0, _ => .error .unexpectedToken
  | fuel + 1, p =>
    match p.tokens with
    | .alias name :: rest =>
      match p.anchors.lookup name with
      | some number => .ok (.reference number, p.goOn rest)
      | none => .error .undefinedAlias
    | tokens =>
      let (properties, tokens) := Properties.read tokens
      match properties.resolveTag handles with
      | .error fault => .error fault
      | .ok tag =>
        let (anchor, p) := p.number properties.anchor
        match tokens, slot with
        | .scalar text style :: rest, _ =>
          .ok (.scalar anchor ⟨text, style, tag⟩, p.goOn rest)
        | .flowSequenceStart :: rest, _ =>
          (readFlowItems handles true fuel (p.goOn rest)).map fun (items, p) =>
            (.sequence anchor items, p)
        | .flowMappingStart :: rest, _ =>
          (readFlowEntries handles true fuel (p.goOn rest)).map fun (entries, p) =>
            (.mapping anchor entries, p)
        | .blockEntry :: rest, .entry =>
          (readIndentlessItems handles fuel (p.goOn (.blockEntry :: rest))).map
            fun (items, p) => (.sequence anchor items, p)
        | .blockSequenceStart :: rest, .block | .blockSequenceStart :: rest, .entry =>
          (readBlockItems handles fuel (p.goOn rest)).map fun (items, p) =>
            (.sequence anchor items, p)
        | .blockMappingStart :: rest, .block | .blockMappingStart :: rest, .entry =>
          (readBlockEntries handles fuel (p.goOn rest)).map fun (entries, p) =>
            (.mapping anchor entries, p)
        | tokens, _ =>
          if properties.isEmpty then .error .unexpectedToken
          else .ok (.scalar anchor { Scalar.empty with tag }, p.goOn tokens)

/-- Reads a node unless one of the signs comes first that may follow it. -/
def readOptional (handles : Handles) (slot : Slot) (signs : List Token) :
    Nat → Progress → Except Fault (Node × Progress)
  | 0, _ => .error .unexpectedToken
  | fuel + 1, p =>
    if p.tokens.head?.any (signs.contains ·) then .ok (.absent, p)
    else readNode handles slot fuel p

/-- Reads the value of an entry, which is absent if no sign announces it. -/
def readValue (handles : Handles) (slot : Slot) (signs : List Token) :
    Nat → Progress → Except Fault (Node × Progress)
  | 0, _ => .error .unexpectedToken
  | fuel + 1, p =>
    match p.tokens with
    | .value :: rest => readOptional handles slot signs fuel (p.goOn rest)
    | _ => .ok (.absent, p)

/-- Reads the items of a sequence in a block, and its end. -/
def readBlockItems (handles : Handles) :
    Nat → Progress → Except Fault (List Node × Progress)
  | 0, _ => .error .unexpectedToken
  | fuel + 1, p =>
    match p.tokens with
    | .blockEntry :: rest => do
      let (item, p) ← readOptional handles .block [.blockEntry, .blockEnd] fuel (p.goOn rest)
      let (items, p) ← readBlockItems handles fuel p
      .ok (item :: items, p)
    | .blockEnd :: rest => .ok ([], p.goOn rest)
    | _ => .error .unexpectedToken

/-- Reads the items of a sequence that is no deeper than the key before it. -/
def readIndentlessItems (handles : Handles) :
    Nat → Progress → Except Fault (List Node × Progress)
  | 0, _ => .error .unexpectedToken
  | fuel + 1, p =>
    match p.tokens with
    | .blockEntry :: rest => do
      let (item, p) ←
        readOptional handles .block [.blockEntry, .key, .value, .blockEnd] fuel (p.goOn rest)
      let (items, p) ← readIndentlessItems handles fuel p
      .ok (item :: items, p)
    | _ => .ok ([], p)

/-- Reads the entries of a mapping in a block, and its end. -/
def readBlockEntries (handles : Handles) :
    Nat → Progress → Except Fault (List (Node × Node) × Progress)
  | 0, _ => .error .unexpectedToken
  | fuel + 1, p =>
    match p.tokens with
    | .key :: rest => do
      let (key, p) ← readOptional handles .entry [.key, .value, .blockEnd] fuel (p.goOn rest)
      let (value, p) ← readValue handles .entry [.key, .value, .blockEnd] fuel p
      let (entries, p) ← readBlockEntries handles fuel p
      .ok ((key, value) :: entries, p)
    | .blockEnd :: rest => .ok ([], p.goOn rest)
    | _ => .error .unexpectedToken

/-- Reads the items of a flow sequence, and its end. An item that starts with a key
is a mapping of that one entry; if its key is missing, the sign in place of the key
is passed over. -/
def readFlowItems (handles : Handles) (first : Bool) :
    Nat → Progress → Except Fault (List Node × Progress)
  | 0, _ => .error .unexpectedToken
  | fuel + 1, p =>
    match first, p.tokens with
    | _, .flowSequenceEnd :: rest => .ok ([], p.goOn rest)
    | false, .flowEntry :: .flowSequenceEnd :: rest => .ok ([], p.goOn rest)
    | false, .flowEntry :: .key :: rest | true, .key :: rest => do
      let (key, p) ← match rest with
        | .value :: rest | .flowEntry :: rest | .flowSequenceEnd :: rest =>
          .ok (.absent, p.goOn rest)
        | rest => readNode handles .flow fuel (p.goOn rest)
      let (value, p) ← readValue handles .flow [.flowEntry, .flowSequenceEnd] fuel p
      let (items, p) ← readFlowItems handles false fuel p
      .ok (.mapping none [(key, value)] :: items, p)
    | false, .flowEntry :: rest | true, rest => do
      let (item, p) ← readNode handles .flow fuel (p.goOn rest)
      let (items, p) ← readFlowItems handles false fuel p
      .ok (item :: items, p)
    | false, _ => .error .unexpectedToken

/-- Reads the entries of a flow mapping, and its end. A node that no key announces
is a key without a value. -/
def readFlowEntries (handles : Handles) (first : Bool) :
    Nat → Progress → Except Fault (List (Node × Node) × Progress)
  | 0, _ => .error .unexpectedToken
  | fuel + 1, p =>
    match first, p.tokens with
    | _, .flowMappingEnd :: rest => .ok ([], p.goOn rest)
    | false, .flowEntry :: .flowMappingEnd :: rest => .ok ([], p.goOn rest)
    | false, .flowEntry :: .key :: rest | true, .key :: rest => do
      let (key, p) ←
        readOptional handles .flow [.value, .flowEntry, .flowMappingEnd] fuel (p.goOn rest)
      let (value, p) ← readValue handles .flow [.flowEntry, .flowMappingEnd] fuel p
      let (entries, p) ← readFlowEntries handles false fuel p
      .ok ((key, value) :: entries, p)
    | false, .flowEntry :: rest | true, rest => do
      let (key, p) ← readNode handles .flow fuel (p.goOn rest)
      let (entries, p) ← readFlowEntries handles false fuel p
      .ok ((key, .absent) :: entries, p)
    | false, _ => .error .unexpectedToken

end

-- ============================================================== documents

/-- The token may follow a document without content. -/
def endsDocument : Token → Bool
  | .versionDirective _ _ | .tagDirective _ _ | .documentStart | .documentEnd => true
  | _ => false

/-- A depth of recursion that no document of so many tokens exceeds. -/
def depthBound (tokens : List Token) : Nat := 4 * tokens.length + 4

/-- Reads the content of a document, which may be missing only after its start is
marked. -/
def readContent (handles : Handles) (marked : Bool) (tokens : List Token) :
    Except Fault (Node × List Token) :=
  if marked ∧ tokens.head?.all endsDocument then .ok (.absent, tokens)
  else (readNode handles .block (depthBound tokens) { tokens }).map fun (root, p) =>
    (root, p.tokens)

/-- The document and the tokens after it. -/
def readDocument (tokens : List Token) : Except Fault (Document × List Token) := do
  match tokens with
  | [] => .ok (⟨none⟩, [])
  | _ =>
    let (handles, rest) ← readDirectives false [] tokens
    match rest with
    | .documentStart :: rest =>
      let (root, rest) ← readContent handles true rest
      .ok (⟨some root⟩, rest)
    | _ =>
      if rest.length < tokens.length then .error .unexpectedToken
      else
        let (root, rest) ← readContent handles false rest
        .ok (⟨some root⟩, rest)

/-- The document that a text holds. -/
def Document.ofText (text : String) : Except Fault Document := do
  let tokens ← tokens (← characters text)
  let (document, rest) ← readDocument tokens
  match rest.dropWhile (· == .documentEnd) with
  | [] => .ok document
  | _ => .error .severalDocuments

end ProjectAccess.Yaml
