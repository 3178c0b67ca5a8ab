/-
The content of a document: scalars, sequences and mappings.

A node may be anchored, and an alias stands for an anchored node. Anchors are
numbered; where two nodes share a number, the later one is meant, by aliases that
stand before it too.
-/
import ProjectAccess.Yaml.Token

namespace ProjectAccess.Yaml

/-- A scalar: its text, how it was written, and its tag if it has one. -/
structure Scalar where
  text : String
  style : ScalarStyle
  tag : Option TagText
  deriving DecidableEq, Repr

namespace Scalar

/-- What stands where a node is missing. -/
def empty : Scalar := ⟨"", .plain, none⟩

/-- Nothing was written. -/
def isAbsent (s : Scalar) : Bool := s.text.isEmpty && s.style == .plain

end Scalar

/-- A node of a document. -/
inductive Node where
  | scalar (anchor : Option Nat) (scalar : Scalar)
  | sequence (anchor : Option Nat) (items : List Node)
  | mapping (anchor : Option Nat) (entries : List (Node × Node))
  | reference (target : Nat)
  deriving Repr

namespace Node

/-- The number of the node's anchor. -/
def anchor? : Node → Option Nat
  | scalar anchor _ => anchor
  | sequence anchor _ => anchor
  | mapping anchor _ => anchor
  | reference _ => none

/-- What stands where a node is missing. -/
def absent : Node := .scalar none .empty

mutual

/-- The node and all nodes below it, in the order in which they start. -/
def nodes (node : Node) : List Node :=
  match node with
  | scalar _ _ => [node]
  | reference _ => [node]
  | sequence _ items => node :: nodesOfItems items
  | mapping _ entries => node :: nodesOfEntries entries

/-- The nodes of a sequence. -/
def nodesOfItems : List Node → List Node
  | [] => []
  | item :: items => nodes item ++ nodesOfItems items

/-- The nodes of a mapping. -/
def nodesOfEntries : List (Node × Node) → List Node
  | [] => []
  | (key, value) :: entries => nodes key ++ nodes value ++ nodesOfEntries entries

end

/-- The number of places where something starts or ends: a collection has two. -/
def weight : Node → Nat
  | scalar _ _ => 1
  | reference _ => 1
  | sequence _ _ => 2
  | mapping _ _ => 2

end Node

/-- A document; an empty text has none of the nodes. -/
structure Document where
  root : Option Node
  deriving Repr

namespace Document

/-- All nodes, in the order in which they start. -/
def nodes (d : Document) : List Node :=
  match d.root with
  | none => []
  | some root => root.nodes

/-- The number of starts and ends in the document, at least one. -/
def weight (d : Document) : Nat := max 1 (d.nodes.foldr (·.weight + ·) 0)

/-- The node that an alias stands for. -/
def target? (d : Document) (number : Nat) : Option Node :=
  d.nodes.reverse.find? fun node => node.anchor? == some number

end Document

end ProjectAccess.Yaml
