/-!
# Nodes

A document is a tree of scalars, sequences and mappings. A node may carry an anchor, and an alias
stands for a node that carries one. Anchors are numbers here; more than one node may carry the same,
and then an alias stands for the last of them.
-/

namespace ProvideIndex.Yaml

/-- How a scalar is written. -/
inductive Style where
  | plain | singleQuoted | doubleQuoted | literal | folded
  deriving DecidableEq, Repr

structure Properties where
  anchor : Option Nat
  /-- The bytes of the tag. -/
  tag : Option (List UInt8)
  deriving DecidableEq, Repr

inductive Node where
  | reference (anchor : Nat)
  | scalar (properties : Properties) (text : List Char) (style : Style)
  | sequence (properties : Properties) (items : List Node)
  | mapping (properties : Properties) (entries : List (Node × Node))
  deriving Repr

namespace Node

/-- What stands where a node was left out. -/
def empty : Node := scalar ⟨none, none⟩ [] .plain

/-- The anchor that a node carries, with the node. -/
def ownAnchor (anchor : Option Nat) (node : Node) : List (Nat × Node) :=
  match anchor with
  | some n => [(n, node)]
  | none => []

mutual

/-- The nodes with an anchor, in the order in which they begin. -/
def anchored : Node → List (Nat × Node)
  | reference _ => []
  | scalar properties text style =>
    ownAnchor properties.anchor (scalar properties text style)
  | sequence properties items =>
    ownAnchor properties.anchor (sequence properties items) ++ anchoredItems items
  | mapping properties entries =>
    ownAnchor properties.anchor (mapping properties entries) ++ anchoredEntries entries

def anchoredItems : List Node → List (Nat × Node)
  | [] => []
  | item :: items => item.anchored ++ anchoredItems items

def anchoredEntries : List (Node × Node) → List (Nat × Node)
  | [] => []
  | (key, value) :: entries => key.anchored ++ value.anchored ++ anchoredEntries entries

end

mutual

/--
How many steps a reader takes through a node: one for a leaf, two more than its children for others.
-/
def steps : Node → Nat
  | reference _ => 1
  | scalar .. => 1
  | sequence _ items => 2 + itemSteps items
  | mapping _ entries => 2 + entrySteps entries

def itemSteps : List Node → Nat
  | [] => 0
  | item :: items => item.steps + itemSteps items

def entrySteps : List (Node × Node) → Nat
  | [] => 0
  | (key, value) :: entries => key.steps + value.steps + entrySteps entries

end

end Node

end ProvideIndex.Yaml
