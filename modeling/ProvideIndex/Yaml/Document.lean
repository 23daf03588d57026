import ProvideIndex.Value.Basic
import ProvideIndex.Yaml.Parser
import ProvideIndex.Yaml.Scalar
import ProvideIndex.Yaml.Scanner

/-!
# Reading documents

Texts, numbers, records and data values are read from the nodes of a document. An alias is followed
to the node it stands for, but not more often than a hundred times for every step of the document,
and collections are nested no deeper than `maxDepth`; so a document that unfolds without end is
refused.
-/

namespace ProvideIndex.Yaml

structure Document where
  root : Node
  /-- The nodes with an anchor, in the order in which they begin. -/
  anchored : List (Nat × Node)
  deriving Repr

/-- A reading that may fail; the state counts the aliases that may still be followed. -/
abbrev Reader := StateT Nat Option

namespace Document

def ofText? (text : String) : Option Document := do
  let root ← Parser.document? (← tokens? text.toList)
  return ⟨root, root.anchored⟩

def aliasBudget (document : Document) : Nat := 100 * document.root.steps

/-- Reads the root of a document. -/
def read? {α : Type} (document : Document) (reader : Node → Reader α) : Option α :=
  (reader document.root document.aliasBudget).map (·.1)

def maxDepth : Nat := 128

/-- The last node that carries an anchor. -/
def node? (document : Document) (anchor : Nat) : Option Node :=
  document.anchored.reverse.lookup anchor

/-- The node that a node stands for. -/
def target (document : Document) (node : Node) : Reader Node :=
  match node with
  | .reference anchor => do
    match ← get with
    | 0 => failure
    | left + 1 =>
      set left
      liftM (document.node? anchor)
  | node => pure node

/-- The text of a scalar, whatever its style and its tag. -/
def string (document : Document) (node : Node) : Reader String := do
  match ← document.target node with
  | .scalar _ text _ => return String.ofList text
  | _ => failure

def bool (document : Document) (node : Node) : Reader Bool := do
  match ← document.target node with
  | .scalar properties text style =>
    if Scalar.mayBe "bool" properties.tag style then liftM (Scalar.bool? text) else failure
  | _ => failure

/-- A whole number of 64 bits without a sign. -/
def uint64 (document : Document) (node : Node) : Reader UInt64 := do
  match ← document.target node with
  | .scalar properties text style =>
    if Scalar.mayBe "int" properties.tag style then do
      let n ← liftM (Scalar.natural? text)
      if n < UInt64.size then return UInt64.ofNat n else failure
    else failure
  | _ => failure

/-- The items of a sequence; nothing at all is an empty sequence. -/
def list {α : Type} (document : Document) (item : Node → Reader α) (node : Node) :
    Reader (List α) := do
  match ← document.target node with
  | .sequence _ items => items.mapM item
  | .scalar _ [] .plain => return []
  | _ => failure

/-- The one value with this name. -/
def onlyValue? (name : String) (entries : List (String × Node)) : Option Node :=
  match entries.filter (·.1 == name) with
  | [(_, node)] => some node
  | _ => none

/--
The fields of a record, in the order of their names: a mapping in which each name occurs once,
others being passed over.
-/
def fields (document : Document) (names : List String) (node : Node) : Reader (List Node) := do
  match ← document.target node with
  | .mapping _ entries =>
    let named ← entries.mapM fun (key, value) => do return (← document.string key, value)
    liftM (names.mapM fun name => onlyValue? name named)
  | _ => failure

/-- A data value of at most this depth. -/
def value (document : Document) : Nat → Node → Reader Value
  | depth, node => do
    match ← document.target node, depth with
    | .scalar properties text style, _ => liftM (Scalar.value? properties.tag text style)
    | .sequence properties items, depth + 1 =>
      if properties.tag.any Tag.isForeign then failure
      else return .list (← items.mapM (value document depth))
    | .mapping properties entries, depth + 1 =>
      if properties.tag.any Tag.isForeign then failure
      else
        let fields ← entries.mapM fun (key, node) => do
          return (← document.string key, ← value document depth node)
        return .ofFields fields
    | _, _ => failure

end Document

end ProvideIndex.Yaml
