import ProvideIndex.Yaml.Tag
import ProvideIndex.Yaml.Token

/-!
# From tokens to a document

The grammar of a stream with one document, read by recursive descent. Where a node may be left out
an empty scalar stands for it. Anchors get numbers as they are met: the number of different names
before. So a name that is used again gets a number of its own, which the next new name gets as well.
-/

namespace ProvideIndex.Yaml

/-- The handles of tags with the bytes that they stand for. -/
abbrev TagHandles := List (List Char × List UInt8)

namespace TagHandles

def standard : TagHandles :=
  [(['!'], Tag.bytes "!"), ("!!".toList, Tag.bytes "tag:yaml.org,2002:")]

/-- A tag in full, which has no handle, is its suffix. -/
def tag? (handles : TagHandles) (handle : List Char) (suffix : List UInt8) :
    Option (List UInt8) :=
  if handle.isEmpty then some suffix else (handles.lookup handle).map (· ++ suffix)

end TagHandles

/-- What is left of the stream, and the numbers of the anchors that were met. -/
structure Reading where
  tokens : List Token
  anchors : List (List Char × Nat)

namespace Reading

/-- Gives a name its number, in place of an earlier one. -/
def nameAnchor (name : List Char) (reading : Reading) : Nat × Reading :=
  let number := reading.anchors.length
  let others := reading.anchors.filter fun entry => entry.1 != name
  (number, { reading with anchors := (name, number) :: others })

end Reading

namespace Parser

variable (handles : TagHandles)

def anchor : Reading → Option Nat × Reading
  | ⟨.anchor name :: rest, anchors⟩ =>
    let (number, reading) := Reading.nameAnchor name ⟨rest, anchors⟩
    (some number, reading)
  | reading => (none, reading)

/-- A tag; one whose handle is unknown is refused. -/
def tag? : Reading → Option (Option (List UInt8) × Reading)
  | ⟨.tag handle suffix :: rest, anchors⟩ => do
    return (some (← handles.tag? handle suffix), ⟨rest, anchors⟩)
  | reading => some (none, reading)

/-- An anchor and a tag, in either order. -/
def properties? (reading : Reading) : Option (Properties × Reading) := do
  let (first, afterAnchor) := anchor reading
  let (tag, afterTag) ← tag? handles afterAnchor
  match first with
  | some number => return (⟨some number, tag⟩, afterTag)
  | none =>
    let (second, rest) := anchor afterTag
    return (⟨second, tag⟩, rest)

/-- Where a node may stand, which decides what kinds of it are possible. -/
inductive Place where
  /-- In a flow collection. -/
  | flow
  /-- In a document or a block sequence. -/
  | block
  /-- In a block mapping, where a sequence need not be indented. -/
  | entry
  deriving DecidableEq, Repr

/-- Whether the next token is among those that may follow a node, so that the node was left out. -/
def isLeftOut (followers : List Token) (tokens : List Token) : Bool :=
  match tokens with
  | token :: _ => followers.contains token
  | [] => false

def dropToken (reading : Reading) : Reading := { reading with tokens := reading.tokens.tail }

mutual

/-- A node. `fuel` bounds the number of steps, here and below. -/
def node? (place : Place) : Nat → Reading → Option (Node × Reading)
  | 0, _ => none
  | fuel + 1, reading =>
    match reading.tokens with
    | .reference name :: rest => do
      return (.reference (← reading.anchors.lookup name), { reading with tokens := rest })
    | _ => do
      let (properties, reading) ← properties? handles reading
      content? place properties fuel reading

/-- What follows the properties of a node. -/
def content? (place : Place) (properties : Properties) : Nat → Reading → Option (Node × Reading)
  | 0, _ => none
  | fuel + 1, reading =>
    let rest := dropToken reading
    match place, reading.tokens with
    | .entry, .blockEntry :: _ => do
      let (items, reading) ← plainItems? fuel reading
      return (.sequence properties items, reading)
    | _, .scalar text style :: _ =>
      some (.scalar properties text style, rest)
    | _, .flowSequenceStart :: _ => do
      let (items, reading) ← flowItems? true fuel rest
      return (.sequence properties items, reading)
    | _, .flowMappingStart :: _ => do
      let (entries, reading) ← flowEntries? true fuel rest
      return (.mapping properties entries, reading)
    | .block, .blockSequenceStart :: _ | .entry, .blockSequenceStart :: _ => do
      let (items, reading) ← blockItems? fuel rest
      return (.sequence properties items, reading)
    | .block, .blockMappingStart :: _ | .entry, .blockMappingStart :: _ => do
      let (entries, reading) ← blockEntries? fuel rest
      return (.mapping properties entries, reading)
    | _, _ =>
      if properties == ⟨none, none⟩ then none
      else some (.scalar properties [] .plain, reading)

/-- A node, or an empty one before a token that may follow it. -/
def optional? (place : Place) (followers : List Token) : Nat → Reading → Option (Node × Reading)
  | 0, _ => none
  | fuel + 1, reading =>
    if isLeftOut followers reading.tokens then some (.empty, reading)
    else node? place fuel reading

/-- The value of an entry: an empty node unless a value mark comes next. -/
def value? (place : Place) (followers : List Token) : Nat → Reading → Option (Node × Reading)
  | 0, _ => none
  | fuel + 1, reading =>
    match reading.tokens with
    | .value :: _ => optional? place followers fuel (dropToken reading)
    | _ => some (.empty, reading)

/-- The items of a block sequence up to its end. -/
def blockItems? : Nat → Reading → Option (List Node × Reading)
  | 0, _ => none
  | fuel + 1, reading =>
    match reading.tokens with
    | .blockEntry :: _ => do
      let (item, reading) ← optional? .block [.blockEntry, .blockEnd] fuel (dropToken reading)
      let (items, reading) ← blockItems? fuel reading
      return (item :: items, reading)
    | .blockEnd :: _ => some ([], dropToken reading)
    | _ => none

/-- The items of a sequence that is not indented; the end of the mapping around it ends it. -/
def plainItems? : Nat → Reading → Option (List Node × Reading)
  | 0, _ => none
  | fuel + 1, reading =>
    match reading.tokens with
    | .blockEntry :: _ => do
      let followers := [.blockEntry, .key, .value, .blockEnd]
      let (item, reading) ← optional? .block followers fuel (dropToken reading)
      let (items, reading) ← plainItems? fuel reading
      return (item :: items, reading)
    | _ => some ([], reading)

/-- The entries of a block mapping up to its end. -/
def blockEntries? : Nat → Reading → Option (List (Node × Node) × Reading)
  | 0, _ => none
  | fuel + 1, reading =>
    match reading.tokens with
    | .key :: _ => do
      let followers := [.key, .value, .blockEnd]
      let (key, reading) ← optional? .entry followers fuel (dropToken reading)
      let (value, reading) ← value? .entry followers fuel reading
      let (entries, reading) ← blockEntries? fuel reading
      return ((key, value) :: entries, reading)
    | .blockEnd :: _ => some ([], dropToken reading)
    | _ => none

/-- The items of a flow sequence up to its end; before all but the first a comma has to stand. -/
def flowItems? (first : Bool) : Nat → Reading → Option (List Node × Reading)
  | 0, _ => none
  | fuel + 1, reading =>
    match first, reading.tokens with
    | _, .flowSequenceEnd :: _ => some ([], dropToken reading)
    | true, _ => flowItem? fuel reading
    | false, .flowEntry :: _ =>
      let rest := dropToken reading
      match rest.tokens with
      | .flowSequenceEnd :: _ => some ([], dropToken rest)
      | _ => flowItem? fuel rest
    | false, _ => none

/--
An item of a flow sequence and those after it. A key mark makes the item a mapping of one entry; if
no key follows the mark, the token in its place is passed over.
-/
def flowItem? : Nat → Reading → Option (List Node × Reading)
  | 0, _ => none
  | fuel + 1, reading =>
    match reading.tokens with
    | .key :: _ => do
      let rest := dropToken reading
      let (key, reading) ←
        if isLeftOut [.value, .flowEntry, .flowSequenceEnd] rest.tokens then
          some (.empty, dropToken rest)
        else node? .flow fuel rest
      let (value, reading) ← value? .flow [.flowEntry, .flowSequenceEnd] fuel reading
      let (items, reading) ← flowItems? false fuel reading
      return (.mapping ⟨none, none⟩ [(key, value)] :: items, reading)
    | _ => do
      let (item, reading) ← node? .flow fuel reading
      let (items, reading) ← flowItems? false fuel reading
      return (item :: items, reading)

/-- The entries of a flow mapping up to its end; before all but the first a comma has to stand. -/
def flowEntries? (first : Bool) : Nat → Reading → Option (List (Node × Node) × Reading)
  | 0, _ => none
  | fuel + 1, reading =>
    match first, reading.tokens with
    | _, .flowMappingEnd :: _ => some ([], dropToken reading)
    | true, _ => flowPair? fuel reading
    | false, .flowEntry :: _ =>
      let rest := dropToken reading
      match rest.tokens with
      | .flowMappingEnd :: _ => some ([], dropToken rest)
      | _ => flowPair? fuel rest
    | false, _ => none

/-- An entry of a flow mapping and those after it; a node without a key mark has an empty value. -/
def flowPair? : Nat → Reading → Option (List (Node × Node) × Reading)
  | 0, _ => none
  | fuel + 1, reading =>
    match reading.tokens with
    | .key :: _ => do
      let followers := [.value, .flowEntry, .flowMappingEnd]
      let (key, reading) ← optional? .flow followers fuel (dropToken reading)
      let (value, reading) ← value? .flow [.flowEntry, .flowMappingEnd] fuel reading
      let (entries, reading) ← flowEntries? false fuel reading
      return ((key, value) :: entries, reading)
    | _ => do
      let (key, reading) ← node? .flow fuel reading
      let (entries, reading) ← flowEntries? false fuel reading
      return ((key, .empty) :: entries, reading)

end

/-- Reads the directives; no handle may be set twice, and at most one version may be named. -/
def directives? (named : TagHandles) (versions : Nat) :
    List Token → Option (TagHandles × List Token)
  | .version major minor :: rest =>
    if versions = 0 ∧ major = 1 ∧ (minor = 1 ∨ minor = 2) then directives? named 1 rest else none
  | .tagHandle handle form :: rest =>
    if (named.lookup handle).isSome then none
    else directives? ((handle, form) :: named) versions rest
  | rest => some (named ++ .standard, rest)

/-- The tokens after directives and a start mark. A document without directives needs no mark. -/
def start? (tokens : List Token) : Option (TagHandles × List Token) :=
  match tokens with
  | .version .. :: _ | .tagHandle .. :: _ | .documentStart :: _ => do
    let (handles, rest) ← directives? [] 0 tokens
    match rest with
    | .documentStart :: rest => return (handles, rest)
    | _ => none
  | _ => some (.standard, tokens)

/-- Whether a document with a start mark has nothing in it. -/
def isBare : List Token → Bool
  | [] => true
  | token :: _ =>
    match token with
    | .version .. | .tagHandle .. | .documentStart | .documentEnd => true
    | _ => false

/-- The one document of a stream; a stream without a document, or with more, is refused. -/
def document? (tokens : List Token) : Option Node := do
  if tokens.isEmpty then none
  else
    let (handles, rest) ← start? tokens
    let marked := rest.length < tokens.length
    let (root, reading) ←
      if marked && isBare rest then some (.empty, ⟨rest, []⟩)
      else node? handles .block (4 * rest.length + 4) ⟨rest, []⟩
    if reading.tokens.all (· == .documentEnd) then some root else none

end Parser

end ProvideIndex.Yaml
