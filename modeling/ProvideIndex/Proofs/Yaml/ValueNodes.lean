import ProvideIndex.Proofs.Yaml.ValueTokens
import ProvideIndex.Yaml.Parser

/-!
# Nodes of data values

The parser puts the tokens of a value together again. A list that begins no block of its own ends
where no further dash comes; everything else ends at a mark of its end. The fuel that a node takes
is at most four steps for each of its tokens, and three.

* `nodeOf`: the node of a value.
* `optional?_value`: a value that is not left out.
* `node?_scalar`, `node?_emptySequence`, `node?_blockSequence`, `node?_plainSequence`,
  `node?_emptyMapping`, `node?_blockMapping`: a node of each kind, from its first token.
* `IsParsed`, `isParsed`: the tokens of a value in front of any others.
* `document?_entries`: the document of a record.
-/

namespace ProvideIndex.Yaml

open ScalarText

mutual

/-- The node that a written value is read as. -/
def nodeOf : Value → Node
  | .list items => .sequence ⟨none, none⟩ (itemNodes items)
  | .object fields => .mapping ⟨none, none⟩ (entryNodes fields)
  | value => .scalar ⟨none, none⟩ (scalarText value) (scalarStyle value)

def itemNodes : List Value → List Node
  | [] => []
  | item :: items => nodeOf item :: itemNodes items

def entryNodes : List (String × Value) → List (Node × Node)
  | [] => []
  | (key, value) :: fields =>
    (.scalar ⟨none, none⟩ key.toList (style key.toList), nodeOf value) :: entryNodes fields

end

theorem nodeOf_scalar {v : Value} (h : isScalar v = true) :
    nodeOf v = .scalar ⟨none, none⟩ (scalarText v) (scalarStyle v) := by
  cases v with
  | list | object => cases h
  | null | bool | number | string => simp only [nodeOf]

namespace Parser

variable {handles : TagHandles} {anchors : List (List Char × Nat)} {fuel : Nat} {place : Place}
  {token : Token} {rest followers : List Token} {indented : Bool} {items : List Value}
  {fields : List (String × Value)}

/-! ### Beginnings of values -/

/-- A token that begins a node by itself. -/
def isOpening : Token → Bool
  | .scalar .. | .flowSequenceStart | .flowMappingStart | .blockSequenceStart | .blockMappingStart
  | .blockEntry => true
  | _ => false

theorem node?_opening (h : isOpening token = true) :
    node? handles place (fuel + 1) ⟨token :: rest, anchors⟩ =
      content? handles place ⟨none, none⟩ fuel ⟨token :: rest, anchors⟩ := by
  rw [node?]
  cases token <;> first | rfl | cases h

/-- The first token of a value; a dash begins one only without a block. -/
theorem exists_opening (v : Value) (indented : Bool) :
    ∃ token rest, valueTokens indented v = token :: rest ∧ isOpening token = true ∧
      (indented = true → token ≠ .blockEntry) := by
  cases v with
  | list items =>
    cases items with
    | nil => exact ⟨.flowSequenceStart, _, by rw [valueTokens], rfl, fun _ h => by cases h⟩
    | cons item items =>
      cases indented with
      | true => exact ⟨.blockSequenceStart, _, by rw [valueTokens]; rfl, rfl, fun _ h => by cases h⟩
      | false =>
        exact ⟨.blockEntry, _, by rw [valueTokens, itemTokens]; rfl, rfl, fun h => by cases h⟩
  | object fields =>
    cases fields with
    | nil => exact ⟨.flowMappingStart, _, by rw [valueTokens], rfl, fun _ h => by cases h⟩
    | cons field fields =>
      exact ⟨.blockMappingStart, _, by rw [valueTokens]; rfl, rfl, fun _ h => by cases h⟩
  | null | bool | number | string =>
    exact ⟨.scalar .., _, valueTokens_scalar rfl indented, rfl, fun _ h => by cases h⟩

/-- A token that can stand in the place of a value that is left out, and begins none. -/
def isFollower (indented : Bool) (token : Token) : Bool :=
  !isOpening token || (indented && token == .blockEntry)

/-- A value that is there is read as a node. -/
theorem optional?_value {v : Value} (hFollowers : ∀ token ∈ followers, isFollower indented token) :
    optional? handles place followers (fuel + 1) ⟨valueTokens indented v ++ rest, anchors⟩ =
      node? handles place fuel ⟨valueTokens indented v ++ rest, anchors⟩ := by
  obtain ⟨token, more, hTokens, hOpening, hDash⟩ := exists_opening v indented
  have hThere : followers.contains token = false := by
    rw [List.contains_eq_mem, decide_eq_false_iff_not]
    intro hMem
    have hFollower := hFollowers token hMem
    rw [isFollower, hOpening, Bool.not_true, Bool.false_or, Bool.and_eq_true, beq_iff_eq]
      at hFollower
    exact hDash hFollower.1 hFollower.2
  rw [optional?, hTokens, List.cons_append, isLeftOut, hThere]
  rfl

/-! ### Nodes by their first token -/

section Nodes

variable {items : List Node} {entries : List (Node × Node)} {reading : Reading}

theorem node?_scalar (text : List Char) (style : Style) :
    node? handles place (fuel + 2) ⟨.scalar text style :: rest, anchors⟩ =
      some (.scalar ⟨none, none⟩ text style, ⟨rest, anchors⟩) := by
  rw [node?_opening rfl, content?.eq_def]
  cases place <;> rfl

theorem node?_emptySequence :
    node? handles place (fuel + 3) ⟨.flowSequenceStart :: .flowSequenceEnd :: rest, anchors⟩ =
      some (.sequence ⟨none, none⟩ [], ⟨rest, anchors⟩) := by
  have hItems : flowItems? handles true (fuel + 1) ⟨.flowSequenceEnd :: rest, anchors⟩ =
      some ([], ⟨rest, anchors⟩) := by
    rw [flowItems?.eq_def]
    rfl
  rw [node?_opening rfl, content?.eq_def]
  cases place <;> simp only [dropToken, List.tail_cons, hItems, Option.bind_eq_bind,
    Option.bind_some, Option.pure_def]

theorem node?_emptyMapping :
    node? handles place (fuel + 3) ⟨.flowMappingStart :: .flowMappingEnd :: rest, anchors⟩ =
      some (.mapping ⟨none, none⟩ [], ⟨rest, anchors⟩) := by
  have hEntries : flowEntries? handles true (fuel + 1) ⟨.flowMappingEnd :: rest, anchors⟩ =
      some ([], ⟨rest, anchors⟩) := by
    rw [flowEntries?.eq_def]
    rfl
  rw [node?_opening rfl, content?.eq_def]
  cases place <;> simp only [dropToken, List.tail_cons, hEntries, Option.bind_eq_bind,
    Option.bind_some, Option.pure_def]

theorem node?_blockSequence (hPlace : place ≠ .flow)
    (h : blockItems? handles fuel ⟨rest, anchors⟩ = some (items, reading)) :
    node? handles place (fuel + 2) ⟨.blockSequenceStart :: rest, anchors⟩ =
      some (.sequence ⟨none, none⟩ items, reading) := by
  rw [node?_opening rfl, content?.eq_def]
  cases place with
  | flow => exact absurd rfl hPlace
  | block | entry =>
    simp only [dropToken, List.tail_cons, h, Option.bind_eq_bind, Option.bind_some,
      Option.pure_def]

/-- The items of a list that begins no block of its own. -/
theorem node?_plainSequence
    (h : plainItems? handles fuel ⟨.blockEntry :: rest, anchors⟩ = some (items, reading)) :
    node? handles .entry (fuel + 2) ⟨.blockEntry :: rest, anchors⟩ =
      some (.sequence ⟨none, none⟩ items, reading) := by
  rw [node?_opening rfl, content?.eq_def]
  simp only [h, Option.bind_eq_bind, Option.bind_some, Option.pure_def]

theorem node?_blockMapping (hPlace : place ≠ .flow)
    (h : blockEntries? handles fuel ⟨rest, anchors⟩ = some (entries, reading)) :
    node? handles place (fuel + 2) ⟨.blockMappingStart :: rest, anchors⟩ =
      some (.mapping ⟨none, none⟩ entries, reading) := by
  rw [node?_opening rfl, content?.eq_def]
  cases place with
  | flow => exact absurd rfl hPlace
  | block | entry =>
    simp only [dropToken, List.tail_cons, h, Option.bind_eq_bind, Option.bind_some,
      Option.pure_def]

end Nodes

/-! ### Values in their places -/

/-- A value is read as its node, whatever comes after it. -/
structure IsParsed (handles : TagHandles) (v : Value) : Prop where
  block : ∀ {place : Place} {fuel : Nat} {rest : List Token} {anchors : List (List Char × Nat)},
    place ≠ .flow → 4 * (valueTokens true v).length + 3 ≤ fuel →
    node? handles place fuel ⟨valueTokens true v ++ rest, anchors⟩ =
      some (nodeOf v, ⟨rest, anchors⟩)
  entry : ∀ {fuel : Nat} {rest : List Token} {anchors : List (List Char × Nat)},
    rest.head? ≠ some .blockEntry → 4 * (valueTokens false v).length + 3 ≤ fuel →
    node? handles .entry fuel ⟨valueTokens false v ++ rest, anchors⟩ =
      some (nodeOf v, ⟨rest, anchors⟩)

/-- A value whose tokens are the same everywhere. -/
theorem IsParsed.of_same {v : Value} (hSame : valueTokens false v = valueTokens true v)
    (h : ∀ {place : Place} {fuel : Nat} {rest : List Token} {anchors : List (List Char × Nat)},
      place ≠ .flow → 4 * (valueTokens true v).length + 3 ≤ fuel →
      node? handles place fuel ⟨valueTokens true v ++ rest, anchors⟩ =
        some (nodeOf v, ⟨rest, anchors⟩)) : IsParsed handles v where
  block := h
  entry _ hFuel := by
    rw [hSame] at hFuel ⊢
    exact h (by decide) hFuel

theorem isParsed_scalar {v : Value} (h : isScalar v = true) : IsParsed handles v := by
  refine .of_same (by rw [valueTokens_scalar h, valueTokens_scalar h]) ?_
  intro place fuel rest anchors hPlace hFuel
  obtain ⟨less, rfl⟩ : ∃ less, fuel = less + 2 := ⟨fuel - 2, by omega⟩
  rw [valueTokens_scalar h, nodeOf_scalar h]
  exact node?_scalar _ _

theorem optional?_block {v : Value} (h : IsParsed handles v) (hPlace : place ≠ .flow)
    (hFollowers : ∀ token ∈ followers, isFollower true token)
    (hFuel : 4 * (valueTokens true v).length + 4 ≤ fuel) :
    optional? handles place followers fuel ⟨valueTokens true v ++ rest, anchors⟩ =
      some (nodeOf v, ⟨rest, anchors⟩) := by
  obtain ⟨less, rfl⟩ : ∃ less, fuel = less + 1 := ⟨fuel - 1, by omega⟩
  rw [optional?_value hFollowers]
  exact h.block hPlace (by omega)

theorem optional?_entry {v : Value} (h : IsParsed handles v) (hRest : rest.head? ≠ some .blockEntry)
    (hFollowers : ∀ token ∈ followers, isFollower false token)
    (hFuel : 4 * (valueTokens false v).length + 4 ≤ fuel) :
    optional? handles .entry followers fuel ⟨valueTokens false v ++ rest, anchors⟩ =
      some (nodeOf v, ⟨rest, anchors⟩) := by
  obtain ⟨less, rfl⟩ : ∃ less, fuel = less + 1 := ⟨fuel - 1, by omega⟩
  rw [optional?_value hFollowers]
  exact h.entry hRest (by omega)

/-! ### Sequences -/

theorem length_itemTokens (item : Value) (items : List Value) :
    (itemTokens (item :: items)).length =
      (valueTokens true item).length + (itemTokens items).length + 1 := by
  rw [itemTokens, List.length_append, List.length_cons]
  omega

theorem blockItems?_items (hItems : ∀ item ∈ items, IsParsed handles item)
    (hFuel : 4 * (itemTokens items).length + 1 ≤ fuel) :
    blockItems? handles fuel ⟨itemTokens items ++ .blockEnd :: rest, anchors⟩ =
      some (itemNodes items, ⟨rest, anchors⟩) := by
  induction items generalizing fuel with
  | nil =>
    obtain ⟨less, rfl⟩ : ∃ less, fuel = less + 1 := ⟨fuel - 1, by omega⟩
    rw [blockItems?, itemTokens, itemNodes]
    rfl
  | cons item items ih =>
    rw [length_itemTokens] at hFuel
    obtain ⟨less, rfl⟩ : ∃ less, fuel = less + 1 := ⟨fuel - 1, by omega⟩
    have hItem : optional? handles .block [.blockEntry, .blockEnd] less
        ⟨valueTokens true item ++ (itemTokens items ++ .blockEnd :: rest), anchors⟩ =
        some (nodeOf item, ⟨itemTokens items ++ .blockEnd :: rest, anchors⟩) :=
      optional?_block (hItems item (List.mem_cons_self ..)) (by decide) (by decide) (by omega)
    have hMore : blockItems? handles less ⟨itemTokens items ++ .blockEnd :: rest, anchors⟩ =
        some (itemNodes items, ⟨rest, anchors⟩) :=
      ih (fun item hMem => hItems item (List.mem_cons_of_mem _ hMem)) (by omega)
    rw [blockItems?, itemTokens, itemNodes]
    simp only [List.cons_append, List.append_assoc, dropToken, List.tail_cons, hItem, hMore,
      Option.bind_eq_bind, Option.bind_some, Option.pure_def]

theorem plainItems?_items (hItems : ∀ item ∈ items, IsParsed handles item)
    (hRest : rest.head? ≠ some .blockEntry) (hFuel : 4 * (itemTokens items).length + 1 ≤ fuel) :
    plainItems? handles fuel ⟨itemTokens items ++ rest, anchors⟩ =
      some (itemNodes items, ⟨rest, anchors⟩) := by
  induction items generalizing fuel with
  | nil =>
    obtain ⟨less, rfl⟩ : ∃ less, fuel = less + 1 := ⟨fuel - 1, by omega⟩
    rw [plainItems?, itemTokens, itemNodes, List.nil_append]
    cases rest with
    | nil => rfl
    | cons token rest => cases token <;> first | rfl | exact absurd rfl hRest
  | cons item items ih =>
    rw [length_itemTokens] at hFuel
    obtain ⟨less, rfl⟩ : ∃ less, fuel = less + 1 := ⟨fuel - 1, by omega⟩
    have hItem : optional? handles .block [.blockEntry, .key, .value, .blockEnd] less
        ⟨valueTokens true item ++ (itemTokens items ++ rest), anchors⟩ =
        some (nodeOf item, ⟨itemTokens items ++ rest, anchors⟩) :=
      optional?_block (hItems item (List.mem_cons_self ..)) (by decide) (by decide) (by omega)
    have hMore : plainItems? handles less ⟨itemTokens items ++ rest, anchors⟩ =
        some (itemNodes items, ⟨rest, anchors⟩) :=
      ih (fun item hMem => hItems item (List.mem_cons_of_mem _ hMem)) (by omega)
    rw [plainItems?, itemTokens, itemNodes]
    simp only [List.cons_append, List.append_assoc, dropToken, List.tail_cons, hItem, hMore,
      Option.bind_eq_bind, Option.bind_some, Option.pure_def]

/-! ### Mappings -/

theorem length_entryTokens (key : String) (value : Value) (fields : List (String × Value)) :
    (entryTokens ((key, value) :: fields)).length =
      (valueTokens (!isSimpleKey key) value).length + (entryTokens fields).length + 3 := by
  simp only [entryTokens, List.length_append, List.length_cons]
  omega

theorem head_entryTokens (fields : List (String × Value)) :
    (entryTokens fields ++ .blockEnd :: rest).head? ≠ some .blockEntry := by
  cases fields with
  | nil => exact fun h => by cases h
  | cons field fields => rw [entryTokens]; exact fun h => by cases h

/-- The value of a key, in either form. -/
theorem optional?_keyed {v : Value} (h : IsParsed handles v) (hRest : rest.head? ≠ some .blockEntry)
    (hFuel : 4 * (valueTokens indented v).length + 4 ≤ fuel) :
    optional? handles .entry [.key, .value, .blockEnd] fuel
        ⟨valueTokens indented v ++ rest, anchors⟩ =
      some (nodeOf v, ⟨rest, anchors⟩) := by
  cases indented with
  | true => exact optional?_block h (by decide) (by decide) hFuel
  | false => exact optional?_entry h hRest (by decide) hFuel

theorem blockEntries?_entries (hFields : ∀ field ∈ fields, IsParsed handles field.2)
    (hFuel : 4 * (entryTokens fields).length + 1 ≤ fuel) :
    blockEntries? handles fuel ⟨entryTokens fields ++ .blockEnd :: rest, anchors⟩ =
      some (entryNodes fields, ⟨rest, anchors⟩) := by
  induction fields generalizing fuel with
  | nil =>
    obtain ⟨less, rfl⟩ : ∃ less, fuel = less + 1 := ⟨fuel - 1, by omega⟩
    rw [blockEntries?, entryTokens, entryNodes]
    rfl
  | cons field fields ih =>
    obtain ⟨key, v⟩ := field
    rw [length_entryTokens] at hFuel
    obtain ⟨less, rfl⟩ : ∃ less, fuel = less + 8 := ⟨fuel - 8, by omega⟩
    have hKey : ∀ rest, optional? handles .entry [.key, .value, .blockEnd] (less + 7)
        ⟨.scalar key.toList (style key.toList) :: rest, anchors⟩ =
        some (.scalar ⟨none, none⟩ key.toList (style key.toList), ⟨rest, anchors⟩) := by
      intro rest
      have hScalar : IsParsed handles (.string key) := isParsed_scalar rfl
      have hTokens : valueTokens true (.string key) = [.scalar key.toList (style key.toList)] :=
        valueTokens_scalar rfl true
      have hParsed : optional? handles .entry [.key, .value, .blockEnd] (less + 7)
          ⟨valueTokens true (.string key) ++ rest, anchors⟩ =
          some (nodeOf (.string key), ⟨rest, anchors⟩) :=
        optional?_block hScalar (by decide) (by decide)
          (by rw [hTokens, List.length_singleton]; omega)
      rwa [hTokens, nodeOf_scalar rfl] at hParsed
    have hValue : optional? handles .entry [.key, .value, .blockEnd] (less + 6)
        ⟨valueTokens (!isSimpleKey key) v ++ (entryTokens fields ++ .blockEnd :: rest), anchors⟩ =
        some (nodeOf v, ⟨entryTokens fields ++ .blockEnd :: rest, anchors⟩) :=
      optional?_keyed (hFields (key, v) (List.mem_cons_self ..)) (head_entryTokens fields)
        (by omega)
    have hMore : blockEntries? handles (less + 7)
        ⟨entryTokens fields ++ .blockEnd :: rest, anchors⟩ =
        some (entryNodes fields, ⟨rest, anchors⟩) :=
      ih (fun field hMem => hFields field (List.mem_cons_of_mem _ hMem)) (by omega)
    rw [blockEntries?, entryTokens, entryNodes]
    simp only [List.cons_append, List.append_assoc, dropToken, List.tail_cons, hKey, value?, hValue,
      hMore, Option.bind_eq_bind, Option.bind_some, Option.pure_def]

/-! ### Values -/

theorem isParsed_list (hItems : ∀ item ∈ items, IsParsed handles item) :
    IsParsed handles (.list items) := by
  cases items with
  | nil =>
    refine .of_same (by rw [valueTokens, valueTokens]) ?_
    intro place fuel rest anchors hPlace hFuel
    obtain ⟨less, rfl⟩ : ∃ less, fuel = less + 3 := ⟨fuel - 3, by omega⟩
    rw [valueTokens, nodeOf, itemNodes]
    exact node?_emptySequence
  | cons item items =>
    refine ⟨fun {place fuel rest anchors} hPlace hFuel => ?_,
      fun {fuel rest anchors} hRest hFuel => ?_⟩
    · have hTokens : valueTokens true (.list (item :: items)) =
          .blockSequenceStart :: (itemTokens (item :: items) ++ [.blockEnd]) := by
        rw [valueTokens]
        rfl
      rw [hTokens, List.length_cons, List.length_append, List.length_singleton] at hFuel
      obtain ⟨less, rfl⟩ : ∃ less, fuel = less + 2 := ⟨fuel - 2, by omega⟩
      rw [hTokens, nodeOf, List.cons_append, List.append_assoc]
      exact node?_blockSequence hPlace (blockItems?_items hItems (by omega))
    · rw [valueTokens, if_neg (by decide)] at hFuel
      obtain ⟨less, rfl⟩ : ∃ less, fuel = less + 2 := ⟨fuel - 2, by omega⟩
      have hPlain : plainItems? handles less ⟨itemTokens (item :: items) ++ rest, anchors⟩ =
          some (itemNodes (item :: items), ⟨rest, anchors⟩) :=
        plainItems?_items hItems hRest (by omega)
      rw [valueTokens, if_neg (by decide), nodeOf]
      rw [itemTokens, List.append_assoc, List.cons_append] at hPlain ⊢
      exact node?_plainSequence hPlain

theorem isParsed_object (hFields : ∀ field ∈ fields, IsParsed handles field.2) :
    IsParsed handles (.object fields) := by
  cases fields with
  | nil =>
    refine .of_same (by rw [valueTokens, valueTokens]) ?_
    intro place fuel rest anchors hPlace hFuel
    obtain ⟨less, rfl⟩ : ∃ less, fuel = less + 3 := ⟨fuel - 3, by omega⟩
    rw [valueTokens, nodeOf, entryNodes]
    exact node?_emptyMapping
  | cons field fields =>
    refine .of_same (by rw [valueTokens, valueTokens]) ?_
    intro place fuel rest anchors hPlace hFuel
    have hTokens : valueTokens true (.object (field :: fields)) =
        .blockMappingStart :: (entryTokens (field :: fields) ++ [.blockEnd]) := by
      rw [valueTokens]
      rfl
    rw [hTokens, List.length_cons, List.length_append, List.length_singleton] at hFuel
    obtain ⟨less, rfl⟩ : ∃ less, fuel = less + 2 := ⟨fuel - 2, by omega⟩
    rw [hTokens, nodeOf, List.cons_append, List.append_assoc]
    exact node?_blockMapping hPlace (blockEntries?_entries hFields (by omega))

/-- The tokens of every value are read as its node. -/
theorem isParsed (v : Value) : IsParsed handles v :=
  Value.induct (fun _ h => isParsed_scalar h) (fun _ h => isParsed_list h)
    (fun _ h => isParsed_object h) v

/-- The tokens of a record are read as its mapping. -/
theorem document?_entries (field : String × Value) (fields : List (String × Value)) :
    document? (.blockMappingStart :: entryTokens (field :: fields) ++ [.blockEnd]) =
      some (.mapping ⟨none, none⟩ (entryNodes (field :: fields))) := by
  have hTokens : valueTokens true (.object (field :: fields)) =
      .blockMappingStart :: entryTokens (field :: fields) ++ [.blockEnd] := by
    rw [valueTokens]
  have hParsed : ∀ tokens, tokens = valueTokens true (.object (field :: fields)) →
      node? .standard .block (4 * tokens.length + 4) ⟨tokens ++ [], []⟩ =
        some (nodeOf (.object (field :: fields)), ⟨[], []⟩) := by
    rintro tokens rfl
    exact (isParsed _).block (by decide) (by omega)
  have hNode := hParsed _ hTokens.symm
  have hStart : start? (.blockMappingStart :: entryTokens (field :: fields) ++ [.blockEnd]) =
      some (.standard, .blockMappingStart :: entryTokens (field :: fields) ++ [.blockEnd]) := rfl
  have hEmpty :
      (.blockMappingStart :: entryTokens (field :: fields) ++ [Token.blockEnd]).isEmpty = false :=
    rfl
  rw [List.append_nil, nodeOf] at hNode
  rw [document?, hEmpty, hStart]
  simp only [Bool.false_eq_true, if_false, Option.bind_eq_bind, Option.bind_some, Nat.lt_irrefl,
    decide_false, Bool.false_and, hNode]
  rfl

end Parser

end ProvideIndex.Yaml
