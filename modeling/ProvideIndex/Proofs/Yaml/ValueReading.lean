import ProvideIndex.Proofs.Value.Shape
import ProvideIndex.Proofs.Yaml.ValueNodes
import ProvideIndex.Yaml.Document

/-!
# Data values from nodes

A written value has no aliases, so its node is read as the value, and no alias is counted. Only two
things can be lost: the order of fields that do not ascend, and what is nested too deep.

* `value_nodeOf`: the node of a value is read as the value.
* `string_nodeOf`, `fields_nodeOf`, `list_nodeOf`: texts, records and lists of other things.
* `ofText?_writeRecord`: the document of a written record.
-/

namespace ProvideIndex.Yaml.Document

open Text ScalarText

variable {document : Document} {items : List Value} {fields : List (String × Value)} {limit : Nat}

/-! ### Readers of single nodes -/

theorem value_scalar {v : Value} (h : isScalar v = true) (limit : Nat) :
    document.value limit (nodeOf v) = pure v := by
  have hValue :
      (liftM (Scalar.value? none (scalarText v) (scalarStyle v)) : Reader Value) = pure v := by
    rw [Scalar.value?_scalar h]
    rfl
  rw [nodeOf_scalar h, ← hValue]
  -- No equation can be made for `value`, whose match is on a node and a number at once.
  delta value
  cases limit <;> rfl

theorem value_sequence (limit : Nat) (nodes : List Node) :
    document.value (limit + 1) (.sequence ⟨none, none⟩ nodes) =
      (do return .list (← nodes.mapM (document.value limit))) := by
  delta value
  rfl

theorem value_mapping (limit : Nat) (entries : List (Node × Node)) :
    document.value (limit + 1) (.mapping ⟨none, none⟩ entries) = (do
      let fields ← entries.mapM fun (key, node) => do
        return (← document.string key, ← document.value limit node)
      return .ofFields fields) := by
  delta value
  rfl

theorem string_nodeOf (text : String) : document.string (nodeOf (.string text)) = pure text := by
  have hText : (pure (String.ofList text.toList) : Reader String) = pure text := by
    rw [String.ofList_toList]
  rw [nodeOf_scalar rfl, ← hText]
  rfl

theorem string_key (key : String) (shape : Style) :
    document.string (.scalar ⟨none, none⟩ key.toList shape) = pure key := by
  have hText : (pure (String.ofList key.toList) : Reader String) = pure key := by
    rw [String.ofList_toList]
  rw [← hText]
  rfl

/-- A truth value. -/
theorem bool_nodeOf (b : Bool) : document.bool (nodeOf (.bool b)) = pure b := by
  have hRead : document.bool (nodeOf (.bool b)) = liftM (Scalar.bool? (toString b).toList) := by
    rw [nodeOf_scalar rfl]
    rfl
  rw [hRead]
  cases b <;> rfl

/-- A whole number of 64 bits. -/
theorem uint64_nodeOf (n : UInt64) : document.uint64 (nodeOf (.ofUInt64 n)) = pure n := by
  have hDigits : scalarText (.ofUInt64 n) = Nat.toDigits 10 n.toNat := by
    have hText : scalarText (.ofUInt64 n) = (toString (n.toNat : Int)).toList := rfl
    rw [hText, toList_toString_int, if_neg (by omega)]
    rfl
  have hNode : nodeOf (.ofUInt64 n) = .scalar ⟨none, none⟩ (Nat.toDigits 10 n.toNat) .plain := by
    rw [nodeOf_scalar rfl, hDigits]
    rfl
  have hRead : document.uint64 (.scalar ⟨none, none⟩ (Nat.toDigits 10 n.toNat) .plain) = (do
      let number ← (liftM (Scalar.natural? (Nat.toDigits 10 n.toNat)) : Reader Nat)
      if number < UInt64.size then return UInt64.ofNat number else failure) := rfl
  have hRange : n.toNat < UInt64.size := n.toNat_lt
  rw [hNode, hRead, Scalar.natural?_toDigits]
  refine (if_pos hRange).trans ?_
  rw [UInt64.ofNat_toNat]

/-! ### Values -/

theorem mapM_itemNodes {α β : Type} {things : List β} {shape : β → Value} {result : β → α}
    {reader : Node → Reader α}
    (h : ∀ thing ∈ things, reader (nodeOf (shape thing)) = pure (result thing)) :
    (itemNodes (things.map shape)).mapM reader = pure (things.map result) := by
  induction things with
  | nil => rw [List.map_nil, itemNodes]; rfl
  | cons thing things ih =>
    have hThing := h thing (List.mem_cons_self ..)
    have hMore := ih fun thing hMem => h thing (List.mem_cons_of_mem _ hMem)
    rw [List.map_cons, itemNodes, List.mapM_cons, hThing, hMore]
    rfl

theorem mapM_entryNodes {α : Type} {reader : Node → Reader α} {result : Value → α}
    (h : ∀ field ∈ fields, reader (nodeOf field.2) = pure (result field.2)) :
    ((entryNodes fields).mapM fun (key, node) => do
      return (← document.string key, ← reader node)) =
      pure (fields.map fun field => (field.1, result field.2)) := by
  induction fields with
  | nil => rw [entryNodes]; rfl
  | cons field fields ih =>
    obtain ⟨key, value⟩ := field
    have hValue : reader (nodeOf value) = pure (result value) :=
      h (key, value) (List.mem_cons_self ..)
    have hMore := ih fun field hMem => h field (List.mem_cons_of_mem _ hMem)
    rw [entryNodes, List.mapM_cons, hMore]
    simp only [string_key, hValue]
    rfl

/-- The node of a value is read as the value, if its fields ascend and it is not too deep. -/
theorem value_nodeOf (v : Value) : ∀ limit, v.isOrdered = true → v.depth ≤ limit →
    document.value limit (nodeOf v) = pure v := by
  induction v using Value.induct with
  | scalar v h => exact fun limit _ _ => value_scalar h limit
  | list items ih =>
    intro limit hOrdered hDepth
    rw [Value.isOrdered] at hOrdered
    rw [Value.depth] at hDepth
    obtain ⟨less, rfl⟩ : ∃ less, limit = less + 1 := ⟨limit - 1, by omega⟩
    have hItems : (itemNodes (items.map id)).mapM (document.value less) = pure (items.map id) :=
      mapM_itemNodes fun item hMem => ih item hMem less (Value.isOrdered_of_mem hOrdered hMem)
        (Value.depth_le_of_mem (Nat.le_of_succ_le_succ hDepth) hMem)
    rw [List.map_id] at hItems
    rw [nodeOf, value_sequence, hItems]
    rfl
  | object fields ih =>
    intro limit hOrdered hDepth
    rw [Value.isOrdered, Bool.and_eq_true, decide_eq_true_eq] at hOrdered
    rw [Value.depth] at hDepth
    obtain ⟨less, rfl⟩ : ∃ less, limit = less + 1 := ⟨limit - 1, by omega⟩
    have hFields : ((entryNodes fields).mapM fun (key, node) => do
        return (← document.string key, ← document.value less node)) =
        pure (fields.map fun field => (field.1, id field.2)) :=
      mapM_entryNodes fun field hMem => ih field hMem less
        (Value.isOrdered_of_mem_fields hOrdered.2 hMem)
        (Value.depth_le_of_mem_fields (Nat.le_of_succ_le_succ hDepth) hMem)
    have hSame : (fields.map fun field => (field.1, id field.2)) = fields := List.map_id fields
    rw [nodeOf, value_mapping, hFields, hSame, pure_bind, Value.ofFields_eq hOrdered.1]

/-! ### Records -/

/-- A list that is written is read item by item. -/
theorem list_nodeOf {α β : Type} {things : List β} {shape : β → Value} {result : β → α}
    {reader : Node → Reader α}
    (h : ∀ thing ∈ things, reader (nodeOf (shape thing)) = pure (result thing)) :
    document.list reader (nodeOf (.list (things.map shape))) = pure (things.map result) := by
  rw [nodeOf, ← mapM_itemNodes h]
  rfl

/-- The fields of a written record are found by their names. -/
theorem fields_nodeOf (names : List String) (fields : List (String × Value)) :
    document.fields names (nodeOf (.object fields)) =
      (liftM (names.mapM fun name =>
        onlyValue? name (fields.map fun field => (field.1, nodeOf field.2))) :
        Reader (List Node)) := by
  have hNamed : ((entryNodes fields).mapM fun (key, node) => do
      return (← document.string key, ← (pure node : Reader Node))) =
      (pure (fields.map fun field => (field.1, nodeOf field.2)) : Reader (List (String × Node))) :=
    mapM_entryNodes fun _ _ => rfl
  have hRead : document.fields names (nodeOf (.object fields)) = (do
      let named ← (entryNodes fields).mapM fun (key, node) => do
        return (← document.string key, node)
      liftM (names.mapM fun name => onlyValue? name named)) := by
    rw [nodeOf]
    rfl
  simp only [pure_bind] at hNamed
  rw [hRead, hNamed, pure_bind]

/-- A written record is a document with its node. -/
theorem ofText?_writeRecord (field : String × Value) (fields : List (String × Value)) :
    ofText? (writeRecord (field :: fields)) =
      some ⟨nodeOf (.object (field :: fields)), (nodeOf (.object (field :: fields))).anchored⟩ := by
  rw [ofText?, writeRecord, String.toList_ofList, tokens?_entries]
  simp only [Option.bind_eq_bind, Option.bind_some, Parser.document?_entries, nodeOf]
  rfl

end ProvideIndex.Yaml.Document
