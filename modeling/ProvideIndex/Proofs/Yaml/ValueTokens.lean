import ProvideIndex.Proofs.Yaml.MarkTokens

/-!
# Tokens of data values

A written value is cut into tokens that show its structure: the blocks that begin and end, their
marks, and the scalars. The scanner comes from the first character of a part of a value to the line
behind it, and what it has cut off in between are the tokens of the part. This is proved for a value
from its parts, in the two places where it can stand: after a mark and after a key.

* `valueTokens`, `itemTokens`, `entryTokens`: the tokens of a value.
* `IsScanned`, `isScanned`: a value after a mark and after a key.
* `tokensFrom_of_arrives`: the end of the stream.
* `isShown`: a stream may hold what is written for a value.
* `tokens?_entries`: the tokens of a record.
-/

namespace ProvideIndex

/-- A property of a value follows from the same property of its parts. -/
theorem Value.induct {P : Value → Prop} (scalar : ∀ v, Yaml.isScalar v = true → P v)
    (list : ∀ items, (∀ item ∈ items, P item) → P (.list items))
    (object : ∀ fields, (∀ field ∈ fields, P field.2) → P (.object fields)) : ∀ v, P v
  | .null => scalar .null rfl
  | .bool b => scalar (.bool b) rfl
  | .number n => scalar (.number n) rfl
  | .string text => scalar (.string text) rfl
  | .list items => list items fun item _ => Value.induct scalar list object item
  | .object fields => object fields fun field _ => Value.induct scalar list object field.2
termination_by v => sizeOf v
decreasing_by
  · rename_i hMem
    have hLess := List.sizeOf_lt_of_mem hMem
    simp only [Value.list.sizeOf_spec]
    omega
  · rename_i hMem
    have hLess := List.sizeOf_lt_of_mem hMem
    obtain ⟨key, value⟩ := field
    simp only [Value.object.sizeOf_spec, Prod.mk.sizeOf_spec] at hLess ⊢
    omega

namespace Yaml

open Text ScalarText

mutual

/-- The tokens of a value. The list of a key, if not `indented`, begins no block of its own. -/
def valueTokens (indented : Bool) : Value → List Token
  | .list [] => [.flowSequenceStart, .flowSequenceEnd]
  | .list (item :: items) =>
    if indented then .blockSequenceStart :: itemTokens (item :: items) ++ [.blockEnd]
    else itemTokens (item :: items)
  | .object [] => [.flowMappingStart, .flowMappingEnd]
  | .object (field :: fields) =>
    .blockMappingStart :: entryTokens (field :: fields) ++ [.blockEnd]
  | value => [.scalar (scalarText value) (scalarStyle value)]

def itemTokens : List Value → List Token
  | [] => []
  | item :: items => .blockEntry :: valueTokens true item ++ itemTokens items

def entryTokens : List (String × Value) → List Token
  | [] => []
  | (key, value) :: fields =>
    .key :: .scalar key.toList (style key.toList) :: .value ::
      valueTokens (!isSimpleKey key) value ++ entryTokens fields

end

theorem valueTokens_scalar {v : Value} (h : isScalar v = true) (indented : Bool) :
    valueTokens indented v = [.scalar (scalarText v) (scalarStyle v)] := by
  cases v with
  | list | object => cases h
  | null | bool | number | string => simp only [valueTokens]

/-- An entry without the spaces in front of it. -/
def entryText (column : Nat) (key : String) (value : Value) : List Char :=
  if isSimpleKey key then write column key.toList ++ ':' :: Write.afterKey column value
  else
    '?' :: ' ' :: writeLine column key.toList ++ spaces column ++
      ':' :: Write.afterMark column value

theorem entries_cons (column : Nat) (key : String) (value : Value)
    (fields : List (String × Value)) :
    Write.entries column ((key, value) :: fields) =
      spaces column ++ (entryText column key value ++ Write.entries column fields) := by
  rw [Write.entries, List.append_assoc]
  rfl

theorem listItems_cons (column : Nat) (item : Value) (items : List Value) :
    Write.listItems column (item :: items) =
      spaces column ++ '-' :: (Write.afterMark column item ++ Write.listItems column items) := by
  rw [Write.listItems, List.append_assoc, List.cons_append]

theorem drop_spaces (column : Nat) (text : List Char) :
    (spaces (column + 2) ++ text).drop (column + 1) = ' ' :: text := by
  have hSpaces : spaces (column + 2) = spaces (column + 1) ++ [' '] := spaces_succ (column + 1)
  have hLength : (spaces (column + 1)).length = column + 1 := List.length_replicate
  rw [hSpaces, List.append_assoc]
  exact List.drop_left' hLength

/-- Whether a value takes no lines of its own. -/
def isLeaf : Value → Bool
  | .list (_ :: _) | .object (_ :: _) => false
  | _ => true

theorem isLeaf_cases {v : Value} (h : isLeaf v = true) :
    isScalar v = true ∨ v = .list [] ∨ v = .object [] := by
  cases v with
  | list items =>
    cases items with
    | nil => exact .inr (.inl rfl)
    | cons => cases h
  | object fields =>
    cases fields with
    | nil => exact .inr (.inr rfl)
    | cons => cases h
  | null | bool | number | string => exact .inl rfl

theorem isLeaf_scalar {v : Value} (h : isScalar v = true) : isLeaf v = true := by
  cases v with
  | list | object => cases h
  | null | bool | number | string => rfl

theorem afterMark_leaf {v : Value} (h : isLeaf v = true) (column : Nat) :
    Write.afterMark column v = ' ' :: Write.leaf column v := by
  cases v with
  | list items =>
    cases items with
    | nil => simp only [Write.afterMark]
    | cons => cases h
  | object fields =>
    cases fields with
    | nil => simp only [Write.afterMark]
    | cons => cases h
  | null | bool | number | string => simp only [Write.afterMark]

theorem afterKey_leaf {v : Value} (h : isLeaf v = true) (column : Nat) :
    Write.afterKey column v = ' ' :: Write.leaf column v := by
  cases v with
  | list items =>
    cases items with
    | nil => simp only [Write.afterKey]
    | cons => cases h
  | object fields =>
    cases fields with
    | nil => simp only [Write.afterKey]
    | cons => cases h
  | null | bool | number | string => simp only [Write.afterKey]

/-- What follows a mark begins with a space. -/
theorem head_afterMark (column : Nat) (v : Value) (rest : List Char) :
    isGapOrEnd (Write.afterMark column v ++ rest).head? = true := by
  cases hLeaf : isLeaf v with
  | true => rw [afterMark_leaf hLeaf]; rfl
  | false =>
    cases v with
    | list items =>
      cases items with
      | nil => cases hLeaf
      | cons item items => rw [Write.afterMark, listItems_cons, drop_spaces]; rfl
    | object fields =>
      cases fields with
      | nil => cases hLeaf
      | cons field fields => rw [Write.afterMark, entries_cons, drop_spaces]; rfl
    | null | bool | number | string => cases hLeaf

/-- What follows a key begins with a space or a line break. -/
theorem head_afterKey (column : Nat) (v : Value) (rest : List Char) :
    isGapOrEnd (Write.afterKey column v ++ rest).head? = true := by
  cases hLeaf : isLeaf v with
  | true => rw [afterKey_leaf hLeaf]; rfl
  | false =>
    cases v with
    | list items =>
      cases items with
      | nil => cases hLeaf
      | cons item items => rw [Write.afterKey]; rfl
    | object fields =>
      cases fields with
      | nil => cases hLeaf
      | cons field fields => rw [Write.afterKey]; rfl
    | null | bool | number | string => cases hLeaf

namespace Scanner

variable {s : Scanner} {tokens opened : List Token} {columns around : List Nat} {rest : List Char}
  {allowed : Bool} {index line column after : Nat} {item value : Value} {items : List Value}
  {key : String} {fields : List (String × Value)}

/-! ### Indentation -/

/-- Where a text begins, its indentation is determined. -/
theorem shallow_spaces {content : List Char} (h : Begins content) (column : Nat) :
    Shallow (spaces column ++ content) column := by
  intro count other hText hBegins
  have hRun : ∀ {count : Nat} {content : List Char}, Begins content →
      (spaces count ++ content).takeWhile isSpace = spaces count := by
    intro count content hContent
    refine takeWhile_append_stop (fun c hMem => ?_) (stops_of_imp hContent fun c hSpace => ?_)
    · rw [List.eq_of_mem_replicate hMem]
      rfl
    · rw [beq_iff_eq.mp hSpace]
      rfl
  have hSame : spaces column = spaces count := by rw [← hRun h, hText, hRun hBegins]
  have hLength := congrArg List.length hSame
  rw [spaces, spaces, List.length_replicate, List.length_replicate] at hLength
  exact hLength.ge

theorem Shallow.mono {more : Nat} (h : Shallow rest column) (hMore : column ≤ more) :
    Shallow rest more := fun count content hText hBegins =>
  (h count content hText hBegins).trans hMore

/-- A block is ended before a line that is not in it. -/
theorem Arrives.close {inner : Nat} (h : Arrives s rest tokens (inner :: columns))
    (hShallow : Shallow rest column) (hInner : column < inner) :
    Arrives s rest (.blockEnd :: tokens) columns := by
  intro count content hText hBegins
  have hCount := hShallow count content hText hBegins
  obtain ⟨hTokens, hColumns⟩ := closed_cons tokens columns (hCount.trans_lt hInner)
  have hLands := h count content hText hBegins
  rwa [Lands, hTokens, hColumns] at hLands

theorem begins_entryText (column : Nat) (key : String) (value : Value) (rest : List Char) :
    Begins (entryText column key value ++ rest) := by
  rw [entryText]
  split
  · obtain ⟨c, more, hHead, hSkipped⟩ := exists_head_written (held_style key.toList) column
    have hWritten : write column key.toList = c :: more := hHead
    rw [hWritten]
    exact begins_cons hSkipped
  · exact begins_cons rfl

theorem shallow_listItems (hShallow : Shallow rest column) (items : List Value) :
    Shallow (Write.listItems column items ++ rest) column := by
  cases items with
  | nil => rwa [Write.listItems]
  | cons item items =>
    rw [listItems_cons, List.append_assoc]
    exact shallow_spaces (begins_cons rfl) column

theorem shallow_entries (hShallow : Shallow rest column) (fields : List (String × Value)) :
    Shallow (Write.entries column fields ++ rest) column := by
  cases fields with
  | nil => rwa [Write.entries]
  | cons field fields =>
    rw [entries_cons, List.append_assoc, List.append_assoc]
    exact shallow_spaces (begins_entryText column field.1 field.2 _) column

/-! ### Values in their places -/

/-- Behind a mark, and behind a key on its line, a value is cut into its tokens. -/
structure IsScanned (v : Value) : Prop where
  afterMark : ∀ {index line column : Nat} {tokens : List Token} {around : List Nat}
    {rest : List Char}, Shallow rest column →
    Arrives (between ⟨Write.afterMark column v ++ rest, index, line, column + 1⟩ tokens
      (column :: around) true) rest ((valueTokens true v).reverse ++ tokens) (column :: around)
  afterKey : ∀ {index line column after : Nat} {tokens : List Token} {around : List Nat}
    {rest : List Char}, column < after → Shallow rest column →
    Arrives (between ⟨Write.afterKey column v ++ rest, index, line, after⟩ tokens
      (column :: around) false) rest ((valueTokens false v).reverse ++ tokens) (column :: around)

theorem arrives_scalarLine {v : Value} (h : isScalar v = true) (hAfter : column < after)
    (hShallow : Shallow rest column) :
    Arrives (between ⟨' ' :: (Write.leaf column v ++ rest), index, line, after⟩ tokens
      (column :: around) allowed) rest (.scalar (scalarText v) (scalarStyle v) :: tokens)
      (column :: around) := by
  have hHeld := held_scalar h
  obtain ⟨c, more, hHead, hSkipped⟩ := exists_head_written hHeld column
  have hBegins : Begins (Write.leaf column v ++ rest) := by
    rw [leaf_scalar h, lineOf, hHead]
    exact begins_cons hSkipped
  have hDeeper : column < after + 1 := Nat.lt_succ_of_lt hAfter
  refine (comes_content hBegins (inside_cons hDeeper).within).arrives fun index line => ?_
  exact arrives_scalar hDeeper hHeld (by rw [leaf_scalar h]) hShallow

theorem arrives_emptyLine {opening closing : Char} {first last : Token}
    (hOpening : isSkipped opening = false) (hClosing : isSkipped closing = false)
    (hWidth : opening.utf8Size = 1)
    (hFirst : ∀ s : Scanner, s.cursor.atDocumentMark = false → s.next? opening = s.openFlow? first)
    (hLast : ∀ s : Scanner, s.cursor.atDocumentMark = false → s.next? closing = s.closeFlow? last)
    (hAfter : column < after) :
    Arrives (between ⟨' ' :: opening :: closing :: '\n' :: rest, index, line, after⟩ tokens
      (column :: around) allowed) rest (last :: first :: tokens) (column :: around) := by
  have hDeeper : column < after + 1 := Nat.lt_succ_of_lt hAfter
  refine (comes_content (begins_cons hOpening) (inside_cons hDeeper).within).arrives
    fun index line => ?_
  exact arrives_emptyFlow hDeeper hOpening hClosing hWidth hFirst hLast rfl

theorem arrives_leaf {v : Value} {indented : Bool} (h : isLeaf v = true) (hAfter : column < after)
    (hShallow : Shallow rest column) :
    Arrives (between ⟨' ' :: (Write.leaf column v ++ rest), index, line, after⟩ tokens
      (column :: around) allowed) rest ((valueTokens indented v).reverse ++ tokens)
      (column :: around) := by
  rcases isLeaf_cases h with hScalar | rfl | rfl
  · rw [valueTokens_scalar hScalar]
    exact arrives_scalarLine hScalar hAfter hShallow
  · rw [valueTokens]
    exact arrives_emptyLine rfl rfl rfl (fun s hMark => by rw [next?, hMark]; rfl)
      (fun s hMark => by rw [next?, hMark]; rfl) hAfter
  · rw [valueTokens]
    exact arrives_emptyLine rfl rfl rfl (fun s hMark => by rw [next?, hMark]; rfl)
      (fun s hMark => by rw [next?, hMark]; rfl) hAfter

/-! ### Items -/

theorem arrives_item (hItem : IsScanned item)
    (hOpens : Opens .blockSequenceStart column tokens columns opened (column :: around))
    (hShallow : Shallow rest column) :
    Arrives (between ⟨'-' :: (Write.afterMark column item ++ rest), index, line, column⟩ tokens
      columns true) rest ((valueTokens true item).reverse ++ .blockEntry :: opened)
      (column :: around) :=
  (comes_dash hOpens (head_afterMark column item rest)).arrives fun _ _ =>
    hItem.afterMark hShallow

theorem reverse_itemTokens (item : Value) (items : List Value) (tokens : List Token) :
    (itemTokens (item :: items)).reverse ++ tokens =
      (itemTokens items).reverse ++ ((valueTokens true item).reverse ++ .blockEntry :: tokens) := by
  simp only [itemTokens, List.reverse_append, List.reverse_cons, List.append_assoc,
    List.cons_append, List.nil_append]

theorem arrives_items (hItems : ∀ item ∈ items, IsScanned item) (hShallow : Shallow rest column)
    (h : Arrives s (Write.listItems column items ++ rest) tokens (column :: around)) :
    Arrives s rest ((itemTokens items).reverse ++ tokens) (column :: around) := by
  induction items generalizing s tokens with
  | nil => simpa only [Write.listItems, itemTokens, List.nil_append, List.reverse_nil] using h
  | cons item items ih =>
    have hMore := shallow_listItems hShallow items
    rw [listItems_cons, List.append_assoc, List.cons_append, List.append_assoc] at h
    have hDash := h.comes (begins_cons rfl) (within_cons column around)
    rw [reverse_itemTokens]
    exact ih (fun item hMem => hItems item (List.mem_cons_of_mem _ hMem))
      (hDash.arrives fun index line =>
        arrives_item (hItems item (List.mem_cons_self ..)) (.already tokens around) hMore)

/-- The items of a block that begins with a dash here. -/
theorem arrives_sequence (hItems : ∀ each ∈ item :: items, IsScanned each)
    (hInside : Inside columns column) (hShallow : Shallow rest column) :
    Arrives (between ⟨'-' :: (Write.afterMark column item ++
        (Write.listItems column items ++ rest)), index, line, column⟩ tokens columns true) rest
      ((itemTokens (item :: items)).reverse ++ .blockSequenceStart :: tokens)
      (column :: columns) := by
  rw [reverse_itemTokens]
  exact arrives_items (fun item hMem => hItems item (List.mem_cons_of_mem _ hMem)) hShallow
    (arrives_item (hItems item (List.mem_cons_self ..)) (.anew tokens hInside)
      (shallow_listItems hShallow items))

/-! ### Entries -/

theorem arrives_entry (key : String) (hValue : IsScanned value)
    (hOpens : Opens .blockMappingStart column tokens columns opened (column :: around))
    (hShallow : Shallow rest column) :
    Arrives (between ⟨entryText column key value ++ rest, index, line, column⟩ tokens columns true)
      rest ((entryTokens [(key, value)]).reverse ++ opened) (column :: around) := by
  have hTokens : ∀ shown, valueTokens shown value = valueTokens (!isSimpleKey key) value →
      (valueTokens shown value).reverse ++
        .value :: .scalar key.toList (ScalarText.style key.toList) :: .key :: opened =
      (entryTokens [(key, value)]).reverse ++ opened := by
    intro shown hSame
    simp only [entryTokens, hSame, List.append_nil, List.reverse_cons, List.append_assoc,
      List.cons_append, List.nil_append]
  cases hKey : isSimpleKey key with
  | true =>
    have hText : entryText column key value ++ rest =
        write column key.toList ++ ':' :: (Write.afterKey column value ++ rest) := by
      rw [entryText, if_pos hKey, List.append_assoc, List.cons_append]
    have hGap := head_afterKey column value rest
    obtain ⟨after, hAfter, hComes⟩ := comes_key index line hKey hOpens hGap
    rw [hText, ← hTokens false (by rw [hKey]; rfl)]
    exact hComes.arrives fun index line => hValue.afterKey hAfter hShallow
  | false =>
    have hText : entryText column key value ++ rest =
        '?' :: ' ' :: (Write.leaf column (.string key) ++
          (spaces column ++ ':' :: (Write.afterMark column value ++ rest))) := by
      rw [entryText, if_neg (by rw [hKey]; decide)]
      simp only [List.append_assoc, List.cons_append]
      rfl
    have hGap := head_afterMark column value rest
    have hLine : Arrives (between ⟨entryText column key value ++ rest, index, line, column⟩ tokens
        columns true) (spaces column ++ ':' :: (Write.afterMark column value ++ rest))
        (.scalar key.toList (ScalarText.style key.toList) :: .key :: opened)
        (column :: around) := by
      rw [hText]
      refine (comes_question hOpens rfl).arrives fun index line => ?_
      exact arrives_scalarLine rfl (Nat.lt_succ_self _) (shallow_spaces (begins_cons rfl) column)
    have hColon := hLine.comes (begins_cons rfl) (within_cons column around)
    rw [← hTokens true (by rw [hKey]; rfl)]
    exact (hColon.comes fun index line => comes_colon (.already _ _) hGap).arrives fun index line =>
      hValue.afterMark hShallow

theorem reverse_entryTokens (key : String) (value : Value) (fields : List (String × Value))
    (tokens : List Token) :
    (entryTokens ((key, value) :: fields)).reverse ++ tokens =
      (entryTokens fields).reverse ++ ((entryTokens [(key, value)]).reverse ++ tokens) := by
  simp only [entryTokens, List.reverse_append, List.reverse_cons, List.append_assoc,
    List.cons_append, List.nil_append, List.append_nil]

theorem arrives_entries (hFields : ∀ field ∈ fields, IsScanned field.2)
    (hShallow : Shallow rest column)
    (h : Arrives s (Write.entries column fields ++ rest) tokens (column :: around)) :
    Arrives s rest ((entryTokens fields).reverse ++ tokens) (column :: around) := by
  induction fields generalizing s tokens with
  | nil => simpa only [Write.entries, entryTokens, List.nil_append, List.reverse_nil] using h
  | cons field fields ih =>
    obtain ⟨key, value⟩ := field
    have hMore := shallow_entries hShallow fields
    rw [entries_cons, List.append_assoc, List.append_assoc] at h
    have hKey := h.comes (begins_entryText column key value _) (within_cons column around)
    rw [reverse_entryTokens]
    exact ih (fun field hMem => hFields field (List.mem_cons_of_mem _ hMem))
      (hKey.arrives fun index line =>
        arrives_entry key (hFields (key, value) (List.mem_cons_self ..)) (.already tokens around)
          hMore)

/-- The entries of a block that begins with a key here. -/
theorem arrives_mapping (hFields : ∀ field ∈ (key, value) :: fields, IsScanned field.2)
    (hInside : Inside columns column) (hShallow : Shallow rest column) :
    Arrives (between ⟨entryText column key value ++ (Write.entries column fields ++ rest), index,
      line, column⟩ tokens columns true) rest
      ((entryTokens ((key, value) :: fields)).reverse ++ .blockMappingStart :: tokens)
      (column :: columns) := by
  rw [reverse_entryTokens]
  exact arrives_entries (fun field hMem => hFields field (List.mem_cons_of_mem _ hMem)) hShallow
    (arrives_entry key (hFields (key, value) (List.mem_cons_self ..)) (.anew tokens hInside)
      (shallow_entries hShallow fields))

/-! ### Values -/

theorem isScanned_leaf {v : Value} (h : isLeaf v = true) : IsScanned v where
  afterMark hShallow := by
    rw [afterMark_leaf h]
    exact arrives_leaf h (Nat.lt_succ_self _) hShallow
  afterKey hAfter hShallow := by
    rw [afterKey_leaf h]
    exact arrives_leaf h hAfter hShallow

theorem reverse_block (first : Token) (parts tokens : List Token) :
    (first :: parts ++ [Token.blockEnd]).reverse ++ tokens =
      .blockEnd :: (parts.reverse ++ first :: tokens) := by
  simp only [List.reverse_append, List.reverse_cons, List.reverse_nil, List.append_assoc,
    List.cons_append, List.nil_append]

theorem isScanned_list (hItems : ∀ item ∈ items, IsScanned item) : IsScanned (.list items) := by
  cases items with
  | nil => exact isScanned_leaf rfl
  | cons item items =>
    refine ⟨fun {index line column tokens around rest} hShallow => ?_,
      fun {index line column after tokens around rest} hAfter hShallow => ?_⟩
    · have hText : Write.afterMark column (.list (item :: items)) ++ rest =
          ' ' :: '-' :: (Write.afterMark (column + 2) item ++
            (Write.listItems (column + 2) items ++ rest)) := by
        rw [Write.afterMark, listItems_cons, drop_spaces]
        simp only [List.cons_append, List.append_assoc]
      have hInside : Inside (column :: around) (column + 2) := inside_cons (by omega)
      have hMore : Shallow rest (column + 2) := hShallow.mono (by omega)
      have hBlock : Arrives (between ⟨Write.afterMark column (.list (item :: items)) ++ rest, index,
          line, column + 1⟩ tokens (column :: around) true) rest
          ((itemTokens (item :: items)).reverse ++ .blockSequenceStart :: tokens)
          ((column + 2) :: column :: around) := by
        rw [hText]
        exact (comes_content (begins_cons rfl) hInside.within).arrives fun index line =>
          arrives_sequence hItems hInside hMore
      rw [valueTokens, if_pos rfl, reverse_block]
      exact hBlock.close hShallow (by omega)
    · have hBreak : Arrives (between ⟨Write.afterKey column (.list (item :: items)) ++ rest, index,
          line, after⟩ tokens (column :: around) false)
          (Write.listItems column (item :: items) ++ rest) tokens (column :: around) :=
        arrives_of_break rfl (fun start hStart => by cases hStart) (by rw [Write.afterKey]; rfl)
      rw [valueTokens]
      exact arrives_items hItems hShallow hBreak

theorem isScanned_object (hFields : ∀ field ∈ fields, IsScanned field.2) :
    IsScanned (.object fields) := by
  cases fields with
  | nil => exact isScanned_leaf rfl
  | cons field fields =>
    obtain ⟨key, value⟩ := field
    refine ⟨fun {index line column tokens around rest} hShallow => ?_,
      fun {index line column after tokens around rest} hAfter hShallow => ?_⟩
    · have hText : Write.afterMark column (.object ((key, value) :: fields)) ++ rest =
          ' ' :: (entryText (column + 2) key value ++
            (Write.entries (column + 2) fields ++ rest)) := by
        rw [Write.afterMark, entries_cons, drop_spaces]
        simp only [List.cons_append, List.append_assoc]
      have hInside : Inside (column :: around) (column + 2) := inside_cons (by omega)
      have hMore : Shallow rest (column + 2) := hShallow.mono (by omega)
      have hBlock : Arrives (between ⟨Write.afterMark column (.object ((key, value) :: fields)) ++
          rest, index, line, column + 1⟩ tokens (column :: around) true) rest
          ((entryTokens ((key, value) :: fields)).reverse ++ .blockMappingStart :: tokens)
          ((column + 2) :: column :: around) := by
        rw [hText]
        exact (comes_content (begins_entryText _ _ _ _) hInside.within).arrives fun index line =>
          arrives_mapping hFields hInside hMore
      rw [valueTokens, reverse_block]
      exact hBlock.close hShallow (by omega)
    · have hInside : Inside (column :: around) (column + 2) := inside_cons (by omega)
      have hMore : Shallow rest (column + 2) := hShallow.mono (by omega)
      have hBreak : Arrives (between ⟨Write.afterKey column (.object ((key, value) :: fields)) ++
          rest, index, line, after⟩ tokens (column :: around) false)
          (Write.entries (column + 2) ((key, value) :: fields) ++ rest) tokens (column :: around) :=
        arrives_of_break rfl (fun start hStart => by cases hStart) (by rw [Write.afterKey]; rfl)
      rw [entries_cons, List.append_assoc, List.append_assoc] at hBreak
      have hKey := hBreak.comes (begins_entryText _ _ _ _) hInside.within
      have hBlock := hKey.arrives fun index line => arrives_mapping hFields hInside hMore
      rw [valueTokens, reverse_block]
      exact hBlock.close hShallow (by omega)

/-- Every value is cut into its tokens. -/
theorem isScanned (v : Value) : IsScanned v :=
  Value.induct (fun _ h => isScanned_leaf (isLeaf_scalar h)) (fun _ h => isScanned_list h)
    (fun _ h => isScanned_object h) v

/-- At the end of the stream the last block ends, and all tokens are there. -/
theorem tokensFrom_of_arrives (h : Arrives s [] tokens [column]) {fuel : Nat}
    (hFuel : s.cursor.rest.length < fuel) :
    tokensFrom fuel s = some (.blockEnd :: tokens).reverse := by
  obtain ⟨index, line, count, hCount, hRun⟩ := h 0 [] rfl stops_nil
  have hLess : count ≤ s.cursor.rest.length := (Nat.le_add_right _ _).trans hCount
  obtain ⟨less, rfl⟩ : ∃ less, fuel = less + 1 + count := ⟨fuel - 1 - count, by omega⟩
  have hRest : (⟨[], index, line, 0⟩ : Cursor).rest = [] := rfl
  rw [hRun, tokensFrom, ready_content hRest stops_nil (within_closed 0 [column])]
  cases column with
  | zero => rfl
  | succ column => rfl

end Scanner

/-! ### Whole records -/

theorem all_spaces (count : Nat) : (spaces count).all isReadable = true :=
  List.all_eq_true.mpr fun _ => isReadable_spaces

theorem all_written (column : Nat) (text : List Char) :
    (write column text).all isReadable = true ∧ (writeLine column text).all isReadable = true := by
  refine ⟨List.all_eq_true.mpr fun c hMem => ?_, List.all_eq_true.mpr fun c hMem => ?_⟩
  · exact isReadable_written (held_style text) hMem
  · rw [writeLine_eq] at hMem
    exact isReadable_lineOf (held_style text) hMem

/-- A stream may hold what is written for a value. -/
def IsShown (v : Value) : Prop :=
  ∀ column, (Write.afterMark column v).all isReadable = true ∧
    (Write.afterKey column v).all isReadable = true

theorem isShown_leaf {v : Value} (h : isLeaf v = true) : IsShown v := by
  intro column
  have hLeaf : (Write.leaf column v).all isReadable = true := by
    rcases isLeaf_cases h with hScalar | rfl | rfl
    · rw [leaf_scalar hScalar]
      exact List.all_eq_true.mpr fun c hMem => isReadable_lineOf (held_scalar hScalar) hMem
    · rfl
    · rfl
  rw [afterMark_leaf h, afterKey_leaf h, List.all_cons, hLeaf]
  exact ⟨rfl, rfl⟩

theorem all_listItems {items : List Value} (hItems : ∀ item ∈ items, IsShown item) (column : Nat) :
    (Write.listItems column items).all isReadable = true := by
  induction items with
  | nil => rw [Write.listItems]; rfl
  | cons item items ih =>
    have hItem := (hItems item (List.mem_cons_self ..) column).1
    have hMore := ih fun item hMem => hItems item (List.mem_cons_of_mem _ hMem)
    rw [listItems_cons, List.all_append, List.all_cons, List.all_append, all_spaces, hItem, hMore]
    rfl

theorem all_entryText {value : Value} (h : IsShown value) (column : Nat) (key : String) :
    (entryText column key value).all isReadable = true := by
  obtain ⟨hMark, hKey⟩ := h column
  obtain ⟨hWrite, hLine⟩ := all_written column key.toList
  rw [entryText]
  split
  · rw [List.all_append, List.all_cons, hWrite, hKey]
    rfl
  · simp only [List.cons_append, List.all_cons, List.all_append, hLine, all_spaces, hMark]
    rfl

theorem all_entries {fields : List (String × Value)} (hFields : ∀ field ∈ fields, IsShown field.2)
    (column : Nat) : (Write.entries column fields).all isReadable = true := by
  induction fields with
  | nil => rw [Write.entries]; rfl
  | cons field fields ih =>
    have hField := all_entryText (hFields field (List.mem_cons_self ..)) column field.1
    have hMore := ih fun field hMem => hFields field (List.mem_cons_of_mem _ hMem)
    rw [entries_cons, List.all_append, List.all_append, all_spaces, hField, hMore]
    rfl

theorem isShown_list {items : List Value} (hItems : ∀ item ∈ items, IsShown item) :
    IsShown (.list items) := by
  intro column
  cases items with
  | nil => exact isShown_leaf rfl column
  | cons item items =>
    rw [Write.afterMark, Write.afterKey, List.all_cons, all_listItems hItems]
    refine ⟨List.all_eq_true.mpr fun c hMem => ?_, rfl⟩
    exact List.all_eq_true.mp (all_listItems hItems (column + 2)) c (List.mem_of_mem_drop hMem)

theorem isShown_object {fields : List (String × Value)}
    (hFields : ∀ field ∈ fields, IsShown field.2) : IsShown (.object fields) := by
  intro column
  cases fields with
  | nil => exact isShown_leaf rfl column
  | cons field fields =>
    rw [Write.afterMark, Write.afterKey, List.all_cons, all_entries hFields]
    refine ⟨List.all_eq_true.mpr fun c hMem => ?_, rfl⟩
    exact List.all_eq_true.mp (all_entries hFields (column + 2)) c (List.mem_of_mem_drop hMem)

theorem isShown (v : Value) : IsShown v :=
  Value.induct (fun _ h => isShown_leaf (isLeaf_scalar h)) (fun _ h => isShown_list h)
    (fun _ h => isShown_object h) v

/-- A written record is cut into its tokens. -/
theorem tokens?_entries (field : String × Value) (fields : List (String × Value)) :
    tokens? (Write.entries 0 (field :: fields)) =
      some (.blockMappingStart :: entryTokens (field :: fields) ++ [.blockEnd]) := by
  have hAll : (Write.entries 0 (field :: fields)).all isReadable = true :=
    all_entries (fun field _ => isShown field.2) 0
  have hInside : Scanner.Inside [] 0 := fun inner hHead => by cases hHead
  have hText : Write.entries 0 (field :: fields) =
      entryText 0 field.1 field.2 ++ (Write.entries 0 fields ++ []) := by
    rw [entries_cons, List.append_nil]
    rfl
  have hShallow : Scanner.Shallow [] 0 := by
    intro count content hEmpty _
    have hSpaces := (List.append_eq_nil_iff.mp hEmpty.symm).1
    exact ((List.replicate_eq_nil_iff _).mp hSpaces).le
  have hArrives : Scanner.Arrives
      (Scanner.start (Cursor.start (Write.entries 0 (field :: fields)))) []
      ((entryTokens (field :: fields)).reverse ++ [.blockMappingStart]) [0] := by
    rw [hText]
    exact Scanner.arrives_mapping (fun field _ => Scanner.isScanned field.2) hInside hShallow
  have hRun := Scanner.tokensFrom_of_arrives hArrives (Nat.lt_succ_self _)
  refine (if_pos hAll).trans (hRun.trans ?_)
  simp only [List.reverse_cons, List.reverse_append, List.reverse_reverse, List.reverse_nil,
    List.nil_append, List.cons_append]

end Yaml

end ProvideIndex
