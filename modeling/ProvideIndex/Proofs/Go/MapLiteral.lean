import ProvideIndex.Proofs.Go.StringLiteral

/-!
# Map literals of Go

The elements of a map literal from strings to strings, as far as the generated table needs them: the
keys and the values are string literals, and nothing but blanks stands between the tokens. A comma
follows each element but the last, where it may be left out; the end of a line after a literal would
end the statement, so a colon, a comma or the closing brace must stand on the line of the literal
before it. No key may occur twice.

`entryText` is the line of one element with its two texts set between quotes as they are.

* `element?_entryText`: such a line reads as its two texts exactly if both are plain.
* `map?_entryTexts`: so do the lines of a whole table.
-/

namespace ProvideIndex.Go

/-- The values of a key and of what belongs to it. -/
abbrev Element := List UInt8 × List UInt8

def isSpace (c : Char) : Bool := c == ' ' || c == '\t' || c == '\r'

def isBlank (c : Char) : Bool := isSpace c || c == '\n'

def literal? : List Char → Option (List UInt8 × List Char)
  | [] => none
  | c :: text => if c = '\x22' then body? text else none

/-- What follows a mark that stands on the line where the text begins. -/
def mark? (mark : Char) (text : List Char) : Option (List Char) :=
  match text.dropWhile isSpace with
  | [] => none
  | c :: rest => if c = mark then some rest else none

def element? (text : List Char) : Option (Element × List Char) := do
  let (key, rest) ← literal? (text.dropWhile isBlank)
  let rest ← mark? ':' rest
  let (value, rest) ← literal? (rest.dropWhile isBlank)
  return ((key, value), rest)

theorem length_mark? {mark : Char} {text rest : List Char} (h : mark? mark text = some rest) :
    rest.length < text.length := by
  have hDrop := (List.dropWhile_suffix isSpace (l := text)).length_le
  rw [mark?] at h
  split at h
  case h_1 => cases h
  case h_2 c next hNext =>
    rw [hNext, List.length_cons] at hDrop
    split at h
    · cases h
      exact hDrop
    · cases h

theorem length_literal? {text rest : List Char} {value : List UInt8}
    (h : literal? text = some (value, rest)) : rest.length < text.length := by
  rw [literal?.eq_def] at h
  split at h
  case h_1 => cases h
  case h_2 c text =>
    split at h
    · obtain ⟨body, rfl, -⟩ := body?_eq_some_iff.mp h
      simp only [List.length_cons, List.length_append]
      omega
    · cases h

theorem length_element? {text rest : List Char} {element : Element}
    (h : element? text = some (element, rest)) : rest.length < text.length := by
  simp only [element?, Option.bind_eq_bind, Option.bind_eq_some_iff, Prod.exists] at h
  obtain ⟨key, afterKey, hKey, afterMark, hMark, value, afterValue, hValue, hEq⟩ := h
  cases hEq
  have hBlanks := (List.dropWhile_suffix isBlank (l := text)).length_le
  have hMoreBlanks := (List.dropWhile_suffix isBlank (l := afterMark)).length_le
  have hKeyLength := length_literal? hKey
  have hMarkLength := length_mark? hMark
  have hValueLength := length_literal? hValue
  omega

/-- The elements up to the closing brace, and the text after it. -/
def elements? (text : List Char) : Option (List Element × List Char) :=
  match mark? '\x7d' (text.dropWhile isBlank) with
  | some rest => some ([], rest)
  | none =>
    match hElement : element? text with
    | none => none
    | some (element, rest) =>
      match hMark : mark? ',' rest with
      | some next =>
        have _ : next.length < text.length :=
          Nat.lt_trans (length_mark? hMark) (length_element? hElement)
        (elements? next).map fun (elements, rest) => (element :: elements, rest)
      | none => (mark? '\x7d' rest).map fun rest => ([element], rest)
termination_by text.length

def map? (text : List Char) : Option (List Element × List Char) :=
  (elements? text).filter fun (elements, _) => (elements.map (·.1)).Nodup

/-! ### One line -/

/-- A key and what belongs to it on a line of their own, their texts as they are. -/
def entryText (entry : List Char × List Char) : List Char :=
  '\t' :: '\x22' :: entry.1 ++ '\x22' :: ':' :: ' ' :: '\x22' :: entry.2 ++ ['\x22', ',', '\n']

/-- Texts without quotes, line feeds and backslashes. -/
def IsPlainEntry (entry : List Char × List Char) : Prop :=
  (∀ c ∈ entry.1, IsPlain c) ∧ ∀ c ∈ entry.2, IsPlain c

variable {text later rest : List Char} {entry : List Char × List Char}

theorem body?_of_plain (h : ∀ c ∈ text, IsPlain c) (rest : List Char) :
    body? (text ++ '\x22' :: rest) = some (bytes text, rest) :=
  body?_eq_some_iff.mpr ⟨text, rfl, spells_bytes_iff.mpr h⟩

/--
A literal that is read as the text with which it begins ends at the quote after that text, or holds
that quote itself.
-/
theorem plain_or_spells_of_body? (h : body? (text ++ '\x22' :: later) = some (bytes text, rest)) :
    (∀ c ∈ text, IsPlain c) ∧ rest = later ∨
      ∃ more, later = more ++ '\x22' :: rest ∧ Spells (text ++ '\x22' :: more) (bytes text) := by
  obtain ⟨body, hText, hBody⟩ := body?_eq_some_iff.mp h
  rcases List.append_eq_append_iff.mp hText with ⟨more, rfl, hLater⟩ | ⟨more, rfl, hRest⟩
  · cases more with
    | nil =>
      rw [List.append_nil] at hBody
      cases hLater
      exact .inl ⟨spells_bytes_iff.mp hBody, rfl⟩
    | cons c more =>
      obtain ⟨rfl, rfl⟩ := List.cons_eq_cons.mp hLater
      exact .inr ⟨more, rfl, hBody⟩
  -- A literal that ends within the text stands for fewer bytes than the text has.
  · cases more with
    | nil =>
      rw [List.append_nil] at hBody
      cases hRest
      exact .inl ⟨by simpa using spells_bytes_iff.mp hBody, rfl⟩
    | cons c more =>
      have hLess := hBody.length_le.1
      have hPos := length_le_length_bytes (c :: more)
      rw [bytes_append, List.length_append] at hLess
      rw [List.length_cons] at hPos
      omega

theorem exists_of_cons_eq {c : Char} {more : List Char} (hc : c ≠ '\x22')
    (h : c :: later = more ++ '\x22' :: rest) :
    ∃ next, more = c :: next ∧ later = next ++ '\x22' :: rest := by
  cases more with
  | nil => exact absurd (List.cons_eq_cons.mp h).1 hc
  | cons d next =>
    obtain ⟨rfl, hLater⟩ := List.cons_eq_cons.mp h
    exact ⟨next, rfl, hLater⟩

/--
Before a colon, a blank and a quote. Read on, the literal would end in that blank, while the text
before its first quote would have to end in a backslash.
-/
theorem plain_of_key
    (h : body? (text ++ '\x22' :: ':' :: ' ' :: '\x22' :: later) = some (bytes text, rest)) :
    (∀ c ∈ text, IsPlain c) ∧ rest = ':' :: ' ' :: '\x22' :: later := by
  rcases plain_or_spells_of_body? h with hPlain | ⟨more, hMore, hSpells⟩
  · exact hPlain
  obtain ⟨afterColon, rfl, hColon⟩ := exists_of_cons_eq (by decide) hMore
  obtain ⟨afterBlank, rfl, hBlank⟩ := exists_of_cons_eq (by decide) hColon
  have hWhole : text ++ '\x22' :: ':' :: ' ' :: afterBlank =
      (text ++ ['\x22', ':'] ++ [' ']) ++ afterBlank := by simp
  cases afterBlank with
  | nil =>
    have hLast : text.getLast? = some '\\' :=
      Decidable.not_not.mp fun hLast => not_spells_of_getLast? hLast _ hSpells
    obtain ⟨before, rfl⟩ := List.getLast?_eq_some_iff.mp hLast
    rw [hWhole, List.append_nil] at hSpells
    have hByte := getLast?_of_spells_blank hSpells
    rw [bytes_append, List.getLast?_append] at hByte
    cases hByte
  | cons c afterQuote =>
    obtain ⟨rfl, -⟩ := List.cons_eq_cons.mp hBlank
    rw [hWhole] at hSpells
    exact absurd hSpells (not_spells_of_getLast? (by simp) afterQuote)

/-- Before a comma and a line feed. Read on, the literal would hold the line feed. -/
theorem plain_of_value
    (h : body? (text ++ '\x22' :: ',' :: '\n' :: later) = some (bytes text, rest)) :
    (∀ c ∈ text, IsPlain c) ∧ rest = ',' :: '\n' :: later := by
  rcases plain_or_spells_of_body? h with hPlain | ⟨more, hMore, hSpells⟩
  · exact hPlain
  obtain ⟨afterComma, rfl, hComma⟩ := exists_of_cons_eq (by decide) hMore
  obtain ⟨afterFeed, rfl, -⟩ := exists_of_cons_eq (by decide) hComma
  have hWhole : text ++ '\x22' :: ',' :: '\n' :: afterFeed =
      (text ++ ['\x22', ',']) ++ '\n' :: afterFeed := by simp
  rw [hWhole] at hSpells
  exact absurd hSpells (not_spells_feed _ _)

/-- A line reads as its two texts exactly if they are plain. -/
theorem element?_entryText {rest : List Char} :
    element? (entryText entry ++ later) = some ((bytes entry.1, bytes entry.2), rest) ↔
      IsPlainEntry entry ∧ rest = ',' :: '\n' :: later := by
  obtain ⟨key, value⟩ := entry
  have hLine : (entryText (key, value) ++ later).dropWhile isBlank =
      '\x22' :: (key ++ '\x22' :: ':' :: ' ' :: '\x22' ::
        (value ++ '\x22' :: ',' :: '\n' :: later)) := by
    simp [entryText, isBlank, isSpace]
  have hMark (later : List Char) :
      mark? ':' (':' :: ' ' :: '\x22' :: later) = some (' ' :: '\x22' :: later) := rfl
  have hBlank (later : List Char) :
      (' ' :: '\x22' :: later).dropWhile isBlank = '\x22' :: later := rfl
  have hLiteral (text : List Char) : literal? ('\x22' :: text) = body? text := rfl
  simp only [element?, hLine, hLiteral, Option.bind_eq_bind, Option.bind_eq_some_iff, Prod.exists]
  constructor
  · rintro ⟨first, afterKey, hKey, afterMark, hMarked, second, afterValue, hValue, hEq⟩
    cases hEq
    obtain ⟨hKeyPlain, rfl⟩ := plain_of_key hKey
    rw [hMark] at hMarked
    cases hMarked
    rw [hBlank, hLiteral] at hValue
    obtain ⟨hValuePlain, rfl⟩ := plain_of_value hValue
    exact ⟨⟨hKeyPlain, hValuePlain⟩, rfl⟩
  · rintro ⟨⟨hKey, hValue⟩, rfl⟩
    exact ⟨_, _, body?_of_plain hKey _, _, hMark _, _, _, by
      rw [hBlank, hLiteral]
      exact body?_of_plain hValue _, rfl⟩

/-! ### All lines -/

theorem elements?_eq (text : List Char) :
    elements? text =
      match mark? '\x7d' (text.dropWhile isBlank) with
      | some rest => some ([], rest)
      | none => (element? text).bind fun (element, rest) =>
        match mark? ',' rest with
        | some next => (elements? next).map fun (elements, rest) => (element :: elements, rest)
        | none => (mark? '\x7d' rest).map fun rest => ([element], rest) := by
  rw [elements?.eq_def]
  cases mark? '\x7d' (text.dropWhile isBlank) with
  | some rest => rfl
  | none =>
    dsimp only
    split
    case h_1 hElement => rw [hElement, Option.bind_none]
    case h_2 element rest hElement =>
      rw [hElement, Option.bind_some]
      dsimp only
      split
      case h_1 next hMark => rw [hMark]
      case h_2 hMark => rw [hMark]

theorem elements?_blank {c : Char} (hc : isBlank c = true) (text : List Char) :
    elements? (c :: text) = elements? text := by
  have hDrop : (c :: text).dropWhile isBlank = text.dropWhile isBlank := by
    rw [List.dropWhile_cons, if_pos hc]
  have hElement : element? (c :: text) = element? text := by
    rw [element?, element?, hDrop]
  rw [elements?_eq, elements?_eq text, hDrop, hElement]

/-- What a line is to the reader of the whole. -/
theorem elements?_entryText {elements : List Element} :
    elements? (entryText entry ++ later) =
        some ((bytes entry.1, bytes entry.2) :: elements, rest) ↔
      IsPlainEntry entry ∧ elements? later = some (elements, rest) := by
  have hBrace : mark? '\x7d' ((entryText entry ++ later).dropWhile isBlank) = none := by
    simp [entryText, isBlank, isSpace, mark?]
  have hComma : mark? ',' (',' :: '\n' :: later) = some ('\n' :: later) := rfl
  have hFeed : elements? ('\n' :: later) = elements? later := elements?_blank rfl later
  rw [elements?_eq, hBrace]
  dsimp only
  constructor
  · intro h
    obtain ⟨⟨element, after⟩, hElement, hRest⟩ := Option.bind_eq_some_iff.mp h
    dsimp only at hRest
    have hFirst : element = (bytes entry.1, bytes entry.2) := by
      split at hRest
      all_goals
        obtain ⟨_, _, hEq⟩ := Option.map_eq_some_iff.mp hRest
        cases hEq
        rfl
    subst hFirst
    obtain ⟨hPlain, rfl⟩ := element?_entryText.mp hElement
    simp only [hComma, hFeed] at hRest
    obtain ⟨_, hLater, hEq⟩ := Option.map_eq_some_iff.mp hRest
    cases hEq
    exact ⟨hPlain, hLater⟩
  · rintro ⟨hPlain, hLater⟩
    simp only [element?_entryText.mpr ⟨hPlain, rfl⟩, Option.bind_some, hComma, hFeed, hLater,
      Option.map_some]

theorem elements?_entryTexts {entries : List (List Char × List Char)} :
    elements? (entries.flatMap entryText ++ ['\x7d', '\n']) =
        some (entries.map fun entry => (bytes entry.1, bytes entry.2), ['\n']) ↔
      ∀ entry ∈ entries, IsPlainEntry entry := by
  induction entries with
  | nil =>
    rw [elements?_eq]
    simp [mark?, isBlank, isSpace]
  | cons entry entries ih =>
    rw [List.flatMap_cons, List.append_assoc, List.map_cons, elements?_entryText, ih,
      List.forall_mem_cons]

theorem map?_entryTexts {entries : List (List Char × List Char)}
    (hKeys : (entries.map (·.1)).Nodup) :
    map? (entries.flatMap entryText ++ ['\x7d', '\n']) =
        some (entries.map fun entry => (bytes entry.1, bytes entry.2), ['\n']) ↔
      ∀ entry ∈ entries, IsPlainEntry entry := by
  have hDistinct : ((entries.map fun entry => (bytes entry.1, bytes entry.2)).map (·.1)).Nodup := by
    rw [List.map_map]
    exact List.pairwise_map.mpr ((List.pairwise_map.mp hKeys).imp fun hNe hEq =>
      hNe (bytes_injective hEq))
  rw [map?, Option.filter_eq_some_iff, elements?_entryTexts]
  exact and_iff_left (decide_eq_true hDistinct)

end ProvideIndex.Go
