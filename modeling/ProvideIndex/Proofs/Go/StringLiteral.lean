import ProvideIndex.Proofs.Text.Numerals

/-!
# String literals of Go

The keys and the values of the generated table are interpreted string literals. Between its quotes
such a literal holds characters, which stand for their bytes in UTF-8, and escapes; the next quote
that is not part of an escape ends it, and a line feed may not stand in it. `Spells` is the grammar
of what stands between the quotes, with the bytes it stands for, and `body?` reads it.

* `body?_eq_some_iff`: the reader accepts what the grammar derives, up to the closing quote.
* `Spells.split`: the grammar can be cut before a character that is not part of an escape.
* `spells_bytes_iff`: a text stands for its own bytes exactly if it is plain, that is, without
  quotes, backslashes and line feeds.
-/

namespace ProvideIndex

namespace Go

/-- The bytes of a text in UTF-8. -/
def bytes (text : List Char) : List UInt8 := text.flatMap String.utf8EncodeChar

/-! ### Escapes -/

/-- The byte of an escape of one character. -/
def simpleEscape? : Char → Option UInt8
  | 'a' => some 0x07
  | 'b' => some 0x08
  | 'f' => some 0x0c
  | 'n' => some 0x0a
  | 'r' => some 0x0d
  | 't' => some 0x09
  | 'v' => some 0x0b
  | '\\' => some 0x5c
  | '\x22' => some 0x22
  | _ => none

/-- The number that exactly so many digits of a base stand for. -/
def numeral? (base length : Nat) (digits : List Char) : Option Nat :=
  if digits.length = length then Text.number? base digits else none

def byte? (n : Nat) : Option (List UInt8) := if n < 256 then some [UInt8.ofNat n] else none

/-- The bytes of the character with this code point; surrogates are no characters. -/
def codePoint? (n : Nat) : Option (List UInt8) :=
  if n.isValidChar then some (bytes [Char.ofNat n]) else none

/-- The bytes that an escape stands for; the backslash that begins it is left out. -/
def escape? : List Char → Option (List UInt8)
  | 'x' :: digits => (numeral? 16 2 digits).bind byte?
  | 'u' :: digits => (numeral? 16 4 digits).bind codePoint?
  | 'U' :: digits => (numeral? 16 8 digits).bind codePoint?
  | [c] => (simpleEscape? c).map fun byte => [byte]
  | digits => (numeral? 8 3 digits).bind byte?

/-- The length of the escape at the start of a text, told by its first character. -/
def escapeLength : List Char → Nat
  | [] => 0
  | 'x' :: _ => 3
  | 'u' :: _ => 5
  | 'U' :: _ => 9
  | c :: _ => if c.isDigit then 3 else 1

/-! ### What stands between the quotes -/

/-- The characters that stand for themselves. -/
def IsPlain (c : Char) : Prop := c ≠ '\x22' ∧ c ≠ '\n' ∧ c ≠ '\\'

inductive Spells : List Char → List UInt8 → Prop
  | nil : Spells [] []
  | char {c : Char} {text : List Char} {value : List UInt8} (hPlain : IsPlain c)
      (hText : Spells text value) : Spells (c :: text) (bytes [c] ++ value)
  | escape {word text : List Char} {meaning value : List UInt8}
      (hWord : escape? word = some meaning) (hText : Spells text value) :
      Spells ('\\' :: (word ++ text)) (meaning ++ value)

/-- The bytes up to the closing quote, and the text after it. -/
def body? : List Char → Option (List UInt8 × List Char)
  | [] => none
  | c :: text =>
    if c = '\x22' then some ([], text)
    else if c = '\n' then none
    else if c = '\\' then do
      let meaning ← escape? (text.take (escapeLength text))
      let (value, rest) ← body? (text.drop (escapeLength text))
      return (meaning ++ value, rest)
    else do
      let (value, rest) ← body? text
      return (bytes [c] ++ value, rest)
termination_by text => text.length

variable {c : Char} {word text before rest : List Char} {meaning value : List UInt8}

theorem bytes_append (text other : List Char) : bytes (text ++ other) = bytes text ++ bytes other :=
  List.flatMap_append

theorem bytes_cons (c : Char) (text : List Char) : bytes (c :: text) = bytes [c] ++ bytes text :=
  bytes_append [c] text

theorem length_le_length_bytes (text : List Char) : text.length ≤ (bytes text).length := by
  induction text with
  | nil => exact Nat.le_refl _
  | cons c text ih =>
    have hPos := c.utf8Size_pos
    rw [bytes, List.flatMap_cons, List.length_append, String.length_utf8EncodeChar,
      List.length_cons]
    rw [bytes] at ih
    omega

theorem bytes_injective : Function.Injective bytes := by
  intro text other h
  have hEncode : text.utf8Encode = other.utf8Encode := congrArg List.toByteArray h
  rw [← String.toByteArray_ofList, ← String.toByteArray_ofList, String.toByteArray_inj] at hEncode
  exact String.ofList_injective hEncode

/-! ### What an escape holds -/

theorem length_of_byte? {n : Nat} (h : byte? n = some meaning) : meaning.length = 1 := by
  rw [byte?] at h
  split at h
  · cases h
    rfl
  · cases h

theorem length_of_codePoint? {n : Nat} (h : codePoint? n = some meaning) : meaning.length ≤ 4 := by
  rw [codePoint?] at h
  split at h
  · cases h
    rw [bytes, List.flatMap_singleton, String.length_utf8EncodeChar]
    exact Char.utf8Size_le_four _
  · cases h

theorem numeral?_eq_some {base length n : Nat} {digits : List Char}
    (h : numeral? base length digits = some n) :
    digits.length = length ∧ ∀ c ∈ digits, ∃ digit < base, Text.hexValue? c = some digit := by
  rw [numeral?] at h
  split at h
  case isTrue hLength => exact ⟨hLength, Text.exists_hexValue?_of_number? h⟩
  case isFalse => cases h

/-- An escape is one character, three octal digits, or a letter and hexadecimal digits. -/
theorem escape?_cases (h : escape? word = some meaning) :
    (∃ c byte, word = [c] ∧ simpleEscape? c = some byte ∧ meaning = [byte]) ∨
    (word.length = 3 ∧ meaning.length = 1 ∧
      ∀ c ∈ word, ∃ digit < 8, Text.hexValue? c = some digit) ∨
    ∃ letter digits, word = letter :: digits ∧ meaning.length ≤ word.length ∧
      (letter, word.length) ∈ [('x', 3), ('u', 5), ('U', 9)] ∧
      ∀ c ∈ digits, ∃ digit < 16, Text.hexValue? c = some digit := by
  rw [escape?.eq_def] at h
  split at h
  case h_1 digits =>
    obtain ⟨n, hNumeral, hByte⟩ := Option.bind_eq_some_iff.mp h
    obtain ⟨hLength, hDigits⟩ := numeral?_eq_some hNumeral
    have hMeaning := length_of_byte? hByte
    refine .inr (.inr ⟨_, digits, rfl, ?_, ?_, hDigits⟩)
    · rw [List.length_cons]
      omega
    · simp [hLength]
  case h_2 digits | h_3 digits =>
    obtain ⟨n, hNumeral, hCodePoint⟩ := Option.bind_eq_some_iff.mp h
    obtain ⟨hLength, hDigits⟩ := numeral?_eq_some hNumeral
    have hMeaning := length_of_codePoint? hCodePoint
    refine .inr (.inr ⟨_, digits, rfl, ?_, ?_, hDigits⟩)
    · rw [List.length_cons]
      omega
    · simp [hLength]
  case h_4 c _ _ _ =>
    obtain ⟨byte, hByte, rfl⟩ := Option.map_eq_some_iff.mp h
    exact .inl ⟨c, byte, rfl, hByte, rfl⟩
  case h_5 =>
    obtain ⟨n, hNumeral, hByte⟩ := Option.bind_eq_some_iff.mp h
    obtain ⟨hLength, hDigits⟩ := numeral?_eq_some hNumeral
    exact .inr (.inl ⟨hLength, length_of_byte? hByte, hDigits⟩)

theorem length_le_of_escape? (h : escape? word = some meaning) : meaning.length ≤ word.length := by
  rcases escape?_cases h with ⟨c, byte, rfl, -, rfl⟩ | ⟨hWord, hMeaning, -⟩ | ⟨_, _, -, hLength, -⟩
  · exact Nat.le_refl _
  · omega
  · exact hLength

/-- A character that is neither a digit nor one of the letters before digits is an escape alone. -/
theorem eq_singleton_of_mem_escape? (hDigit : Text.hexValue? c = none)
    (hLetter : c ∉ ['x', 'u', 'U']) (h : escape? word = some meaning) (hMem : c ∈ word) :
    word = [c] := by
  rcases escape?_cases h with ⟨d, byte, rfl, -, -⟩ | ⟨-, -, hDigits⟩ |
    ⟨letter, digits, rfl, -, hForm, hDigits⟩
  · rw [List.mem_singleton.mp hMem]
  · obtain ⟨digit, -, hValue⟩ := hDigits c hMem
    rw [hDigit] at hValue
    cases hValue
  · rcases List.mem_cons.mp hMem with rfl | hMem
    · have hLetters := List.mem_map_of_mem (f := Prod.fst) hForm
      exact absurd hLetters hLetter
    · obtain ⟨digit, -, hValue⟩ := hDigits c hMem
      rw [hDigit] at hValue
      cases hValue

theorem escapeLength_append (h : escape? word = some meaning) (text : List Char) :
    escapeLength (word ++ text) = word.length := by
  rcases escape?_cases h with ⟨c, byte, rfl, hSimple, -⟩ | ⟨hLength, -, hDigits⟩ |
    ⟨letter, digits, rfl, -, hForm, -⟩
  · rw [simpleEscape?.eq_def] at hSimple
    split at hSimple
    case h_10 => cases hSimple
    all_goals rfl
  · obtain _ | ⟨c, digits⟩ := word
    · cases hLength
    · obtain ⟨digit, hLess, hValue⟩ := hDigits c (List.mem_cons_self ..)
      have hDigit := Text.isDigit_of_hexValue? hValue (by omega)
      rw [hLength, List.cons_append, escapeLength.eq_def]
      split
      case h_1 hNil => cases hNil
      case h_5 hCons =>
        cases hCons
        rw [if_pos hDigit]
      all_goals
        rename_i hCons
        cases hCons
        cases hDigit
  · simp only [List.mem_cons, Prod.mk.injEq, List.not_mem_nil, or_false] at hForm
    rcases hForm with ⟨rfl, hLength⟩ | ⟨rfl, hLength⟩ | ⟨rfl, hLength⟩ <;> exact hLength.symm

/-! ### The reader reads the grammar -/

theorem spells_of_body? {text : List Char} (h : body? text = some (value, rest)) :
    ∃ body, text = body ++ '\x22' :: rest ∧ Spells body value := by
  fun_induction body? text generalizing value with
  | case1 => cases h
  | case2 text =>
    cases h
    exact ⟨[], rfl, .nil⟩
  | case3 => cases h
  | case4 text _ _ ih =>
    simp only [Option.bind_eq_bind, Option.bind_eq_some_iff, Prod.exists] at h
    obtain ⟨meaning, hWord, tail, after, hTail, hEq⟩ := h
    cases hEq
    obtain ⟨body, hText, hBody⟩ := ih hTail
    refine ⟨'\\' :: (text.take (escapeLength text) ++ body), ?_, .escape hWord hBody⟩
    rw [List.cons_append, List.append_assoc, ← hText, List.take_append_drop]
  | case5 c text hQuote hFeed hBackslash ih =>
    simp only [Option.bind_eq_bind, Option.bind_eq_some_iff, Prod.exists] at h
    obtain ⟨tail, after, hTail, hEq⟩ := h
    cases hEq
    obtain ⟨body, hText, hBody⟩ := ih hTail
    exact ⟨c :: body, by rw [hText, List.cons_append], .char ⟨hQuote, hFeed, hBackslash⟩ hBody⟩

theorem Spells.body? {text : List Char} (h : Spells text value) (rest : List Char) :
    Go.body? (text ++ '\x22' :: rest) = some (value, rest) := by
  induction h with
  | nil => rw [List.nil_append, Go.body?, if_pos rfl]
  | char hPlain _ ih =>
    obtain ⟨hQuote, hFeed, hBackslash⟩ := hPlain
    rw [List.cons_append, Go.body?, if_neg hQuote, if_neg hFeed, if_neg hBackslash, ih]
    rfl
  | @escape word text meaning value hWord _ ih =>
    rw [List.cons_append, List.append_assoc, Go.body?, if_neg (by decide), if_neg (by decide),
      if_pos rfl, escapeLength_append hWord, List.take_left, List.drop_left, hWord, ih]
    rfl

theorem body?_eq_some_iff {text : List Char} :
    body? text = some (value, rest) ↔
      ∃ body, text = body ++ '\x22' :: rest ∧ Spells body value := by
  constructor
  · exact spells_of_body?
  · rintro ⟨body, rfl, hBody⟩
    exact hBody.body? rest

example :
    body? "\\t\\x41\\u00e9\" rest".toList = some ([0x09, 0x41, 0xc3, 0xa9], " rest".toList) := by
  decide +kernel

/-! ### Cuts -/

/--
A text can be cut before a character that is not part of an escape: one that no longer escape holds
and that, if it is an escape by itself, has no backslash before it.
-/
theorem Spells.split {text : List Char} (h : Spells (before ++ c :: text) value)
    (hDigit : Text.hexValue? c = none) (hLetter : c ∉ ['x', 'u', 'U'])
    (hBefore : before.getLast? = some '\\' → escape? [c] = none) :
    ∃ first second, value = first ++ second ∧ Spells before first ∧ Spells (c :: text) second := by
  generalize hWhole : before ++ c :: text = whole at h
  induction h generalizing before with
  | nil => simp at hWhole
  | @char d tail value hPlain hTail ih =>
    cases before with
    | nil =>
      cases hWhole
      exact ⟨[], _, rfl, .nil, .char hPlain hTail⟩
    | cons b before =>
      rw [List.cons_append] at hWhole
      obtain ⟨rfl, hTailEq⟩ := List.cons_eq_cons.mp hWhole
      have hLast : before.getLast? = some '\\' → escape? [c] = none := fun hLast =>
        hBefore (by rw [List.getLast?_cons, hLast]; rfl)
      obtain ⟨first, second, rfl, hFirst, hSecond⟩ := ih hLast hTailEq
      exact ⟨bytes [b] ++ first, second, by rw [List.append_assoc], .char hPlain hFirst, hSecond⟩
  | @escape word tail meaning value hWord hTail ih =>
    cases before with
    | nil =>
      cases hWhole
      exact ⟨[], _, rfl, .nil, .escape hWord hTail⟩
    | cons b before =>
      rw [List.cons_append] at hWhole
      obtain ⟨rfl, hTailEq⟩ := List.cons_eq_cons.mp hWhole
      rcases List.append_eq_append_iff.mp hTailEq with ⟨later, hWordEq, hLater⟩ |
        ⟨later, rfl, hLater⟩
      · cases later with
        | nil =>
          rw [List.append_nil] at hWordEq
          subst hWordEq hLater
          exact ⟨meaning ++ [], value, by rw [List.append_nil],
            by simpa using Spells.escape hWord .nil, hTail⟩
        -- The character lies in the escape, so it is all of it and the backslash is before it.
        | cons d later =>
          obtain ⟨rfl, -⟩ := List.cons_eq_cons.mp hLater
          have hMem : c ∈ word := by simp [hWordEq]
          have hSingle := eq_singleton_of_mem_escape? hDigit hLetter hWord hMem
          have hNil : before = [] := by
            have hLength := congrArg List.length (hWordEq.symm.trans hSingle)
            simp only [List.length_append, List.length_cons, List.length_nil] at hLength
            exact List.length_eq_zero_iff.mp (by omega)
          rw [hSingle, hBefore (by rw [hNil]; rfl)] at hWord
          cases hWord
      · have hLast : later.getLast? = some '\\' → escape? [c] = none := fun hLast =>
          hBefore (by simp [List.getLast?_cons, List.getLast?_append, hLast])
        obtain ⟨first, second, rfl, hFirst, hSecond⟩ := ih hLast hLater.symm
        exact ⟨meaning ++ first, second, by rw [List.append_assoc], .escape hWord hFirst, hSecond⟩

/-! ### Plain texts -/

theorem not_spells_of_getLast? (h : before.getLast? ≠ some '\\') (text : List Char) :
    ¬Spells (before ++ '\x22' :: text) value := by
  intro hSpells
  obtain ⟨first, second, -, -, hQuote⟩ :=
    hSpells.split (by decide) (by decide) (fun hLast => absurd hLast h)
  cases hQuote with
  | char hPlain _ => exact hPlain.1 rfl

theorem not_spells_feed (before text : List Char) : ¬Spells (before ++ '\n' :: text) value := by
  intro hSpells
  obtain ⟨first, second, -, -, hFeed⟩ := hSpells.split (by decide) (by decide) (fun _ => by decide)
  cases hFeed with
  | char hPlain _ => exact hPlain.2.1 rfl

theorem getLast?_of_spells_blank (h : Spells (before ++ [' ']) value) :
    value.getLast? = some 0x20 := by
  obtain ⟨first, second, rfl, -, hBlank⟩ := h.split (by decide) (by decide) (fun _ => by decide)
  cases hBlank with
  | char _ hNil =>
    cases hNil
    rw [List.getLast?_append]
    rfl

/-- No text is shorter than what it stands for, and one that holds an escape is longer. -/
theorem Spells.length_le {text : List Char} (h : Spells text value) :
    value.length ≤ (bytes text).length ∧
      (value.length = (bytes text).length → ∀ c ∈ text, IsPlain c) := by
  induction h with
  | nil => exact ⟨Nat.le_refl _, by simp⟩
  | @char c text value hPlain _ ih =>
    obtain ⟨hLess, hAll⟩ := ih
    rw [bytes_cons c text, List.length_append, List.length_append]
    refine ⟨by omega, fun hEq => List.forall_mem_cons.mpr ⟨hPlain, hAll (by omega)⟩⟩
  | @escape word text meaning value hWord _ ih =>
    have hMeaning := length_le_of_escape? hWord
    have hWordBytes := length_le_length_bytes word
    have hBackslash : (bytes ['\\']).length = 1 := by decide
    rw [bytes_cons, bytes_append, List.length_append, List.length_append, List.length_append,
      hBackslash]
    exact ⟨by omega, fun hEq => by omega⟩

theorem spells_bytes_iff {text : List Char} : Spells text (bytes text) ↔ ∀ c ∈ text, IsPlain c := by
  constructor
  · exact fun h => h.length_le.2 rfl
  · intro h
    induction text with
    | nil => exact .nil
    | cons c text ih =>
      obtain ⟨hPlain, hText⟩ := List.forall_mem_cons.mp h
      rw [bytes_cons]
      exact .char hPlain (ih hText)

end Go

end ProvideIndex
