import ProvideIndex.Proofs.Text.Numerals
import ProvideIndex.Proofs.Yaml.Gap
import ProvideIndex.Yaml.QuotedScalar

/-!
# Texts between double quotes

Double quotes can hold every text: what cannot be shown is escaped, and each escape is read back as
the character it stands for.

* `Escape`, `escape`: what a character is escaped as.
* `escape?_hex`, `escaped_cases`: one escape, read back.
* `readFrom_char`, `readFrom_spaces`, `readFrom_closing`: one character, a run of spaces, and the
  closing quote.
* `read?_doubleQuoted`: a whole text.
-/

namespace ProvideIndex.Yaml.QuotedScalar

open Text ScalarText

variable {c : Char} {text done following : List Char} {cursor : Cursor} {n width fuel : Nat}

/-! ### Escapes -/

theorem length_toDigits_le (h : n < 16 ^ width) (hWidth : 0 < width) :
    ((Nat.toDigits 16 n).map Char.toUpper).length ≤ width := by
  rw [List.length_map]
  exact (Nat.length_toDigits_le_iff (by decide) hWidth).mpr h

theorem length_hexDigits (h : n < 16 ^ width) (hWidth : 0 < width) :
    (hexDigits width n).length = width := by
  have hDigits := length_toDigits_le h hWidth
  rw [hexDigits, List.length_append, List.length_replicate]
  omega

theorem number?_hexDigits (width n : Nat) : number? 16 (hexDigits width n) = some n := by
  rw [hexDigits, number?_zeros_append _ (by decide)]
  exact number?_map_toDigits (by decide) hexValue?_toUpper_digitChar n

theorem char?_toNat (c : Char) : char? c.toNat = some c := by
  have hValid : c.toNat < 0xd800 ∨ (0xdfff < c.toNat ∧ c.toNat ≤ 0x10ffff) := by
    rcases c.valid with hLow | ⟨hLow, hHigh⟩
    · exact .inl hLow
    · exact .inr ⟨hLow, Nat.lt_succ_iff.mp hHigh⟩
  rw [char?, if_pos hValid, Char.ofNat_toNat]

/-- An escape of a few hexadecimal digits. -/
theorem escape?_hex {letter : Char} (hSimple : simpleEscape? letter = none)
    (hLength : escapeLength? letter = some width) (hWidth : 0 < width) (h : c.toNat < 16 ^ width) :
    escape? (letter :: hexDigits width c.toNat ++ following) = some (c, width + 1) := by
  have hDigits : (hexDigits width c.toNat ++ following).take width = hexDigits width c.toNat :=
    List.take_left' (length_hexDigits h hWidth)
  rw [List.cons_append, escape?, hSimple, hLength]
  simp only [hDigits, length_hexDigits h hWidth, if_true, number?_hexDigits, Option.bind_eq_bind,
    Option.bind_some, char?_toNat]
  rfl

/-- What may follow a backslash to stand for a character. -/
structure IsEscape (c : Char) (tail : List Char) : Prop where
  stops : ∀ following, Stops isBreak (tail ++ following)
  read : ∀ following, escape? (tail ++ following) = some (c, tail.length)

theorem isEscape_letter {letter : Char} (h : escapeLetter? c = some letter) :
    IsEscape c [letter] := by
  rw [escapeLetter?.eq_def] at h
  split at h <;> cases h <;> exact ⟨fun _ => stops_cons rfl, fun _ => rfl⟩

theorem isEscape_hex {letter : Char} (hSimple : simpleEscape? letter = none)
    (hLength : escapeLength? letter = some width) (hWidth : 0 < width)
    (hBreak : isBreak letter = false) (h : c.toNat < 16 ^ width) :
    IsEscape c (letter :: hexDigits width c.toNat) := by
  refine ⟨fun _ => stops_cons hBreak, fun following => ?_⟩
  rw [escape?_hex hSimple hLength hWidth h, List.length_cons, length_hexDigits h hWidth]

/-- The letters of escapes by number, with how many digits each takes. -/
def numberForms : List (Char × Nat) := [('x', 2), ('u', 4), ('U', 8)]

/-- What a character is escaped as: itself, a letter of its own, or its number. -/
inductive Escape (c : Char) : List Char → Prop
  | shown (hShown : isPrintable c = true) (hLetter : escapeLetter? c = none) : Escape c [c]
  | letter {letter : Char} (h : escapeLetter? c = some letter) : Escape c ['\\', letter]
  | number {letter : Char} {width : Nat} (hForm : (letter, width) ∈ numberForms)
      (hFits : c.toNat < 16 ^ width) (hShort : width + 2 ≤ 4 * c.utf8Size) :
      Escape c ('\\' :: letter :: hexDigits width c.toNat)

/-- An escape by number is at most four times as long as the bytes of the character. -/
theorem escape (c : Char) : Escape c (escaped c) := by
  have hOne : c.utf8Size = 1 → c.toNat ≤ 0x7f := fun h =>
    UInt32.le_iff_toNat_le.mp (Char.utf8Size_eq_one_iff.mp h)
  have hTwo : c.utf8Size = 2 → c.toNat ≤ 0x7ff := fun h =>
    UInt32.le_iff_toNat_le.mp (Char.utf8Size_eq_two_iff.mp h).2
  have hSome : 1 ≤ c.utf8Size := c.utf8Size_pos
  rw [escaped]
  split
  case h_1 letter hLetter => exact .letter hLetter
  case h_2 hLetter =>
    split
    case isTrue hShown => exact .shown hShown hLetter
    case isFalse =>
      split
      case isTrue => exact .number (by decide) (by omega) (by omega)
      case isFalse =>
        split
        case isTrue => exact .number (by decide) (by omega) (by omega)
        case isFalse => exact .number (by decide) c.val.toNat_lt (by omega)

/-- A character is escaped, unless it shows by itself and is no mark. -/
theorem escaped_cases (c : Char) :
    (escaped c = [c] ∧ isPrintable c = true ∧ escapeLetter? c = none) ∨
      ∃ tail, escaped c = '\\' :: tail ∧ IsEscape c tail := by
  have hEscape := escape c
  generalize escaped c = written at *
  cases hEscape with
  | shown hShown hLetter => exact .inl ⟨rfl, hShown, hLetter⟩
  | letter h => exact .inr ⟨_, rfl, isEscape_letter h⟩
  | number hForm hFits =>
    have hForms : ∀ form ∈ numberForms, simpleEscape? form.1 = none ∧
        escapeLength? form.1 = some form.2 ∧ 0 < form.2 ∧ isBreak form.1 = false := by decide
    obtain ⟨hSimple, hLength, hWidth, hBreak⟩ := hForms _ hForm
    exact .inr ⟨_, rfl, isEscape_hex hSimple hLength hWidth hBreak hFits⟩

/-! ### Characters -/

/-- A character that shows by itself between double quotes is no mark, and only the space is a
blank. -/
theorem shown_cases (hShown : isPrintable c = true) (hLetter : escapeLetter? c = none) :
    c ≠ '\x22' ∧ c ≠ '\\' ∧ isWhite c = isSpace c := by
  refine ⟨?_, ?_, isWhite_of_shown hShown ?_⟩
  · rintro rfl
    cases hLetter
  · rintro rfl
    cases hLetter
  · rw [Bool.eq_false_iff]
    intro hBreak
    rcases Cursor.eq_of_break hBreak hShown with rfl | rfl | rfl <;> cases hLetter

/-- One character other than a space. -/
theorem readFrom_char (hSpace : isSpace c = false) (hRest : cursor.rest = escaped c ++ following)
    (hColumn : 0 < cursor.column) :
    readFrom '\x22' done (fuel + 1) cursor =
      readFrom '\x22' (c :: done) fuel (cursor.advance (escaped c).length) := by
  have hMark := Cursor.atDocumentMark_of_column hColumn
  rcases escaped_cases c with ⟨hSelf, hShown, hLetter⟩ | ⟨tail, hEscape, hTail⟩
  · obtain ⟨hQuote, hBackslash, hWhite⟩ := shown_cases hShown hLetter
    have hGap : isGapOrEnd (some c) = false := hWhite.trans hSpace
    rw [hSelf] at hRest ⊢
    rw [readFrom, hMark, hRest]
    simp only [Bool.false_eq_true, if_false, List.singleton_append, hGap,
      beq_eq_false_iff_ne.mpr hQuote, beq_eq_false_iff_ne.mpr hBackslash, Bool.and_false]
    rfl
  · rw [hEscape] at hRest ⊢
    have hBehind : (cursor.advance 1).rest = tail ++ following :=
      Cursor.rest_advance_one hRest
    have hNoBreak : (cursor.advance 1).readBreak? = none :=
      Cursor.readBreak?_eq_none (hBehind ▸ hTail.stops following)
    have hGap : isGapOrEnd (some '\\') = false := rfl
    have hQuote : ('\\' == '\x22') = false := rfl
    rw [readFrom, hMark, hRest]
    simp only [Bool.false_eq_true, if_false, List.cons_append, hGap, hQuote, beq_self_eq_true,
      Bool.and_self, if_true, hNoBreak, hTail.read following, Option.bind_eq_bind,
      Option.bind_some]
    rfl

/-- Spaces are read together. -/
theorem readFrom_spaces {count : Nat} (hRest : cursor.rest = spaces (count + 1) ++ following)
    (hStop : Stops isWhite following) (hColumn : 0 < cursor.column) (quote : Char) :
    readFrom quote done (fuel + 1) cursor =
      readFrom quote (spaces (count + 1) ++ done) fuel (cursor.advance (count + 1)) := by
  have hMark := Cursor.atDocumentMark_of_column hColumn
  have hGap : isGapOrEnd (some ' ') = true := rfl
  have hHead : cursor.rest = ' ' :: (spaces count ++ following) := hRest
  rw [readFrom, hMark, hHead]
  simp only [Bool.false_eq_true, if_false, hGap, if_true, Gap.read_spaces hRest hStop,
    Option.bind_eq_bind, Option.bind_some, Gap.text, List.isEmpty_nil, spaces,
    List.reverse_replicate]

/-- The closing quote; a single quote closes a text only if no other follows it. -/
theorem readFrom_closing {quote : Char} (hRest : cursor.rest = quote :: following)
    (hWhite : isWhite quote = false)
    (hFollowing : quote = '\x27' → following.head? ≠ some '\x27') (hColumn : 0 < cursor.column) :
    readFrom quote done (fuel + 1) cursor = some (done.reverse, cursor.advance 1) := by
  have hMark := Cursor.atDocumentMark_of_column hColumn
  have hGap : isGapOrEnd (some quote) = false := hWhite
  have hNotDoubled : (quote == '\x27' && following.head? == some quote) = false := by
    rw [Bool.eq_false_iff]
    intro hDoubled
    rw [Bool.and_eq_true, beq_iff_eq, beq_iff_eq] at hDoubled
    obtain ⟨rfl, hHead⟩ := hDoubled
    exact hFollowing rfl hHead
  rw [readFrom, hMark, hRest]
  simp only [Bool.false_eq_true, if_false, hGap, beq_self_eq_true, if_true, hNotDoubled]

/-! ### Whole texts -/

theorem escaped_space : escaped ' ' = [' '] := rfl

theorem flatMap_escaped_spaces (count : Nat) : (spaces count).flatMap escaped = spaces count := by
  induction count with
  | zero => rfl
  | succ count ih =>
    rw [spaces, List.replicate_succ, List.flatMap_cons, escaped_space]
    exact congrArg (' ' :: ·) ih

/-- A text that does not begin with a space begins with no blank when it is escaped. -/
theorem stops_escaped (h : Stops isSpace text) :
    Stops isWhite (text.flatMap escaped ++ '\x22' :: following) := by
  cases text with
  | nil => exact stops_cons rfl
  | cons c text =>
    rw [List.flatMap_cons]
    rcases escaped_cases c with ⟨hSelf, hShown, hLetter⟩ | ⟨tail, hEscape, -⟩
    · rw [hSelf]
      exact stops_cons ((shown_cases hShown hLetter).2.2.trans (h c rfl))
    · rw [hEscape]
      exact stops_cons rfl

theorem length_pos_escaped (c : Char) : 0 < (escaped c).length := by
  rcases escaped_cases c with ⟨hSelf, -⟩ | ⟨tail, hEscape, -⟩
  · rw [hSelf]
    exact Nat.one_pos
  · rw [hEscape]
    exact Nat.succ_pos _

theorem readFrom_doubleQuoted
    (hRest : cursor.rest = text.flatMap escaped ++ '\x22' :: following)
    (hColumn : 0 < cursor.column)
    (hFuel : (text.flatMap escaped).length < fuel) :
    readFrom '\x22' done fuel cursor =
      some (done.reverse ++ text, cursor.advance ((text.flatMap escaped).length + 1)) := by
  induction hLength : text.length using Nat.strong_induction_on
    generalizing text done fuel cursor with
  | _ length ih =>
    obtain ⟨fuel, rfl⟩ : ∃ less, fuel = less + 1 := ⟨fuel - 1, by omega⟩
    cases text with
    | nil =>
      rw [List.append_nil]
      exact readFrom_closing hRest rfl (fun hQuote => by cases hQuote) hColumn
    | cons c text =>
      by_cases hSpace : isSpace c = true
      · obtain rfl : c = ' ' := beq_iff_eq.mp hSpace
        obtain ⟨count, more, hText, hMore⟩ := exists_spaces text
        have hWritten :
            (' ' :: text).flatMap escaped = spaces (count + 1) ++ more.flatMap escaped := by
          rw [hText, List.flatMap_append, flatMap_escaped_spaces]
        have hSpaces : (spaces (count + 1)).length = count + 1 := List.length_replicate
        rw [hWritten, List.append_assoc] at hRest
        rw [hWritten, List.length_append, hSpaces] at hFuel
        have hLess : more.length < length := by
          rw [← hLength, hText, List.length_append, hSpaces]
          omega
        rw [readFrom_spaces hRest (stops_escaped hMore) hColumn, ih more.length hLess
          (Cursor.rest_advance_spaces hRest) (by rw [Cursor.column_advance]; omega) (by omega) rfl,
          Cursor.advance_advance, hWritten, List.length_append, hSpaces, hText, List.reverse_append,
          List.append_assoc, spaces, List.reverse_replicate]
        simp only [Nat.add_assoc]
      · have hSpace : isSpace c = false := Bool.eq_false_iff.mpr hSpace
        have hHead : cursor.rest = escaped c ++ (text.flatMap escaped ++ '\x22' :: following) := by
          rw [hRest, List.flatMap_cons, List.append_assoc]
        have hPositive := length_pos_escaped c
        rw [List.flatMap_cons, List.length_append] at hFuel ⊢
        rw [readFrom_char hSpace hHead hColumn,
          ih text.length (by rw [← hLength]; exact Nat.lt_succ_self _)
          (Cursor.rest_advance hHead) (by rw [Cursor.column_advance]; omega) (by omega) rfl,
          Cursor.advance_advance, List.reverse_cons, List.append_assoc, List.singleton_append,
          Nat.add_assoc]

/-- A text between double quotes is read back, and the place after it follows the quotes. -/
theorem read?_doubleQuoted (hRest : cursor.rest = doubleQuoted text ++ following) :
    read? '\x22' cursor = some (text, cursor.advance (doubleQuoted text).length) := by
  have hOpening : cursor.rest = '\x22' :: (text.flatMap escaped ++ '\x22' :: following) := by
    rw [hRest]
    simp only [doubleQuoted, List.cons_append, List.append_assoc, List.nil_append]
  have hInside := Cursor.rest_advance_one hOpening
  have hLength : (doubleQuoted text).length = 1 + ((text.flatMap escaped).length + 1) := by
    rw [doubleQuoted, List.length_append, List.length_cons, List.length_singleton]
    omega
  have hFuel : (text.flatMap escaped).length < cursor.rest.length := by
    rw [hRest, List.length_append, hLength]
    omega
  have hColumn : 0 < (cursor.advance 1).column := by
    rw [Cursor.column_advance]
    omega
  rw [read?, readFrom_doubleQuoted hInside hColumn hFuel, Cursor.advance_advance, hLength]
  rfl

end ProvideIndex.Yaml.QuotedScalar
