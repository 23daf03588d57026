import Mathlib.Data.String.Basic
import ProvideIndex.Proofs.Yaml.DoubleQuotes
import ProvideIndex.Proofs.Yaml.PlainScalar
import ProvideIndex.Proofs.Yaml.Scalar
import ProvideIndex.Proofs.Yaml.SingleQuotes
import ProvideIndex.Yaml.Write

/-!
# Written texts

A text is written in a style that holds it. What is written for it is readable, and not much longer
than the text: a key stays near enough to its colon.

* `Held`, `held_style`: what a style asks of a text.
* `utf8Len_written_le`: how many bytes a text on one line takes.
* `isReadable_written`, `isReadable_lineOf`: a stream may hold every character of a written text.
-/

namespace ProvideIndex.Yaml.ScalarText

open Text

variable {c d : Char} {text : List Char} {shape : Style} {width n column indentation : Nat}
  {lineStart : Bool}

/-! ### Styles -/

/-- A text in a style, in a collection that begins in a column. -/
def written (style : Style) (column : Nat) (text : List Char) : List Char :=
  match style with
  | .plain => text
  | .singleQuoted => singleQuoted (column + 2) text
  | .doubleQuoted => doubleQuoted text
  | .literal | .folded => literal (column + 2) text

/-- A text in a style, up to the end of its last line. -/
def lineOf (style : Style) (column : Nat) (text : List Char) : List Char :=
  written style column text ++ if style = .literal ∧ text.getLast?.any isBreak then [] else ['\n']

/-- What a text has to be so that a style holds it. -/
inductive Held (text : List Char) : Style → Prop
  | plain (hText : text ≠ []) (hPlain : plainAllowed text = true) : Held text .plain
  | singleQuoted (h : QuotedScalar.IsSingle text) : Held text .singleQuoted
  | doubleQuoted : Held text .doubleQuoted
  | literal (hText : text ≠ []) (hShown : ∀ c ∈ text, isPrintable c = true) : Held text .literal

/-- A text is written in a style that holds it. -/
theorem held_style (text : List Char) : Held text (style text) := by
  rw [style]
  split
  case isTrue hFeed =>
    split
    case isTrue hLiteral =>
      rw [literalAllowed, Bool.and_eq_true, Bool.not_eq_true'] at hLiteral
      refine .literal ?_ fun c hMem => ?_
      · rintro rfl
        cases hFeed
      · have hNone := (Bool.or_eq_false_iff.mp hLiteral.1).1
        simpa using List.any_eq_false.mp hNone c hMem
    case isFalse => exact .doubleQuoted
  case isFalse hFeed =>
    split
    case isTrue hPlain =>
      obtain ⟨hMeans, hAllowed⟩ := Bool.and_eq_true_iff.mp hPlain
      refine .plain ?_ hAllowed
      rintro rfl
      cases hMeans
    case isFalse =>
      split
      case isTrue hSingle =>
        exact .singleQuoted (QuotedScalar.isSingle_of_allowed (Bool.eq_false_iff.mpr hFeed) hSingle)
      case isFalse => exact .doubleQuoted

theorem held_scalar {v : Value} (h : isScalar v = true) : Held (scalarText v) (scalarStyle v) := by
  cases v with
  | string text => exact held_style text.toList
  | null => exact .plain (by decide) (by decide +kernel)
  | bool b => cases b <;> exact .plain (by decide) (by decide +kernel)
  | number n =>
    obtain ⟨hText, hPlain⟩ := plainAllowed_number n
    exact .plain hText hPlain
  | list | object => cases h

theorem writeLine_eq (column : Nat) (text : List Char) :
    writeLine column text = lineOf (style text) column text := by
  rw [writeLine, lineOf]
  split
  · exact (List.append_nil _).symm
  · rfl

theorem leaf_scalar {v : Value} (h : isScalar v = true) (column : Nat) :
    Write.leaf column v = lineOf (scalarStyle v) column (scalarText v) := by
  cases v with
  | string text => exact writeLine_eq column text.toList
  | number n => cases n <;> rfl
  | null | bool => rfl
  | list | object => cases h

theorem style_ne_literal (h : isMultiline text = false) : style text ≠ .literal := by
  have hFeed : text.contains '\n' = false := by
    rw [List.contains_eq_mem, decide_eq_false_iff_not]
    intro hMem
    have hLine := List.any_eq_false.mp h '\n' hMem
    exact hLine rfl
  rw [style, hFeed]
  simp only [Bool.false_eq_true, if_false]
  split
  · exact fun h => by cases h
  · split <;> exact fun h => by cases h

/-! ### Characters of one byte -/

/-- A character of one byte that is its own picture. -/
def isBasic (c : Char) : Bool := decide (0x20 ≤ c.toNat) && decide (c.toNat ≤ 0x7e)

theorem utf8Size_of_basic (h : isBasic c = true) : c.utf8Size = 1 := by
  have hTop : (127 : UInt32).toNat = 127 := rfl
  simp only [isBasic, Bool.and_eq_true, decide_eq_true_eq, Char.toNat] at h
  exact Char.utf8Size_eq_one_iff.mpr (UInt32.le_iff_toNat_le.mpr (by omega))

theorem isReadable_of_basic (h : isBasic c = true) : isReadable c = true := by
  simp only [isBasic, Bool.and_eq_true, decide_eq_true_eq] at h
  simp only [isReadable, h.1, h.2, decide_true, Bool.and_self, Bool.or_true, Bool.true_or]

theorem isReadable_of_printable (h : isPrintable c = true) : isReadable c = true := by
  simp only [isPrintable, isReadable, Bool.or_eq_true, Bool.and_eq_true, decide_eq_true_eq,
    beq_iff_eq, bne_iff_ne] at h ⊢
  omega

/-! ### Escapes -/

theorem isBasic_of_hexValue? {digit : Nat} (h : hexValue? c = some digit) : isBasic c = true := by
  have hLess : ∀ {a b : Char}, a ≤ b → a.toNat ≤ b.toNat := fun h => UInt32.le_iff_toNat_le.mp h
  have hBetween : 0x30 ≤ c.toNat ∧ c.toNat ≤ 0x66 := by
    rw [hexValue?] at h
    split at h
    case isTrue hDigit =>
      obtain ⟨hLow, hHigh⟩ := Char.isDigit_iff_toNat.mp hDigit
      exact ⟨hLow, hHigh.trans (by decide)⟩
    case isFalse =>
      split at h
      case isTrue hLetter =>
        exact ⟨(by decide : 0x30 ≤ 'a'.toNat).trans (hLess hLetter.1), hLess hLetter.2⟩
      case isFalse =>
        split at h
        case isTrue hLetter =>
          exact ⟨(by decide : 0x30 ≤ 'A'.toNat).trans (hLess hLetter.1),
            (hLess hLetter.2).trans (by decide)⟩
        case isFalse => cases h
  simp only [isBasic, Bool.and_eq_true, decide_eq_true_eq]
  omega

theorem isBasic_hexDigits (h : d ∈ hexDigits width n) : isBasic d = true := by
  obtain ⟨digit, -, hDigit⟩ :=
    exists_hexValue?_of_number? (QuotedScalar.number?_hexDigits width n) d h
  exact isBasic_of_hexValue? hDigit

theorem isBasic_letter {letter : Char} (h : escapeLetter? c = some letter) :
    isBasic letter = true := by
  rw [escapeLetter?.eq_def] at h
  split at h <;> cases h <;> rfl

theorem utf8Len_of_basic (h : ∀ c ∈ text, isBasic c = true) :
    String.utf8Len text = text.length := by
  induction text with
  | nil => rfl
  | cons c text ih =>
    rw [String.utf8Len_cons, ih fun d hMem => h d (List.mem_cons_of_mem _ hMem),
      utf8Size_of_basic (h c (List.mem_cons_self ..)), List.length_cons]

/-- An escape is the character itself, or a sequence of basic characters. -/
theorem escaped_chars (c : Char) :
    (escaped c = [c] ∧ isPrintable c = true) ∨
      (∀ d ∈ escaped c, isBasic d = true) ∧ (escaped c).length ≤ 4 * c.utf8Size := by
  have hSome : 1 ≤ c.utf8Size := c.utf8Size_pos
  have hEscape := QuotedScalar.escape c
  generalize escaped c = written at *
  cases hEscape with
  | shown hShown => exact .inl ⟨rfl, hShown⟩
  | letter h =>
    refine .inr ⟨fun d hMem => ?_, by simp only [List.length_cons, List.length_nil]; omega⟩
    rcases List.mem_pair.mp hMem with rfl | rfl
    · rfl
    · exact isBasic_letter h
  | number hForm hFits hShort =>
    have hForms : ∀ form ∈ QuotedScalar.numberForms, isBasic form.1 = true ∧ 0 < form.2 := by
      decide
    obtain ⟨hLetter, hWidth⟩ := hForms _ hForm
    refine .inr ⟨fun d hMem => ?_, ?_⟩
    · rcases List.mem_cons.mp hMem with rfl | hMem
      · rfl
      · rcases List.mem_cons.mp hMem with rfl | hMem
        · exact hLetter
        · exact isBasic_hexDigits hMem
    · rw [List.length_cons, List.length_cons, QuotedScalar.length_hexDigits hFits hWidth]
      exact hShort

theorem isReadable_escaped (h : d ∈ escaped c) : isReadable d = true := by
  rcases escaped_chars c with ⟨hSelf, hShown⟩ | ⟨hBasic, -⟩
  · rw [hSelf, List.mem_singleton] at h
    exact h ▸ isReadable_of_printable hShown
  · exact isReadable_of_basic (hBasic d h)

theorem utf8Len_escaped_le (c : Char) : String.utf8Len (escaped c) ≤ 4 * c.utf8Size := by
  rcases escaped_chars c with ⟨hSelf, -⟩ | ⟨hBasic, hLength⟩
  · rw [hSelf, String.utf8Len_cons, String.utf8Len_nil]
    omega
  · rwa [utf8Len_of_basic hBasic]

/-! ### Sizes -/

theorem utf8Len_flatMap_escaped_le (text : List Char) :
    String.utf8Len (text.flatMap escaped) ≤ 4 * String.utf8Len text := by
  induction text with
  | nil => exact Nat.le_refl _
  | cons c text ih =>
    have hChar := utf8Len_escaped_le c
    rw [List.flatMap_cons, String.utf8Len_append, String.utf8Len_cons]
    omega

theorem utf8Len_singleQuotedFrom_le (indentation : Nat) (hLine : isMultiline text = false) :
    String.utf8Len (singleQuotedFrom indentation false text) ≤ 2 * String.utf8Len text := by
  induction text with
  | nil => exact Nat.le_refl _
  | cons c text ih =>
    rw [isMultiline, List.any_cons, Bool.or_eq_false_iff] at hLine
    have hMore := ih hLine.2
    rw [QuotedScalar.singleQuotedFrom_char hLine.1, String.utf8Len_append, String.utf8Len_cons]
    have hChar : String.utf8Len (if c == '\x27' then [c, c] else [c]) ≤ 2 * c.utf8Size := by
      split
      · rw [String.utf8Len_cons, String.utf8Len_cons, String.utf8Len_nil]
        omega
      · rw [String.utf8Len_cons, String.utf8Len_nil]
        omega
    omega

/-- A text on one line takes at most four bytes for each of its own, and two for the quotes. -/
theorem utf8Len_written_le (hHeld : Held text shape) (hStyle : shape ≠ .literal)
    (hLine : isMultiline text = false) :
    String.utf8Len (written shape column text) ≤ 4 * String.utf8Len text + 2 := by
  have hQuotes : ∀ quote : Char, quote.utf8Size = 1 → ∀ inner : List Char,
      String.utf8Len (quote :: inner ++ [quote]) = String.utf8Len inner + 2 := by
    intro quote hSize inner
    rw [List.cons_append, String.utf8Len_cons, String.utf8Len_append, String.utf8Len_cons, hSize]
    rfl
  cases hHeld with
  | plain => exact (Nat.le_mul_of_pos_left _ (by decide)).trans (Nat.le_add_right _ _)
  | singleQuoted =>
    have hInner := utf8Len_singleQuotedFrom_le (column + 2) hLine
    rw [written, singleQuoted, hQuotes _ rfl]
    omega
  | doubleQuoted =>
    have hInner := utf8Len_flatMap_escaped_le text
    rw [written, doubleQuoted, hQuotes _ rfl]
    omega
  | literal => exact absurd rfl hStyle

/-! ### Readable characters -/

theorem isReadable_spaces {count : Nat} (h : d ∈ spaces count) : isReadable d = true := by
  rw [List.eq_of_mem_replicate h]
  rfl

theorem isReadable_singleQuotedFrom (hText : ∀ c ∈ text, isReadable c = true)
    (h : d ∈ singleQuotedFrom indentation lineStart text) : isReadable d = true := by
  have hIndentation : ∀ {start : Bool}, d ∈ (if start then spaces indentation else []) →
      isReadable d = true := by
    intro start hMem
    cases start with
    | true => exact isReadable_spaces hMem
    | false => cases hMem
  induction text generalizing lineStart with
  | nil => exact hIndentation h
  | cons c text ih =>
    have hMore : ∀ c ∈ text, isReadable c = true :=
      fun c hMem => hText c (List.mem_cons_of_mem _ hMem)
    have hFirst := hText c (List.mem_cons_self ..)
    rw [singleQuotedFrom] at h
    split at h
    case isTrue =>
      rcases List.mem_cons.mp h with rfl | hMem
      · exact hFirst
      · exact ih hMore hMem
    case isFalse =>
      rcases List.mem_append.mp h with hMem | hMem
      · rcases List.mem_append.mp hMem with hMem | hMem
        · exact hIndentation hMem
        · have hSame : d = c := by
            split at hMem
            · exact (List.mem_pair.mp hMem).elim id id
            · exact List.mem_singleton.mp hMem
          exact hSame ▸ hFirst
      · exact ih hMore hMem

theorem isReadable_literalFrom (hText : ∀ c ∈ text, isReadable c = true)
    (h : d ∈ literalFrom indentation lineStart text) : isReadable d = true := by
  induction text generalizing lineStart with
  | nil => cases h
  | cons c text ih =>
    have hMore : ∀ c ∈ text, isReadable c = true :=
      fun c hMem => hText c (List.mem_cons_of_mem _ hMem)
    have hFirst := hText c (List.mem_cons_self ..)
    rw [literalFrom] at h
    split at h
    case isTrue =>
      rcases List.mem_cons.mp h with rfl | hMem
      · exact hFirst
      · exact ih hMore hMem
    case isFalse =>
      rcases List.mem_append.mp h with hMem | hMem
      · cases lineStart with
        | true => exact isReadable_spaces hMem
        | false => cases hMem
      · rcases List.mem_cons.mp hMem with rfl | hMem
        · exact hFirst
        · exact ih hMore hMem

theorem isReadable_chompingMark (text : List Char) :
    ∀ d ∈ chompingMark text, isReadable d = true := by
  rw [chompingMark]
  split
  · exact forall_of_all rfl
  · split <;> exact forall_of_all rfl
  · split
    · split <;> exact forall_of_all rfl
    · exact forall_of_all rfl

theorem isReadable_literal (hText : ∀ c ∈ text, isReadable c = true)
    (h : d ∈ literal indentation text) : isReadable d = true := by
  simp only [literal, List.cons_append, List.append_assoc, List.mem_cons, List.mem_append] at h
  rcases h with rfl | hMem | hMem | rfl | hMem
  · rfl
  · split at hMem
    · rw [List.mem_singleton.mp hMem]
      rfl
    · cases hMem
  · exact isReadable_chompingMark text d hMem
  · rfl
  · exact isReadable_literalFrom hText hMem

theorem isReadable_written (hHeld : Held text shape) (h : d ∈ written shape column text) :
    isReadable d = true := by
  cases hHeld with
  | plain hText hPlain =>
    exact isReadable_of_printable ((PlainScalar.isPlain_of_allowed hText hPlain).shown d h)
  | singleQuoted hSingle =>
    have hQuotes : d = '\x27' ∨ d ∈ singleQuotedFrom (column + 2) false text := by
      rcases List.mem_append.mp h with hMem | hMem
      · exact List.mem_cons.mp hMem
      · exact .inl (List.mem_singleton.mp hMem)
    rcases hQuotes with rfl | hMem
    · rfl
    · exact isReadable_singleQuotedFrom
        (fun c hMem => isReadable_of_printable (hSingle.shown c hMem)) hMem
  | doubleQuoted =>
    have hQuotes : d = '\x22' ∨ d ∈ text.flatMap escaped := by
      rcases List.mem_append.mp h with hMem | hMem
      · exact List.mem_cons.mp hMem
      · exact .inl (List.mem_singleton.mp hMem)
    rcases hQuotes with rfl | hMem
    · rfl
    · obtain ⟨c, -, hMem⟩ := List.mem_flatMap.mp hMem
      exact isReadable_escaped hMem
  | literal hText hShown =>
    exact isReadable_literal (fun c hMem => isReadable_of_printable (hShown c hMem)) h

theorem isReadable_lineOf (hHeld : Held text shape) (h : d ∈ lineOf shape column text) :
    isReadable d = true := by
  rcases List.mem_append.mp h with hMem | hMem
  · exact isReadable_written hHeld hMem
  · split at hMem
    · cases hMem
    · rw [List.mem_singleton.mp hMem]
      rfl

end ProvideIndex.Yaml.ScalarText
