import ProvideIndex.Proofs.Value.FloatText
import ProvideIndex.Yaml.ScalarText

/-!
# What written scalars mean

A value without parts is written as one scalar, whose text and style give the value back.

* `magnitude?_toDigits`, `whole_text`: whole numbers.
* `whole_float`, `meaning_float`: other numbers, which are no whole numbers.
* `value?_scalar`: every scalar, read back.
* `plainAllowed_number`: a number can stand without quotes.
-/

namespace ProvideIndex.Yaml

open Text

/-- The text of the scalar that a value without parts is written as. -/
def scalarText : Value → List Char
  | .null => "null".toList
  | .bool b => (toString b).toList
  | .number (.whole n) => (toString n.val).toList
  | .number (.float x) => x.text .plain
  | .string text => text.toList
  | .list _ | .object _ => []

def scalarStyle : Value → Style
  | .string text => ScalarText.style text.toList
  | _ => .plain

/-- Whether a value has no parts. -/
def isScalar : Value → Bool
  | .list _ | .object _ => false
  | _ => true

variable {n : Nat} {text : List Char}

namespace Scalar

/-! ### Numerals -/

theorem eq_zero_of_digitChar : ∀ digit < 10, Nat.digitChar digit = '0' → digit = 0 := by decide

/-- Only zero has a digit zero in front. -/
theorem eq_zero_of_head_toDigits (h : (Nat.toDigits 10 n).head? = some '0') : n = 0 := by
  induction n using Nat.strong_induction_on with
  | _ n ih =>
    by_cases hLast : n < 10
    · rw [Nat.toDigits_of_lt_base hLast] at h
      exact eq_zero_of_digitChar n hLast (Option.some.inj h)
    · obtain ⟨c, rest, hText⟩ :=
        List.exists_cons_of_ne_nil (Nat.toDigits_ne_nil (b := 10) (n := n / 10))
      rw [Nat.toDigits_of_base_le (by decide) (Nat.not_lt.mp hLast), hText] at h
      have hZero : n / 10 = 0 := ih (n / 10) (by omega) (by rw [hText]; exact h)
      omega

theorem isPaddedDigits_toDigits (n : Nat) : isPaddedDigits (Nat.toDigits 10 n) = false := by
  obtain ⟨c, rest, hText⟩ := List.exists_cons_of_ne_nil (Nat.toDigits_ne_nil (b := 10) (n := n))
  have hDigit : c.isDigit = true := isDigit_of_mem_toDigits (hText ▸ List.mem_cons_self ..)
  rw [isPaddedDigits, hText, Decimal.sign_of_digit hDigit]
  dsimp only
  split
  case h_2 => rfl
  case h_1 hPadded =>
    obtain ⟨rfl, rfl⟩ := List.cons_eq_cons.mp hPadded
    have hZero : n = 0 := eq_zero_of_head_toDigits (by rw [hText]; rfl)
    subst hZero
    cases hText

/-- A numeral names no base. -/
theorem based?_of_numeric (h : ∀ c ∈ text, Binary64.isNumeric c = true) : based? text = none := by
  have hLetter : ∀ {c : Char} {rest : List Char}, text = '0' :: c :: rest →
      Binary64.isNumeric c = true := by
    rintro c rest rfl
    exact h c (List.mem_cons_of_mem _ (List.mem_cons_self ..))
  rw [based?.eq_def]
  split
  case h_1 => cases hLetter rfl
  case h_2 => cases hLetter rfl
  case h_3 => cases hLetter rfl
  case h_4 => rfl

theorem isNumeric_of_mem_toDigits {c : Char} (h : c ∈ Nat.toDigits 10 n) :
    Binary64.isNumeric c = true :=
  Binary64.isNumeric_of_isDigit (isDigit_of_mem_toDigits h)

theorem magnitude?_toDigits (n : Nat) : magnitude? (Nat.toDigits 10 n) = some n := by
  have hEmpty : (Nat.toDigits 10 n).isEmpty = false :=
    List.isEmpty_eq_false_iff.mpr Nat.toDigits_ne_nil
  rw [magnitude?, based?_of_numeric fun c hMem => isNumeric_of_mem_toDigits hMem]
  simp only [isPaddedDigits_toDigits, digits?, hEmpty, Bool.false_eq_true, if_false,
    number?_toDigits]

/-- A numeral with a mark among its digits is no whole number. -/
theorem magnitude?_of_mark {c : Char} (hNumeric : ∀ c ∈ text, Binary64.isNumeric c = true)
    (hMem : c ∈ text) (hMark : c.isDigit = false) : magnitude? text = none := by
  rw [magnitude?, based?_of_numeric hNumeric]
  simp only [digits?, number?_ten_eq_none hMem hMark, ite_self]

theorem natural?_of_numeric (h : ∀ c ∈ text, Binary64.isNumeric c = true) :
    natural? text = magnitude? text := by
  rw [natural?.eq_def]
  split
  case h_1 => cases h '+' (List.mem_cons_self ..)
  case h_2 => rfl

theorem natural?_toDigits (n : Nat) : natural? (Nat.toDigits 10 n) = some n :=
  (natural?_of_numeric fun _ hMem => isNumeric_of_mem_toDigits hMem).trans (magnitude?_toDigits n)

theorem negated?_of_isDigit {c : Char} (h : c.isDigit = true) (rest : List Char) :
    negated? (c :: rest) = none := by
  rw [negated?.eq_def]
  split
  case h_1 hText =>
    obtain ⟨rfl, -⟩ := List.cons_eq_cons.mp hText
    cases h
  case h_2 => rfl

/-! ### Whole numbers -/

theorem whole?_val (n : Whole) : Value.whole? n.val = some (.number (.whole n)) := by
  obtain ⟨n, h⟩ := n
  rw [Value.whole?]
  exact dif_pos h

theorem whole_of_natural? {value : Value}
    (h : ((natural? text).bind fun n => Value.whole? n) = some value) :
    whole text = .value value := by
  rw [whole, h]

theorem whole_of_negated? {value : Value} (hNatural : natural? text = none)
    (h : ((negated? text).bind fun n => Value.whole? (-n)) = some value) :
    whole text = .value value := by
  rw [whole, h, hNatural, Option.bind_none]

theorem whole_text (n : Whole) : whole (toString n.val).toList = .value (.number (.whole n)) := by
  rw [toList_toString_int]
  by_cases hNegative : n.val < 0
  · rw [if_pos hNegative, List.singleton_append]
    have hNumeric : ∀ c ∈ '-' :: Nat.toDigits 10 n.val.natAbs, Binary64.isNumeric c = true :=
      List.forall_mem_cons.mpr ⟨rfl, fun c hMem => isNumeric_of_mem_toDigits hMem⟩
    have hNatural : natural? ('-' :: Nat.toDigits 10 n.val.natAbs) = none := by
      rw [natural?_of_numeric hNumeric, magnitude?_of_mark hNumeric (List.mem_cons_self ..) rfl]
    have hNegated : negated? ('-' :: Nat.toDigits 10 n.val.natAbs) = some n.val.natAbs :=
      magnitude?_toDigits _
    have hValue : (-(n.val.natAbs : Int)) = n.val := by omega
    refine whole_of_negated? hNatural ?_
    rw [hNegated, Option.bind_some, hValue, whole?_val]
  · rw [if_neg hNegative, List.nil_append]
    have hValue : (n.val.natAbs : Int) = n.val := by omega
    refine whole_of_natural? ?_
    rw [natural?_toDigits, Option.bind_some, hValue, whole?_val]

/-! ### Words that stand for something else -/

/-- A text that holds some character that is in no numeral. -/
def isWord (text : String) : Bool := text.toList.any (!Binary64.isNumeric ·)

/-- No numeral is among these words. -/
theorem contains_of_numeric {words : List String} (hWords : words.all isWord = true)
    (h : ∀ c ∈ text, Binary64.isNumeric c = true) :
    words.contains (String.ofList text) = false := by
  rw [List.contains_eq_mem, decide_eq_false_iff_not]
  intro hMem
  have hWord := List.all_eq_true.mp hWords _ hMem
  rw [isWord, String.toList_ofList] at hWord
  obtain ⟨c, hText, hChar⟩ := List.any_eq_true.mp hWord
  rw [h c hText] at hChar
  cases hChar

theorem isNull_of_numeric (h : ∀ c ∈ text, Binary64.isNumeric c = true) : isNull text = false :=
  contains_of_numeric (by decide +kernel) h

theorem bool?_of_numeric (h : ∀ c ∈ text, Binary64.isNumeric c = true) : bool? text = none := by
  have hTrue : ["true", "True", "TRUE"].contains (String.ofList text) = false :=
    contains_of_numeric (by decide +kernel) h
  have hFalse : ["false", "False", "FALSE"].contains (String.ofList text) = false :=
    contains_of_numeric (by decide +kernel) h
  simp only [bool?, hTrue, hFalse, Bool.false_eq_true, if_false]

/-! ### Other numbers -/

/-- A number with a point or an exponent, after its sign. -/
theorem exists_mark_unsigned (x : Binary64) :
    ∃ c rest, x.text .plain = (if x.negative then ['-'] else []) ++ c :: rest ∧
      c.isDigit = true ∧ ∃ mark ∈ c :: rest, mark.isDigit = false := by
  obtain ⟨c, rest, hText, hDigit⟩ := Binary64.head_text .plain x
  obtain ⟨mark, hMem, hMark⟩ := Binary64.exists_mark_text .plain x
  refine ⟨c, rest, hText, hDigit, mark, ?_, by rcases hMark with rfl | rfl <;> rfl⟩
  rw [hText] at hMem
  rcases List.mem_append.mp hMem with hSign | hUnsigned
  case inr => exact hUnsigned
  case inl =>
    split at hSign
    case isTrue =>
      rw [List.mem_singleton.mp hSign] at hMark
      rcases hMark with hMark | hMark <;> cases hMark
    case isFalse => cases hSign

theorem isPaddedDigits_float (x : Binary64) : isPaddedDigits (x.text .plain) = false := by
  obtain ⟨c, rest, hText, hDigit, mark, hMem, hMark⟩ := exists_mark_unsigned x
  have hUnsigned : (Decimal.sign (x.text .plain)).2 = c :: rest := by
    rw [hText]
    cases x.negative with
    | true => rfl
    | false => rw [if_neg (by decide), List.nil_append, Decimal.sign_of_digit hDigit]
  rw [isPaddedDigits, hUnsigned]
  split
  case h_2 => rfl
  case h_1 second more hPadded =>
    obtain ⟨rfl, rfl⟩ := List.cons_eq_cons.mp hPadded
    refine List.all_eq_false.mpr ⟨mark, ?_, by rw [hMark]; decide⟩
    rcases List.mem_cons.mp hMem with rfl | hMem
    · cases hMark
    · exact hMem

theorem whole_float (x : Binary64) : whole (x.text .plain) = .text := by
  obtain ⟨c, rest, hText, hDigit, mark, hMem, hMark⟩ := exists_mark_unsigned x
  have hNumeric : ∀ c ∈ x.text .plain, Binary64.isNumeric c = true := fun c hMem =>
    Binary64.isNumeric_of_mem_text hMem
  have hUnsigned : ∀ d ∈ c :: rest, Binary64.isNumeric d = true := fun d hUnsigned =>
    hNumeric d (hText ▸ List.mem_append_right _ hUnsigned)
  have hNatural : natural? (x.text .plain) = none := by
    rw [natural?_of_numeric hNumeric]
    exact magnitude?_of_mark hNumeric (hText ▸ List.mem_append_right _ hMem) hMark
  have hNegated : negated? (x.text .plain) = none := by
    rw [hText]
    cases x.negative with
    | true => exact magnitude?_of_mark hUnsigned hMem hMark
    | false => exact negated?_of_isDigit hDigit rest
  rw [whole]
  simp only [hNatural, hNegated]
  rfl

theorem float?_text (x : Binary64) : float? (x.text .plain) = some (.number (.float x)) := by
  have hNumeric : ∀ c ∈ x.text .plain, Binary64.isNumeric c = true := fun c hMem =>
    Binary64.isNumeric_of_mem_text hMem
  have hNoPlus : ∀ rest, x.text .plain ≠ '+' :: rest := fun rest hText => by
    cases hNumeric '+' (hText ▸ List.mem_cons_self ..)
  have hHead : ((x.text .plain).head? == some '+') = false := by
    rw [beq_eq_false_iff_ne]
    intro hHead
    obtain ⟨rest, hText⟩ := List.head?_eq_some_iff.mp hHead
    exact hNoPlus rest hText
  have hInfinity : [".inf", ".Inf", ".INF"].contains (String.ofList (x.text .plain)) = false :=
    contains_of_numeric (by decide +kernel) hNumeric
  have hSpecial : ["-.inf", "-.Inf", "-.INF", ".nan", ".NaN", ".NAN"].contains
      (String.ofList (x.text .plain)) = false := contains_of_numeric (by decide +kernel) hNumeric
  rw [float?]
  case x_1 => exact hNoPlus
  simp only [hHead, hInfinity, hSpecial, Bool.false_and, Bool.or_false, Bool.false_eq_true,
    if_false, Binary64.float?_text, Option.map_some]

/-! ### All scalars -/

theorem meaning_of_numeric (hEmpty : text ≠ []) (h : ∀ c ∈ text, Binary64.isNumeric c = true) :
    meaning text =
      match whole text with
      | .text =>
        if isPaddedDigits text then .text
        else
          match float? text with
          | some value => .value value
          | none => .text
      | number => number := by
  rw [meaning, isNull_of_numeric h, List.isEmpty_eq_false_iff.mpr hEmpty, bool?_of_numeric h]
  cases whole text <;> rfl

theorem meaning_whole (n : Whole) :
    meaning (toString n.val).toList = .value (.number (.whole n)) := by
  have hEmpty : (toString n.val).toList ≠ [] := by
    rw [toList_toString_int]
    exact List.append_ne_nil_of_right_ne_nil _ Nat.toDigits_ne_nil
  rw [meaning_of_numeric hEmpty fun c hMem => Binary64.isNumeric_of_mem_int hMem, whole_text]

theorem meaning_float (x : Binary64) : meaning (x.text .plain) = .value (.number (.float x)) := by
  have hEmpty : x.text .plain ≠ [] := by
    obtain ⟨c, rest, hText, -⟩ := Binary64.head_text .plain x
    rw [hText]
    exact List.append_ne_nil_of_right_ne_nil _ (List.cons_ne_nil _ _)
  rw [meaning_of_numeric hEmpty fun c hMem => Binary64.isNumeric_of_mem_text hMem, whole_float,
    isPaddedDigits_float, float?_text]
  rfl

/-- A text is left without quotes only if it then stands for itself. -/
theorem untagged?_style (text : List Char) :
    untagged? text (ScalarText.style text) = some (.string (String.ofList text)) := by
  rw [untagged?]
  split
  case isFalse => rfl
  case isTrue hPlain =>
    have hMeans : ScalarText.meansText text = true := by
      rw [ScalarText.style] at hPlain
      split at hPlain
      · split at hPlain <;> cases hPlain
      · split at hPlain
        case isTrue hMeans => exact (Bool.and_eq_true_iff.mp hMeans).1
        case isFalse => split at hPlain <;> cases hPlain
    rw [ScalarText.meansText] at hMeans
    split at hMeans
    case h_1 hMeaning => rw [hMeaning, valueOf?]
    case h_2 => cases hMeans

theorem value?_scalar {v : Value} (h : isScalar v = true) :
    value? none (scalarText v) (scalarStyle v) = some v := by
  cases v with
  | null => rfl
  | bool b => cases b <;> rfl
  | number n =>
    cases n with
    | whole n => exact congrArg (valueOf? _) (meaning_whole n)
    | float x => exact congrArg (valueOf? _) (meaning_float x)
  | string text => exact (untagged?_style text.toList).trans (by rw [String.ofList_toList])
  | list items => cases h
  | object fields => cases h

end Scalar

/-! ### Scalars without quotes -/

namespace ScalarText

def digitList : List Char := "0123456789".toList

theorem mem_digitList {c : Char} (h : c.isDigit = true) : c ∈ digitList := by
  have hRange : 48 ≤ c.toNat ∧ c.toNat ≤ 57 := Char.isDigit_iff_toNat.mp h
  obtain ⟨hLow, hHigh⟩ := hRange
  have hValue : ∀ n < 58, 48 ≤ n → Char.ofNat n ∈ digitList := by decide +kernel
  have hChar := hValue c.toNat (by omega) hLow
  rwa [Char.ofNat_toNat] at hChar

/-- Characters of a numeral are shown as they are and are no marks. -/
theorem numeric_chars {c : Char} (h : Binary64.isNumeric c = true) :
    isPrintable c = true ∧ isBreak c = false ∧ isSpace c = false ∧ c ≠ ':' ∧ c ≠ '#' := by
  have hAll : ∀ c ∈ '.' :: 'e' :: '-' :: digitList,
      isPrintable c = true ∧ isBreak c = false ∧ isSpace c = false ∧ c ≠ ':' ∧ c ≠ '#' :=
    forall_of_all (by decide +kernel)
  refine hAll c ?_
  simp only [Binary64.isNumeric, Bool.or_eq_true, beq_iff_eq] at h
  rcases h with ((hDigit | rfl) | rfl) | rfl
  · exact List.mem_cons_of_mem _ (List.mem_cons_of_mem _
      (List.mem_cons_of_mem _ (mem_digitList hDigit)))
  · decide
  · decide
  · decide

theorem anyPair_eq_false {p : Char → Char → Bool} (h : ∀ c ∈ text, ∀ d, p c d = false) :
    anyPair p text = false := by
  induction text with
  | nil => rfl
  | cons c rest ih =>
    cases rest with
    | nil => rfl
    | cons d rest =>
      rw [anyPair, h c (List.mem_cons_self ..), Bool.false_or]
      exact ih fun c hMem => h c (List.mem_cons_of_mem _ hMem)

theorem hasInnerMark_eq_false (h : ∀ c ∈ text, c ≠ ':' ∧ c ≠ '#') (afterBlank : Bool) :
    hasInnerMark afterBlank text = false := by
  induction text generalizing afterBlank with
  | nil => rfl
  | cons c rest ih =>
    obtain ⟨hColon, hNumber⟩ := h c (List.mem_cons_self ..)
    rw [hasInnerMark, ih (fun c hMem => h c (List.mem_cons_of_mem _ hMem)),
      beq_eq_false_iff_ne.mpr hColon, beq_eq_false_iff_ne.mpr hNumber]
    rfl

theorem beginsWithMark_of_digit {negative : Bool} {c : Char} {rest : List Char}
    (h : c.isDigit = true) :
    beginsWithMark ((if negative then ['-'] else []) ++ c :: rest) = false := by
  have hAll : ∀ c ∈ digitList, c ≠ '-' ∧ c ≠ '.' ∧ c ≠ '?' ∧ openingMarks.contains c = false ∧
      isGapOrEnd (some c) = false := forall_of_all (by decide +kernel)
  obtain ⟨hMinus, hPoint, hQuestion, hOpening, hGap⟩ := hAll c (mem_digitList h)
  cases negative with
  | true =>
    rw [if_pos rfl, List.singleton_append, beginsWithMark.eq_def]
    split
    case h_1 hText => exact absurd (List.cons_eq_cons.mp (List.cons_eq_cons.mp hText).2).1 hMinus
    case h_2 hText => cases (List.cons_eq_cons.mp hText).1
    case h_3 hText =>
      obtain ⟨rfl, rfl⟩ := List.cons_eq_cons.mp hText
      rw [List.head?_cons, hGap]
      decide
    case h_4 hText => cases hText
  | false =>
    rw [if_neg (by decide), List.nil_append, beginsWithMark.eq_def]
    split
    case h_1 hText => exact absurd (List.cons_eq_cons.mp hText).1 hMinus
    case h_2 hText => exact absurd (List.cons_eq_cons.mp hText).1 hPoint
    case h_3 hText =>
      obtain ⟨rfl, rfl⟩ := List.cons_eq_cons.mp hText
      simp only [hOpening, beq_eq_false_iff_ne.mpr hMinus, beq_eq_false_iff_ne.mpr hQuestion,
        Bool.or_false, Bool.false_and]
    case h_4 hText => cases hText

theorem plainAllowed_of_numeric {negative : Bool} {c : Char} {rest : List Char}
    (hText : text = (if negative then ['-'] else []) ++ c :: rest) (hDigit : c.isDigit = true)
    (h : ∀ c ∈ text, Binary64.isNumeric c = true) : plainAllowed text = true := by
  have hEscapes : needsEscapes text = false := by
    rw [needsEscapes, Bool.or_eq_false_iff]
    refine ⟨List.any_eq_false.mpr fun c hMem => ?_, anyPair_eq_false fun c hMem d => ?_⟩
    · rw [(numeric_chars (h c hMem)).1]
      decide
    · rw [(numeric_chars (h c hMem)).2.2.1]
      rfl
  have hLines : isMultiline text = false :=
    List.any_eq_false.mpr fun c hMem => by rw [(numeric_chars (h c hMem)).2.1]; decide
  have hBegin : beginsWithMark text = false := hText ▸ beginsWithMark_of_digit hDigit
  have hInner : hasInnerMark true text = false :=
    hasInnerMark_eq_false (fun c hMem => (numeric_chars (h c hMem)).2.2.2) true
  have hHead : text.head?.any isSpace = false := by
    cases hHead : text.head? with
    | none => rfl
    | some c => exact (numeric_chars (h c (List.mem_of_mem_head? hHead))).2.2.1
  have hLast : text.getLast?.any isSpace = false := by
    cases hLast : text.getLast? with
    | none => rfl
    | some c => exact (numeric_chars (h c (List.mem_of_getLast? hLast))).2.2.1
  rw [plainAllowed, hEscapes, hLines, hBegin, hInner, hHead, hLast]
  rfl

/-- A number can stand without quotes. -/
theorem plainAllowed_number (n : Number) :
    scalarText (.number n) ≠ [] ∧ plainAllowed (scalarText (.number n)) = true := by
  cases n with
  | whole n =>
    obtain ⟨c, rest, hDigits⟩ :=
      List.exists_cons_of_ne_nil (Nat.toDigits_ne_nil (b := 10) (n := n.val.natAbs))
    have hText : (toString n.val).toList =
        (if decide (n.val < 0) then ['-'] else []) ++ c :: rest := by
      simp only [toList_toString_int, hDigits, decide_eq_true_eq]
    have hDigit : c.isDigit = true := isDigit_of_mem_toDigits (hDigits ▸ List.mem_cons_self ..)
    refine ⟨?_, plainAllowed_of_numeric hText hDigit fun c hMem =>
      Binary64.isNumeric_of_mem_int hMem⟩
    rw [scalarText, hText]
    exact List.append_ne_nil_of_right_ne_nil _ (List.cons_ne_nil _ _)
  | float x =>
    obtain ⟨c, rest, hText, hDigit⟩ := Binary64.head_text .plain x
    refine ⟨?_, plainAllowed_of_numeric hText hDigit fun c hMem =>
      Binary64.isNumeric_of_mem_text hMem⟩
    rw [scalarText, hText]
    exact List.append_ne_nil_of_right_ne_nil _ (List.cons_ne_nil _ _)

end ScalarText

end ProvideIndex.Yaml
