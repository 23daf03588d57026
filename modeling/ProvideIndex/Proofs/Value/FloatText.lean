import ProvideIndex.Proofs.Text.Numerals
import ProvideIndex.Proofs.Text.Run
import ProvideIndex.Proofs.Value.Shortest
import ProvideIndex.Value.Decimal

/-!
# Numbers with a point as texts

A number is written as digits with a point among them, with zeros added on either side of them, or
with an exponent. Each of these is read back as the same coefficient and the same place of its last
digit, so that it rounds to the number again.

* `Decimal.unsigned?_point`, `Decimal.unsigned?_digits`: the two forms of a literal.
* `Binary64.laidOut`: the four ways in which digits are laid out.
* `Binary64.unsigned?_layOut`: what the digits of a number are read as, in every layout.
* `Binary64.float?_text`: the written form of a number is read back as the number.
-/

namespace ProvideIndex

open Text

namespace Decimal

/-- The digits after a point, if there is one, and what follows them. -/
def fraction (afterWhole : List Char) : List Char × List Char :=
  match afterWhole with
  | '.' :: rest => rest.span Char.isDigit
  | rest => ([], rest)

/-- A literal without a sign, as its coefficient and the place of its last digit. -/
def unsigned? (unsigned : List Char) : Option (Nat × Int) := do
  let (whole, afterWhole) := unsigned.span Char.isDigit
  let exponent ← exponent? (fraction afterWhole).2
  let digits := whole ++ (fraction afterWhole).1
  if digits.isEmpty then none
  else some (natural digits, exponent - (fraction afterWhole).1.length)

theorem float?_eq (text : List Char) :
    float? text = (unsigned? (sign text).2).bind fun read =>
      Binary64.ofDecimal? (sign text).1 read.1 read.2 := by
  cases hParts : (sign text).2.span Char.isDigit with
  | mk whole afterWhole =>
    have hFloat : float? text = (exponent? (fraction afterWhole).2).bind fun exponent =>
        if (whole ++ (fraction afterWhole).1).isEmpty then none
        else Binary64.ofDecimal? (sign text).1 (natural (whole ++ (fraction afterWhole).1))
          (exponent - (fraction afterWhole).1.length) := by
      rw [float?]
      simp only [hParts]
      rfl
    rw [hFloat, unsigned?, hParts]
    simp only [Option.bind_eq_bind]
    cases exponent? (fraction afterWhole).2 with
    | none => rfl
    | some exponent =>
      simp only [Option.bind_some]
      split <;> rfl

variable {whole digits tail : List Char} {exponent : Int}

theorem unsigned?_point (hNonempty : whole ≠ []) (hWhole : ∀ c ∈ whole, c.isDigit = true)
    (hDigits : ∀ c ∈ digits, c.isDigit = true) (hTail : Stops Char.isDigit tail)
    (hExponent : exponent? tail = some exponent) :
    unsigned? (whole ++ '.' :: (digits ++ tail)) =
      some (natural (whole ++ digits), exponent - digits.length) := by
  have hPoint : Stops Char.isDigit ('.' :: (digits ++ tail)) := stops_cons rfl
  have hFraction : fraction ('.' :: (digits ++ tail)) = (digits, tail) :=
    span_append_stop hDigits hTail
  simp only [unsigned?, span_append_stop hWhole hPoint, hFraction, hExponent, Option.bind_eq_bind,
    Option.bind_some]
  simp [hNonempty]

theorem unsigned?_digits (hNonempty : whole ≠ []) (hWhole : ∀ c ∈ whole, c.isDigit = true)
    (hTail : Stops Char.isDigit tail) (hPoint : tail.head? ≠ some '.')
    (hExponent : exponent? tail = some exponent) :
    unsigned? (whole ++ tail) = some (natural whole, exponent) := by
  have hFraction : fraction tail = ([], tail) := by
    rw [fraction]
    rintro rest rfl
    exact hPoint rfl
  simp only [unsigned?, span_append_stop hWhole hTail, hFraction, hExponent, Option.bind_eq_bind,
    Option.bind_some]
  simp [hNonempty]

/-- A text that begins with a digit has no sign. -/
theorem sign_of_digit {c : Char} (h : c.isDigit = true) (rest : List Char) :
    sign (c :: rest) = (false, c :: rest) := by
  have hMinus : c ≠ '-' := by
    rintro rfl
    cases h
  have hPlus : c ≠ '+' := by
    rintro rfl
    cases h
  simp [sign, hMinus, hPlus]

theorem exponent?_of_int {plus : List Char} (n : Int) (hPlus : plus = [] ∨ plus = ['+'] ∧ 0 ≤ n) :
    exponent? ('e' :: (plus ++ (toString n).toList)) = some n := by
  obtain ⟨c, rest, hDigits⟩ := List.exists_cons_of_ne_nil
    (Nat.toDigits_ne_nil (n := n.natAbs) (b := 10))
  have hAll : (c :: rest).all Char.isDigit = true := by
    rw [← hDigits, List.all_eq_true]
    exact fun d hMem => isDigit_of_mem_toDigits hMem
  have hFirst : c.isDigit = true := List.all_eq_true.mp hAll c (List.mem_cons_self ..)
  have hSign : sign (plus ++ (toString n).toList) = (decide (n < 0), Nat.toDigits 10 n.natAbs) := by
    rw [toList_toString_int, hDigits]
    rcases hPlus with rfl | ⟨rfl, hNonnegative⟩
    · by_cases hNegative : n < 0
      · rw [if_pos hNegative, decide_eq_true hNegative]
        rfl
      · rw [if_neg hNegative, decide_eq_false hNegative]
        exact sign_of_digit hFirst rest
    · have hNegative : ¬n < 0 := by omega
      rw [if_neg hNegative, decide_eq_false hNegative]
      rfl
  have hValue : (if decide (n < 0) = true then -(n.natAbs : Int) else n.natAbs) = n := by
    by_cases hNegative : n < 0
    · rw [decide_eq_true hNegative, if_pos rfl]
      omega
    · rw [decide_eq_false hNegative, if_neg Bool.false_ne_true]
      omega
  rw [exponent?, hSign]
  simp only [hDigits, hAll]
  rw [← hDigits, natural_toDigits, hDigits]
  exact congrArg some hValue

/-! ### Layouts of digits -/

/-- Digits before an exponent, with a point after the first of them if there are more. -/
def scientific (written exponent : List Char) : List Char :=
  match written with
  | [digit] => digit :: exponent
  | digit :: more => digit :: '.' :: more ++ exponent
  | [] => exponent

theorem mem_scientific {written exponent : List Char} {c : Char}
    (h : c ∈ scientific written exponent) : c = '.' ∨ c ∈ written ∨ c ∈ exponent := by
  match written with
  | [] => exact .inr (.inr h)
  | [digit] =>
    rcases List.mem_cons.mp h with rfl | h
    · exact .inr (.inl (List.mem_cons_self ..))
    · exact .inr (.inr h)
  | digit :: second :: more =>
    rcases List.mem_cons.mp h with rfl | h
    · exact .inr (.inl (List.mem_cons_self ..))
    · rcases List.mem_cons.mp h with rfl | h
      · exact .inl rfl
      · rcases List.mem_append.mp h with h | h
        · exact .inr (.inl (List.mem_cons_of_mem _ h))
        · exact .inr (.inr h)

theorem subset_scientific {written exponent : List Char} :
    exponent ⊆ scientific written exponent := by
  intro c h
  match written with
  | [] => exact h
  | [digit] => exact List.mem_cons_of_mem _ h
  | digit :: second :: more =>
    exact List.mem_cons_of_mem _ (List.mem_cons_of_mem _ (List.mem_append_right _ h))

section Layouts

variable {written : List Char} (hNonempty : written ≠ [])
  (hWritten : ∀ c ∈ written, c.isDigit = true)

include hNonempty hWritten

theorem unsigned?_zerosBehind (count : Nat) :
    unsigned? (written ++ List.replicate count '0' ++ ['.', '0']) =
      some (natural written * 10 ^ (count + 1), -1) := by
  have hAll : ∀ c ∈ written ++ List.replicate count '0', c.isDigit = true := by
    intro c hMem
    rcases List.mem_append.mp hMem with hMem | hMem
    · exact hWritten c hMem
    · exact isDigit_of_mem_zeros hMem
  have hZeros : written ++ List.replicate count '0' ++ ['0'] =
      written ++ List.replicate (count + 1) '0' := by
    rw [List.replicate_succ', List.append_assoc]
  have hRead : unsigned? (_ ++ '.' :: (['0'] ++ [])) = _ :=
    unsigned?_point (List.append_ne_nil_of_left_ne_nil hNonempty _) hAll
    (forall_of_all rfl) stops_nil rfl
  rw [hZeros, natural_append_zeros] at hRead
  exact hRead

theorem unsigned?_among {place : Nat} (hPlace : 0 < place) :
    unsigned? (written.take place ++ '.' :: written.drop place) =
      some (natural written, -((written.drop place).length : Int)) := by
  have hTake : written.take place ≠ [] := by
    rw [Ne, List.take_eq_nil_iff]
    rintro (h | h)
    · omega
    · exact hNonempty h
  have hRead : unsigned? (_ ++ '.' :: (written.drop place ++ [])) = _ :=
    unsigned?_point hTake (fun c hMem => hWritten c (List.mem_of_mem_take hMem))
      (fun c hMem => hWritten c (List.mem_of_mem_drop hMem)) stops_nil rfl
  rw [List.take_append_drop, List.append_nil, Int.zero_sub] at hRead
  exact hRead

omit hNonempty in
theorem unsigned?_zerosBefore (count : Nat) :
    unsigned? (['0', '.'] ++ List.replicate count '0' ++ written) =
      some (natural written, -((count + written.length : Nat) : Int)) := by
  have hAll : ∀ c ∈ List.replicate count '0' ++ written, c.isDigit = true := by
    intro c hMem
    rcases List.mem_append.mp hMem with hMem | hMem
    · exact isDigit_of_mem_zeros hMem
    · exact hWritten c hMem
  have hRead : unsigned? (['0'] ++ '.' :: (List.replicate count '0' ++ written ++ [])) = _ :=
    unsigned?_point (by decide) (forall_of_all rfl) hAll stops_nil rfl
  have hZero : ['0'] ++ (List.replicate count '0' ++ written) =
      List.replicate (count + 1) '0' ++ written := rfl
  rw [hZero, natural_zeros_append, List.append_nil, List.length_append, List.length_replicate,
    Int.zero_sub] at hRead
  rw [List.append_assoc]
  exact hRead

theorem unsigned?_scientific {tail : List Char} {exponent : Int}
    (hTail : exponent? ('e' :: tail) = some exponent) :
    unsigned? (scientific written ('e' :: tail)) =
      some (natural written, exponent - (written.length - 1 : Nat)) := by
  have hStops : Stops Char.isDigit ('e' :: tail) := stops_cons rfl
  match written with
  | [] => exact absurd rfl hNonempty
  | [digit] =>
    have hPoint : ('e' :: tail).head? ≠ some '.' := by
      rw [List.head?_cons]
      decide
    have hRead : unsigned? ([digit] ++ 'e' :: tail) = _ :=
      unsigned?_digits hNonempty hWritten hStops hPoint hTail
    rw [List.length_singleton, Nat.sub_self, Int.ofNat_zero, Int.sub_zero]
    exact hRead
  | digit :: second :: more =>
    have hFirst : ∀ c ∈ [digit], c.isDigit = true := fun c hMem =>
      hWritten c (List.mem_of_mem_take (i := 1) hMem)
    exact unsigned?_point (List.cons_ne_nil digit []) hFirst
      (fun c hMem => hWritten c (List.mem_cons_of_mem _ hMem)) hStops hTail

end Layouts

end Decimal

namespace Binary64

open Decimal

variable {layout : Layout} {x : Binary64}

/-- Digits laid out with a point in them, or with an exponent. -/
def Digits.layOut (layout : Layout) (d : Digits) : List Char :=
  let written := Nat.toDigits 10 d.coefficient
  let places := written.length + d.exponent
  if 0 ≤ d.exponent ∧ places ≤ layout.mostPlaces then
    written ++ List.replicate d.exponent.toNat '0' ++ ['.', '0']
  else if 0 < places ∧ places ≤ layout.mostPlaces then
    written.take places.toNat ++ '.' :: written.drop places.toNat
  else if -layout.mostZeros ≤ places ∧ places ≤ 0 then
    ['0', '.'] ++ List.replicate (-places).toNat '0' ++ written
  else
    let plus := if layout.plusSign ∧ 0 < places then ['+'] else []
    scientific written ('e' :: plus ++ (toString (places - 1)).toList)

theorem text_eq (layout : Layout) (x : Binary64) :
    x.text layout = (if x.negative then ['-'] else []) ++
      if x.mantissa = 0 then ['0', '.', '0'] else x.digits.layOut layout := rfl

/-- The four ways to lay out digits: zeros behind them, a point among them, zeros before them, and an
exponent behind them. -/
inductive LaidOut (layout : Layout) (written : List Char) (exponent : Int) : List Char → Prop
  | behind (h : 0 ≤ exponent) :
      LaidOut layout written exponent (written ++ List.replicate exponent.toNat '0' ++ ['.', '0'])
  | among (h : 0 < written.length + exponent) (hLess : exponent < 0) :
      LaidOut layout written exponent
        (written.take (written.length + exponent).toNat ++
          '.' :: written.drop (written.length + exponent).toNat)
  | before (h : written.length + exponent ≤ 0) :
      LaidOut layout written exponent
        (['0', '.'] ++ List.replicate (-(written.length + exponent)).toNat '0' ++ written)
  | scientific {plus : List Char}
      (hPlus : plus = [] ∨ plus = ['+'] ∧ 0 ≤ written.length + exponent - 1)
      (hSign : layout.plusSign = false → plus = []) :
      LaidOut layout written exponent
        (Decimal.scientific written
          ('e' :: plus ++ (toString (written.length + exponent - 1)).toList))

theorem laidOut (layout : Layout) (d : Digits) :
    LaidOut layout (Nat.toDigits 10 d.coefficient) d.exponent (d.layOut layout) := by
  rw [Digits.layOut]
  generalize Nat.toDigits 10 d.coefficient = written
  simp only
  split
  case isTrue hWhole => exact .behind hWhole.1
  case isFalse hNotWhole =>
    split
    case isTrue hAmong => exact .among hAmong.1 (by omega)
    case isFalse =>
      split
      case isTrue hBefore => exact .before hBefore.2
      case isFalse =>
        split
        case isTrue hPlus =>
          refine .scientific (.inr ⟨rfl, by omega⟩) fun hSign => ?_
          cases hSign.symm.trans hPlus.1
        case isFalse => exact .scientific (.inl rfl) fun _ => rfl

/-- Whatever the layout, the digits are read back, up to zeros that were added behind them. -/
theorem unsigned?_layOut (layout : Layout) (d : Digits) :
    ∃ count : Nat, unsigned? (d.layOut layout) =
      some (d.coefficient * 10 ^ count, d.exponent - count) := by
  have hWritten : natural (Nat.toDigits 10 d.coefficient) = d.coefficient := natural_toDigits _
  have hDigits : ∀ c ∈ Nat.toDigits 10 d.coefficient, c.isDigit = true := fun c hMem =>
    isDigit_of_mem_toDigits hMem
  have hNonempty : Nat.toDigits 10 d.coefficient ≠ [] := Nat.toDigits_ne_nil
  have hLaidOut := laidOut layout d
  rw [← hWritten]
  generalize Nat.toDigits 10 d.coefficient = written, d.exponent = exponent,
    d.layOut layout = text at *
  cases hLaidOut with
  | behind h =>
    have hExponent : exponent - (exponent.toNat + 1 : Nat) = -1 := by omega
    exact ⟨exponent.toNat + 1, hExponent ▸ unsigned?_zerosBehind hNonempty hDigits exponent.toNat⟩
  | among h hLess =>
    have hExponent : exponent - (0 : Nat) =
        -(written.drop (written.length + exponent).toNat).length := by
      rw [List.length_drop]
      omega
    refine ⟨0, ?_⟩
    rw [pow_zero, Nat.mul_one, hExponent]
    exact unsigned?_among hNonempty hDigits (Int.lt_toNat.mpr h)
  | before h =>
    have hExponent : exponent - (0 : Nat) =
        -((-((written.length : Int) + exponent)).toNat + written.length : Nat) := by omega
    refine ⟨0, ?_⟩
    rw [pow_zero, Nat.mul_one, hExponent]
    exact unsigned?_zerosBefore hDigits _
  | scientific hPlus =>
    have hLength : 0 < written.length := List.length_pos_iff.mpr hNonempty
    have hExponent : exponent - (0 : Nat) =
        (written.length : Int) + exponent - 1 - (written.length - 1 : Nat) := by omega
    refine ⟨0, ?_⟩
    rw [pow_zero, Nat.mul_one, hExponent]
    exact unsigned?_scientific hNonempty hDigits (exponent?_of_int _ hPlus)

/-- The sign of a number is read before its digits, which begin with a digit. -/
theorem sign_append {negative : Bool} {rest : List Char} {c : Char} (h : c.isDigit = true) :
    sign ((if negative then ['-'] else []) ++ c :: rest) = (negative, c :: rest) := by
  cases negative with
  | true => rfl
  | false => exact sign_of_digit h rest

theorem head_layOut (layout : Layout) (d : Digits) :
    ∃ c rest, d.layOut layout = c :: rest ∧ c.isDigit = true := by
  have hDigits : ∀ c ∈ Nat.toDigits 10 d.coefficient, c.isDigit = true := fun c hMem =>
    isDigit_of_mem_toDigits hMem
  obtain ⟨c, more, hWritten⟩ :=
    List.exists_cons_of_ne_nil (Nat.toDigits_ne_nil (n := d.coefficient) (b := 10))
  have hLaidOut := laidOut layout d
  rw [hWritten] at hDigits hLaidOut
  have hFirst : c.isDigit = true := hDigits c (List.mem_cons_self ..)
  generalize d.layOut layout = text at *
  cases hLaidOut with
  | behind => exact ⟨c, _, rfl, hFirst⟩
  | among h =>
    obtain ⟨place, hPlace⟩ :=
      Nat.exists_eq_succ_of_ne_zero (Nat.pos_iff_ne_zero.mp (Int.lt_toNat.mpr h))
    rw [hPlace]
    exact ⟨c, _, rfl, hFirst⟩
  | before => exact ⟨'0', _, rfl, rfl⟩
  | scientific =>
    cases more with
    | nil => exact ⟨c, _, rfl, hFirst⟩
    | cons second more => exact ⟨c, _, rfl, hFirst⟩

/-! ### The characters of a number -/

/-- A digit, a point, an exponent mark or a minus sign: what may stand in a number. -/
def isNumeric (c : Char) : Bool := c.isDigit || c == '.' || c == 'e' || c == '-'

theorem isNumeric_of_isDigit {c : Char} (h : c.isDigit = true) : isNumeric c = true := by
  simp [isNumeric, h]

theorem isNumeric_of_mem_int {n : Int} {c : Char} (h : c ∈ (toString n).toList) :
    isNumeric c = true := by
  rw [toList_toString_int] at h
  rcases List.mem_append.mp h with hSign | hDigit
  · split at hSign
    · rw [List.mem_singleton.mp hSign]
      rfl
    · cases hSign
  · exact isNumeric_of_isDigit (isDigit_of_mem_toDigits hDigit)

theorem isNumeric_of_mem_layOut {d : Digits} {c : Char} (h : c ∈ d.layOut .plain) :
    isNumeric c = true := by
  have hWritten : ∀ c ∈ Nat.toDigits 10 d.coefficient, isNumeric c = true := fun c hMem =>
    isNumeric_of_isDigit (isDigit_of_mem_toDigits hMem)
  have hZeros : ∀ count, ∀ c ∈ List.replicate count '0', isNumeric c = true := fun count c hMem =>
    isNumeric_of_isDigit (isDigit_of_mem_zeros hMem)
  have hLaidOut := laidOut .plain d
  generalize Nat.toDigits 10 d.coefficient = written, d.layOut .plain = text at *
  cases hLaidOut with
  | behind =>
    simp only [List.mem_append, List.mem_cons, List.not_mem_nil, or_false] at h
    rcases h with (h | h) | rfl | rfl
    · exact hWritten c h
    · exact hZeros _ c h
    · rfl
    · rfl
  | among =>
    simp only [List.mem_append, List.mem_cons] at h
    rcases h with h | rfl | h
    · exact hWritten c (List.mem_of_mem_take h)
    · rfl
    · exact hWritten c (List.mem_of_mem_drop h)
  | before =>
    simp only [List.mem_append, List.mem_cons, List.not_mem_nil, or_false] at h
    rcases h with ((rfl | rfl) | h) | h
    · rfl
    · rfl
    · exact hZeros _ c h
    · exact hWritten c h
  | scientific _ hSign =>
    obtain rfl := hSign rfl
    rcases mem_scientific h with rfl | hMem | hMem
    · rfl
    · exact hWritten c hMem
    · rcases List.mem_cons.mp hMem with rfl | hMem
      · rfl
      · exact isNumeric_of_mem_int hMem

/-- Nothing that is written for a number is a whole number. -/
theorem exists_mark_layOut (layout : Layout) (d : Digits) :
    ∃ c ∈ d.layOut layout, c = '.' ∨ c = 'e' := by
  have hLaidOut := laidOut layout d
  generalize d.layOut layout = text at *
  cases hLaidOut with
  | behind | among | before => exact ⟨'.', by simp, .inl rfl⟩
  | scientific => exact ⟨'e', subset_scientific (List.mem_cons_self ..), .inr rfl⟩

theorem eq_zero_of_mantissa (h : x.mantissa = 0) : x = zero x.negative := by
  have hScale : x.scale = 0 := by
    rcases x.normal with hScale | hNormal
    · exact hScale
    · rw [h] at hNormal
      exact absurd hNormal (by decide)
  obtain ⟨negative, mantissa, scale, _, _, _⟩ := x
  subst h hScale
  rfl

theorem ofDecimal?_zero (negative : Bool) (exponent : Int) :
    ofDecimal? negative 0 exponent = some (zero negative) := by
  simp [ofDecimal?]

theorem head_text (layout : Layout) (x : Binary64) :
    ∃ c rest, x.text layout = (if x.negative then ['-'] else []) ++ c :: rest ∧
      c.isDigit = true := by
  rw [text_eq]
  by_cases hZero : x.mantissa = 0
  · rw [if_pos hZero]
    exact ⟨'0', ['.', '0'], rfl, rfl⟩
  · obtain ⟨c, rest, hHead, hDigit⟩ := head_layOut layout x.digits
    rw [if_neg hZero, hHead]
    exact ⟨c, rest, rfl, hDigit⟩

theorem isNumeric_of_mem_text {c : Char} (h : c ∈ x.text .plain) : isNumeric c = true := by
  rw [text_eq] at h
  rcases List.mem_append.mp h with hSign | hBody
  · split at hSign
    · rw [List.mem_singleton.mp hSign]
      rfl
    · cases hSign
  · split at hBody
    · exact List.all_eq_true.mp (by decide) c hBody
    · exact isNumeric_of_mem_layOut hBody

theorem exists_mark_text (layout : Layout) (x : Binary64) :
    ∃ c ∈ x.text layout, c = '.' ∨ c = 'e' := by
  rw [text_eq]
  by_cases hZero : x.mantissa = 0
  · rw [if_pos hZero]
    exact ⟨'.', List.mem_append_right _ (by decide), .inl rfl⟩
  · obtain ⟨c, hMem, hMark⟩ := exists_mark_layOut layout x.digits
    rw [if_neg hZero]
    exact ⟨c, List.mem_append_right _ hMem, hMark⟩

/-- What is written for a number is read back as the number. -/
theorem float?_text (layout : Layout) (x : Binary64) : float? (x.text layout) = some x := by
  rw [text_eq, float?_eq]
  by_cases hZero : x.mantissa = 0
  · have hRead : unsigned? ['0', '.', '0'] = some (0, -1) := rfl
    rw [if_pos hZero, sign_append (by decide), hRead, Option.bind_some, ofDecimal?_zero,
      ← eq_zero_of_mantissa hZero]
  · obtain ⟨c, rest, hHead, hDigit⟩ := head_layOut layout x.digits
    obtain ⟨count, hRead⟩ := unsigned?_layOut layout x.digits
    have hBack := ofDecimal?_digits hZero
    have hNonzero : x.digits.coefficient ≠ 0 := by
      intro hNone
      rw [hNone, ofDecimal?_zero] at hBack
      exact hZero (congrArg mantissa (Option.some.inj hBack)).symm
    rw [if_neg hZero, hHead, sign_append hDigit, ← hHead, hRead, Option.bind_some,
      ofDecimal?_mul_pow hNonzero, hBack]

end Binary64

end ProvideIndex
