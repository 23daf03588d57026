import ProvideIndex.Text.Digits
import Mathlib.Data.Nat.Digits.Defs

/-!
# Numerals

What the digits of a number are worth when they are read back, in base ten and in base sixteen, and
which characters a numeral can hold.

* `natural_toDigits`, `natural_append`: decimal digits without a check.
* `number?_map_toDigits`: the digits of any base up to sixteen, in either case of letters.
* `exists_hexValue?_of_number?`: a numeral holds nothing but digits of its base.
* `toList_toString_int`: a whole number as its sign and its digits.
-/

namespace ProvideIndex.Text

variable {base n : Nat} {digits : List Char}

/-! ### Decimal digits -/

theorem natural_eq_ofDigitChars (digits : List Char) :
    natural digits = Nat.ofDigitChars 10 digits 0 := rfl

theorem natural_toDigits (n : Nat) : natural (Nat.toDigits 10 n) = n :=
  Nat.ofDigitChars_ten_toDigits

theorem natural_append (first second : List Char) :
    natural (first ++ second) = natural first * 10 ^ second.length + natural second := by
  rw [natural_eq_ofDigitChars, Nat.ofDigitChars_append, Nat.ofDigitChars_eq_ofDigitChars_zero,
    ← natural_eq_ofDigitChars, ← natural_eq_ofDigitChars, Nat.mul_comm]

theorem natural_replicate_zero (count : Nat) : natural (List.replicate count '0') = 0 := by
  rw [natural_eq_ofDigitChars, Nat.ofDigitChars_replicate_zero, Nat.mul_zero]

/-- Zeros in front of a numeral are worth nothing. -/
theorem natural_zeros_append (count : Nat) (digits : List Char) :
    natural (List.replicate count '0' ++ digits) = natural digits := by
  rw [natural_append, natural_replicate_zero, Nat.zero_mul, Nat.zero_add]

/-- Zeros behind a numeral are worth a power of ten. -/
theorem natural_append_zeros (digits : List Char) (count : Nat) :
    natural (digits ++ List.replicate count '0') = natural digits * 10 ^ count := by
  rw [natural_append, natural_replicate_zero, List.length_replicate, Nat.add_zero]

theorem isDigit_of_mem_toDigits {c : Char} (h : c ∈ Nat.toDigits 10 n) : c.isDigit = true :=
  Nat.isDigit_of_mem_toDigits (by decide) (by decide) h

theorem isDigit_of_mem_zeros {c : Char} {count : Nat} (h : c ∈ List.replicate count '0') :
    c.isDigit = true := by
  rw [List.eq_of_mem_replicate h]
  rfl

theorem toList_toString_int (n : Int) :
    (toString n).toList = (if n < 0 then ['-'] else []) ++ Nat.toDigits 10 n.natAbs := by
  cases n with
  | ofNat m =>
    have hString : toString (Int.ofNat m) = toString m := rfl
    rw [hString, Nat.toString_eq_ofList_toDigits, String.toList_ofList]
    rfl
  | negSucc m =>
    have hString : toString (Int.negSucc m) = "-" ++ toString (m + 1) := rfl
    have hMinus : "-".toList = ['-'] := rfl
    rw [hString, Nat.toString_eq_ofList_toDigits, String.toList_append, hMinus,
      String.toList_ofList, if_pos (Int.negSucc_lt_zero m)]
    rfl

/-! ### Digits of any base -/

theorem number?_append_singleton (base : Nat) (digits : List Char) (c : Char) :
    number? base (digits ++ [c]) = (do
      let digit ← hexValue? c
      if digit < base then return base * (← number? base digits) + digit else none) := by
  rw [number?, List.foldl_append]
  rfl

theorem hexValue?_digitChar : ∀ digit < 16, hexValue? digit.digitChar = some digit := by
  decide +kernel

theorem hexValue?_toUpper_digitChar :
    ∀ digit < 16, hexValue? digit.digitChar.toUpper = some digit := by
  decide +kernel

/-- The digits of a number in a base are read back, however they are spelt. -/
theorem number?_map_toDigits {spell : Char → Char} (hBase : 1 < base)
    (hSpell : ∀ digit < base, hexValue? (spell digit.digitChar) = some digit) (n : Nat) :
    number? base ((Nat.toDigits base n).map spell) = some n := by
  induction n using Nat.strong_induction_on with
  | _ n ih =>
    by_cases hLast : n < base
    · rw [Nat.toDigits_of_lt_base hLast, List.map_singleton, number?, List.foldl_cons,
        List.foldl_nil, hSpell n hLast]
      simp [hLast]
    · have hLess : n / base < n := Nat.div_lt_self (by omega) hBase
      have hDigit : n % base < base := Nat.mod_lt n (by omega)
      rw [Nat.toDigits_of_base_le hBase (Nat.not_lt.mp hLast), List.map_append, List.map_singleton,
        number?_append_singleton, ih _ hLess, hSpell _ hDigit]
      simp [hDigit, Nat.div_add_mod]

theorem number?_toDigits (n : Nat) : number? 10 (Nat.toDigits 10 n) = some n := by
  have h : number? 10 ((Nat.toDigits 10 n).map id) = some n :=
    number?_map_toDigits (by decide) (fun digit hDigit => hexValue?_digitChar digit (by omega)) n
  rwa [List.map_id] at h

/-- Zeros in front do not change the number. -/
theorem number?_zeros_append (count : Nat) (hBase : 0 < base) (digits : List Char) :
    number? base (List.replicate count '0' ++ digits) = number? base digits := by
  induction count with
  | zero => rfl
  | succ count ih =>
    rw [← ih, List.replicate_succ, List.cons_append]
    have hZero : hexValue? '0' = some 0 := rfl
    rw [number?, List.foldl_cons, hZero]
    simp [hBase, number?]

/-! ### The characters of a numeral -/

theorem exists_hexValue?_of_foldl {number : Option Nat}
    (h : digits.foldl (fun n c => do
      let digit ← hexValue? c
      if digit < base then return base * (← n) + digit else none) number = some n) :
    number.isSome ∧ ∀ c ∈ digits, ∃ digit < base, hexValue? c = some digit := by
  induction digits generalizing number with
  | nil => exact ⟨Option.isSome_of_eq_some h, by simp⟩
  | cons c digits ih =>
    obtain ⟨hStep, hDigits⟩ := ih h
    cases hc : hexValue? c with
    | none => simp [hc] at hStep
    | some digit =>
      by_cases hDigit : digit < base
      · cases number with
        | none => simp [hc] at hStep
        | some number => exact ⟨rfl, List.forall_mem_cons.mpr ⟨⟨digit, hDigit, hc⟩, hDigits⟩⟩
      · simp [hc, hDigit] at hStep

theorem exists_hexValue?_of_number? (h : number? base digits = some n) :
    ∀ c ∈ digits, ∃ digit < base, hexValue? c = some digit :=
  (exists_hexValue?_of_foldl h).2

theorem isDigit_of_hexValue? {c : Char} {digit : Nat} (h : hexValue? c = some digit)
    (hDigit : digit < 10) : c.isDigit = true := by
  rw [hexValue?] at h
  split at h
  case isTrue hc => exact hc
  case isFalse =>
    split at h
    · cases h
      omega
    · split at h
      · cases h
        omega
      · cases h

/-- A text with anything but decimal digits in it is no decimal numeral. -/
theorem number?_ten_eq_none {c : Char} (hMem : c ∈ digits) (hDigit : c.isDigit = false) :
    number? 10 digits = none := by
  cases hNumber : number? 10 digits with
  | none => rfl
  | some n =>
    obtain ⟨digit, hLess, hValue⟩ := exists_hexValue?_of_number? hNumber c hMem
    rw [isDigit_of_hexValue? hValue hLess] at hDigit
    cases hDigit

end ProvideIndex.Text
