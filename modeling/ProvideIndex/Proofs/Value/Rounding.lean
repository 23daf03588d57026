import ProvideIndex.Value.Binary64
import Mathlib.Tactic.Ring
import Mathlib.Tactic.Linarith

/-!
# Rounding to binary64

A quotient that lies near enough to a number of 64 bits rounds to it. Near enough is one part in
`2 · 10 ^ 16`: as a mantissa is below `2 ^ 53`, this is less than half a unit of its last place, and
for the least mantissa less than the half of the smaller unit below it.

* `roundQuotient_of_near`: the whole number nearest to a quotient.
* `ofQuotient?_of_near`: the number nearest to a quotient.
* `ofDecimal?_mul_pow`: zeros behind a decimal that its exponent makes up for do not matter.
-/

namespace ProvideIndex.Binary64

variable {negative : Bool} {numerator denominator factor mantissa scale : Nat}

/-! ### Quotients -/

theorem roundQuotient_of_near
    (hLow : 2 * mantissa * denominator < 2 * numerator + denominator)
    (hHigh : 2 * numerator < 2 * mantissa * denominator + denominator) :
    roundQuotient numerator denominator = mantissa := by
  have hPositive : 0 < denominator := by omega
  have hSplit := Nat.div_add_mod numerator denominator
  have hRest := Nat.mod_lt numerator hPositive
  rw [roundQuotient]
  generalize numerator / denominator = quotient at *
  generalize numerator % denominator = rest at *
  subst hSplit
  have hLess : mantissa < quotient + 2 := by
    by_contra hNot
    have hTwo : (quotient + 2) * denominator ≤ mantissa * denominator :=
      Nat.mul_le_mul_right _ (Nat.not_lt.mp hNot)
    nlinarith
  have hAbove : quotient ≤ mantissa := by
    by_contra hNot
    have hOne : (mantissa + 1) * denominator ≤ quotient * denominator :=
      Nat.mul_le_mul_right _ (Nat.not_le.mp hNot)
    nlinarith
  rcases Nat.lt_or_eq_of_le hAbove with hNext | rfl
  · obtain rfl : mantissa = quotient + 1 := by omega
    have hHalf : denominator < 2 * rest := by nlinarith
    simp only [if_neg (Nat.not_lt.mpr hHalf.le), if_pos hHalf]
  · have hHalf : 2 * rest < denominator := by nlinarith
    simp only [if_pos hHalf]

theorem roundQuotient_mul (hFactor : 0 < factor) :
    roundQuotient (factor * numerator) (factor * denominator) =
      roundQuotient numerator denominator := by
  have hRest : 2 * (factor * numerator % (factor * denominator)) =
      factor * (2 * (numerator % denominator)) := by
    rw [Nat.mul_mod_mul_left]
    ring
  simp only [roundQuotient, Nat.mul_div_mul_left _ _ hFactor, hRest,
    Nat.mul_lt_mul_left hFactor]

/-- Only the value of a quotient matters. -/
theorem ofQuotient?_mul (hFactor : 0 < factor) :
    ofQuotient? negative (factor * numerator) (factor * denominator) =
      ofQuotient? negative numerator denominator := by
  have hUnits : (factor * numerator) <<< 1074 = factor * (numerator <<< 1074) := by
    rw [Nat.shiftLeft_eq, Nat.shiftLeft_eq, Nat.mul_assoc]
  have hDenominator : ∀ scale,
      (factor * denominator) <<< scale = factor * (denominator <<< scale) := by
    intro scale
    rw [Nat.shiftLeft_eq, Nat.shiftLeft_eq, Nat.mul_assoc]
  simp only [ofQuotient?, hUnits, hDenominator, Nat.mul_div_mul_left _ _ hFactor,
    roundQuotient_mul hFactor]

/-! ### The scale of a quotient -/

/-- A quotient between two powers of two determines the scale. -/
theorem scale_of_bounds (hPositive : 0 < denominator)
    (hLow : 2 ^ (52 + scale) * denominator ≤ numerator)
    (hHigh : numerator < 2 ^ (53 + scale) * denominator) :
    (numerator / denominator).log2 - 52 = scale := by
  have hLeast : 2 ^ (52 + scale) ≤ numerator / denominator :=
    (Nat.le_div_iff_mul_le hPositive).mpr hLow
  have hMost : numerator / denominator < 2 ^ (53 + scale) :=
    (Nat.div_lt_iff_lt_mul hPositive).mpr hHigh
  have hZero : numerator / denominator ≠ 0 := by
    have := Nat.two_pow_pos (52 + scale)
    omega
  have hLog : 52 + scale ≤ (numerator / denominator).log2 := (Nat.le_log2 hZero).mpr hLeast
  have hLess : (numerator / denominator).log2 < 53 + scale := (Nat.log2_lt hZero).mpr hMost
  omega

/-- A small quotient has no scale. -/
theorem scale_of_small (hPositive : 0 < denominator) (hHigh : numerator < 2 ^ 53 * denominator) :
    (numerator / denominator).log2 - 52 = 0 := by
  have hMost : numerator / denominator < 2 ^ 53 := (Nat.div_lt_iff_lt_mul hPositive).mpr hHigh
  by_cases hZero : numerator / denominator = 0
  · rw [hZero]
    decide
  · have hLess : (numerator / denominator).log2 < 53 := (Nat.log2_lt hZero).mpr hMost
    omega

theorem ofParts?_eq (x : Binary64) : ofParts? x.negative x.mantissa x.scale = some x :=
  dif_pos ⟨x.mantissa_lt, x.scale_le, x.normal⟩

/-! ### Near a number -/

/-- Whether two numbers differ by no more than one part in `2 · 10 ^ 16` of the second. -/
def Near (units target : Nat) : Prop :=
  2 * 10 ^ 16 * units ≤ (2 * 10 ^ 16 + 1) * target ∧
    (2 * 10 ^ 16) * target ≤ 2 * 10 ^ 16 * units + target

theorem numerator_mul (x : Binary64) (denominator : Nat) :
    x.numerator * denominator = x.mantissa * (denominator * 2 ^ x.scale) := by
  rw [Binary64.numerator, Nat.shiftLeft_eq]
  ring

/-- A quotient whose scale is that of the number rounds to its mantissa. -/
theorem roundQuotient_of_scale (x : Binary64) {units : Nat} (hPositive : 0 < denominator)
    (h : Near units (x.numerator * denominator)) :
    roundQuotient units (denominator <<< x.scale) = x.mantissa := by
  obtain ⟨hHigh, hLow⟩ := h
  have hMantissa : x.mantissa < 2 ^ 53 := x.mantissa_lt
  have hUnit : 0 < denominator * 2 ^ x.scale := Nat.mul_pos hPositive (Nat.two_pow_pos _)
  rw [numerator_mul] at hHigh hLow
  rw [Nat.shiftLeft_eq]
  have hSmall : x.mantissa * (denominator * 2 ^ x.scale) <
      10 ^ 16 * (denominator * 2 ^ x.scale) :=
    Nat.mul_lt_mul_of_pos_right (by omega) hUnit
  generalize denominator * 2 ^ x.scale = unit at *
  refine roundQuotient_of_near ?_ ?_
  · rw [Nat.mul_assoc]
    omega
  · rw [Nat.mul_assoc]
    omega

/-- What is near to a number is below the next power of two. -/
theorem units_lt (x : Binary64) {units : Nat} (hPositive : 0 < denominator)
    (h : Near units (x.numerator * denominator)) :
    units < 2 ^ (53 + x.scale) * denominator := by
  obtain ⟨hHigh, -⟩ := h
  have hMantissa : x.mantissa < 2 ^ 53 := x.mantissa_lt
  have hUnit : 0 < denominator * 2 ^ x.scale := Nat.mul_pos hPositive (Nat.two_pow_pos _)
  have hGoal : 2 ^ (53 + x.scale) * denominator = 2 ^ 53 * (denominator * 2 ^ x.scale) := by ring
  rw [numerator_mul] at hHigh
  rw [hGoal]
  generalize denominator * 2 ^ x.scale = unit at *
  have hMost : x.mantissa * unit ≤ (2 ^ 53 - 1) * unit := Nat.mul_le_mul_right _ (by omega)
  omega

/-- Near to a number but below its power of two is near to a number of the least mantissa. -/
theorem near_below (x : Binary64) {units half : Nat} (hPositive : 0 < denominator)
    (h : Near units (x.numerator * denominator)) (hScale : x.scale = half + 1)
    (hBelow : units < 2 ^ (52 + x.scale) * denominator) :
    x.mantissa = 2 ^ 52 ∧ 2 ^ (52 + half) * denominator ≤ units ∧
      roundQuotient units (denominator <<< half) = 2 ^ 53 := by
  obtain ⟨-, hLow⟩ := h
  have hUnit : 0 < denominator * 2 ^ half := Nat.mul_pos hPositive (Nat.two_pow_pos _)
  have hTarget : x.numerator * denominator = 2 * (x.mantissa * (denominator * 2 ^ half)) := by
    rw [numerator_mul, hScale]
    ring
  have hBound : 2 ^ (52 + x.scale) * denominator = 2 ^ 53 * (denominator * 2 ^ half) := by
    rw [hScale]
    ring
  have hGoal : 2 ^ (52 + half) * denominator = 2 ^ 52 * (denominator * 2 ^ half) := by ring
  have hNormal : 2 ^ 52 ≤ x.mantissa := by
    rcases x.normal with hZero | hNormal
    · omega
    · exact hNormal
  rw [hTarget] at hLow
  rw [hBound] at hBelow
  rw [hGoal, Nat.shiftLeft_eq]
  generalize denominator * 2 ^ half = unit at *
  have hLeast : x.mantissa = 2 ^ 52 := by
    by_contra hNe
    have hMore : (2 ^ 52 + 1) * unit ≤ x.mantissa * unit := Nat.mul_le_mul_right _ (by omega)
    omega
  rw [hLeast] at hLow
  exact ⟨hLeast, by omega, roundQuotient_of_near (by omega) (by omega)⟩

/-- A quotient that is near to a number rounds to it. -/
theorem ofQuotient?_of_near (x : Binary64) (hPositive : 0 < denominator)
    (h : Near (numerator <<< 1074) (x.numerator * denominator)) :
    ofQuotient? x.negative numerator denominator = some x := by
  have hRound := roundQuotient_of_scale x hPositive h
  have hHigh := units_lt x hPositive h
  by_cases hBoth : numerator <<< 1074 < 2 ^ (52 + x.scale) * denominator ∧ x.scale ≠ 0
  · obtain ⟨hBelow, hNonzero⟩ := hBoth
    obtain ⟨half, hHalf⟩ := Nat.exists_eq_succ_of_ne_zero hNonzero
    obtain ⟨hLeast, hLow, hCarry⟩ := near_below x hPositive h hHalf hBelow
    have hScale : ((numerator <<< 1074) / denominator).log2 - 52 = half := by
      refine scale_of_bounds hPositive hLow ?_
      rwa [hHalf, Nat.succ_eq_add_one, ← Nat.add_assoc, Nat.add_right_comm] at hBelow
    have hShift : (1 : Nat) <<< 53 = 2 ^ 53 := rfl
    have hParts : ofParts? x.negative (1 <<< 52) (half + 1) = some x := by
      rw [← ofParts?_eq x, hLeast, hHalf]
      rfl
    simp only [ofQuotient?, hScale, hCarry, hShift, if_true, hParts]
  · have hScale : ((numerator <<< 1074) / denominator).log2 - 52 = x.scale := by
      by_cases hZero : x.scale = 0
      · rw [hZero] at hHigh ⊢
        exact scale_of_small hPositive hHigh
      · exact scale_of_bounds hPositive (Nat.not_lt.mp fun hLess => hBoth ⟨hLess, hZero⟩) hHigh
    have hNoCarry : x.mantissa ≠ 1 <<< 53 := Nat.ne_of_lt x.mantissa_lt
    simp only [ofQuotient?, hScale, hRound, if_neg hNoCarry, ofParts?_eq]

/-! ### Decimals -/

theorem length_toDigits_mul_ten {n : Nat} (h : n ≠ 0) :
    countDigits (n * 10) = countDigits n + 1 := by
  have hAppend : Nat.toDigits 10 n ++ Nat.toDigits 10 0 = Nat.toDigits 10 (10 * n + 0) :=
    Nat.toDigits_append_toDigits (by decide) (Nat.pos_of_ne_zero h) (by decide)
  rw [countDigits, countDigits, Nat.mul_comm n, ← Nat.add_zero (10 * n), ← hAppend,
    List.length_append]
  rfl

/-- A zero behind a decimal that its exponent makes up for does not matter. -/
theorem ofDecimal?_mul_ten {coefficient : Nat} (h : coefficient ≠ 0) (exponent : Int) :
    ofDecimal? negative (coefficient * 10) (exponent - 1) =
      ofDecimal? negative coefficient exponent := by
  have hPlaces : (countDigits (coefficient * 10) : Int) + (exponent - 1) =
      countDigits coefficient + exponent := by
    rw [length_toDigits_mul_ten h]
    omega
  have hNonzero : coefficient * 10 ≠ 0 := by omega
  simp only [ofDecimal?, hPlaces, h, hNonzero, false_or]
  by_cases hWhole : 0 ≤ exponent - 1
  · have hPower : exponent.toNat = (exponent - 1).toNat + 1 := by omega
    have hMul : coefficient * 10 * Nat.pow 10 (exponent - 1).toNat =
        coefficient * Nat.pow 10 exponent.toNat := by
      rw [hPower, Nat.pow_eq, Nat.pow_eq, pow_succ]
      ring
    rw [if_pos hWhole, if_pos (show 0 ≤ exponent by omega), hMul]
  · have hPower : (-(exponent - 1)).toNat = (-exponent).toNat + 1 := by omega
    have hScaled : ofQuotient? negative (coefficient * 10) (Nat.pow 10 (-(exponent - 1)).toNat) =
        ofQuotient? negative coefficient (Nat.pow 10 (-exponent).toNat) := by
      rw [hPower, Nat.pow_eq, Nat.pow_eq, pow_succ, Nat.mul_comm coefficient, Nat.mul_comm (10 ^ _)]
      exact ofQuotient?_mul (by decide)
    rw [if_neg hWhole, hScaled]
    by_cases hZero : exponent = 0
    · subst hZero
      have hWritten : coefficient * Nat.pow 10 (0 : Int).toNat = coefficient := Nat.mul_one _
      have hUnit : Nat.pow 10 (-(0 : Int)).toNat = 1 := rfl
      rw [if_pos (show (0 : Int) ≤ 0 from le_rfl), hWritten, hUnit]
    · rw [if_neg (show ¬0 ≤ exponent by omega)]

/-- Zeros behind a decimal that its exponent makes up for do not matter. -/
theorem ofDecimal?_mul_pow {coefficient : Nat} (h : coefficient ≠ 0) (exponent : Int)
    (count : Nat) :
    ofDecimal? negative (coefficient * 10 ^ count) (exponent - count) =
      ofDecimal? negative coefficient exponent := by
  induction count with
  | zero =>
    rw [pow_zero, Nat.mul_one]
    exact congrArg _ (Int.sub_zero exponent)
  | succ count ih =>
    have hNonzero : coefficient * 10 ^ count ≠ 0 :=
      Nat.mul_ne_zero h (Nat.pos_iff_ne_zero.mp (Nat.pow_pos (by decide)))
    have hExponent : exponent - (count + 1 : Nat) = exponent - count - 1 := by omega
    rw [pow_succ, ← Nat.mul_assoc, hExponent, ofDecimal?_mul_ten hNonzero, ih]

/-- Leaving out zeros at the end keeps what a decimal rounds to. -/
theorem ofDecimal?_strip (bound : Nat) (d : Digits) :
    ofDecimal? negative (d.strip bound).coefficient (d.strip bound).exponent =
      ofDecimal? negative d.coefficient d.exponent := by
  induction bound generalizing d with
  | zero => rfl
  | succ bound ih =>
    rw [Digits.strip]
    split
    case isFalse => rfl
    case isTrue hZero =>
      have hSplit : d.coefficient / 10 * 10 = d.coefficient := by omega
      have hNonzero : d.coefficient / 10 ≠ 0 := by omega
      have hOne : ofDecimal? negative _ _ = _ := ofDecimal?_mul_ten hNonzero (d.exponent + 1)
      rw [hSplit, Int.add_sub_cancel] at hOne
      rw [ih, hOne]

end ProvideIndex.Binary64
