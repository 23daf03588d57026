import ProvideIndex.Proofs.Value.Rounding

/-!
# Digits that are read back

The digits that are written for a number are those of a decimal that rounds to it. Most are found by
trying; that seventeen always do needs the size of the number: they leave less than one part in
`2 · 10 ^ 16` open.

* `sized_places`, `grid_bounds`: in units of its seventeenth place a number has seventeen places.
* `ofDecimal?_of_near`: the nearest decimal of seventeen digits rounds to the number.
* `ofDecimal?_digits`: so do the digits that are written.
-/

namespace ProvideIndex.Binary64

/-! ### Counting digits -/

theorem countDigits_pos (n : Nat) : 0 < countDigits n := Nat.length_toDigits_pos

theorem countDigits_le_iff {n count : Nat} (h : 0 < count) :
    countDigits n ≤ count ↔ n < 10 ^ count := Nat.length_toDigits_le_iff (by decide) h

theorem lt_pow_countDigits (n : Nat) : n < 10 ^ countDigits n :=
  (countDigits_le_iff (countDigits_pos n)).mp le_rfl

theorem pow_countDigits_le {n : Nat} (h : n ≠ 0) : 10 ^ (countDigits n - 1) ≤ n := by
  by_contra hLess
  by_cases hOne : countDigits n - 1 = 0
  · rw [hOne] at hLess
    omega
  · have hFewer := (countDigits_le_iff (Nat.pos_of_ne_zero hOne)).mpr (Nat.not_le.mp hLess)
    have := countDigits_pos n
    omega

variable {x : Binary64}

/-! ### The size of a number -/

/-- How many binary units make one. -/
def one : Nat := 1 <<< 1074

theorem one_pos : 0 < one := by decide +kernel

theorem shiftLeft_eq_mul (n count : Nat) : n <<< count = n * 1 <<< count := by
  rw [Nat.shiftLeft_eq, Nat.shiftLeft_eq, Nat.one_mul]

theorem shiftLeft_eq_mul_one (n : Nat) : n <<< 1074 = n * one := shiftLeft_eq_mul n 1074

theorem numerator_pos (h : x.mantissa ≠ 0) : 0 < x.numerator := by
  rw [numerator, Nat.shiftLeft_eq]
  exact Nat.mul_pos (Nat.pos_of_ne_zero h) (Nat.two_pow_pos _)

theorem numerator_lt_of_le {top : Nat} (h : x.scale ≤ top) : x.numerator < 2 ^ 53 * 2 ^ top := by
  have hScale : 2 ^ x.scale ≤ 2 ^ top := Nat.pow_le_pow_right (by decide) h
  have hMantissa : x.mantissa < 2 ^ 53 := x.mantissa_lt
  rw [numerator, Nat.shiftLeft_eq]
  calc x.mantissa * 2 ^ x.scale < 2 ^ 53 * 2 ^ x.scale :=
        Nat.mul_lt_mul_of_pos_right hMantissa (Nat.two_pow_pos _)
    _ ≤ 2 ^ 53 * 2 ^ top := Nat.mul_le_mul_left _ hScale

/-- No number has more than 309 places before the point. -/
theorem numerator_lt (x : Binary64) : x.numerator < 10 ^ 309 * one :=
  Nat.lt_of_lt_of_le (numerator_lt_of_le x.scale_le) (by decide +kernel)

theorem lt_of_pow_mul_lt {count top factor : Nat} (h : 10 ^ count * factor < 10 ^ top * factor) :
    count < top :=
  (Nat.pow_lt_pow_iff_right (by decide)).mp (Nat.lt_of_mul_lt_mul_right h)

/-- Whether a number lies between two powers of ten, told by its places before the point. -/
inductive Sized (x : Binary64) : Int → Prop where
  | large {count : Nat} (hLow : 10 ^ count * one ≤ x.numerator)
      (hHigh : x.numerator < 10 ^ (count + 1) * one) (hCount : count ≤ 308) :
      Sized x (count + 1)
  | small {zeros : Nat} (hLow : one ≤ x.numerator * 10 ^ (zeros + 1))
      (hHigh : x.numerator * 10 ^ zeros < one) (hZeros : zeros ≤ 323) : Sized x (-zeros)
  | unit {zeros : Nat} (h : one = x.numerator * 10 ^ zeros) (hZeros : zeros ≤ 323) :
      Sized x (1 - zeros)

theorem sized_places (h : x.mantissa ≠ 0) : x.Sized x.places := by
  have hPositive := numerator_pos h
  have hPlaces : x.places = if one ≤ x.numerator then (countDigits (x.numerator / one) : Int)
      else if one ≤ x.numerator * 10 ^ (countDigits (one / x.numerator) - 1) then
        2 - countDigits (one / x.numerator)
      else 1 - countDigits (one / x.numerator) := rfl
  rw [hPlaces]
  split
  case isTrue hLarge =>
    have hQuotient : x.numerator / one ≠ 0 :=
      Nat.pos_iff_ne_zero.mp (Nat.div_pos hLarge one_pos)
    have hLow := (Nat.le_div_iff_mul_le one_pos).mp (pow_countDigits_le hQuotient)
    have hHigh := (Nat.div_lt_iff_lt_mul one_pos).mp (lt_pow_countDigits (x.numerator / one))
    obtain ⟨count, hCount⟩ := Nat.exists_eq_add_of_lt (countDigits_pos (x.numerator / one))
    rw [Nat.zero_add] at hCount
    rw [hCount] at hLow hHigh ⊢
    refine .large hLow hHigh (Nat.lt_succ_iff.mp ?_)
    have hPower := Nat.lt_of_le_of_lt hLow x.numerator_lt
    exact @lt_of_pow_mul_lt count 309 one hPower
  case isFalse hSmall =>
    have hQuotient : one / x.numerator ≠ 0 :=
      Nat.pos_iff_ne_zero.mp (Nat.div_pos (Nat.not_le.mp hSmall).le hPositive)
    have hLow := (Nat.le_div_iff_mul_le hPositive).mp (pow_countDigits_le hQuotient)
    have hHigh := (Nat.div_lt_iff_lt_mul hPositive).mp (lt_pow_countDigits (one / x.numerator))
    obtain ⟨zeros, hZeros⟩ := Nat.exists_eq_add_of_lt (countDigits_pos (one / x.numerator))
    rw [Nat.zero_add] at hZeros
    rw [hZeros, Nat.add_sub_cancel] at hLow ⊢
    have hBound : zeros ≤ 323 := by
      have hOne : one < 10 ^ 324 * 1 := by decide +kernel
      have hPower : 10 ^ zeros * 1 ≤ 10 ^ zeros * x.numerator := Nat.mul_le_mul_left _ hPositive
      have hLess := Nat.lt_of_le_of_lt (Nat.le_trans hPower hLow) hOne
      exact Nat.lt_succ_iff.mp (@lt_of_pow_mul_lt zeros 324 1 hLess)
    rw [hZeros] at hHigh
    rw [Nat.mul_comm] at hLow hHigh
    split
    case isTrue hUnit =>
      have hCast : (2 : Int) - (zeros + 1 : Nat) = 1 - zeros := by omega
      rw [hCast]
      exact .unit (Nat.le_antisymm hUnit hLow) hBound
    case isFalse hLess =>
      have hCast : (1 : Int) - (zeros + 1 : Nat) = -zeros := by omega
      rw [hCast]
      exact .small hHigh.le (Nat.not_le.mp hLess) hBound

/-! ### Decimal places -/

/-- The number in units of a decimal place is the quotient of this and `gridBase`. -/
def gridUnits (x : Binary64) (exponent : Int) : Nat := x.numerator * 10 ^ (-exponent).toNat

def gridBase (exponent : Int) : Nat := 10 ^ exponent.toNat * one

/-- In units of its seventeenth place a number has seventeen places. -/
theorem grid_bounds {places : Int} (h : x.Sized places) :
    10 ^ 16 * gridBase (places - 17) ≤ x.gridUnits (places - 17) ∧
      x.gridUnits (places - 17) < 10 ^ 17 * gridBase (places - 17) := by
  rw [gridBase, gridUnits]
  cases h with
  | @large count hLow hHigh hCount =>
    have hExponent :
        ((count : Int) + 1 - 17).toNat + 16 = count + (-((count : Int) + 1 - 17)).toNat := by
      omega
    generalize ((count : Int) + 1 - 17).toNat = above at *
    generalize (-((count : Int) + 1 - 17)).toNat = below at *
    have hLess : 10 ^ 16 * (10 ^ above * one) = 10 ^ below * (10 ^ count * one) := by
      rw [← Nat.mul_assoc, ← Nat.mul_assoc, ← pow_add, ← pow_add, Nat.add_comm 16, hExponent,
        Nat.add_comm count]
    have hMore : 10 ^ 17 * (10 ^ above * one) = 10 ^ below * (10 ^ (count + 1) * one) := by
      rw [pow_succ, pow_succ 10 count, Nat.mul_right_comm, hLess]
      ring
    rw [hLess, hMore, Nat.mul_comm x.numerator]
    exact ⟨Nat.mul_le_mul_left _ hLow, Nat.mul_lt_mul_of_pos_left hHigh (Nat.pow_pos (by decide))⟩
  | @small zeros hLow hHigh hZeros =>
    have hAbove : (-(zeros : Int) - 17).toNat = 0 := by omega
    have hBelow : (-(-(zeros : Int) - 17)).toNat = zeros + 17 := by omega
    have hLess : x.numerator * 10 ^ (zeros + 17) = 10 ^ 16 * (x.numerator * 10 ^ (zeros + 1)) := by
      ring
    have hMore : x.numerator * 10 ^ (zeros + 17) = 10 ^ 17 * (x.numerator * 10 ^ zeros) := by ring
    rw [hAbove, hBelow, pow_zero, Nat.one_mul]
    refine ⟨?_, ?_⟩
    · rw [hLess]
      exact Nat.mul_le_mul_left _ hLow
    · rw [hMore]
      exact Nat.mul_lt_mul_of_pos_left hHigh (by decide)
  | @unit zeros h hZeros =>
    have hAbove : (1 - (zeros : Int) - 17).toNat = 0 := by omega
    have hBelow : (-(1 - (zeros : Int) - 17)).toNat = zeros + 16 := by omega
    have hSame : x.numerator * 10 ^ (zeros + 16) = 10 ^ 16 * one := by
      rw [h]
      ring
    rw [hAbove, hBelow, pow_zero, Nat.one_mul, hSame]
    exact ⟨le_rfl, Nat.mul_lt_mul_of_pos_right (by decide) one_pos⟩

/-! ### The nearest decimal -/

/-- The first of the neighbours is the nearest decimal of so many digits. -/
theorem head?_neighbours (x : Binary64) (count : Nat) :
    ∃ nearest, (x.neighbours count).head? = some ⟨nearest, x.places - count⟩ ∧
      2 * (nearest * gridBase (x.places - count)) ≤
        2 * x.gridUnits (x.places - count) + gridBase (x.places - count) ∧
      2 * x.gridUnits (x.places - count) ≤
        2 * (nearest * gridBase (x.places - count)) + gridBase (x.places - count) := by
  have hQuotient : (if 0 ≤ x.places - count then
      (x.numerator, Nat.pow 10 (x.places - count).toNat <<< 1074)
      else (x.numerator * Nat.pow 10 (-(x.places - count)).toNat, 1 <<< 1074)) =
      (x.gridUnits (x.places - count), gridBase (x.places - count)) := by
    generalize x.places - count = exponent
    rw [gridUnits, gridBase]
    split
    case isTrue hWhole =>
      have hNone : (-exponent).toNat = 0 := by omega
      rw [hNone, pow_zero, Nat.mul_one, shiftLeft_eq_mul_one]
      rfl
    case isFalse hFraction =>
      have hNone : exponent.toNat = 0 := by omega
      rw [hNone, pow_zero, Nat.one_mul]
      rfl
  have hPositive : 0 < gridBase (x.places - count) :=
    Nat.mul_pos (Nat.pow_pos (by decide)) one_pos
  rw [neighbours, hQuotient]
  generalize x.gridUnits (x.places - count) = units at *
  generalize gridBase (x.places - count) = base at *
  have hSplit := Nat.div_add_mod units base
  have hRest := Nat.mod_lt units hPositive
  simp only
  generalize units / base = below at *
  generalize units % base = rest at *
  rw [Nat.mul_comm] at hSplit
  split
  case isTrue hNear =>
    exact ⟨below, rfl, by omega, by omega⟩
  case isFalse hFar =>
    refine ⟨below + 1, rfl, ?_, ?_⟩
    · rw [Nat.add_mul, Nat.one_mul]
      omega
    · rw [Nat.add_mul, Nat.one_mul]
      omega

/-- A decimal that is near to a number in units of its last place rounds to it. -/
theorem ofDecimal?_of_near {places : Int} {coefficient : Nat} (h : x.Sized places)
    (hHigh : 2 * (coefficient * gridBase (places - 17)) ≤
      2 * x.gridUnits (places - 17) + gridBase (places - 17))
    (hLow : 2 * x.gridUnits (places - 17) ≤
      2 * (coefficient * gridBase (places - 17)) + gridBase (places - 17)) :
    ofDecimal? x.negative coefficient (places - 17) = some x := by
  have hPositive : 0 < gridBase (places - 17) := Nat.mul_pos (Nat.pow_pos (by decide)) one_pos
  obtain ⟨hLeast, hMost⟩ := grid_bounds h
  have hNear : Near (coefficient * gridBase (places - 17)) (x.gridUnits (places - 17)) := by
    constructor <;> omega
  have hRange : -323 ≤ places ∧ places ≤ 309 := by
    cases h <;> omega
  have hLarge : 10 ^ 16 ≤ coefficient := by
    by_contra hLess
    have hMul : coefficient * gridBase (places - 17) ≤ (10 ^ 16 - 1) * gridBase (places - 17) :=
      Nat.mul_le_mul_right _ (by omega)
    omega
  have hSmall : coefficient ≤ 10 ^ 17 := by
    by_contra hMore
    have hMul : (10 ^ 17 + 1) * gridBase (places - 17) ≤ coefficient * gridBase (places - 17) :=
      Nat.mul_le_mul_right _ (by omega)
    omega
  have hMoreDigits : 16 < countDigits coefficient := by
    by_contra hFewer
    have := (countDigits_le_iff (by decide)).mp (Nat.not_lt.mp hFewer)
    omega
  have hFewDigits : countDigits coefficient ≤ 18 := (countDigits_le_iff (by decide)).mpr (by omega)
  have hNonzero : coefficient ≠ 0 := by omega
  have hNotTiny : ¬(coefficient = 0 ∨ (countDigits coefficient : Int) + (places - 17) < -330) := by
    omega
  have hNotHuge : ¬310 < (countDigits coefficient : Int) + (places - 17) := by omega
  simp only [ofDecimal?, if_neg hNotTiny, if_neg hNotHuge]
  rw [gridBase, gridUnits] at hNear
  split
  case isTrue hWhole =>
    refine ofQuotient?_of_near x (by decide) ?_
    have hNone : (-(places - 17)).toNat = 0 := by omega
    rw [hNone, pow_zero, ← Nat.mul_assoc] at hNear
    rwa [shiftLeft_eq_mul_one]
  case isFalse hFraction =>
    refine ofQuotient?_of_near x (Nat.pow_pos (by decide)) ?_
    have hNone : (places - 17).toNat = 0 := by omega
    rw [hNone, pow_zero, Nat.one_mul] at hNear
    rwa [shiftLeft_eq_mul_one]

/-- Trying one count of digits after another ends, at seventeen, with digits that are read back. -/
theorem isReadFrom_digitsFrom (h : x.mantissa ≠ 0) {count budget : Nat}
    (hCount : count + budget = 17) : x.isReadFrom (x.digitsFrom count budget) = true := by
  induction budget generalizing count with
  | zero =>
    obtain rfl : count = 17 := hCount
    obtain ⟨nearest, hHead, hHigh, hLow⟩ := x.head?_neighbours 17
    have hFirst : x.digitsFrom 17 0 = ⟨nearest, x.places - 17⟩ := by
      rw [digitsFrom, List.headD_eq_head?_getD, hHead]
      rfl
    rw [hFirst]
    exact beq_of_eq (ofDecimal?_of_near (sized_places h) hHigh hLow)
  | succ budget ih =>
    rw [digitsFrom]
    cases hFound : (x.neighbours count).find? x.isReadFrom with
    | some found => exact List.find?_some hFound
    | none => exact ih (by omega)

/-- The digits that are written for a number round to it. -/
theorem ofDecimal?_digits (h : x.mantissa ≠ 0) :
    ofDecimal? x.negative x.digits.coefficient x.digits.exponent = some x := by
  rw [digits, if_neg h, ofDecimal?_strip]
  exact eq_of_beq (isReadFrom_digitsFrom h rfl)

end ProvideIndex.Binary64
