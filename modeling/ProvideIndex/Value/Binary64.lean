/-!
# Finite binary64 numbers

A finite number of 64 bits is a sign and a whole number of binary units: the value is
`mantissa · 2 ^ (scale - 1074)`. `ofDecimal?` rounds a decimal to the nearest such number, a half to
the even neighbour, in exact arithmetic; `digits` finds the fewest decimal digits that round back.
-/

namespace ProvideIndex

structure Binary64 where
  negative : Bool
  mantissa : Nat
  scale : Nat
  mantissa_lt : mantissa < 1 <<< 53
  scale_le : scale ≤ 2045
  normal : scale = 0 ∨ 1 <<< 52 ≤ mantissa
  deriving DecidableEq, Repr

namespace Binary64

def zero (negative : Bool) : Binary64 := ⟨negative, 0, 0, by decide, by decide, .inl rfl⟩

/-- The number with these parts, if there is one. -/
def ofParts? (negative : Bool) (mantissa scale : Nat) : Option Binary64 :=
  if h : mantissa < 1 <<< 53 ∧ scale ≤ 2045 ∧ (scale = 0 ∨ 1 <<< 52 ≤ mantissa) then
    some ⟨negative, mantissa, scale, h.1, h.2.1, h.2.2⟩
  else none

/-- The whole number nearest to a quotient, the even one if two are. -/
def roundQuotient (numerator denominator : Nat) : Nat :=
  let quotient := numerator / denominator
  let rest := 2 * (numerator % denominator)
  if rest < denominator then quotient
  else if denominator < rest then quotient + 1
  else quotient + quotient % 2

/-- The number nearest to a quotient; a quotient that is too large has none. -/
def ofQuotient? (negative : Bool) (numerator denominator : Nat) : Option Binary64 :=
  let units := numerator <<< 1074
  let scale := (units / denominator).log2 - 52
  let mantissa := roundQuotient units (denominator <<< scale)
  if mantissa = 1 <<< 53 then ofParts? negative (1 <<< 52) (scale + 1)
  else ofParts? negative mantissa scale

def countDigits (n : Nat) : Nat := (Nat.toDigits 10 n).length

/--
The number nearest to `coefficient · 10 ^ exponent`. A decimal of more than 310 places before the
point has none, and one that starts more than 330 places behind it is nearest to zero.
-/
def ofDecimal? (negative : Bool) (coefficient : Nat) (exponent : Int) : Option Binary64 :=
  let places := countDigits coefficient + exponent
  if coefficient = 0 ∨ places < -330 then some (zero negative)
  else if 310 < places then none
  else if 0 ≤ exponent then ofQuotient? negative (coefficient * Nat.pow 10 exponent.toNat) 1
  else ofQuotient? negative coefficient (Nat.pow 10 (-exponent).toNat)

/-- Decimal digits, as a coefficient and the place of its last digit. -/
structure Digits where
  coefficient : Nat
  exponent : Int
  deriving DecidableEq, Repr

/-- Leaves out zeros at the end; `bound` limits how many. -/
def Digits.strip (d : Digits) : Nat → Digits
  | 0 => d
  | bound + 1 =>
    if d.coefficient ≠ 0 ∧ d.coefficient % 10 = 0 then
      Digits.strip ⟨d.coefficient / 10, d.exponent + 1⟩ bound
    else d

def numerator (x : Binary64) : Nat := x.mantissa <<< x.scale

/-- The number of places before the point of a positive number; zeros behind it count negatively. -/
def places (x : Binary64) : Int :=
  let unit := 1 <<< 1074
  if unit ≤ x.numerator then countDigits (x.numerator / unit)
  else
    let zeros := countDigits (unit / x.numerator)
    if unit ≤ x.numerator * Nat.pow 10 (zeros - 1) then 2 - zeros else 1 - zeros

/-- Whether a decimal rounds to this number. -/
def isReadFrom (x : Binary64) (d : Digits) : Bool :=
  ofDecimal? x.negative d.coefficient d.exponent == some x

/-- The decimals of `count` digits on both sides of the number, the nearer one first. -/
def neighbours (x : Binary64) (count : Nat) : List Digits :=
  let exponent := x.places - count
  let (num, den) :=
    if 0 ≤ exponent then (x.numerator, Nat.pow 10 exponent.toNat <<< 1074)
    else (x.numerator * Nat.pow 10 (-exponent).toNat, 1 <<< 1074)
  let below := num / den
  let rest := 2 * (num % den)
  if rest < den ∨ (rest = den ∧ below % 2 = 0) then [⟨below, exponent⟩, ⟨below + 1, exponent⟩]
  else [⟨below + 1, exponent⟩, ⟨below, exponent⟩]

/-- Tries `count` digits, and more until the budget is spent. -/
def digitsFrom (x : Binary64) (count : Nat) : Nat → Digits
  | 0 => (x.neighbours count).headD ⟨0, 0⟩
  | budget + 1 =>
    match (x.neighbours count).find? x.isReadFrom with
    | some found => found
    | none => digitsFrom x (count + 1) budget

/-- The fewest digits that round to the number; seventeen always do. -/
def digits (x : Binary64) : Digits :=
  if x.mantissa = 0 then ⟨0, 0⟩ else (x.digitsFrom 1 16).strip 20

/-- How a number is laid out. -/
structure Layout where
  /-- The largest count of places before the point that is written without an exponent. -/
  mostPlaces : Int
  /-- The largest count of zeros behind the point that is written without an exponent. -/
  mostZeros : Int
  /-- Whether an exponent that is not negative has a plus sign. -/
  plusSign : Bool
  deriving Repr

/-- Numbers from 1e-5 up to 1e16 are written out. -/
def Layout.plain : Layout := ⟨16, 4, false⟩

/-- The same numbers are written out, and the others have exponents with a sign. -/
def Layout.signed : Layout := ⟨16, 4, true⟩

/-- The number with a point in it, or with an exponent. -/
def text (layout : Layout) (x : Binary64) : List Char :=
  let d := x.digits
  let written := Nat.toDigits 10 d.coefficient
  let places := written.length + d.exponent
  let sign := if x.negative then ['-'] else []
  sign ++
    if x.mantissa = 0 then ['0', '.', '0']
    else if 0 ≤ d.exponent ∧ places ≤ layout.mostPlaces then
      written ++ List.replicate d.exponent.toNat '0' ++ ['.', '0']
    else if 0 < places ∧ places ≤ layout.mostPlaces then
      written.take places.toNat ++ '.' :: written.drop places.toNat
    else if -layout.mostZeros ≤ places ∧ places ≤ 0 then
      ['0', '.'] ++ List.replicate (-places).toNat '0' ++ written
    else
      let plus := if layout.plusSign ∧ 0 < places then ['+'] else []
      let exponent := 'e' :: plus ++ (toString (places - 1)).toList
      match written with
      | [digit] => digit :: exponent
      | digit :: more => digit :: '.' :: more ++ exponent
      | [] => exponent

end Binary64

end ProvideIndex
