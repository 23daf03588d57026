import ProvideIndex.Text.Digits
import ProvideIndex.Value.Binary64

/-!
# Reading decimals

A sign, digits with a point among them or beside them, and an exponent, in the forms of ordinary
number literals.
-/

namespace ProvideIndex.Decimal

/-- A minus sign, a plus sign, or none. -/
def sign : List Char → Bool × List Char
  | '-' :: rest => (true, rest)
  | '+' :: rest => (false, rest)
  | rest => (false, rest)

/-- The exponent at the end of a literal. -/
def exponent? : List Char → Option Int
  | [] => some 0
  | c :: rest =>
    let (negative, digits) := sign rest
    if (c == 'e' || c == 'E') && !digits.isEmpty && digits.all Char.isDigit then
      some (if negative then -(Text.natural digits) else Text.natural digits)
    else none

/-- The number nearest to a literal that has at least one digit before its exponent. -/
def float? (text : List Char) : Option Binary64 := do
  let (negative, unsigned) := sign text
  let (whole, afterWhole) := unsigned.span Char.isDigit
  let (fraction, afterFraction) := match afterWhole with
    | '.' :: rest => rest.span Char.isDigit
    | rest => ([], rest)
  let exponent ← exponent? afterFraction
  let digits := whole ++ fraction
  if digits.isEmpty then none
  else Binary64.ofDecimal? negative (Text.natural digits) (exponent - fraction.length)

end ProvideIndex.Decimal
