import ProvideIndex.Raw
import ProvideIndex.Text.Digits
import ProvideIndex.Value.Binary64

/-!
# Real numbers of limited precision

What a machine makes of a real number that is written as a text: the nearest number with so many
binary digits, a half going to the even neighbour. All is done in exact arithmetic.
-/

namespace ProvideIndex

/-- Which numbers there are. -/
structure Precision where
  /-- How many binary digits a number has. -/
  bits : Nat
  /-- The exponent of the least unit. -/
  least : Int
  /-- The exponent of the first power of two that is too large. -/
  most : Int
  /-- How many binary digits stand before the point when a number is written in base sixteen. -/
  leading : Nat

def Precision.double : Precision := ⟨53, -1074, 1024, 1⟩

def Precision.extended : Precision := ⟨64, -16445, 16384, 4⟩

inductive MachineReal where
  | nan (negative : Bool)
  | infinite (negative : Bool)
  /-- The number `significand · 2 ^ exponent`. -/
  | finite (negative : Bool) (significand : Nat) (exponent : Int)
  deriving Repr

namespace MachineReal

def isNegative : MachineReal → Bool
  | nan negative => negative
  | infinite negative => negative
  | finite negative _ _ => negative

/-- A number that was read, what follows it, and whether it had no good approximation. -/
structure Found where
  value : MachineReal
  rest : Raw
  outOfRange : Bool

/-- The quotient with `2 ^ exponent` moved to where it stays whole. -/
def scaled (numerator denominator : Nat) (exponent : Int) : Nat × Nat :=
  if 0 ≤ exponent then (numerator, denominator <<< exponent.toNat)
  else (numerator <<< (-exponent).toNat, denominator)

/-- The number nearest to a quotient, and whether it is out of range. -/
def ofQuotient (precision : Precision) (negative : Bool) (numerator denominator : Nat) :
    MachineReal × Bool :=
  if numerator = 0 then (finite negative 0 0, false)
  else
    let guess : Int := numerator.log2 - denominator.log2
    let (top, bottom) := scaled numerator denominator guess
    let log := if bottom ≤ top then guess else guess - 1
    let exponent := max precision.least (log - precision.bits + 1)
    let (top, bottom) := scaled numerator denominator exponent
    let significand := Binary64.roundQuotient top bottom
    if precision.most ≤ significand.log2 + exponent then (infinite negative, true)
    else
      let isSmall := significand < 1 <<< (precision.bits - 1)
      (finite negative significand exponent, isSmall && top % bottom ≠ 0)

/-- The number nearest to `coefficient · base ^ exponent`. -/
def ofPower (precision : Precision) (negative : Bool) (coefficient base : Nat) (exponent : Int) :
    MachineReal × Bool :=
  let places := (Nat.toDigits base coefficient).length + exponent
  if coefficient = 0 then (finite negative 0 0, false)
  else if 20000 < places then (infinite negative, true)
  else if places < -20000 then (finite negative 0 0, true)
  else if 0 ≤ exponent then
    ofQuotient precision negative (coefficient * Nat.pow base exponent.toNat) 1
  else ofQuotient precision negative coefficient (Nat.pow base (-exponent).toNat)

/-! ## Reading -/

/-- An exponent after its letter, and how long it is; without digits it has no length. -/
def exponentAfter (letter : Char) (text : Raw) : Int × Nat :=
  match text with
  | c :: rest =>
    if c.toLower == letter then
      let (negative, signed) := match rest with
        | '-' :: more => (true, more)
        | '+' :: more => (false, more)
        | more => (false, more)
      let digits := signed.takeWhile Char.isDigit
      if digits.isEmpty then (0, 0)
      else
        let size : Int := Text.natural (digits.take 12)
        (if negative then -size else size, 1 + (rest.length - signed.length) + digits.length)
    else (0, 0)
  | [] => (0, 0)

/-- Digits with a point among them, in base ten or sixteen. -/
def digitsOf? (precision : Precision) (negative : Bool) (base : Nat) (text : Raw) :
    Option Found :=
  let isDigit (c : Char) : Bool := (Text.hexValue? c).any (· < base)
  let whole := text.takeWhile isDigit
  let afterWhole := text.drop whole.length
  let fraction := match afterWhole with
    | '.' :: rest => rest.takeWhile isDigit
    | _ => []
  let afterPoint := if afterWhole.head? == some '.' then afterWhole.drop 1 else afterWhole
  let rest := afterPoint.drop fraction.length
  if whole.isEmpty && fraction.isEmpty then none
  else
    let coefficient := (Text.number? base (whole ++ fraction)).getD 0
    let (exponent, length) := exponentAfter (if base = 16 then 'p' else 'e') rest
    let (value, outOfRange) :=
      if base = 16 then
        ofPower precision negative coefficient 2 (exponent - 4 * fraction.length)
      else ofPower precision negative coefficient 10 (exponent - fraction.length)
    some ⟨value, rest.drop length, outOfRange⟩

/-- What follows a word, whose letters may be small or large. -/
def after? (word : String) (text : Raw) : Option Raw :=
  if (text.take word.length).map Char.toLower == word.toList then some (text.drop word.length)
  else none

/-- The remark in parentheses that may follow a text that is no number. -/
def afterRemark (text : Raw) : Raw :=
  match text with
  | '(' :: rest =>
    match rest.dropWhile fun c => c.isAlphanum || c == '_' with
    | ')' :: more => more
    | _ => text
  | _ => text

def isSpace (c : Char) : Bool := c == ' ' || (0x09 ≤ c.toNat && c.toNat ≤ 0x0d)

/-- The number at the beginning of a text. -/
def read? (precision : Precision) (text : Raw) : Option Found :=
  let (negative, unsigned) := match text.dropWhile isSpace with
    | '-' :: rest => (true, rest)
    | '+' :: rest => (false, rest)
    | rest => (false, rest)
  match after? "nan" unsigned with
  | some rest => some ⟨nan negative, afterRemark rest, false⟩
  | none =>
    match (after? "infinity" unsigned).or (after? "inf" unsigned) with
    | some rest => some ⟨infinite negative, rest, false⟩
    | none =>
      match (after? "0x" unsigned).bind (digitsOf? precision negative 16) with
      | some found => some found
      | none => digitsOf? precision negative 10 unsigned

/-! ## Writing -/

/-- The whole number nearest to `significand · 2 ^ exponent · 10 ^ places`. -/
def times (significand : Nat) (exponent places : Int) : Nat :=
  let top := if 0 ≤ places then significand * Nat.pow 10 places.toNat else significand
  let bottom := if 0 ≤ places then 1 else Nat.pow 10 (-places).toNat
  let (top, bottom) := scaled top bottom (-exponent)
  Binary64.roundQuotient top bottom

/-- The digits of a number with a point before the last `places` ones. -/
def pointed (alternate : Bool) (places n : Nat) : Raw :=
  let digits := Nat.toDigits 10 n
  let padded := List.replicate (places + 1 - digits.length) '0' ++ digits
  let whole := padded.take (padded.length - places)
  let fraction := padded.drop (padded.length - places)
  if fraction.isEmpty then (if alternate then whole ++ ['.'] else whole)
  else whole ++ '.' :: fraction

/-- The digits of a number with so many places behind the point. -/
def fixed (alternate : Bool) (places significand : Nat) (exponent : Int) : Raw :=
  pointed alternate places (times significand exponent places)

def exponentText (letter : Char) (least : Nat) (exponent : Int) : Raw :=
  let digits := Nat.toDigits 10 exponent.natAbs
  letter :: (if exponent < 0 then '-' else '+') ::
    (List.replicate (least - digits.length) '0' ++ digits)

/-- Rounds to `places + 1` digits: the digits as a number, and the exponent of the first one. -/
def rounded (places significand : Nat) (exponent : Int) : Nat × Int :=
  if significand = 0 then (0, 0)
  else
    let bits : Int := significand.log2 + exponent
    let guess := bits * 30103 / 100000 - 1
    let firstFits (first : Int) : Bool :=
      let (top, bottom) := scaled significand 1 (-exponent)
      if 0 ≤ first then bottom * Nat.pow 10 first.toNat ≤ top
      else bottom ≤ top * Nat.pow 10 (-first).toNat
    let first := ([guess + 3, guess + 2, guess + 1].find? firstFits).getD guess
    let digits := times significand exponent (places - first)
    if Nat.pow 10 (places + 1) ≤ digits then (digits / 10, first + 1) else (digits, first)

def scientific (alternate : Bool) (letter : Char) (places significand : Nat) (exponent : Int) :
    Raw :=
  let (digits, first) := rounded places significand exponent
  pointed alternate places digits ++ exponentText letter 2 first

/-- The shorter of both forms, with so many digits that count. -/
def general (alternate : Bool) (letter : Char) (count significand : Nat) (exponent : Int) : Raw :=
  let count := max 1 count
  let (digits, first) := rounded (count - 1) significand exponent
  let strip (text : Raw) : Raw :=
    if alternate || !text.contains '.' then text
    else ((text.reverse.dropWhile (· == '0')).dropWhile (· == '.')).reverse
  if first < -4 ∨ (count : Int) ≤ first then
    strip (pointed alternate (count - 1) digits) ++ exponentText letter 2 first
  else strip (fixed alternate (count - 1 - first).toNat significand exponent)

def hexDigits (upper : Bool) (n : Nat) : Raw :=
  let digits := Nat.toDigits 16 n
  if upper then digits.map Char.toUpper else digits

/-- A number in base sixteen, with an exponent of base two. -/
def hexadecimal (precision : Precision) (alternate upper : Bool) (places : Option Nat)
    (significand : Nat) (exponent : Int) : Raw :=
  let all := (precision.bits - precision.leading) / 4
  let shift := precision.bits - 1 - significand.log2
  let isSmall := exponent - shift < precision.least
  let shift := if isSmall then (exponent - precision.least).toNat else shift
  let full := significand <<< shift
  let scale := if significand = 0 then 0 else exponent - shift + (4 * all : Nat)
  let (digits, count) := match places with
    | some count =>
      if count < all then (Binary64.roundQuotient full (1 <<< (4 * (all - count))), count)
      else (full <<< (4 * (count - all)), count)
    | none => (full, all)
  let written := hexDigits upper digits
  let padded := List.replicate (count + 1 - written.length) '0' ++ written
  let whole := padded.take (padded.length - count)
  let fraction := padded.drop (padded.length - count)
  let fraction := if places.isSome then fraction else
    (fraction.reverse.dropWhile (· == '0')).reverse
  let body := if fraction.isEmpty && !alternate then whole else whole ++ '.' :: fraction
  body ++ exponentText (if upper then 'P' else 'p') 1 scale

end MachineReal

end ProvideIndex
