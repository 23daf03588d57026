import ProvideIndex.Programs.MachineReal

/-!
# Filling in formats

An item of a format begins with a percent sign and ends with the letter of its conversion. Between
them flags, a width and a precision say how the text is laid out.
-/

namespace ProvideIndex

/-- How an item is laid out. -/
structure Conversion where
  left : Bool
  plus : Bool
  space : Bool
  alternate : Bool
  zeros : Bool
  width : Nat
  precision : Option Nat
  deriving Repr

namespace Conversion

def plain : Conversion := ⟨false, false, false, false, false, 0, none⟩

def addFlag (item : Conversion) : Char → Conversion
  | '-' => { item with left := true }
  | '+' => { item with plus := true }
  | ' ' => { item with space := true }
  | '#' => { item with alternate := true }
  | '0' => { item with zeros := true }
  | _ => item

/-- A negative width stands for the flag that moves the text to the left. -/
def withWidth (item : Conversion) (width : Int) : Conversion :=
  { item with left := item.left || width < 0, width := width.natAbs }

/-- A text in its width. Zeros come between the start and the body. -/
def pad (item : Conversion) (withZeros : Bool) (start body : Raw) : Raw :=
  let missing := item.width - (start.length + body.length)
  if item.left then start ++ body ++ List.replicate missing ' '
  else if withZeros then start ++ List.replicate missing '0' ++ body
  else List.replicate missing ' ' ++ start ++ body

def text (item : Conversion) (raw : Raw) : Raw :=
  item.pad false [] (match item.precision with
    | some most => raw.take most
    | none => raw)

def character (item : Conversion) (c : Char) : Raw := item.pad false [] [c]

def signOf (item : Conversion) (negative : Bool) : Raw :=
  if negative then ['-'] else if item.plus then ['+'] else if item.space then [' '] else []

/-- Digits, at least as many as the precision asks for; zero has none if it asks for none. -/
def withPrecision (item : Conversion) (isZero : Bool) (digits : Raw) : Raw :=
  match item.precision with
  | some least =>
    if least = 0 && isZero then [] else List.replicate (least - digits.length) '0' ++ digits
  | none => digits

def padInteger (item : Conversion) (start digits : Raw) : Raw :=
  item.pad (item.zeros && item.precision.isNone) start digits

def signed (item : Conversion) (n : Int) : Raw :=
  item.padInteger (item.signOf (n < 0)) (item.withPrecision (n == 0) (Nat.toDigits 10 n.natAbs))

/-- A number without a sign, by the letter of its base. -/
def unsigned (item : Conversion) (letter : Char) (n : Nat) : Raw :=
  match letter with
  | 'o' =>
    let digits := item.withPrecision (n == 0) (Nat.toDigits 8 n)
    let needsZero := item.alternate && digits.head? != some '0'
    item.padInteger [] (if needsZero then '0' :: digits else digits)
  | 'x' | 'X' =>
    let digits := item.withPrecision (n == 0) (MachineReal.hexDigits (letter == 'X') n)
    item.padInteger (if item.alternate && n ≠ 0 then ['0', letter] else []) digits
  | _ => item.padInteger [] (item.withPrecision (n == 0) (Nat.toDigits 10 n))

/-- A real number, by the letter of its form. -/
def real (item : Conversion) (precision : Precision) (letter : Char) (x : MachineReal) : Raw :=
  let upper := letter.isUpper
  let word (text : String) : Raw :=
    item.pad false (item.signOf x.isNegative)
      (text.toList.map fun c => if upper then c.toUpper else c)
  let places := item.precision.getD 6
  match x with
  | .nan _ => word "nan"
  | .infinite _ => word "inf"
  | .finite negative significand exponent =>
    let sign := item.signOf negative
    let exponentLetter := if upper then 'E' else 'e'
    match letter.toLower with
    | 'f' =>
      item.pad item.zeros sign (MachineReal.fixed item.alternate places significand exponent)
    | 'e' =>
      item.pad item.zeros sign
        (MachineReal.scientific item.alternate exponentLetter places significand exponent)
    | 'g' =>
      item.pad item.zeros sign
        (MachineReal.general item.alternate exponentLetter places significand exponent)
    | _ =>
      item.pad item.zeros (sign ++ ['0', if upper then 'X' else 'x'])
        (MachineReal.hexadecimal precision item.alternate upper item.precision significand exponent)

end Conversion

end ProvideIndex
