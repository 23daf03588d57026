import ProvideIndex.Text.Match
import ProvideIndex.Value.Basic
import ProvideIndex.Value.Decimal
import ProvideIndex.Yaml.Node
import ProvideIndex.Yaml.Tag

/-!
# What a scalar means

A plain scalar may stand for null, a truth value or a number; any other is the text itself. A tag of
the core schema forces one of these readings.
-/

namespace ProvideIndex.Yaml.Scalar

def isNull (text : List Char) : Bool :=
  ["null", "Null", "NULL", "~"].contains (String.ofList text)

def bool? (text : List Char) : Option Bool :=
  let text := String.ofList text
  if ["true", "True", "TRUE"].contains text then some true
  else if ["false", "False", "FALSE"].contains text then some false
  else none

/-- More than one digit with a zero in front, after an optional sign: a text, not a number. -/
def isPaddedDigits (text : List Char) : Bool :=
  match (Decimal.sign text).2 with
  | '0' :: c :: rest => (c :: rest).all Char.isDigit
  | _ => false

/-- Digits of a base as a number. -/
def digits? (base : Nat) (text : List Char) : Option Nat :=
  if text.isEmpty then none else Text.number? base text

/-- The base that a text names, and the digits after it. -/
def based? : List Char → Option (Nat × List Char)
  | '0' :: 'x' :: rest => some (16, rest)
  | '0' :: 'o' :: rest => some (8, rest)
  | '0' :: 'b' :: rest => some (2, rest)
  | _ => none

/-- Digits without a sign, in a base that is named or in base ten. -/
def magnitude? (text : List Char) : Option Nat :=
  match based? text with
  | some (base, digits) => digits? base digits
  | none => if isPaddedDigits text then none else digits? 10 text

/-- A whole number without a minus sign. -/
def natural? : List Char → Option Nat
  | '+' :: rest => magnitude? rest
  | text => magnitude? text

/-- A number after a minus sign. -/
def negated? : List Char → Option Nat
  | '-' :: rest => magnitude? rest
  | _ => none

/-- The numbers that are beyond the range of a value and are still taken for whole numbers. -/
def isWide (natural negated : Option Nat) : Bool :=
  natural.any (· < 1 <<< 128) || negated.any (· ≤ 1 <<< 127)

/-- A number that may have a fraction; an infinity or no number is null. -/
def float? (text : List Char) : Option Value :=
  let unsigned := match text with
    | '+' :: rest => rest
    | _ => text
  let special := [".inf", ".Inf", ".INF"].contains (String.ofList unsigned) ||
    ["-.inf", "-.Inf", "-.INF", ".nan", ".NaN", ".NAN"].contains (String.ofList text)
  let doubleSign := text.head? == some '+' && unsigned.head?.any (fun c => c == '+' || c == '-')
  if doubleSign then none
  else if special then some .null
  else (Decimal.float? unsigned).map fun x => .number (.float x)

/-- What a plain scalar means. -/
inductive Meaning where
  /-- Null, a truth value or a number. -/
  | value (value : Value)
  /-- A whole number that no value holds. -/
  | tooWide
  /-- The text itself. -/
  | text

/-- The whole number that a text stands for. -/
def whole (text : List Char) : Meaning :=
  let natural := natural? text
  let negated := negated? text
  match natural.bind (fun n => Value.whole? n), negated.bind (fun n => Value.whole? (-n)) with
  | some value, _ => .value value
  | none, some value => .value value
  | none, none => if isWide natural negated then .tooWide else .text

def meaning (text : List Char) : Meaning :=
  if text.isEmpty || isNull text then .value .null
  else
    match bool? text, whole text with
    | some b, _ => .value (.bool b)
    | none, .text =>
      if isPaddedDigits text then .text
      else
        match float? text with
        | some value => .value value
        | none => .text
    | none, number => number

/-- The value of a text that a meaning leaves open. -/
def valueOf? (text : List Char) : Meaning → Option Value
  | .value value => some value
  | .tooWide => none
  | .text => some (.string (String.ofList text))

/-- The value of a scalar without a tag. -/
def untagged? (text : List Char) (style : Style) : Option Value :=
  if style = .plain then valueOf? text (meaning text) else some (.string (String.ofList text))

/-- The value of a scalar; a text that is not what its tag asks for is refused. -/
def value? (tag : Option (List UInt8)) (text : List Char) (style : Style) : Option Value :=
  match tag with
  | none => untagged? text style
  | some tag =>
    if Tag.isForeign tag then none
    else if Tag.isLocal tag then untagged? text style
    else if tag == Tag.core "bool" then (bool? text).map .bool
    else if tag == Tag.core "int" then
      match whole text with
      | .value value => some value
      | _ => none
    else if tag == Tag.core "float" then float? text
    else if tag == Tag.core "null" then if isNull text then some .null else none
    else some (.string (String.ofList text))

/-- Whether a scalar is read as the type of this name: it is plain, or a literal with that tag. -/
def mayBe (name : String) (tag : Option (List UInt8)) (style : Style) : Bool :=
  style == .plain || (style == .literal && tag == some (Tag.core name))

end ProvideIndex.Yaml.Scalar
