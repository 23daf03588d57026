import ProvideIndex.Programs.Conversion
import ProvideIndex.Programs.Echo
import ProvideIndex.Programs.Quoted

/-!
# Filling arguments into a format

`printf` fills its arguments into a format, which is used again as long as arguments are left.
Numbers that cannot be read in full are complained about, and what could be read of them counts.
-/

namespace ProvideIndex.Program.Printf

/-- Why the program ends before its time. -/
inductive Stop where
  | asked
  | failed

/-- Work that may end the program. -/
abbrev Step := ExceptT Stop Job

def fail {α : Type} (call : Call) (text : Raw) : Step α := do
  Job.complain call text
  throw .failed

/-! ## Escapes -/

/-- Digits of base sixteen with zeros before them. -/
def hexadecimal (places n : Nat) : Raw :=
  let digits := MachineReal.hexDigits true n
  List.replicate (places - digits.length) '0' ++ digits

/-- A character given by its number, which is printed only if it is a single byte. -/
def namedCharacter (call : Call) (letter : Char) (rest : Raw) : Step (Raw × Raw) := do
  let places := if letter == 'u' then 4 else 8
  let digits := rest.take places
  if digits.length < places || !digits.all isHexadecimal then
    fail call "missing hexadecimal number in escape".toList
  else
    let n := (Text.number? 16 digits).getD 0
    if 0xd800 ≤ n && n ≤ 0xdfff then
      let shown := '\\' :: letter :: (hexadecimal places n).map Char.toLower
      fail call ("invalid universal character name ".toList ++ shown)
    else
      let text :=
        if n < 0x80 then [Char.ofNat n]
        else if n < 0x10000 then '\\' :: 'u' :: hexadecimal 4 n
        else '\\' :: 'U' :: hexadecimal 8 n
      return (text, rest.drop places)

/-- What the escape after a backslash prints, and the text after it. -/
def escape (call : Call) (zeroFirst : Bool) : Raw → Step (Raw × Raw)
  | [] => return (['\\'], [])
  | c :: rest =>
    if c == 'x' then
      let digits := (rest.take 2).takeWhile isHexadecimal
      if digits.isEmpty then fail call "missing hexadecimal number in escape".toList
      else return ([byteOf 16 digits], rest.drop digits.length)
    else if isOctal c then
      let text := if zeroFirst && c == '0' then rest else c :: rest
      let digits := (text.take 3).takeWhile isOctal
      return ([byteOf 8 digits], text.drop digits.length)
    else if c == 'c' then throw .asked
    else if c == '\x22' then return (['\x22'], rest)
    else if c == 'u' || c == 'U' then namedCharacter call c rest
    else
      match controlOf? c with
      | some control => return ([control], rest)
      | none => return (['\\', c], rest)

/-- Prints a text whose escapes count. `fuel` bounds the length. -/
def printEscaped (call : Call) : Nat → Raw → Step Unit
  | 0, _ => return
  | _, [] => return
  | fuel + 1, '\\' :: rest => do
    let (text, after) ← escape call true rest
    Job.print text
    printEscaped call fuel after
  | fuel + 1, c :: rest => do
    Job.print [c]
    printEscaped call fuel rest

/-! ## Numbers -/

/-- A whole number at the beginning of a text: its value, and what follows it. -/
structure Whole where
  value : Int
  rest : Raw

/-- The digits after the mark of a base. -/
def digitsIn (base : Nat) (text : Raw) : Raw :=
  text.takeWhile fun c => (Text.hexValue? c).any (· < base)

/-- A number in base sixteen, eight, two or ten; without digits there is none. -/
def magnitude? (text : Raw) : Option (Nat × Raw) :=
  let inBase (base : Nat) (text : Raw) : Option (Nat × Raw) :=
    let digits := digitsIn base text
    if digits.isEmpty then none
    else (Text.number? base digits).map fun n => (n, text.drop digits.length)
  match text with
  | '0' :: c :: rest =>
    let marked :=
      if c == 'x' || c == 'X' then inBase 16 rest
      else if c == 'b' || c == 'B' then inBase 2 rest
      else none
    marked.or (inBase 8 text)
  | _ => if text.head? == some '0' then inBase 8 text else inBase 10 text

def whole? (text : Raw) : Option Whole :=
  let (negative, unsigned) := match text.dropWhile MachineReal.isSpace with
    | '-' :: rest => (true, rest)
    | '+' :: rest => (false, rest)
    | rest => (false, rest)
  (magnitude? unsigned).map fun (n, rest) => ⟨if negative then -(n : Int) else n, rest⟩

/-- The character after a quote, which stands for its number. -/
def quoted? : Raw → Option (Char × Raw)
  | mark :: c :: rest => if mark == '\x22' || mark == '\x27' then some (c, rest) else none
  | _ => none

/-- Complains about what was not read of a text. -/
def checkRest (call : Call) (text : Raw) (rest : Raw) (outOfRange : Bool) : Step Unit := do
  let shown := Quoted.withBackslashes text
  if outOfRange then Job.complain call (shown ++ ": Numerical result out of range".toList)
  else if !rest.isEmpty then
    let cause :=
      if rest.length = text.length then ": expected a numeric value"
      else ": value not completely converted"
    Job.complain call (shown ++ cause.toList)
  else return

def warnOfRest (call : Call) (rest : Raw) : Step Unit :=
  if rest.isEmpty then return
  else
    Job.warn call ("warning: ".toList ++ rest ++
      ": character(s) following character constant have been ignored".toList)

/-- A whole number; `clamp` leaves it as it is unless it is out of range. -/
def integer (call : Call) (clamp : Int → Int) (text : Raw) : Step Int := do
  match quoted? text, whole? text with
  | some (c, rest), _ =>
    warnOfRest call rest
    return c.toNat
  | none, some found =>
    let value := clamp found.value
    checkRest call text found.rest (value != found.value)
    return value
  | none, none =>
    checkRest call text text false
    return 0

def largestSigned : Int := 9223372036854775807

def largestUnsigned : Int := 2 * largestSigned + 1

def clampSigned (n : Int) : Int := max (-largestSigned - 1) (min largestSigned n)

def clampUnsigned (n : Int) : Int :=
  if n < -largestUnsigned ∨ largestUnsigned < n then largestUnsigned else n

/-- Negative numbers stand for the ones that are larger by `2 ^ 64`. -/
def asUnsigned (n : Int) : Nat := (n % (largestUnsigned + 1)).toNat

def signed (call : Call) (text : Raw) : Step Int := integer call clampSigned text

def unsigned (call : Call) (text : Raw) : Step Nat :=
  return asUnsigned (← integer call clampUnsigned text)

def real (call : Call) (text : Raw) : Step MachineReal := do
  match quoted? text, MachineReal.read? .extended text with
  | some (c, rest), _ =>
    warnOfRest call rest
    return .finite false c.toNat 0
  | none, some found =>
    checkRest call text found.rest found.outOfRange
    return found.value
  | none, none =>
    checkRest call text text false
    return .finite false 0 0

/-! ## Items -/

/-- An item as it is read: its layout, the conversions that its flags leave, and the arguments. -/
structure Item where
  layout : Conversion
  allowed : List Char
  rest : Raw
  arguments : List Raw

def conversions : List Char := "aAcdeEfFgGiosuxX".toList

/-- The conversions that a flag takes away. -/
def excluded : Char → List Char
  | '\x27' | 'I' => "aAceEosxX".toList
  | '#' => "cdisu".toList
  | '0' => "cs".toList
  | _ => []

def isFlag (c : Char) : Bool := "I\x27-+ #0".toList.contains c

def flags (text : Raw) (arguments : List Raw) : Item :=
  let found := text.takeWhile isFlag
  let layout := found.foldl Conversion.addFlag .plain
  let allowed := conversions.filter fun c => found.all fun flag => !(excluded flag).contains c
  ⟨layout, allowed, text.drop found.length, arguments⟩

/-- The largest width and precision. -/
def largestSize : Int := 2147483647

/-- The next argument as a number, which a star in a format stands for. -/
def starred (call : Call) (arguments : List Raw) : Step (Int × Raw × List Raw) := do
  match arguments with
  | argument :: arguments => return (← signed call argument, argument, arguments)
  | [] => return (0, [], [])

def width (call : Call) (item : Item) : Step Item := do
  match item.rest with
  | '*' :: rest => do
    let (n, argument, arguments) ← starred call item.arguments
    if n < -largestSize - 1 || largestSize < n then
      fail call ("invalid field width: ".toList ++ Quoted.withBackslashes argument)
    else
      return { item with layout := item.layout.withWidth n, rest := rest, arguments := arguments }
  | rest =>
    let digits := rest.takeWhile Char.isDigit
    return { item with
      layout := item.layout.withWidth (Text.natural digits)
      rest := rest.drop digits.length }

def precision (call : Call) (item : Item) : Step Item := do
  let allowed := item.allowed.filter (· != 'c')
  match item.rest with
  | '.' :: '*' :: rest => do
    let (n, argument, arguments) ← starred call item.arguments
    if largestSize < n then
      fail call ("invalid precision: ".toList ++ Quoted.withBackslashes argument)
    else
      let precision := if n < 0 then none else some n.toNat
      return ⟨{ item.layout with precision := precision }, allowed, rest, arguments⟩
  | '.' :: rest =>
    let digits := rest.takeWhile Char.isDigit
    let layout := { item.layout with precision := some (Text.natural digits) }
    return ⟨layout, allowed, rest.drop digits.length, item.arguments⟩
  | _ => return item

/-- Prints an argument by the letter of a conversion. -/
def convert (call : Call) (layout : Conversion) (letter : Char) (argument : Raw) : Step Unit := do
  match letter with
  | 'd' | 'i' => Job.print (layout.signed (← signed call argument))
  | 'u' | 'o' | 'x' | 'X' => Job.print (layout.unsigned letter (← unsigned call argument))
  | 'c' => Job.print (layout.character (argument.headD '\x00'))
  | 's' => Job.print (layout.text argument)
  | _ => Job.print (layout.real .extended letter (← real call argument))

/-- Prints an item, after its percent sign. The text after it and the arguments left are results. -/
def item (call : Call) (text : Raw) (arguments : List Raw) : Step (Raw × List Raw) := do
  match text with
  | '%' :: rest => do
    Job.print ['%']
    return (rest, arguments)
  | 'b' :: rest => do
    let argument := arguments.headD []
    printEscaped call argument.length argument
    return (rest, arguments.tail)
  | 'q' :: rest => do
    match arguments with
    | argument :: arguments => do
      Job.print (Quoted.forShellIfNeeded argument)
      return (rest, arguments)
    | [] => return (rest, [])
  | _ => do
    let item ← precision call (← width call (flags text arguments))
    let rest := item.rest.dropWhile "lLhjtz".toList.contains
    match rest with
    | letter :: after => do
      if item.allowed.contains letter then
        convert call item.layout letter (item.arguments.headD [])
        return (after, item.arguments.tail)
      else
        let shown := '%' :: text.take (text.length - after.length)
        fail call (shown ++ ": invalid conversion specification".toList)
    | [] => fail call ('%' :: text ++ ": invalid conversion specification".toList)

/-- Prints a format once. `fuel` bounds its length. -/
def fill (call : Call) : Nat → Raw → List Raw → Step (List Raw)
  | 0, _, arguments => return arguments
  | _, [], arguments => return arguments
  | fuel + 1, c :: rest, arguments => do
    if c == '%' then
      let (after, left) ← item call rest arguments
      fill call fuel after left
    else if c == '\\' then
      let (text, after) ← escape call false rest
      Job.print text
      fill call fuel after arguments
    else
      Job.print [c]
      fill call fuel rest arguments

/-- Prints a format until no arguments are left. `fuel` bounds their number. -/
def fillAll (call : Call) (format : Raw) : Nat → List Raw → Step Unit
  | 0, _ => return
  | fuel + 1, arguments => do
    let left ← fill call format.length format arguments
    if left.isEmpty then return
    else if left.length < arguments.length then fillAll call format fuel left
    else
      Job.warn call ("warning: ignoring excess arguments, starting with ".toList ++
        Quoted.withBackslashes (left.headD []))

def run : Program := Job.program fun call => do
  let arguments :=
    if call.arguments.head? == some ['-', '-'] then call.arguments.tail else call.arguments
  if isAccount call.arguments then return
  match arguments with
  | [] => Job.misuse call "missing operand".toList
  | format :: arguments =>
    let _ ← (fillAll call format (arguments.length + 1) arguments).run

end ProvideIndex.Program.Printf
