import ProvideIndex.Programs.Conversion
import ProvideIndex.Programs.Echo
import ProvideIndex.Programs.Printf
import ProvideIndex.Shell.Variables

/-!
# Printing commands of the shell

The shell has commands of its own to print arguments and to fill them into a format. They differ
from the programs of the same names in their escapes, in what they know of a format and in how they
complain.
-/

namespace ProvideIndex.Shell.Printing

open Program (Unescaped isOctal byteOf controlOf?)

/-! ## Escapes -/

/-- The character of an escape after a backslash, and what follows it. -/
def escape : Raw → Char × Raw
  | [] => ('\\', [])
  | c :: rest =>
    if isOctal c then
      let digits := ((c :: rest).take 3).takeWhile isOctal
      (byteOf 8 digits, (c :: rest).drop digits.length)
    else
      match controlOf? c with
      | some control => (control, rest)
      | none => ('\\', c :: rest)

/-- A text with its escapes carried out; octal numbers begin with zero. `fuel` bounds the length. -/
def unescapeFrom : Nat → Raw → Unescaped
  | 0, _ => .more []
  | _, [] => .more []
  | fuel + 1, '\\' :: rest =>
    if rest.head? == some 'c' then .stop
    else
      let (c, after) := match rest with
        | '0' :: d :: more => if isOctal d then escape (d :: more) else escape rest
        | _ => escape rest
      (Unescaped.more [c]).append (unescapeFrom fuel after)
  | fuel + 1, c :: rest => (Unescaped.more [c]).append (unescapeFrom fuel rest)

def unescape (text : Raw) : Unescaped := unescapeFrom text.length text

/-! ## Echo -/

/-- The arguments with blanks between them and escapes carried out. -/
def echo (arguments : List Raw) : Raw :=
  let (lineEnd, words) := match arguments with
    | ['-', 'n'] :: words => ([], words)
    | words => (['\n'], words)
  ((unescape ([' '].intercalate words)).append (.more lineEnd)).text

/-! ## Formats -/

/-- What printing has come to. -/
structure Progress where
  /-- The arguments that are left. -/
  arguments : List Raw
  status : Nat
  /-- Whether an escape has ended it. -/
  isOver : Bool

abbrev Step := StateT Progress Act

def put (text : Raw) : Step Unit := Act.print text

/-- The next argument, if one is left. -/
def argument? : Step (Option Raw) := modifyGet fun progress =>
  (progress.arguments.head?, { progress with arguments := progress.arguments.tail })

def complain (text : Raw) : Step Unit := do
  Act.warn text
  modify fun progress => { progress with status := 1 }

/-- Complains about what was not read of a number. -/
def checkRest (text rest : Raw) (outOfRange : Bool) : Step Unit :=
  if !rest.isEmpty then
    complain (text ++ (if rest.length = text.length then ": expected numeric value"
      else ": not completely converted").toList)
  else if outOfRange then complain (text ++ ": Numerical result out of range".toList)
  else return

/-- The number of the character after a quote. -/
def quoted? (text : Raw) : Option Nat :=
  match text with
  | '\x22' :: rest | '\x27' :: rest => some ((rest.head?.map (·.toNat)).getD 0)
  | _ => none

/-- The next argument as a whole number, which `clamp` keeps in its range. -/
def integer (clamp : Int → Int) : Step Int := do
  match ← argument? with
  | none => return 0
  | some text =>
    match quoted? text, Program.Printf.whole? text with
    | some n, _ => return n
    | none, some found => do
      let value := clamp found.value
      checkRest text found.rest (value != found.value)
      return value
    | none, none => do
      checkRest text text false
      return 0

def signed : Step Int := integer Program.Printf.clampSigned

def unsigned : Step Nat := return Program.Printf.asUnsigned (← integer Program.Printf.clampUnsigned)

def real : Step MachineReal := do
  let whole (n : Nat) : MachineReal := .finite false n 0
  match ← argument? with
  | none => return whole 0
  | some text =>
    match quoted? text, MachineReal.read? .double text with
    | some n, _ => return whole n
    | none, some found => do
      checkRest text found.rest found.outOfRange
      return found.value
    | none, none => do
      checkRest text text false
      return whole 0

def isFlag (c : Char) : Bool := "#-+ 0".toList.contains c

def isSize (c : Char) : Bool := c == '*' || c.isDigit

/-- The size in an item, which may be an argument, and what follows it. -/
def size (text : Raw) : Step (Int × Raw) := do
  match text with
  | '*' :: rest => do return (Int.bmod (← signed) 4294967296, rest)
  | _ =>
    let digits := text.takeWhile isSize
    return (Text.natural (digits.filter Char.isDigit), text.drop digits.length)

/-- Prints an argument by the letter of a conversion; without one it is a mistake. -/
def convert (layout : Conversion) (letter : Char) (shown : Raw) : Step Unit := do
  match letter with
  | 'd' | 'i' => put (layout.signed (← signed))
  | 'u' | 'o' | 'x' | 'X' => put (layout.unsigned letter (← unsigned))
  | 'c' => put (layout.character (((← argument?).getD []).headD '\x00'))
  | 's' => put (layout.text ((← argument?).getD []))
  | 'b' => do
    let text := unescape ((← argument?).getD [])
    put (layout.text text.text)
    if !text.goesOn then modify fun progress => { progress with isOver := true }
  | _ =>
    if "aAeEfFgG".toList.contains letter then put (layout.real .double letter (← real))
    else Act.fail (shown ++ ": invalid directive".toList)

/-- Prints an item after its percent sign; the text after it is the result. -/
def item (text : Raw) : Step Raw := do
  let found := text.takeWhile isFlag
  let layout := found.foldl Conversion.addFlag .plain
  let (width, rest) ← size (text.drop found.length)
  let layout := layout.withWidth width
  let (layout, rest) ← match rest with
    | '.' :: rest => do
      let (precision, rest) ← size rest
      let precision := if precision < 0 then none else some precision.toNat
      pure ({ layout with precision := precision }, rest)
    | _ => pure (layout, rest)
  match rest with
  | [] => Act.fail "missing format character".toList
  | letter :: after => do
    convert layout letter ('%' :: text.take (text.length - after.length))
    return after

/-- Prints a format once. `fuel` bounds its length. -/
def fill : Nat → Raw → Step Unit
  | 0, _ => return
  | _, [] => return
  | fuel + 1, c :: rest => do
    if c == '\\' then
      let (escaped, after) := escape rest
      put [escaped]
      fill fuel after
    else if c != '%' then
      put [c]
      fill fuel rest
    else if rest.head? == some '%' then
      put ['%']
      fill fuel rest.tail
    else
      let after ← item rest
      if (← get).isOver then return else fill fuel after

/-- Prints a format until no arguments are left. `fuel` bounds their number. -/
def fillAll (format : Raw) (count : Nat) : Nat → Step Unit
  | 0 => return
  | fuel + 1 => do
    fill format.length format
    let progress ← get
    let left := progress.arguments.length
    if progress.isOver || left = 0 || left = count then return else fillAll format count fuel

/-- Fills arguments into a format; the status is the result. -/
def printf (format : Raw) (arguments : List Raw) : Act Nat := do
  let count := arguments.length
  let (_, progress) ← (fillAll format count (count + 1)).run ⟨arguments, 0, false⟩
  return progress.status

end ProvideIndex.Shell.Printing
