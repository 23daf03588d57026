import ProvideIndex.Programs.Basic
import ProvideIndex.Text.Digits

/-!
# Printing arguments

`echo` prints its arguments with blanks between them and a line end after them. Escapes in them
count only if an option asks for it.
-/

namespace ProvideIndex.Program

/-! ## Escapes -/

/-- What is printed, and whether printing goes on after it. -/
structure Unescaped where
  text : Raw
  goesOn : Bool

namespace Unescaped

def more (text : Raw) : Unescaped := ⟨text, true⟩

def stop : Unescaped := ⟨[], false⟩

/-- Texts one after the other, up to the one that ends it. -/
def append (first : Unescaped) (next : Unescaped) : Unescaped :=
  if first.goesOn then ⟨first.text ++ next.text, next.goesOn⟩ else first

end Unescaped

def isOctal (c : Char) : Bool := '0' ≤ c && c ≤ '7'

/-- The byte that digits of a base stand for; what is too large for a byte is cut off. -/
def byteOf (base : Nat) (digits : Raw) : Char :=
  Char.ofNat ((Text.number? base digits).getD 0 % 256)

def controlOf? : Char → Option Char
  | '\\' => some '\\'
  | 'a' => some '\x07'
  | 'b' => some '\x08'
  | 'e' => some '\x1b'
  | 'f' => some '\x0c'
  | 'n' => some '\n'
  | 'r' => some '\r'
  | 't' => some '\t'
  | 'v' => some '\x0b'
  | _ => none

def isHexadecimal (c : Char) : Bool := (Text.hexValue? c).isSome

end Program

namespace Program.Echo

structure Style where
  lineEnd : Bool
  escapes : Bool

/-- Takes options from the arguments; an argument with another letter is none. -/
def styleOf (style : Style) : List Raw → Style × List Raw
  | [] => (style, [])
  | argument :: arguments =>
    match argument with
    | '-' :: c :: letters =>
      if (c :: letters).all "neE".toList.contains then
        let last := ((c :: letters).reverse.find? (· != 'n')).map (· == 'e')
        let lineEnd := style.lineEnd && !(c :: letters).contains 'n'
        styleOf ⟨lineEnd, last.getD style.escapes⟩ arguments
      else (style, argument :: arguments)
    | _ => (style, argument :: arguments)

/-- The text with its escapes carried out. `fuel` bounds the length. -/
def unescapeFrom : Nat → Raw → Unescaped
  | 0, _ => .more []
  | _, [] => .more []
  | fuel + 1, '\\' :: c :: rest =>
    match controlOf? c with
    | some control => (Unescaped.more [control]).append (unescapeFrom fuel rest)
    | none =>
      if c == 'c' then .stop
      else if c == 'x' && rest.head?.any isHexadecimal then
        let digits := (rest.take 2).takeWhile isHexadecimal
        (Unescaped.more [byteOf 16 digits]).append (unescapeFrom fuel (rest.drop digits.length))
      else if isOctal c then
        let digits :=
          if c == '0' then (rest.take 3).takeWhile isOctal
          else (rest.take 2).takeWhile isOctal
        (Unescaped.more [byteOf 8 (c :: digits)]).append
          (unescapeFrom fuel (rest.drop digits.length))
      else (Unescaped.more ['\\', c]).append (unescapeFrom fuel rest)
  | fuel + 1, c :: rest => (Unescaped.more [c]).append (unescapeFrom fuel rest)

def unescape (text : Raw) : Unescaped := unescapeFrom text.length text

def run : Program := Job.program fun call =>
  if isAccount call.arguments then return else
  let (style, words) := styleOf ⟨true, false⟩ call.arguments
  let text := [' '].intercalate words
  let body := if style.escapes then unescape text else .more text
  let lineEnd := if style.lineEnd then ['\n'] else []
  Job.print (body.append (.more lineEnd)).text

end Program.Echo

end ProvideIndex
