import ProvideIndex.Text.Lossy

/-!
# Texts of bytes

Programs and the shell know bytes and no characters. Their texts are lists of characters all the
same, each of which stands for the byte of its number.
-/

namespace ProvideIndex

/-- A text whose characters stand for bytes. -/
abbrev Raw := List Char

namespace Raw

def ofBytes (bytes : List UInt8) : Raw := bytes.map fun b => Char.ofNat b.toNat

def bytes (raw : Raw) : List UInt8 := raw.map fun c => UInt8.ofNat c.toNat

def encode (text : String) : Raw := ofBytes text.toUTF8.toList

/-- The text of some bytes; bytes that are no text are replaced. -/
def decode (raw : Raw) : String := Text.Lossy.decode (bytes raw)

def isNameStart (c : Char) : Bool := c.isAlpha || c == '_'

def isNameChar (c : Char) : Bool := c.isAlphanum || c == '_'

/-- Whether a text is the name of a variable. -/
def isName : Raw → Bool
  | c :: rest => isNameStart c && rest.all isNameChar
  | [] => false

def isBlank (c : Char) : Bool := c == ' ' || c == '\t'

def decimal (n : Nat) : Raw := Nat.toDigits 10 n

def integer (n : Int) : Raw := if n < 0 then '-' :: decimal n.natAbs else decimal n.natAbs

/-- An assignment: a name before an equals sign, and what follows the sign. -/
def assignment? (text : Raw) : Option (Raw × Raw) :=
  match text.span (· != '=') with
  | (name, '=' :: value) => if isName name then some (name, value) else none
  | _ => none

/-- Whether texts are in ascending order of their bytes. -/
def isAtMost : Raw → Raw → Bool
  | [], _ => true
  | _ :: _, [] => false
  | a :: as, b :: bs => a < b || (a == b && isAtMost as bs)

end Raw

end ProvideIndex
