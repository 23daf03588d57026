import ProvideIndex.Text.Digits
import ProvideIndex.Yaml.Cursor

/-!
# Tags

A tag is written as a handle and a suffix, or in full between angle brackets. Its characters are
those of a URI, where a percent sign and two hexadecimal digits stand for a byte.
-/

namespace ProvideIndex.Yaml.Tag

def marks : List Char := ";/?:@&=+$.%!~*\x27()".toList

/-- Marks that only a tag in full, or the form that a handle stands for, may hold. -/
def fullMarks : List Char := ",[]".toList

def isTagChar (full : Bool) (c : Char) : Bool :=
  isNameChar c || marks.contains c || (full && fullMarks.contains c)

/-- The bytes of a text. -/
def bytes (text : String) : List UInt8 := text.toUTF8.toList

/-- A zero byte, which only an escape can bring, ends a tag. -/
def upToZero (tag : List UInt8) : List UInt8 := tag.takeWhile (· != 0)

/-- The byte of an escape. -/
def byte? : List Char → Option (UInt8 × List Char)
  | '%' :: a :: b :: rest => (Text.number? 16 [a, b]).map fun n => (UInt8.ofNat n, rest)
  | _ => none

/-- How many bytes a character takes whose first byte this is. -/
def width? (first : UInt8) : Option Nat :=
  if first < 0x80 then some 1
  else if 0xc0 ≤ first ∧ first < 0xe0 then some 2
  else if 0xe0 ≤ first ∧ first < 0xf0 then some 3
  else if 0xf0 ≤ first ∧ first < 0xf8 then some 4
  else none

/-- Reads the bytes after the first one of a character. -/
def trailing? : Nat → List Char → Option (List UInt8)
  | 0, _ => some []
  | count + 1, text => do
    let (byte, rest) ← byte? text
    if 0x80 ≤ byte ∧ byte < 0xc0 then return byte :: (← trailing? count rest) else none

/--
The bytes that a run of escapes stands for. They are those of one character as far as the first of
them tells how many there are; whether there is such a character is not asked.
-/
def escaped? (text : List Char) : Option (List UInt8) := do
  let (first, rest) ← byte? text
  return first :: (← trailing? ((← width? first) - 1) rest)

/-- Reads characters of a tag. `fuel` bounds their number. -/
def uriFrom (full : Bool) (done : List UInt8) : Nat → Cursor → Option (List UInt8 × Cursor)
  | 0, cursor => some (done, cursor)
  | fuel + 1, cursor =>
    match cursor.rest with
    | [] => some (done, cursor)
    | c :: _ =>
      if c == '%' then do
        let escape ← escaped? cursor.rest
        uriFrom full (done ++ escape) fuel (cursor.advance (3 * escape.length))
      else if isTagChar full c then
        uriFrom full (done ++ [UInt8.ofNat c.toNat]) fuel (cursor.advance 1)
      else some (done, cursor)

def uri? (full : Bool) (cursor : Cursor) : Option (List UInt8 × Cursor) :=
  uriFrom full [] (cursor.rest.length + 1) cursor

/-- An exclamation mark, a name, and a second exclamation mark if there is one. -/
def handle? (cursor : Cursor) : Option (List Char × Cursor) :=
  if cursor.peek 0 == some '!' then
    let (name, after) := (cursor.advance 1).takeRun isNameChar
    if after.peek 0 == some '!' then some ('!' :: name ++ ['!'], after.advance 1)
    else some ('!' :: name, after)
  else none

/-- The handle and the suffix of a tag, before what follows it is looked at. -/
def parts? (cursor : Cursor) : Option (List Char × List UInt8 × Cursor) :=
  if cursor.peek 1 == some '<' then do
    let (suffix, after) ← uri? true (cursor.advance 2)
    if suffix.isEmpty || after.peek 0 != some '>' then none
    else some ([], upToZero suffix, after.advance 1)
  else do
    let (handle, after) ← handle? cursor
    let (more, next) ← uri? false after
    if handle.length > 1 && handle.getLast? == some '!' then
      if more.isEmpty then none else some (handle, upToZero more, next)
    else
      let suffix := upToZero (bytes (String.ofList handle.tail) ++ more)
      if suffix.isEmpty then some ([], bytes "!", next) else some (['!'], suffix, next)

/-- Reads a tag: its handle, its suffix, and the place after it, where a blank must follow. -/
def read? (inFlow : Bool) (cursor : Cursor) : Option (List Char × List UInt8 × Cursor) := do
  let (handle, suffix, next) ← parts? cursor
  if (inFlow && next.peek 0 == some ',') || isGapOrEnd (next.peek 0) then
    some (handle, suffix, next)
  else none

/-! ## What a tag says -/

/-- The tag of the core schema with this name. -/
def core (name : String) : List UInt8 := bytes ("tag:yaml.org,2002:" ++ name)

/-- A tag that only an application could know. -/
def isLocal (tag : List UInt8) : Bool := tag.head? == some 0x21

/-- Whether a tag asks for something that no data value is: it is local, and it is a text. -/
def isForeign (tag : List UInt8) : Bool := isLocal tag && (ByteArray.mk tag.toArray).validateUTF8

end ProvideIndex.Yaml.Tag
