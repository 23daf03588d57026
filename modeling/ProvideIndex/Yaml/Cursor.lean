import ProvideIndex.Yaml.Chars

/-!
# Cursors

A place in a stream: what is left of it, how many bytes were read, and the line and the column of
the next character.
-/

namespace ProvideIndex.Yaml

structure Cursor where
  rest : List Char
  /-- How many bytes come before it. -/
  index : Nat
  line : Nat
  column : Nat
  deriving Repr

namespace Cursor

def start (text : List Char) : Cursor := ⟨text, 0, 0, 0⟩

def peek (cursor : Cursor) (ahead : Nat) : Option Char := cursor.rest[ahead]?

/-- How many bytes the next characters take. -/
def width (cursor : Cursor) (count : Nat) : Nat :=
  (cursor.rest.take count).foldl (fun bytes c => bytes + c.utf8Size) 0

/-- Passes over characters of one line. -/
def advance (cursor : Cursor) (count : Nat) : Cursor :=
  ⟨cursor.rest.drop count, cursor.index + cursor.width count, cursor.line, cursor.column + count⟩

/-- The longest run of characters that satisfy `p`, which must hold of no line break. -/
def takeRun (p : Char → Bool) (cursor : Cursor) : List Char × Cursor :=
  let run := cursor.rest.takeWhile p
  (run, cursor.advance run.length)

def skipRun (p : Char → Bool) (cursor : Cursor) : Cursor := (cursor.takeRun p).2

/--
Reads a line break. The breaks of one line feed, one carriage return, both, or a next line are read
as a line feed; the line and paragraph separators stay what they are.
-/
def readBreak? (cursor : Cursor) : Option (Char × Cursor) :=
  let next (length : Nat) : Cursor :=
    ⟨cursor.rest.drop length, cursor.index + cursor.width length, cursor.line + 1, 0⟩
  match cursor.rest with
  | '\r' :: '\n' :: _ => some ('\n', next 2)
  | c :: _ =>
    if c == '\u2028' || c == '\u2029' then some (c, next 1)
    else if isBreak c then some ('\n', next 1)
    else none
  | [] => none

/-- Passes over a line break, if there is one. -/
def skipBreak (cursor : Cursor) : Cursor :=
  match cursor.readBreak? with
  | some (_, next) => next
  | none => cursor

/-- Whether a line that marks the start or the end of a document begins here. -/
def atDocumentMark (cursor : Cursor) : Bool :=
  cursor.column == 0 &&
    match cursor.rest with
    | a :: b :: c :: _ => a == b && b == c && (a == '-' || a == '.') && isGapOrEnd (cursor.peek 3)
    | _ => false

end Cursor

end ProvideIndex.Yaml
