import ProvideIndex.Text.Digits
import ProvideIndex.Yaml.Fold

/-!
# Quoted scalars

A scalar between single quotes, where a quote is written twice, or between double quotes, where a
backslash begins an escape. Gaps inside the quotes are folded; a document mark may not stand in
them.
-/

namespace ProvideIndex.Yaml.QuotedScalar

/-- The character of an escape of one letter. -/
def simpleEscape? : Char → Option Char
  | '0' => some '\x00'
  | 'a' => some '\x07'
  | 'b' => some '\x08'
  | 't' => some '\t'
  | '\t' => some '\t'
  | 'n' => some '\n'
  | 'v' => some '\x0b'
  | 'f' => some '\x0c'
  | 'r' => some '\r'
  | 'e' => some '\x1b'
  | ' ' => some ' '
  | '\x22' => some '\x22'
  | '/' => some '/'
  | '\\' => some '\\'
  | 'N' => some '\u0085'
  | '_' => some '\u00a0'
  | 'L' => some '\u2028'
  | 'P' => some '\u2029'
  | _ => none

/-- How many hexadecimal digits follow the letter of an escape. -/
def escapeLength? : Char → Option Nat
  | 'x' => some 2
  | 'u' => some 4
  | 'U' => some 8
  | _ => none

/-- The character with this code point. -/
def char? (n : Nat) : Option Char :=
  if n < 0xd800 ∨ (0xdfff < n ∧ n ≤ 0x10ffff) then some (Char.ofNat n) else none

/-- The character of the escape that follows a backslash, and the length of the escape. -/
def escape? : List Char → Option (Char × Nat)
  | [] => none
  | c :: rest =>
    match simpleEscape? c, escapeLength? c with
    | some e, _ => some (e, 1)
    | none, some length => do
      let digits := rest.take length
      if digits.length = length then
        let e ← char? (← Text.number? 16 digits)
        return (e, length + 1)
      else none
    | none, none => none

/--
Reads up to the closing quote. `done` holds the characters so far, the last first; `fuel` bounds the
number of steps.
-/
def readFrom (quote : Char) (done : List Char) : Nat → Cursor → Option (List Char × Cursor)
  | 0, _ => none
  | fuel + 1, cursor =>
    if cursor.atDocumentMark then none
    else
      match cursor.rest with
      | [] => none
      | c :: rest =>
        if isGapOrEnd (some c) then do
          let (gap, next) ← Gap.read 0 cursor
          readFrom quote (gap.text.reverse ++ done) fuel next
        else if c == quote then
          if quote == '\x27' && rest.head? == some quote then
            readFrom quote (quote :: done) fuel (cursor.advance 2)
          else some (done.reverse, cursor.advance 1)
        else if quote == '\x22' && c == '\\' then
          match (cursor.advance 1).readBreak? with
          | some (_, broken) => do
            let (gap, next) ← Gap.read 0 broken
            readFrom quote (gap.breaks.reverse ++ done) fuel next
          | none => do
            let (e, length) ← escape? rest
            readFrom quote (e :: done) fuel (cursor.advance (length + 1))
        else readFrom quote (c :: done) fuel (cursor.advance 1)

/-- Reads a scalar from its opening quote on. -/
def read? (quote : Char) (cursor : Cursor) : Option (List Char × Cursor) :=
  readFrom quote [] cursor.rest.length (cursor.advance 1)

end ProvideIndex.Yaml.QuotedScalar
