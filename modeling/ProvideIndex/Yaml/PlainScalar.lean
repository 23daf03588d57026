import ProvideIndex.Yaml.Fold

/-!
# Plain scalars

A scalar without quotes. It ends before a mark that could not belong to it: a colon or a number sign
next to a blank, a flow mark inside a flow collection, a document mark, or, outside flow
collections, a line that is not indented deeper than the block around it.
-/

namespace ProvideIndex.Yaml.PlainScalar

def isFlowMark (c : Char) : Bool :=
  c == ',' || c == '[' || c == ']' || c == '\x7b' || c == '\x7d'

/-- Whether a character that is no blank ends the scalar, given the character after it. -/
def endsAt (inFlow : Bool) (c : Char) (next : Option Char) : Bool :=
  (c == ':' && isGapOrEnd next) || (inFlow && isFlowMark c)

/-- A colon that neither ends a scalar in a flow collection nor may stand in it. -/
def isStrayColon (inFlow : Bool) (c : Char) (next : Option Char) : Bool :=
  inFlow && c == ':' &&
    match next with
    | some n => isFlowMark n || n == '?'
    | none => false

/-- The next word of the scalar: a run of characters that are no blanks. -/
def word? (inFlow : Bool) : List Char → Option (List Char)
  | [] => some []
  | c :: rest =>
    if isGapOrEnd (some c) then some []
    else if isStrayColon inFlow c rest.head? then none
    else if endsAt inFlow c rest.head? then some []
    else (word? inFlow rest).map (c :: ·)

/-- A scalar as far as it was read. -/
structure Progress where
  text : List Char
  /-- The gap after the text, which belongs to the scalar only if a word follows. -/
  gap : Gap
  cursor : Cursor

/--
Reads words and gaps. `least` is the column that a line after the first must reach outside flow
collections. `fuel` bounds the number of words.
-/
def readFrom (inFlow : Bool) (least : Nat) (done : Progress) : Nat → Option Progress
  | 0 => some done
  | fuel + 1 =>
    if done.cursor.atDocumentMark || done.cursor.peek 0 == some '#' then some done
    else do
      let word ← word? inFlow done.cursor.rest
      let text := if word.isEmpty then done.text else done.text ++ done.gap.text ++ word
      let after := done.cursor.advance word.length
      let gap := if word.isEmpty then done.gap else ⟨[], []⟩
      match after.peek 0 with
      | some c =>
        if isGapOrEnd (some c) then
          let (gap, next) ← Gap.read least after
          if !inFlow && next.column < least then some ⟨text, gap, next⟩
          else readFrom inFlow least ⟨text, gap, next⟩ fuel
        else some ⟨text, gap, after⟩
      | none => some ⟨text, gap, after⟩

/-- The text of a scalar, whether it ended after a line break, and the place after it. -/
def read? (inFlow : Bool) (least : Nat) (cursor : Cursor) : Option (List Char × Bool × Cursor) := do
  let progress ← readFrom inFlow least ⟨[], ⟨[], []⟩, cursor⟩ (cursor.rest.length + 1)
  return (progress.text, !progress.gap.breaks.isEmpty, progress.cursor)

end ProvideIndex.Yaml.PlainScalar
