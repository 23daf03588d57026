import ProvideIndex.Text.Digits
import ProvideIndex.Yaml.Cursor

/-!
# Block scalars

A scalar written as indented lines below a header. The header may fix the indentation and says what
becomes of the line breaks at the end; without a fixed indentation the first line that is not empty
sets it. Literal lines keep their breaks, folded lines are joined where neither begins with a blank.
-/

namespace ProvideIndex.Yaml.BlockScalar

/-- What becomes of the line breaks at the end: all go, one stays, or all stay. -/
inductive Chomping where
  | strip | clip | keep
  deriving DecidableEq, Repr

def chomping? : Char → Option Chomping
  | '-' => some .strip
  | '+' => some .keep
  | _ => none

structure Header where
  chomping : Chomping
  /-- The fixed indentation, or 0. -/
  indentation : Nat
  deriving DecidableEq, Repr

/-- A digit from 1 to 9; a zero is refused, and anything else is no digit. -/
def indentation? (c : Option Char) : Option (Option Nat) :=
  match c with
  | some c =>
    if c == '0' then none
    else if c.isDigit then some (some (Text.digitValue c))
    else some none
  | none => some none

/-- The marks of a header, in either order. -/
def header? (cursor : Cursor) : Option (Header × Cursor) :=
  match (cursor.peek 0).bind chomping? with
  | some chomping =>
    match indentation? (cursor.peek 1) with
    | none => none
    | some (some n) => some (⟨chomping, n⟩, cursor.advance 2)
    | some none => some (⟨chomping, 0⟩, cursor.advance 1)
  | none =>
    match indentation? (cursor.peek 0) with
    | none => none
    | some (some n) =>
      match (cursor.peek 1).bind chomping? with
      | some chomping => some (⟨chomping, n⟩, cursor.advance 2)
      | none => some (⟨.clip, n⟩, cursor.advance 1)
    | some none => some (⟨.clip, 0⟩, cursor)

/-- Passes over blanks, a comment and the line break after them. -/
def skipHeaderEnd? (cursor : Cursor) : Option Cursor :=
  let blanks := cursor.skipRun isGap
  let comment := if blanks.peek 0 == some '#' then blanks.skipRun (!isBreak ·) else blanks
  if isBreakOrEnd (comment.peek 0) then some comment.skipBreak else none

structure Breaks where
  breaks : List Char
  /-- The largest column that was reached. -/
  deepest : Nat
  cursor : Cursor

/--
Reads indentation and empty lines. With an indentation of 0 all spaces of a line are passed over,
else those before that column; a tab among them is refused.
-/
def breaksFrom (indentation : Nat) (done : Breaks) : Nat → Option Breaks
  | 0 => some done
  | fuel + 1 =>
    let spaces := (done.cursor.rest.takeWhile (· == ' ')).length
    let skipped := if indentation = 0 then spaces else min spaces (indentation - done.cursor.column)
    let cursor := done.cursor.advance skipped
    let deepest := max done.deepest cursor.column
    if (indentation = 0 ∨ cursor.column < indentation) ∧ cursor.peek 0 = some '\t' then none
    else
      match cursor.readBreak? with
      | some (c, next) => breaksFrom indentation ⟨done.breaks ++ [c], deepest, next⟩ fuel
      | none => some ⟨done.breaks, deepest, cursor⟩

def readBreaks (indentation : Nat) (cursor : Cursor) : Option Breaks :=
  breaksFrom indentation ⟨[], 0, cursor⟩ (cursor.rest.length + 1)

/-- The lines of a scalar so far; `text` has the last character first. -/
structure Lines where
  text : List Char
  /-- The break after the last line. -/
  lastBreak : List Char
  /-- The breaks of the empty lines after it. -/
  moreBreaks : List Char
  /-- Whether the last line began with a blank. -/
  blankStart : Bool
  cursor : Cursor

/-- Reads lines that start at the indentation. `fuel` bounds their number. -/
def linesFrom (folded : Bool) (indentation : Nat) (done : Lines) : Nat → Option Lines
  | 0 => some done
  | fuel + 1 =>
    match done.cursor.peek 0 with
    | none => some done
    | some c =>
      if done.cursor.column = indentation then do
        let blank := isGap c
        let joint :=
          if folded && done.lastBreak == ['\n'] && !done.blankStart && !blank then
            if done.moreBreaks.isEmpty then [' '] else []
          else done.lastBreak
        let (line, after) := done.cursor.takeRun (!isBreak ·)
        let text := line.reverse ++ (done.moreBreaks.reverse ++ (joint.reverse ++ done.text))
        let (lastBreak, next) := match after.readBreak? with
          | some (b, next) => ([b], next)
          | none => ([], after)
        let breaks ← readBreaks indentation next
        linesFrom folded indentation ⟨text, lastBreak, breaks.breaks, blank, breaks.cursor⟩ fuel
      else some done

/-- Reads a scalar after its mark. `outer` is the indentation of the block around it, or -1. -/
def read? (folded : Bool) (outer : Int) (cursor : Cursor) : Option (List Char × Cursor) := do
  let (header, afterMarks) ← header? cursor
  let start ← skipHeaderEnd? afterMarks
  let fixed := if header.indentation = 0 then 0 else (max outer 0).toNat + header.indentation
  let first ← readBreaks fixed start
  let indentation := if fixed = 0 then max first.deepest (max (outer + 1) 1).toNat else fixed
  let lines ← linesFrom folded indentation ⟨[], [], first.breaks, false, first.cursor⟩
    (first.cursor.rest.length + 1)
  let tail := match header.chomping with
    | .strip => []
    | .clip => lines.lastBreak
    | .keep => lines.lastBreak ++ lines.moreBreaks
  return (lines.text.reverse ++ tail, lines.cursor)

end ProvideIndex.Yaml.BlockScalar
