import ProvideIndex.Shell.Fields
import ProvideIndex.Shell.Variables

/-!
# Reading a line into variables

A line of the input is split into fields, one for each variable; the last variable takes what is
left. A backslash keeps the character after it from parting fields, and a line end from ending the
line.
-/

namespace ProvideIndex.Shell.Input

/-- A line as it is read. -/
structure Line where
  /-- The runs that are done, the last one first. -/
  runs : List Run
  /-- The run at hand, the last character first. -/
  current : Raw
  /-- How many characters were read. -/
  count : Nat
  /-- Whether a line end ended it. -/
  isWhole : Bool

def Line.endRun (line : Line) : Line :=
  let run : Run := { Run.kept line.current.reverse false with splitting := .atSeparators }
  { line with runs := run :: line.runs, current := [] }

/-- Reads the characters of a line. -/
def readFrom (isRaw : Bool) (line : Line) : Raw → Line
  | [] => line.endRun
  | '\n' :: _ => { line.endRun with count := line.count + 1, isWhole := true }
  | '\\' :: rest =>
    if isRaw then
      readFrom isRaw { line with current := '\\' :: line.current, count := line.count + 1 } rest
    else
      match rest with
      | [] => { line.endRun with count := line.count + 1 }
      | '\n' :: rest => readFrom isRaw { line.endRun with count := line.count + 2 } rest
      | c :: rest =>
        let ended := line.endRun
        let escaped := { ended with runs := Run.kept [c] true :: ended.runs }
        readFrom isRaw { escaped with count := line.count + 2 } rest
  | c :: rest =>
    let current := if c == '\x00' then line.current else c :: line.current
    readFrom isRaw { line with current := current, count := line.count + 1 } rest

def textOf (glyphs : List Glyph) : Raw :=
  glyphs.filterMap fun
    | .char mark => some mark.char
    | .quotes => none

/-- Puts fields into variables; variables without a field become empty. -/
def assignAll : List Raw → List (List Glyph) → Act Unit
  | [], _ => return
  | name :: names, fields => do
    Act.assignNamed name (textOf (fields.headD [])) false
    assignAll names fields.tail

/-- Reads a line from standard input into variables. -/
def read (isRaw : Bool) (names : List Raw) : Act Nat := do
  let text := (← Act.available 0).getD []
  let line := readFrom isRaw ⟨[], [], 0, false⟩ text
  Act.consume 0 line.count
  let separators := ((← get).value? "IFS".toList).getD [' ', '\t', '\n']
  assignAll names (Fields.split separators (some names.length) line.runs.reverse)
  return if line.isWhole then 0 else 1

end ProvideIndex.Shell.Input
