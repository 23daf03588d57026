import ProvideIndex.Shell.Pattern

/-!
# Splitting into fields

The text of a word comes in runs. Those that came from expansions without quotes are split at the
separators, the others are not. Blank separators count as one where they meet; every other separator
ends a field. Quotes keep a field that would be empty.
-/

namespace ProvideIndex.Shell

/-- Where a run of text may be split. -/
inductive Splitting where
  | never
  | atSeparators
  /-- Between the arguments of the shell, which a null character parts. -/
  | betweenArguments
  deriving DecidableEq, Repr

inductive Glyph where
  | char (mark : Mark)
  /-- The place of quotes. -/
  | quotes
  deriving DecidableEq, Repr

structure Run where
  splitting : Splitting
  glyphs : List Glyph

namespace Run

def kept (text : Raw) (isQuoted : Bool) : Run := ⟨.never, text.map fun c => .char ⟨c, isQuoted⟩⟩

def quotes : Run := ⟨.never, [.quotes]⟩

/-- The characters of runs, with the marks of those that were quoted. -/
def marks (runs : List Run) : List Mark :=
  runs.flatMap fun run => run.glyphs.filterMap fun
    | .char mark => some mark
    | .quotes => none

def text (runs : List Run) : Raw := (marks runs).map (·.char)

end Run

namespace Fields

def isBlank (c : Char) : Bool := c == ' ' || c == '\t' || c == '\n' || c == '\x00'

/-- Fields that are being gathered. -/
structure Gathering where
  done : List (List Glyph)
  /-- The field at hand, the last glyph first. -/
  current : List Glyph
  /-- Whether blank separators have just ended a field. -/
  afterBlank : Bool
  /-- Whether the last run that could be split lay between arguments. -/
  afterArguments : Bool
  /-- How many fields there may still be. -/
  limit : Option Nat
  /-- How much of the field is left if only separators follow. -/
  cut : Option Nat

def Gathering.endField (g : Gathering) : Gathering :=
  { g with done := g.current.reverse :: g.done, current := [] }

/-- The last field takes up all that follows, but for blanks at its end. -/
def addToLast (isSeparator isBlank : Bool) (glyph : Glyph) (g : Gathering) : Gathering :=
  let cut :=
    if isBlank then g.cut.or (some g.current.length)
    else if isSeparator && g.afterBlank then g.cut
    else none
  { g with
    current := glyph :: g.current
    cut := cut
    afterBlank := if isBlank then g.afterBlank else false }

/-- Takes a separator that ends a field or goes on with blanks. -/
def addSeparator (isBlank inArguments : Bool) (glyph : Glyph) (g : Gathering) : Gathering :=
  if g.afterBlank then
    { g with current := [], afterBlank := isBlank }
  else
    let afterBlank := isBlank && !(g.afterArguments || inArguments)
    if g.current.isEmpty && afterBlank then { g with afterBlank := false }
    else
      match g.limit with
      | some 1 =>
        { g with
          limit := some 0
          cut := some g.current.length
          current := glyph :: g.current
          afterBlank := afterBlank }
      | limit => { g.endField with limit := limit.map (· - 1), afterBlank := afterBlank }

def addGlyph (separators : Raw) (inArguments : Bool) (g : Gathering) (glyph : Glyph) :
    Gathering :=
  let isSeparator := match glyph with
    | .char mark => mark.char == '\x00' || (!inArguments && separators.contains mark.char)
    | .quotes => false
  let isBlank := isSeparator && match glyph with
    | .char mark => isBlank mark.char
    | .quotes => false
  if g.limit == some 0 then addToLast isSeparator isBlank glyph g
  else if isSeparator then addSeparator isBlank inArguments glyph g
  else { g with current := glyph :: g.current, afterBlank := false }

def addRun (separators : Raw) (g : Gathering) (run : Run) : Gathering :=
  match run.splitting with
  | .never => { g with current := run.glyphs.reverse ++ g.current }
  | splitting =>
    let inArguments := splitting == .betweenArguments
    let start := { g with afterBlank := false }
    let all := run.glyphs.foldl (addGlyph separators inArguments) start
    { all with afterArguments := inArguments }

/-- The fields of a text, at most `limit` of them. -/
def split (separators : Raw) (limit : Option Nat) (runs : List Run) : List (List Glyph) :=
  let all := runs.foldl (addRun separators) ⟨[], [], false, false, limit, none⟩
  let last := match all.cut with
    | some length => all.current.drop (all.current.length - length)
    | none => all.current
  if all.afterArguments || !last.isEmpty then (last.reverse :: all.done).reverse
  else all.done.reverse

end Fields

end ProvideIndex.Shell
