import ProvideIndex.Yaml.Chars
import ProvideIndex.Yaml.Scalar

/-!
# Writing texts as scalars

A text with a line feed is written as a literal, one that would be read as something else between
single quotes, and any other plainly. Where the characters of the text do not permit that, quotes
take its place: single ones if they can hold the text, and else double ones, which can hold every
text.
-/

namespace ProvideIndex.Yaml.ScalarText

def isSpace (c : Char) : Bool := c == ' '

/-- Whether some character and the one after it satisfy `p`. -/
def anyPair (p : Char → Char → Bool) : List Char → Bool
  | a :: b :: rest => p a b || anyPair p (b :: rest)
  | _ => false

/-- Marks that no plain scalar begins with. -/
def openingMarks : List Char := "#,[]\x7b\x7d&*!|>\x27\x22%@\x60".toList

/-- Whether the first characters are a mark, and not the beginning of a text. -/
def beginsWithMark (text : List Char) : Bool :=
  match text with
  | '-' :: '-' :: '-' :: _ | '.' :: '.' :: '.' :: _ => true
  | c :: rest => openingMarks.contains c || ((c == '-' || c == '?') && isGapOrEnd rest.head?)
  | [] => false

/-- Whether there is a colon before a blank or a number sign after one. -/
def hasInnerMark (afterBlank : Bool) : List Char → Bool
  | [] => false
  | c :: rest =>
    (c == ':' && isGapOrEnd rest.head?) || (c == '#' && afterBlank) ||
      hasInnerMark (isGapOrEnd (some c)) rest

def isMultiline (text : List Char) : Bool := text.any isBreak

/-- Whether there are characters, or blanks before a break, that only double quotes can hold. -/
def needsEscapes (text : List Char) : Bool :=
  text.any (!isPrintable ·) || anyPair (fun a b => isSpace a && isBreak b) text

def plainAllowed (text : List Char) : Bool :=
  !needsEscapes text && !isMultiline text && !beginsWithMark text && !hasInnerMark true text &&
    !text.head?.any isSpace && !text.getLast?.any isSpace

def singleQuotesAllowed (text : List Char) : Bool :=
  !needsEscapes text && !anyPair (fun a b => isBreak a && isSpace b) text

def literalAllowed (text : List Char) : Bool :=
  !needsEscapes text && !text.getLast?.any isSpace

/-- Whether a plain scalar with this text means the text. -/
def meansText (text : List Char) : Bool :=
  match Scalar.meaning text with
  | .text => !Scalar.isPaddedDigits text
  | _ => false

def style (text : List Char) : Style :=
  if text.contains '\n' then if literalAllowed text then .literal else .doubleQuoted
  else if meansText text && plainAllowed text then .plain
  else if singleQuotesAllowed text then .singleQuoted
  else .doubleQuoted

/-! ## The styles -/

def hexDigits (width n : Nat) : List Char :=
  let digits := (Nat.toDigits 16 n).map Char.toUpper
  List.replicate (width - digits.length) '0' ++ digits

/-- The letter of a short escape. -/
def escapeLetter? : Char → Option Char
  | '\x00' => some '0'
  | '\x07' => some 'a'
  | '\x08' => some 'b'
  | '\t' => some 't'
  | '\n' => some 'n'
  | '\x0b' => some 'v'
  | '\x0c' => some 'f'
  | '\r' => some 'r'
  | '\x1b' => some 'e'
  | '\x22' => some '\x22'
  | '\\' => some '\\'
  | '\u0085' => some 'N'
  | '\u2028' => some 'L'
  | '\u2029' => some 'P'
  | _ => none

def escaped (c : Char) : List Char :=
  match escapeLetter? c with
  | some letter => ['\\', letter]
  | none =>
    if isPrintable c then [c]
    else if c.toNat ≤ 0xff then '\\' :: 'x' :: hexDigits 2 c.toNat
    else if c.toNat ≤ 0xffff then '\\' :: 'u' :: hexDigits 4 c.toNat
    else '\\' :: 'U' :: hexDigits 8 c.toNat

def doubleQuoted (text : List Char) : List Char :=
  '\x22' :: text.flatMap escaped ++ ['\x22']

def spaces (count : Nat) : List Char := List.replicate count ' '

/-- The inside of single quotes; every line after the first is indented. -/
def singleQuotedFrom (indentation : Nat) (lineStart : Bool) : List Char → List Char
  | [] => if lineStart then spaces indentation else []
  | c :: rest =>
    if isBreak c then c :: singleQuotedFrom indentation true rest
    else
      let written := if c == '\x27' then [c, c] else [c]
      (if lineStart then spaces indentation else []) ++ written ++
        singleQuotedFrom indentation false rest

def singleQuoted (indentation : Nat) (text : List Char) : List Char :=
  '\x27' :: singleQuotedFrom indentation false text ++ ['\x27']

/-- The lines of a literal; a line is indented unless it is empty. -/
def literalFrom (indentation : Nat) (lineStart : Bool) : List Char → List Char
  | [] => []
  | c :: rest =>
    if isBreak c then c :: literalFrom indentation true rest
    else
      (if lineStart then spaces indentation else []) ++ c :: literalFrom indentation false rest

/-- What becomes of the breaks at the end of a literal. -/
def chompingMark (text : List Char) : List Char :=
  match text.reverse with
  | [] => ['-']
  | [c] => if isBreak c then ['+'] else ['-']
  | c :: d :: _ => if isBreak c then if isBreak d then ['+'] else [] else ['-']

def literal (indentation : Nat) (text : List Char) : List Char :=
  let fixed := if text.head?.any fun c => isSpace c || isBreak c then ['2'] else []
  '|' :: fixed ++ chompingMark text ++ '\n' :: literalFrom indentation true text

/-- A text in a collection that begins in a column; lines after the first lie two columns deeper. -/
def write (column : Nat) (text : List Char) : List Char :=
  match style text with
  | .plain => text
  | .singleQuoted => singleQuoted (column + 2) text
  | .doubleQuoted => doubleQuoted text
  | .literal | .folded => literal (column + 2) text

/-- A text up to the end of its last line; a literal may bring the line break at the end itself. -/
def writeLine (column : Nat) (text : List Char) : List Char :=
  if style text = .literal ∧ text.getLast?.any isBreak then write column text
  else write column text ++ ['\n']

/-- Whether a key may stand on one line with its value, without a mark of its own. -/
def isSimpleKey (key : String) : Bool := !isMultiline key.toList && key.utf8ByteSize ≤ 128

end ProvideIndex.Yaml.ScalarText
