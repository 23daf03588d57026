import ProvideIndex.Yaml.BlockScalar
import ProvideIndex.Yaml.Directive
import ProvideIndex.Yaml.PlainScalar
import ProvideIndex.Yaml.QuotedScalar

/-!
# Cutting a stream into tokens

Besides the tokens that are written, the stream holds some that the indentation implies: where
blocks begin and end. A key without a mark of its own is known only by the value mark after it, so
the place where one may have begun is remembered, one place for each open flow collection, and the
key mark is put there afterwards. Such a key stays on one line and has at most 1024 bytes before its
value mark.
-/

namespace ProvideIndex.Yaml

/-- A place where a key without a mark may have begun. -/
structure KeyStart where
  /-- Whether the value mark has to follow. -/
  required : Bool
  /-- How many tokens come before it. -/
  tokens : Nat
  index : Nat
  line : Nat
  column : Nat
  deriving Repr

structure Scanner where
  cursor : Cursor
  /-- The tokens so far, the last one first. -/
  tokens : List Token
  /-- The columns of the open blocks, the innermost first. -/
  columns : List Nat
  keyStart : Option KeyStart
  /-- The places kept for the collections around the innermost one. -/
  outerKeyStarts : List (Option KeyStart)
  /-- Whether a key without a mark may begin here. -/
  keyAllowed : Bool
  deriving Repr

namespace Scanner

def start (cursor : Cursor) : Scanner := ⟨cursor, [], [], none, [], true⟩

def inFlow (s : Scanner) : Bool := !s.outerKeyStarts.isEmpty

/-- The column of the innermost open block, or -1. -/
def indentation (s : Scanner) : Int :=
  match s.columns with
  | column :: _ => column
  | [] => -1

/-- Adds a token that ends at the cursor. -/
def push (token : Token) (cursor : Cursor) (s : Scanner) : Scanner :=
  { s with tokens := token :: s.tokens, cursor := cursor }

/-- Adds a token of some characters. -/
def pushMark (token : Token) (length : Nat) (s : Scanner) : Scanner :=
  s.push token (s.cursor.advance length)

def allowKey (allowed : Bool) (s : Scanner) : Scanner := { s with keyAllowed := allowed }

/-- Gives up the place of a key, which must not be a required one. -/
def dropKeyStart? (s : Scanner) : Option Scanner :=
  if s.keyStart.any (·.required) then none else some { s with keyStart := none }

/-- Remembers that a key may begin here. -/
def markKeyStart? (s : Scanner) : Option Scanner :=
  if s.keyAllowed then do
    let s ← s.dropKeyStart?
    let required := !s.inFlow && s.indentation == s.cursor.column
    let keyStart : KeyStart :=
      ⟨required, s.tokens.length, s.cursor.index, s.cursor.line, s.cursor.column⟩
    return { s with keyStart := some keyStart }
  else some s

def isStale (cursor : Cursor) (start : KeyStart) : Bool :=
  decide (start.line < cursor.line) || decide (start.index + 1024 < cursor.index)

/-- Forgets a place that is too far back for a key; one that is required is refused. -/
def refreshed? (cursor : Cursor) : Option KeyStart → Option (Option KeyStart)
  | some start =>
    if isStale cursor start then if start.required then none else some none
    else some (some start)
  | none => some none

def refresh? (s : Scanner) : Option Scanner := do
  let keyStart ← refreshed? s.cursor s.keyStart
  let outerKeyStarts ← s.outerKeyStarts.mapM (refreshed? s.cursor)
  return { s with keyStart := keyStart, outerKeyStarts := outerKeyStarts }

/-- Ends the open blocks that begin right of a column. -/
def closeBlocks (column : Int) (s : Scanner) : Scanner :=
  if s.inFlow then s
  else
    let closed := s.columns.takeWhile fun (inner : Nat) => decide (column < inner)
    { s with
      tokens := closed.map (fun _ => Token.blockEnd) ++ s.tokens
      columns := s.columns.drop closed.length }

def opensBlock (column : Nat) (s : Scanner) : Bool :=
  !s.inFlow && decide (s.indentation < column)

/-- Begins a block at a column, unless one is open there. -/
def openBlock (token : Token) (column : Nat) (s : Scanner) : Scanner :=
  if s.opensBlock column then
    { s with tokens := token :: s.tokens, columns := column :: s.columns }
  else s

/-- Puts a key mark, and the beginning of a block if one begins there, where the key began. -/
def insertKey (start : KeyStart) (s : Scanner) : Scanner :=
  let after := s.tokens.length - start.tokens
  let before := s.tokens.drop after
  let opens := s.opensBlock start.column
  let marked :=
    if opens then Token.key :: Token.blockMappingStart :: before else Token.key :: before
  { s with
    tokens := s.tokens.take after ++ marked
    columns := if opens then start.column :: s.columns else s.columns
    keyStart := none }

def byteOrderMark : Char := '\ufeff'

/-- Passes over a byte order mark that begins a line. -/
def skipByteOrderMark (cursor : Cursor) : Cursor :=
  if cursor.column == 0 && cursor.peek 0 == some byteOrderMark then cursor.advance 1 else cursor

/--
Passes over byte order marks, blanks, comments and line breaks; after a break outside flow
collections a key may begin.
-/
def skipFrom (inFlow : Bool) : Nat → Bool → Cursor → Bool × Cursor
  | 0, allowed, cursor => (allowed, cursor)
  | fuel + 1, allowed, cursor =>
    let blanks := (skipByteOrderMark cursor).skipRun fun c =>
      c == ' ' || ((inFlow || !allowed) && c == '\t')
    let comment := if blanks.peek 0 == some '#' then blanks.skipRun (!isBreak ·) else blanks
    match comment.readBreak? with
    | some (_, next) => skipFrom inFlow fuel (allowed || !inFlow) next
    | none => (allowed, comment)

/-- Goes to the next token and ends the blocks that it is not in. -/
def toNextToken? (s : Scanner) : Option Scanner := do
  let (allowed, cursor) := skipFrom s.inFlow (s.cursor.rest.length + 1) s.keyAllowed s.cursor
  let s ← refresh? { s with keyAllowed := allowed, cursor := cursor }
  return s.closeBlocks cursor.column

/-- Leaves all blocks before a directive, a document mark or the end. -/
def leaveBlocks? (s : Scanner) : Option Scanner := do
  return allowKey false (← (s.closeBlocks (-1)).dropKeyStart?)

def openFlow? (token : Token) (s : Scanner) : Option Scanner := do
  let s ← s.markKeyStart?
  return { s with keyStart := none, outerKeyStarts := s.keyStart :: s.outerKeyStarts }
    |>.allowKey true |>.pushMark token 1

def closeFlow? (token : Token) (s : Scanner) : Option Scanner := do
  let s ← s.dropKeyStart?
  let s := match s.outerKeyStarts with
    | keyStart :: outer => { s with keyStart := keyStart, outerKeyStarts := outer }
    | [] => s
  return s.allowKey false |>.pushMark token 1

/-- Begins a block here, where a key has to be allowed; flow collections have no blocks. -/
def enterBlock? (token : Token) (s : Scanner) : Option Scanner :=
  if s.inFlow then some s
  else if s.keyAllowed then some (s.openBlock token s.cursor.column)
  else none

def value? (s : Scanner) : Option Scanner :=
  match s.keyStart with
  | some start => some ((s.insertKey start).allowKey false |>.pushMark .value 1)
  | none => do
    let s ← s.enterBlock? .blockMappingStart
    return s.allowKey (!s.inFlow) |>.pushMark .value 1

/-- What may follow the name of an anchor or an alias. -/
def endsName : Option Char → Bool
  | some c => isGapOrEnd (some c) || "?:,]\x7d%@\x60".toList.contains c
  | none => true

def name? (token : List Char → Token) (s : Scanner) : Option Scanner := do
  let s ← s.markKeyStart?
  let (name, next) := (s.cursor.advance 1).takeRun isNameChar
  if name.isEmpty || !endsName (next.peek 0) then none
  else some (s.allowKey false |>.push (token name) next)

def tag? (s : Scanner) : Option Scanner := do
  let s ← s.markKeyStart?
  let (handle, suffix, next) ← Tag.read? s.inFlow s.cursor
  return s.allowKey false |>.push (.tag handle suffix) next

def blockScalar? (folded : Bool) (s : Scanner) : Option Scanner := do
  let s ← s.dropKeyStart?
  let (text, next) ← BlockScalar.read? folded s.indentation (s.cursor.advance 1)
  return s.allowKey true |>.push (.scalar text (if folded then .folded else .literal)) next

def quotedScalar? (quote : Char) (style : Style) (s : Scanner) : Option Scanner := do
  let s ← s.markKeyStart?
  let (text, next) ← QuotedScalar.read? quote s.cursor
  return s.allowKey false |>.push (.scalar text style) next

/-- Marks that no plain scalar begins with, unless the next character makes it one. -/
def reserved : List Char := "-?:,[]\x7b\x7d#&*!|>\x27\x22%@\x60".toList

def beginsPlain (inFlow : Bool) (c : Char) (next : Option Char) : Bool :=
  !(isGapOrEnd (some c) || reserved.contains c) ||
    (c == '-' && !next.any isGap) ||
    (!inFlow && (c == '?' || c == ':') && !isGapOrEnd next)

def plainScalar? (s : Scanner) : Option Scanner := do
  let s ← s.markKeyStart?
  let (text, broken, next) ← PlainScalar.read? s.inFlow (s.indentation + 1).toNat s.cursor
  return s.allowKey broken |>.push (.scalar text .plain) next

/-- Reads the token that begins with `c`. -/
def next? (c : Char) (s : Scanner) : Option Scanner :=
  let next := s.cursor.peek 1
  let marked := s.inFlow || isGapOrEnd next
  if c == '%' && s.cursor.column == 0 then do
    let s ← s.leaveBlocks?
    let (token, cursor) ← Directive.read? s.cursor
    return s.push token cursor
  else if s.cursor.atDocumentMark then do
    let s ← s.leaveBlocks?
    return s.pushMark (if c == '-' then .documentStart else .documentEnd) 3
  else if c == '[' then s.openFlow? .flowSequenceStart
  else if c == '\x7b' then s.openFlow? .flowMappingStart
  else if c == ']' then s.closeFlow? .flowSequenceEnd
  else if c == '\x7d' then s.closeFlow? .flowMappingEnd
  else if c == ',' then do return (← s.dropKeyStart?).allowKey true |>.pushMark .flowEntry 1
  else if c == '-' && isGapOrEnd next then do
    let s ← (← s.enterBlock? .blockSequenceStart).dropKeyStart?
    return s.allowKey true |>.pushMark .blockEntry 1
  else if c == '?' && marked then do
    let s ← (← s.enterBlock? .blockMappingStart).dropKeyStart?
    return s.allowKey (!s.inFlow) |>.pushMark .key 1
  else if c == ':' && marked then s.value?
  else if c == '*' then s.name? .reference
  else if c == '&' then s.name? .anchor
  else if c == '!' then s.tag?
  else if c == '|' && !s.inFlow then s.blockScalar? false
  else if c == '>' && !s.inFlow then s.blockScalar? true
  else if c == '\x27' then s.quotedScalar? c .singleQuoted
  else if c == '\x22' then s.quotedScalar? c .doubleQuoted
  else if beginsPlain s.inFlow c next then s.plainScalar?
  else none

/-- Reads tokens up to the end. `fuel` bounds their number. -/
def tokensFrom : Nat → Scanner → Option (List Token)
  | 0, _ => none
  | fuel + 1, s => do
    let s ← s.toNextToken?
    match s.cursor.rest with
    | [] => return (← s.leaveBlocks?).tokens.reverse
    | c :: _ => tokensFrom fuel (← s.next? c)

end Scanner

/-- The tokens of a stream. -/
def tokens? (text : List Char) : Option (List Token) :=
  if text.all isReadable then
    (Scanner.start (Cursor.start text)).tokensFrom (text.length + 1)
  else none

end ProvideIndex.Yaml
