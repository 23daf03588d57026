import ProvideIndex.Shell.Reading

/-!
# Reading words

A word goes on until a character that cannot belong to it. Quotes, and the braces and parentheses of
expansions, hold parts of their own. The commands whose output is a part of a word are read by
`commands`.
-/

namespace ProvideIndex.Shell.Words

/-- Where a run of parts ends. -/
inductive Ending where
  /-- Before a blank, a line end or an operator. -/
  | blank
  /-- At the closing brace of a parameter. -/
  | brace
  /-- At a double quote. -/
  | quote
  /-- At two closing parentheses, when `depth` more have been closed. -/
  | parentheses (depth : Nat)
  /-- At the end of the text, which is one that follows a line with `<<`. -/
  | text
  deriving DecidableEq, Repr

/-- The rules by which parts are read. -/
structure Setting where
  ending : Ending
  /-- Whether blanks, quotes and patterns have no meaning. -/
  inQuotes : Bool
  /-- Whether the word ends a text that follows the line, so that nothing is expanded in it. -/
  isDelimiter : Bool
  deriving DecidableEq, Repr

def Setting.word : Setting := ⟨.blank, false, false⟩

def Setting.delimiter : Setting := ⟨.blank, false, true⟩

def Setting.document : Setting := ⟨.text, true, false⟩

/-- What ends a word: blanks, line ends and the characters of operators. -/
def endsWord (c : Char) : Bool := " \t\n;&|<>()".toList.contains c

/-- Whether a character has a meaning of its own. -/
def isSpecial (setting : Setting) (c : Char) : Bool :=
  c == '\\' || c == '$' || c == '\x60' ||
    match setting.ending with
    | .blank => c == '\x27' || c == '\x22' || endsWord c
    | .brace => c == '\x22' || c == '\x7d' || (!setting.inQuotes && c == '\x27')
    | .quote => c == '\x22'
    | .parentheses _ => c == '(' || c == ')' || c == '\x22'
    | .text => false

/-- The parts of a backslash with the character after it. -/
def escaped (setting : Setting) : Option Char → List Part
  | none => [.quoted ['\\']]
  | some c =>
    let isPlain := !setting.inQuotes || c == '\\' || c == '\x60' || c == '$' ||
      (c == '\x22' && setting.ending != .text) || (c == '\x7d' && setting.ending == .brace)
    [.quoted (if isPlain then [c] else ['\\', c])]

/-- The complaint about a script that ends inside a word. -/
def unfinished (setting : Setting) : Option String :=
  match setting.ending with
  | .blank | .text => none
  | .quote => some "Unterminated quoted string"
  | .brace =>
    some (if setting.inQuotes then "Unterminated quoted string" else "Missing \x27\x7d\x27")
  | .parentheses _ => some "Missing \x27))\x27"

/-- The text up to a single quote. -/
def singleQuoted : Nat → Reader Raw
  | 0 => Reader.fail "Unterminated quoted string"
  | fuel + 1 => do
    match ← Reader.nextRaw with
    | none => Reader.fail "Unterminated quoted string"
    | some '\x27' => return []
    | some c => return c :: (← singleQuoted fuel)

/-- The text up to a backquote, without the backslashes that protect characters in it. -/
def backquoted (inQuotes : Bool) : Nat → Reader Raw
  | 0 => Reader.fail "EOF in backquote substitution"
  | fuel + 1 => do
    match ← Reader.next with
    | none => Reader.fail "EOF in backquote substitution"
    | some '\x60' => return []
    | some '\\' =>
      match ← Reader.nextRaw with
      | none => Reader.fail "EOF in backquote substitution"
      | some c =>
        let isPlain := c == '\\' || c == '\x60' || c == '$' || (inQuotes && c == '\x22')
        let rest ← backquoted inQuotes fuel
        return if isPlain then c :: rest else '\\' :: c :: rest
    | some c => return c :: (← backquoted inQuotes fuel)

def isSpecialParameter (c : Char) : Bool := "@*#?-$!".toList.contains c || c.isDigit

/-- What the mark after the name of a parameter asks for; a colon may come before the mark. -/
def useOf (colon : Bool) : Char → Use
  | '-' => .fallback colon
  | '=' => .assign colon
  | '?' => .require colon
  | '+' => .replace colon
  | _ => .bad

/-- The use of a parameter in braces, and whether the closing brace has been read. -/
def use : Reader (Use × Bool) := do
  match ← Reader.peek with
  | some '\x7d' => do
    let _ ← Reader.next
    return (.plain, true)
  | some ':' => do
    let _ ← Reader.next
    match ← Reader.next with
    | some c => return (useOf true c, false)
    | none => return (.bad, false)
  | some c =>
    let _ ← Reader.next
    if c == '%' || c == '#' then return (.trim (c == '%') (← Reader.takeIf c), false)
    else return (useOf false c, false)
  | none => return (.bad, false)

/-- The name of a parameter in braces, and whether its length is meant; `none` if it has none. -/
def name? (fuel : Nat) : Reader (Option (Raw × Bool)) := do
  let named (isLength : Bool) : Reader (Option (Raw × Bool)) := do
    match ← Reader.peek with
    | some c =>
      if Raw.isNameStart c then return some (← Reader.takeWhile Raw.isNameChar fuel, isLength)
      else if c.isDigit then return some (← Reader.takeWhile Char.isDigit fuel, isLength)
      else if isSpecialParameter c then
        let _ ← Reader.next
        return some ([c], isLength)
      else return none
    | none => return none
  if (← Reader.peek) != some '#' then named false
  else
    let _ ← Reader.next
    let reading ← get
    match ← Reader.peek with
    | some c =>
      if Raw.isNameChar c then named true
      else
        let _ ← Reader.next
        if c != '\x7d' && (← Reader.peek) == some '\x7d' && isSpecialParameter c then
          return some ([c], true)
        else
          set reading
          return some (['#'], false)
    | none => return some (['#'], false)

/-- Reads commands from a text of their own. -/
def readFrom {α : Type} (text : Raw) (reader : Reader α) : Reader α := do
  let outer ← get
  set { outer with rest := text, pushed := none, waiting := [] }
  let result ← reader
  let inner ← get
  set { outer with nextNumber := inner.nextNumber, documents := inner.documents }
  return result

/-- Reads commands up to the parenthesis that closes them. -/
def inParentheses (commands : Reader (Option Command)) (token : Reader Token) :
    Reader (Option Command) := do
  let waiting := (← get).waiting
  modify fun reading => { reading with waiting := [] }
  let command ← commands
  let last ← token
  if last.isOperator .closeParenthesis then
    modify fun reading => { reading with waiting := waiting }
    return command
  else Reader.unexpectedFor last (.operator .closeParenthesis)

variable (commands : Reader (Option Command)) (token : Reader Token)

mutual

/-- The parts of a run. `fuel` bounds the number of steps, here and below. -/
def parts (setting : Setting) : Nat → Reader (List Part)
  | 0 => return []
  | fuel + 1 => do
    match ← Reader.peek with
    | none =>
      match unfinished setting with
      | some complaint => Reader.fail complaint
      | none => return []
    | some c =>
      if !isSpecial setting c then do
        let run ← Reader.takeWhile (!isSpecial setting ·) (fuel + 1)
        return .literal run :: (← parts setting fuel)
      else if setting.ending == .blank && endsWord c then return []
      else
        let _ ← Reader.next
        special setting c fuel

/-- The parts that begin with a special character, which has been read. -/
def special (setting : Setting) (c : Char) : Nat → Reader (List Part)
  | 0 => return []
  | fuel + 1 => do
    let go (first : List Part) : Reader (List Part) := do return first ++ (← parts setting fuel)
    match c, setting.ending with
    | '\\', _ => go (escaped setting (← Reader.nextRaw))
    | '$', _ => if setting.isDelimiter then go [.literal ['$']] else go (← dollar setting fuel)
    | '\x60', _ =>
      if setting.isDelimiter then go [.literal ['\x60']]
      else
        let text ← backquoted setting.inQuotes (← get).rest.length.succ
        go [.output (← readFrom text commands)]
    | '\x27', _ => go [.quoted (← singleQuoted (← get).rest.length.succ)]
    | '\x22', .quote => return []
    | '\x22', _ => go [.doubleQuoted (← parts ⟨.quote, true, setting.isDelimiter⟩ fuel)]
    | '\x7d', _ => return []
    | '(', .parentheses depth =>
      return .literal ['('] ::
        (← parts { setting with ending := .parentheses (depth + 1) } fuel)
    | ')', .parentheses (depth + 1) =>
      return .literal [')'] :: (← parts { setting with ending := .parentheses depth } fuel)
    | ')', .parentheses 0 => if ← Reader.takeIf ')' then return [] else go [.literal [')']]
    | _, _ => go [.literal [c]]

/-- What follows a dollar sign. -/
def dollar (setting : Setting) : Nat → Reader (List Part)
  | 0 => return []
  | fuel + 1 => do
    match ← Reader.peek with
    | some '(' => do
      let _ ← Reader.next
      if ← Reader.takeIf '(' then
        return [.arithmetic (← parts ⟨.parentheses 0, true, false⟩ fuel)]
      else return [.output (← inParentheses commands token)]
    | some '\x7b' => do
      let _ ← Reader.next
      return [← braced setting fuel]
    | some c =>
      if Raw.isNameStart c then
        return [.parameter (← Reader.takeWhile Raw.isNameChar fuel) .plain []]
      else if isSpecialParameter c then
        let _ ← Reader.next
        return [.parameter [c] .plain []]
      else return [.literal ['$']]
    | none => return [.literal ['$']]

/-- A parameter in braces, after the opening one. -/
def braced (setting : Setting) : Nat → Reader Part
  | 0 => Reader.fail "Missing \x27\x7d\x27"
  | fuel + 1 => do
    let word (use : Use) : Reader (List Part) :=
      let inQuotes := setting.inQuotes && !(use matches .trim _ _)
      parts ⟨.brace, inQuotes, false⟩ fuel
    match ← name? (fuel + 1) with
    | none => return .parameter [] .bad (← word .bad)
    | some (name, true) =>
      if ← Reader.takeIf '\x7d' then return .parameter name .length []
      else return .parameter name .bad (← word .bad)
    | some (name, false) =>
      let (use, closed) ← use
      let rest ← if closed then pure [] else word use
      return .parameter name use rest

end

end ProvideIndex.Shell.Words
