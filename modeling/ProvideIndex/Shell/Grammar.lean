import ProvideIndex.Shell.Words
import ProvideIndex.Text.Digits

/-!
# Reading commands

A script is read one line at a time, with the lines that its commands go on to. Keywords count only
where a command may begin; so the readers of tokens are told what may come.
-/

namespace ProvideIndex.Shell.Grammar

/-- What a token may be. -/
structure Expected where
  newlines : Bool
  keywords : Bool
  aliases : Bool

def Expected.word : Expected := ⟨false, false, false⟩

def Expected.argument : Expected := ⟨false, false, true⟩

def Expected.keyword : Expected := ⟨false, true, true⟩

def Expected.command : Expected := ⟨true, true, true⟩

def Expected.case : Expected := ⟨true, true, false⟩

/-! ## Texts after a line -/

/-- The end of a line, with the lines that backslashes join to it. -/
def lineFrom (joins : Bool) (done : Raw) : Raw → Raw × Raw × Bool
  | [] => (done.reverse, [], false)
  | '\n' :: rest => (done.reverse, rest, true)
  | '\\' :: '\n' :: rest =>
    if joins then lineFrom joins ('\n' :: '\\' :: done) rest
    else (('\\' :: done).reverse, rest, true)
  | '\\' :: c :: rest => lineFrom joins (c :: '\\' :: done) rest
  | c :: rest => lineFrom joins (c :: done) rest

/-- The lines before a delimiter, and what follows it. `fuel` bounds the number of lines. -/
def documentFrom (waiting : Waiting) (done : Raw) : Nat → Raw → Raw × Raw
  | 0, rest => (done, rest)
  | _, [] => (done, [])
  | fuel + 1, rest =>
    let (line, after, ended) := lineFrom (!waiting.isQuoted) [] rest
    let line := if waiting.stripTabs then line.dropWhile (· == '\t') else line
    if line == waiting.delimiter then (done, after)
    else documentFrom waiting (done ++ line ++ (if ended then ['\n'] else [])) fuel after

/-- How many line ends a text has. -/
def countLines (text : Raw) : Nat := text.countP (· == '\n')

variable (commands : Reader (Option Command))

/-- Reads the texts that follow the line that was read last. -/
def documents (token : Reader Token) : Reader Unit := do
  let waiting := (← get).waiting
  modify fun reading => { reading with waiting := [] }
  waiting.forM fun one => do
    let reading ← get
    let (text, rest) := documentFrom one [] (reading.rest.length + 1) reading.rest
    let word ←
      if one.isQuoted then pure [.quoted text]
      else Words.readFrom text (Words.parts commands token .document (2 * text.length + 8))
    modify fun now =>
      { now with
        rest := rest
        line := reading.line + (countLines reading.rest - countLines rest)
        documents := (one.number, word) :: now.documents }

/-! ## Tokens -/

def operatorAfter (first : Char) : Reader Token := do
  let choose (second : Char) (long short : Operator) : Reader Token := do
    return .operator (if ← Reader.takeIf second then long else short)
  match first with
  | '&' => choose '&' .and .ampersand
  | '|' => choose '|' .or .pipe
  | ';' => choose ';' .endCase .semicolon
  | '(' => return .operator .openParenthesis
  | _ => return .operator .closeParenthesis

/-- How a redirection begins after the mark `>`. -/
def startAfterGreater : Reader RedirectionStart := do
  match ← Reader.peek with
  | some '>' => taking (.file .append)
  | some '|' => taking (.file .overwrite)
  | some '&' => taking .copy
  | _ => return .file .write
where
  taking (start : RedirectionStart) : Reader RedirectionStart := do
    discard Reader.next
    return start

/-- How a redirection begins after the mark `<`. -/
def startAfterLess : Reader RedirectionStart := do
  match ← Reader.peek with
  | some '<' => do
    discard Reader.next
    return .document (← Reader.takeIf '-')
  | some '&' => do
    discard Reader.next
    return .copy
  | some '>' => do
    discard Reader.next
    return .file .readWrite
  | _ => return .file .read

/-- The redirection after the mark `<` or `>`; a digit before the mark is the descriptor. -/
def redirectionAfter (mark : Char) (digit : Option Char) : Reader Token := do
  let descriptor := (digit.map Text.digitValue).getD (if mark == '>' then 1 else 0)
  let start ← if mark == '>' then startAfterGreater else startAfterLess
  return .redirection descriptor start

/-- Whether a word may be the descriptor of a redirection. -/
def descriptorOf? : List Part → Option (Option Char)
  | [] => some none
  | [.literal [c]] => if c.isDigit then some (some c) else none
  | _ => none

/-- Reads a token as it is written, without regard to keywords. `fuel` bounds the steps. -/
def plainToken (token : Reader Token) (setting : Words.Setting) : Nat → Reader Token
  | 0 => return .endOfScript
  | fuel + 1 => do
    match ← Reader.peek with
    | none => return .endOfScript
    | some c =>
      if Raw.isBlank c then
        let _ ← Reader.next
        plainToken token setting fuel
      else if c == '#' then
        modify fun reading => { reading with rest := reading.rest.dropWhile (· != '\n') }
        plainToken token setting fuel
      else if c == '\n' then
        let _ ← Reader.next
        return .newline
      else if "&|;()".toList.contains c then
        let _ ← Reader.next
        operatorAfter c
      else
        let size := 2 * (← get).rest.length + 8
        let parts ← Words.parts commands token setting size
        match ← Reader.peek, descriptorOf? parts with
        | some mark, some digit =>
          if mark == '<' || mark == '>' then
            let _ ← Reader.next
            redirectionAfter mark digit
          else return .word parts
        | _, _ => return .word parts

/-- The alias of a word, unless it is being read. -/
def alias? (name : Raw) : Reader (Option Raw) := do
  let reading ← get
  return if reading.openAliases.any (·.name == name) then none else reading.aliases.lookup name

/-- Reads the text of an alias before the rest of the script. -/
def openAlias (name text : Raw) : Reader Unit := modify fun reading =>
  let endsInBlank := text.getLast?.any Raw.isBlank
  { reading with
    openAliases := ⟨name, reading.rest.length, endsInBlank⟩ :: reading.openAliases
    rest := text ++ reading.rest }

/--
Closes the aliases whose texts have been read, where `before` was left of the script before the last
token. The result says whether that token may be an alias because it follows a blank at the end of
one.
-/
def closeAliases (before : Nat) : Reader Bool := modifyGet fun reading =>
  let now := reading.rest.length
  let (stillOpen, closed) := reading.openAliases.partition fun one => one.left ≤ now
  (closed.any fun one => one.endsInBlank && decide (one.left < before),
    { reading with openAliases := stillOpen })

/-- Reads the next token in view of what it may be. `fuel` bounds the number of steps. -/
def nextToken (expected : Expected) (setting : Words.Setting) : Nat → Reader Token
  | 0 => return .endOfScript
  | fuel + 1 => do
    let inner := nextToken .word .word fuel
    let before := (← get).rest.length
    let found ←
      match (← get).pushed with
      | some token =>
        modify fun reading => { reading with pushed := none }
        pure token
      | none => plainToken commands inner setting ((← get).rest.length + 2)
    let followsBlank ← closeAliases before
    match found, expected.newlines with
    | .newline, true =>
      documents commands inner
      nextToken expected setting fuel
    | _, _ =>
      match found.plain? with
      | none => return found
      | some text =>
        match (if expected.keywords then Keyword.ofText? text else none) with
        | some keyword => return .keyword keyword
        | none =>
          let mayBeAlias := expected.aliases || followsBlank
          let replacement ← if mayBeAlias then alias? text else pure none
          match replacement with
          | some replacement =>
            openAlias text replacement
            nextToken { expected with aliases := mayBeAlias } setting fuel
          | none => return found

end ProvideIndex.Shell.Grammar
