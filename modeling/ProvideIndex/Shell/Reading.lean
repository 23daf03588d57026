import ProvideIndex.Shell.Tree

/-!
# Reading a script

What is left of a script, and the tokens that it begins with. A backslash before a line end joins
two lines everywhere but between single quotes, so most readers look at the text through `joined`.
-/

namespace ProvideIndex.Shell

/-- Words that have a meaning where a command may begin. -/
inductive Keyword where
  | negation | case | do | done | elif | else | esac | fi | for | if | in | then | until | while
  | open | close
  deriving DecidableEq, Repr

namespace Keyword

def text : Keyword → String
  | negation => "!"
  | case => "case"
  | «do» => "do"
  | done => "done"
  | elif => "elif"
  | «else» => "else"
  | esac => "esac"
  | fi => "fi"
  | «for» => "for"
  | «if» => "if"
  | «in» => "in"
  | «then» => "then"
  | «until» => "until"
  | «while» => "while"
  | «open» => "\x7b"
  | close => "\x7d"

def all : List Keyword :=
  [negation, case, .do, done, elif, .else, esac, fi, .for, .if, .in, .then, .until, .while, .open,
    close]

def ofText? (text : Raw) : Option Keyword := all.find? fun keyword => keyword.text.toList == text

/-- Whether a keyword ends a list of commands. -/
def endsList : Keyword → Bool
  | .do | done | elif | .else | esac | fi | .then | close => true
  | _ => false

end Keyword

inductive Operator where
  | semicolon | ampersand | and | or | pipe | openParenthesis | closeParenthesis | endCase
  deriving DecidableEq, Repr

def Operator.text : Operator → String
  | semicolon => ";"
  | ampersand => "&"
  | and => "&&"
  | or => "||"
  | pipe => "|"
  | openParenthesis => "("
  | closeParenthesis => ")"
  | endCase => ";;"

/-- How a redirection begins, before its word. -/
inductive RedirectionStart where
  | file (opening : Opening)
  | copy
  | document (stripTabs : Bool)
  deriving DecidableEq, Repr

inductive Token where
  | endOfScript
  | newline
  | operator (operator : Operator)
  | redirection (descriptor : Nat) (start : RedirectionStart)
  | keyword (keyword : Keyword)
  | word (word : Word)

namespace Token

/-- How a token is called in complaints. -/
def shown : Token → String
  | endOfScript => "end of file"
  | newline => "newline"
  | operator o => "\x22" ++ o.text ++ "\x22"
  | redirection .. => "redirection"
  | keyword k => "\x22" ++ k.text ++ "\x22"
  | word _ => "word"

/-- The text of a word without quotes and expansions. -/
def plain? : Token → Option Raw
  | word [.literal text] => some text
  | _ => none

def endsList : Token → Bool
  | endOfScript => true
  | operator .closeParenthesis | operator .endCase => true
  | keyword k => k.endsList
  | _ => false

def isOperator (o : Operator) : Token → Bool
  | operator p => o == p
  | _ => false

def isKeyword (k : Keyword) : Token → Bool
  | keyword l => k == l
  | _ => false

end Token

/-- A complaint about a script, with the line on which it came up. -/
structure Fault where
  line : Nat
  text : String
  deriving Repr

/-- A text that follows the line that is being read. -/
structure Waiting where
  number : Nat
  stripTabs : Bool
  /-- Whether the text is taken as it is. -/
  isQuoted : Bool
  delimiter : Raw
  deriving Repr

/-- An alias whose text is being read. -/
structure OpenAlias where
  name : Raw
  /-- How much is left of the script after its text. -/
  left : Nat
  endsInBlank : Bool
  deriving Repr

structure Reading where
  rest : Raw
  line : Nat
  /-- A token that was read too early. -/
  pushed : Option Token
  waiting : List Waiting
  /-- The number of the next text after a line. -/
  nextNumber : Nat
  documents : Documents
  aliases : List (Raw × Raw)
  openAliases : List OpenAlias

abbrev Reader := StateT Reading (Except Fault)

namespace Reading

/-- Passes over backslashes with line ends after them. -/
def joinedFrom (line : Nat) : Raw → Nat × Raw
  | '\\' :: '\n' :: rest => joinedFrom (line + 1) rest
  | rest => (line, rest)

def joined (reading : Reading) : Reading :=
  let (line, rest) := joinedFrom reading.line reading.rest
  { reading with line := line, rest := rest }

end Reading

namespace Reader

def fail {α : Type} (text : String) : Reader α := do
  throw ⟨(← get).line, "Syntax error: " ++ text⟩

def unexpected {α : Type} (token : Token) : Reader α := fail (token.shown ++ " unexpected")

def unexpectedFor {α : Type} (token expected : Token) : Reader α :=
  fail (token.shown ++ " unexpected (expecting " ++ expected.shown ++ ")")

/-- The next character as it is written. -/
def nextRaw : Reader (Option Char) := fun reading =>
  match reading.rest with
  | c :: rest =>
    let line := if c == '\n' then reading.line + 1 else reading.line
    .ok (some c, { reading with rest := rest, line := line })
  | [] => .ok (none, reading)

/-- Looks at the next character of joined lines. -/
def peek : Reader (Option Char) := fun reading =>
  let reading := reading.joined
  .ok (reading.rest.head?, reading)

/-- The next character of joined lines. -/
def next : Reader (Option Char) := do
  let _ ← peek
  nextRaw

/-- Takes a character if it comes next. -/
def takeIf (c : Char) : Reader Bool := do
  if (← peek) == some c then
    let _ ← next
    return true
  else return false

/-- Takes the characters of joined lines that satisfy `p`. `fuel` bounds their number. -/
def takeWhile (p : Char → Bool) : Nat → Reader Raw
  | 0 => return []
  | fuel + 1 => do
    match ← peek with
    | some c =>
      if p c then
        let _ ← next
        return c :: (← takeWhile p fuel)
      else return []
    | none => return []

def push (token : Token) : Reader Unit :=
  modify fun reading => { reading with pushed := some token }

end Reader

end ProvideIndex.Shell
