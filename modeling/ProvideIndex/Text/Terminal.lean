/-!
# Text for a terminal

A terminal takes an escape character and what follows it for a command, and shows nothing for it.
`visible` is the text without such sequences and without the control characters that are not blanks.
A sequence that is not finished goes on with the text after it, up to the next escape character.
-/

namespace ProvideIndex.Text.Terminal

/-- What a terminal is reading. -/
inductive State where
  | text
  /-- After an escape character. -/
  | escape
  /-- After an escape character and marks, before the letter that ends the sequence. -/
  | marks
  /-- In the numbers and marks before the letter of a control sequence. -/
  | control
  /-- In a string that only another escape character ends. -/
  | string
  /-- In a string that the bell ends as well. -/
  | title
  deriving DecidableEq, Repr

/-- A tab, a line feed, a form feed or a carriage return. -/
def isBlankControl (c : Char) : Bool := c == '\t' || c == '\n' || c == '\x0c' || c == '\r'

def isControl (c : Char) : Bool := c.toNat < 0x20 || c.toNat == 0x7f

def afterEscape (c : Char) : State :=
  if c == '[' then .control
  else if c == ']' then .title
  else if c == 'P' || c == 'X' || c == '^' || c == '_' then .string
  else if c.toNat < 0x30 then .marks
  else .text

/-- What follows a character that is no control character, in a sequence that is not a string. -/
def afterMark (state : State) (c : Char) : State :=
  match state with
  | .escape => afterEscape c
  | .marks => if c.toNat < 0x30 then .marks else .text
  | .control => if c.toNat < 0x40 then .control else .text
  | other => other

/--
Reads one character: the next state, and what is shown. Of a character of several bytes a sequence
takes the first byte, and the others do not make a character any more.
-/
def step (state : State) (c : Char) : State × List Char :=
  if c == '\x1b' then (.escape, [])
  else if c == '\x18' || c == '\x1a' then (.text, [])
  else if 0x80 ≤ c.toNat then
    (.text, if state = .text then [c] else List.replicate (c.utf8Size - 1) '\ufffd')
  else
    match state with
    | .string => (.string, [])
    | .title => (if c == '\x07' then .text else .title, [])
    | _ =>
      if isBlankControl c then (.text, [c])
      else if isControl c then (state, [])
      else if state = .text then (.text, [c])
      else (afterMark state c, [])

def visibleFrom (state : State) : List Char → List Char
  | [] => []
  | c :: text =>
    let (next, shown) := step state c
    shown ++ visibleFrom next text

def visible (text : String) : String := String.ofList (visibleFrom .text text.toList)

/-- Sets a text apart; the sequence after it ends one that the text does not finish. -/
def highlighted (text : String) : String := "\x1b[1m" ++ text ++ "\x1b[0m"

end ProvideIndex.Text.Terminal
