import ProvideIndex.Raw

/-!
# Quoting in messages

The names in messages of programs stand between quotes, in a form that a shell would read back, or
in one in which a backslash shows what cannot be printed.
-/

namespace ProvideIndex.Program.Quoted

def isPrintable (c : Char) : Bool := 0x20 ≤ c.toNat && c.toNat < 0x7f

def controlLetter? : Char → Option Char
  | '\x07' => some 'a'
  | '\x08' => some 'b'
  | '\x0c' => some 'f'
  | '\n' => some 'n'
  | '\r' => some 'r'
  | '\t' => some 't'
  | '\x0b' => some 'v'
  | _ => none

def octal (c : Char) : Raw :=
  let n := c.toNat
  [n / 64, n / 8 % 8, n % 8].map fun digit => Char.ofNat (digit + '0'.toNat)

/-- The text after the backslash of a character that cannot be printed. -/
def escape (c : Char) : Raw :=
  match controlLetter? c with
  | some letter => [letter]
  | none => octal c

/-- A text between quotes, with backslashes. -/
def withBackslashes (text : Raw) : Raw :=
  let inner := text.flatMap fun c =>
    if c == '\x27' || c == '\\' then ['\\', c]
    else if isPrintable c then [c]
    else '\\' :: escape c
  '\x27' :: inner ++ ['\x27']

/-- The text after an opening quote. Escapes stand in quotes of their own, after a dollar sign. -/
def forShellFrom (inEscapes : Bool) : Raw → Raw
  | [] => ['\x27']
  | c :: text =>
    if c == '\x27' then ['\x27', '\\', '\x27', '\x27'] ++ forShellFrom false text
    else if isPrintable c then
      let start := if inEscapes then ['\x27', '\x27'] else []
      start ++ c :: forShellFrom false text
    else
      let start := if inEscapes then [] else ['\x27', '$', '\x27']
      start ++ '\\' :: escape c ++ forShellFrom true text

/-- Whether a character means the same between double quotes. -/
def isPlainInDoubleQuotes (c : Char) : Bool := c.isAlphanum || " \x27%+,-./:]_@".toList.contains c

/-- A text as a shell reads it back. -/
def forShell (text : Raw) : Raw :=
  let bracesAlone := text == ['\x7b'] || text == ['\x7d']
  let isPlain := bracesAlone || match text with
    | c :: rest =>
      (c == '#' || c == '~' || isPlainInDoubleQuotes c) && rest.all isPlainInDoubleQuotes
    | [] => true
  if text.contains '\x27' && isPlain then '\x22' :: text ++ ['\x22']
  else '\x27' :: forShellFrom false text

/-- Whether a shell would take a character for something else. -/
def needsQuotes (c : Char) : Bool :=
  !isPrintable c || " ?\\!\x22$&()*;<=>[^\x60|\x27".toList.contains c

def startNeedsQuotes : Raw → Bool
  | [] => true
  | [c] => "\x7b\x7d#~".toList.contains c
  | c :: _ => c == '#' || c == '~'

/-- A text as a shell reads it back, without quotes where none are needed. -/
def forShellIfNeeded (text : Raw) : Raw :=
  if startNeedsQuotes text || text.any needsQuotes then forShell text else text

/-- The same before a colon, which could not be told from one in the text. -/
def beforeColon (text : Raw) : Raw :=
  if text.contains ':' then forShell text else forShellIfNeeded text

end ProvideIndex.Program.Quoted
