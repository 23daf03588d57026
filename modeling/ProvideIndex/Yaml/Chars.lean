/-!
# Characters of the YAML format

The classes that decide where a token ends, which characters a stream may hold, and which of them a
scalar can show without an escape.
-/

namespace ProvideIndex.Yaml

def isBreak (c : Char) : Bool :=
  c == '\n' || c == '\r' || c == '\u0085' || c == '\u2028' || c == '\u2029'

/-- A space or a tab. -/
def isGap (c : Char) : Bool := c == ' ' || c == '\t'

/-- A space, a tab, a line break, or the end of the stream. -/
def isGapOrEnd : Option Char → Bool
  | none => true
  | some c => isGap c || isBreak c

def isBreakOrEnd : Option Char → Bool
  | none => true
  | some c => isBreak c

/-- Letters, digits, `_` and `-`: what a name of an anchor or a directive is made of. -/
def isNameChar (c : Char) : Bool := c.isAlphanum || c == '_' || c == '-'

/-- What a stream may hold. -/
def isReadable (c : Char) : Bool :=
  let n := c.toNat
  n == 0x09 || n == 0x0a || n == 0x0d || (0x20 ≤ n && n ≤ 0x7e) || n == 0x85 ||
    (0xa0 ≤ n && n ≤ 0xd7ff) || (0xe000 ≤ n && n ≤ 0xfffd) || 0x10000 ≤ n

/-- What a scalar can show as it is. -/
def isPrintable (c : Char) : Bool :=
  let n := c.toNat
  n == 0x0a || (0x20 ≤ n && n ≤ 0x7e) || (0xa0 ≤ n && n ≤ 0xd7ff) ||
    (0xe000 ≤ n && n ≤ 0xfffd && n != 0xfeff) || 0x10000 ≤ n

end ProvideIndex.Yaml
