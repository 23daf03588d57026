import ProvideIndex.Raw

/-!
# Patterns

A pattern is a text in which `*`, `?` and brackets stand for other texts, unless they are quoted.
-/

namespace ProvideIndex.Shell

/-- A character that may be quoted, and then stands for itself. -/
structure Mark where
  char : Char
  isQuoted : Bool
  deriving DecidableEq, Repr

namespace Pattern

/-- What a bracket may hold. -/
inductive Member where
  | range (least most : Char)
  | named (name : String)
  deriving DecidableEq, Repr

inductive Atom where
  | char (c : Char)
  | any
  | many
  | oneOf (negated : Bool) (members : List Member)
  deriving DecidableEq, Repr

/-- The class of characters with a name. -/
def isInClass (name : String) (c : Char) : Bool :=
  let isPunctuation := 0x20 < c.toNat && c.toNat < 0x7f && !c.isAlphanum
  let isSpace := c == ' ' || (0x09 ≤ c.toNat && c.toNat ≤ 0x0d)
  match name with
  | "alpha" => c.isAlpha
  | "digit" => c.isDigit
  | "alnum" => c.isAlphanum
  | "upper" => c.isUpper
  | "lower" => c.isLower
  | "space" => isSpace
  | "blank" => c == ' ' || c == '\t'
  | "punct" => isPunctuation
  | "print" => 0x20 ≤ c.toNat && c.toNat < 0x7f
  | "graph" => 0x20 < c.toNat && c.toNat < 0x7f
  | "cntrl" => c.toNat < 0x20 || c.toNat == 0x7f
  | "xdigit" => c.isDigit || ('a' ≤ c && c ≤ 'f') || ('A' ≤ c && c ≤ 'F')
  | _ => false

def Member.holds (c : Char) : Member → Bool
  | range least most => least ≤ c && c ≤ most
  | named name => isInClass name c

def Atom.holds (c : Char) : Atom → Bool
  | char d => c == d
  | any => true
  | many => true
  | oneOf negated members => members.any (·.holds c) != negated

def isPlain (mark : Mark) (c : Char) : Bool := mark.char == c && !mark.isQuoted

/-- The name of a class after `[:`, up to `:]`. -/
def className? (text : List Mark) : Option (String × List Mark) :=
  let name := (text.takeWhile (·.char.isAlpha)).map (·.char)
  match text.drop name.length with
  | colon :: bracket :: rest =>
    if colon.char == ':' && bracket.char == ']' then some (String.ofList name, rest) else none
  | _ => none

/-- The members of a bracket and what follows it. `fuel` bounds their number. -/
def members? (first : Bool) : Nat → List Mark → Option (List Member × List Mark)
  | 0, _ => none
  | _, [] => none
  | fuel + 1, c :: rest => do
    if isPlain c ']' && !first then return ([], rest)
    else
      let single : Option (List Member × List Mark) := do
        match rest with
        | dash :: d :: after =>
          if isPlain dash '-' && !isPlain d ']' then
            let (more, last) ← members? false fuel after
            return (.range c.char d.char :: more, last)
          else
            let (more, last) ← members? false fuel rest
            return (.range c.char c.char :: more, last)
        | _ =>
          let (more, last) ← members? false fuel rest
          return (.range c.char c.char :: more, last)
      match isPlain c '[', rest with
      | true, colon :: after =>
        match (if colon.char == ':' then className? after else none) with
        | some (name, after) =>
          let (more, last) ← members? false fuel after
          return (.named name :: more, last)
        | none => single
      | _, _ => single

/-- A bracket after its first character. -/
def bracket? (text : List Mark) : Option (Atom × List Mark) := do
  let (negated, inside) := match text with
    | c :: rest => if isPlain c '!' then (true, rest) else (false, text)
    | [] => (false, text)
  let (members, rest) ← members? true (text.length + 1) inside
  return (.oneOf negated members, rest)

/-- The atoms of a pattern. `fuel` bounds their number. -/
def atomsFrom : Nat → List Mark → List Atom
  | 0, _ => []
  | _, [] => []
  | fuel + 1, mark :: rest =>
    if isPlain mark '*' then .many :: atomsFrom fuel rest
    else if isPlain mark '?' then .any :: atomsFrom fuel rest
    else if isPlain mark '[' then
      match bracket? rest with
      | some (atom, after) => atom :: atomsFrom fuel after
      | none => .char '[' :: atomsFrom fuel rest
    else .char mark.char :: atomsFrom fuel rest

/-- Quotes what stands after a backslash that is not quoted itself. -/
def withoutBackslashes : List Mark → List Mark
  | [] => []
  | [mark] => [mark]
  | mark :: next :: rest =>
    if isPlain mark '\\' then { next with isQuoted := true } :: withoutBackslashes rest
    else mark :: withoutBackslashes (next :: rest)

def atoms (text : List Mark) : List Atom :=
  let text := withoutBackslashes text
  atomsFrom (text.length + 1) text

/-- Whether some tail of a text satisfies `p`. -/
def anyTail (p : Raw → Bool) : Raw → Bool
  | [] => p []
  | c :: text => p (c :: text) || anyTail p text

def matchesAll : List Atom → Raw → Bool
  | [], text => text.isEmpty
  | .many :: atoms, text => anyTail (matchesAll atoms) text
  | atom :: atoms, c :: text => atom.holds c && matchesAll atoms text
  | _ :: _, [] => false

def isMatch (pattern : List Mark) (text : Raw) : Bool := matchesAll (atoms pattern) text

/-- Takes away what a pattern matches at an end of a text: the shortest or the longest part. -/
def trim (atEnd longest : Bool) (pattern : List Mark) (text : Raw) : Raw :=
  let atoms := atoms pattern
  let lengths := List.range (text.length + 1)
  let tried := if longest then lengths.reverse else lengths
  let part (length : Nat) : Raw :=
    if atEnd then text.drop (text.length - length) else text.take length
  match tried.find? fun length => matchesAll atoms (part length) with
  | some length => if atEnd then text.take (text.length - length) else text.drop length
  | none => text

end Pattern

end ProvideIndex.Shell
