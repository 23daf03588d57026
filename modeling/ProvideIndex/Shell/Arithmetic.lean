import ProvideIndex.Raw
import ProvideIndex.Text.Digits

/-!
# Arithmetic

Expressions over whole numbers of 64 bits. A text is first read as an expression; its value may
depend on variables and change them. What a text lacks is noted in the expression at its place, so
that complaints come in the order of the text.
-/

namespace ProvideIndex.Shell.Arithmetic

/-- The number of 64 bits with a sign that a result comes out as. -/
def wrap (n : Int) : Int := Int.bmod n (1 <<< 64)

def largest : Int := 9223372036854775807

/-! ## Numbers in texts -/

def isSpace (c : Char) : Bool := c == ' ' || (0x09 ≤ c.toNat && c.toNat ≤ 0x0d)

/-- The digits of a base at the beginning of a text. -/
def digits (base : Nat) (text : Raw) : Raw :=
  text.takeWhile fun c => (Text.hexValue? c).any (· < base)

/-- A number at the beginning of a text, in base sixteen, eight or ten, and what follows it. -/
def magnitude (text : Raw) : Nat × Raw :=
  let read (base : Nat) (text : Raw) : Nat × Raw :=
    let found := digits base text
    ((Text.number? base found).getD 0, text.drop found.length)
  match text with
  | '0' :: 'x' :: rest | '0' :: 'X' :: rest =>
    if (digits 16 rest).isEmpty then (0, text.drop 1) else read 16 rest
  | '0' :: _ => read 8 text
  | _ => read 10 text

/-- A number with a sign; one that is too large has no value. -/
def number? (base : Option Nat) (text : Raw) : Option Int :=
  let trimmed := text.dropWhile isSpace
  let (negative, unsigned) := match trimmed with
    | '-' :: rest => (true, rest)
    | '+' :: rest => (false, rest)
    | rest => (false, rest)
  let (n, rest) := match base with
    | some base =>
      let found := digits base unsigned
      ((Text.number? base found).getD 0, unsigned.drop found.length)
    | none => magnitude unsigned
  let isBlank := rest.length == unsigned.length
  let value : Int := if negative then -n else n
  let rest := if isBlank then text else rest
  if (isBlank && base.isSome) || !(rest.dropWhile isSpace).isEmpty then none
  else if value < -largest - 1 ∨ largest < value then none
  else some value

/-! ## Expressions -/

inductive Binary where
  | multiply | divide | remainder | add | subtract | shiftLeft | shiftRight
  | less | atMost | greater | atLeast | equal | notEqual | bitAnd | bitXor | bitOr
  deriving DecidableEq, Repr

namespace Binary

/-- How tightly an operator binds; a lower number binds more tightly. -/
def rank : Binary → Nat
  | multiply | divide | remainder => 0
  | add | subtract => 1
  | shiftLeft | shiftRight => 2
  | less | atMost | greater | atLeast => 3
  | equal | notEqual => 4
  | bitAnd => 5
  | bitXor => 6
  | bitOr => 7

def truth (b : Bool) : Int := if b then 1 else 0

/-- The bits of a number, for operations on bits. -/
def bits (n : Int) : Nat := (n % (1 <<< 64)).toNat

/-- The value of an operation; nothing can be divided by zero. -/
def result? (operator : Binary) (a b : Int) : Option Int :=
  match operator with
  | multiply => some (wrap (a * b))
  | divide => if b = 0 then none else some (wrap (a.tdiv b))
  | remainder => if b = 0 then none else some (wrap (a.tmod b))
  | add => some (wrap (a + b))
  | subtract => some (wrap (a - b))
  | shiftLeft => some (wrap (a * ((1 : Int) <<< (bits b % 64))))
  | shiftRight => some (a >>> (bits b % 64))
  | less => some (truth (a < b))
  | atMost => some (truth (a ≤ b))
  | greater => some (truth (b < a))
  | atLeast => some (truth (b ≤ a))
  | equal => some (truth (a = b))
  | notEqual => some (truth (a ≠ b))
  | bitAnd => some (wrap (Nat.land (bits a) (bits b)))
  | bitXor => some (wrap (Nat.xor (bits a) (bits b)))
  | bitOr => some (wrap (Nat.lor (bits a) (bits b)))

end Binary

inductive Unary where
  | minus | not | complement
  deriving DecidableEq, Repr

def Unary.apply : Unary → Int → Int
  | minus, a => wrap (-a)
  | not, a => Binary.truth (a = 0)
  | complement, a => -a - 1

inductive Expression where
  | number (n : Int)
  | variable (name : Raw)
  | unary (operator : Unary) (operand : Expression)
  | binary (operator : Binary) (first second : Expression)
  | both (first second : Expression)
  | either (first second : Expression)
  | choice (test first second : Expression)
  /-- An assignment, which may be joined with an operation on the old value. -/
  | assign (name : Raw) (operator : Option Binary) (value : Expression)
  /-- Something else than an expression, with what was expected. -/
  | fault (cause : String)
  /-- An expression that is not gone on with as expected. -/
  | broken (expression : Expression) (cause : String)
  deriving Repr

/-- The first complaint about the text of an expression. -/
def Expression.fault? : Expression → Option String
  | .number _ | .variable _ => none
  | unary _ operand => operand.fault?
  | binary _ first second | both first second | either first second =>
    first.fault?.or second.fault?
  | choice test first second => test.fault?.or (first.fault?.or second.fault?)
  | assign _ _ value => value.fault?
  | fault cause => some cause
  | broken expression cause => expression.fault?.or (some cause)

/-! ## Reading -/

inductive Token where
  | number (n : Int)
  | variable (name : Raw)
  | mark (text : String)
  | bad
  deriving DecidableEq, Repr

/-- Marks, the longer ones first. -/
def marks : List String :=
  ["<<=", ">>=", "<<", ">>", "<=", ">=", "==", "!=", "&&", "||", "*=", "/=", "%=", "+=", "-=",
    "&=", "^=", "|=", "*", "/", "%", "+", "-", "<", ">", "&", "^", "|", "!", "~", "(", ")", "?",
    ":", "="]

/-- The tokens of a text. `fuel` bounds their number. -/
def tokensFrom : Nat → Raw → List Token
  | 0, _ => []
  | _, [] => []
  | fuel + 1, c :: rest =>
    if c == ' ' || c == '\t' || c == '\n' then tokensFrom fuel rest
    else if c.isDigit then
      let (n, after) := magnitude (c :: rest)
      .number (min n largest) :: tokensFrom fuel after
    else if Raw.isNameStart c then
      let name := (c :: rest).takeWhile Raw.isNameChar
      .variable name :: tokensFrom fuel ((c :: rest).drop name.length)
    else
      match marks.find? fun mark => mark.toList.isPrefixOf (c :: rest) with
      | some mark => .mark mark :: tokensFrom fuel ((c :: rest).drop mark.length)
      | none => [.bad]

def unary? : String → Option Unary
  | "-" => some .minus
  | "!" => some .not
  | "~" => some .complement
  | _ => none

def binary? : String → Option Binary
  | "*" => some .multiply
  | "/" => some .divide
  | "%" => some .remainder
  | "+" => some .add
  | "-" => some .subtract
  | "<<" => some .shiftLeft
  | ">>" => some .shiftRight
  | "<" => some .less
  | "<=" => some .atMost
  | ">" => some .greater
  | ">=" => some .atLeast
  | "==" => some .equal
  | "!=" => some .notEqual
  | "&" => some .bitAnd
  | "^" => some .bitXor
  | "|" => some .bitOr
  | _ => none

/-- The operation of an assignment: none for a plain one. -/
def assignment? : String → Option (Option Binary)
  | "=" => some none
  | "*=" => some (some .multiply)
  | "/=" => some (some .divide)
  | "%=" => some (some .remainder)
  | "+=" => some (some .add)
  | "-=" => some (some .subtract)
  | "<<=" => some (some .shiftLeft)
  | ">>=" => some (some .shiftRight)
  | "&=" => some (some .bitAnd)
  | "^=" => some (some .bitXor)
  | "|=" => some (some .bitOr)
  | _ => none

def operatorAhead? : List Token → Option (Binary × List Token)
  | .mark text :: rest => (binary? text).map fun operator => (operator, rest)
  | _ => none

/-- What follows a mark, if that comes next. -/
def afterMark? (text : String) : List Token → Option (List Token)
  | .mark found :: rest => if found == text then some rest else none
  | _ => none

/-- A complaint, after which nothing is read. -/
def stopped (cause : String) : Expression × List Token := (.fault cause, [])

mutual

/-- Reads an assignment or a choice. `fuel` bounds the number of steps, here and below. -/
def assignment : Nat → List Token → Expression × List Token
  | 0, _ => stopped "expecting primary"
  | fuel + 1, tokens =>
    match tokens with
    | .variable name :: .mark text :: rest =>
      match assignment? text with
      | some operator =>
        let (value, rest) := assignment fuel rest
        (.assign name operator value, rest)
      | none => choice fuel tokens
    | _ => choice fuel tokens

def choice : Nat → List Token → Expression × List Token
  | 0, _ => stopped "expecting primary"
  | fuel + 1, tokens =>
    let (test, rest) := disjunction fuel tokens
    match rest with
    | .mark "?" :: rest =>
      let (first, rest) := assignment fuel rest
      match afterMark? ":" rest with
      | some rest =>
        let (second, rest) := choice fuel rest
        (.choice test first second, rest)
      | none => (.choice test first (.fault "expecting \x27:\x27"), [])
    | _ => (test, rest)

def disjunction : Nat → List Token → Expression × List Token
  | 0, _ => stopped "expecting primary"
  | fuel + 1, tokens =>
    let (first, rest) := conjunction fuel tokens
    match rest with
    | .mark "||" :: rest =>
      let (second, rest) := disjunction fuel rest
      (.either first second, rest)
    | _ => (first, rest)

def conjunction : Nat → List Token → Expression × List Token
  | 0, _ => stopped "expecting primary"
  | fuel + 1, tokens =>
    let (first, rest) := primary fuel tokens
    let (whole, rest) := operations 8 first fuel rest
    match rest with
    | .mark "&&" :: rest =>
      let (second, rest) := conjunction fuel rest
      (.both whole second, rest)
    | _ => (whole, rest)

/-- The operations that bind more tightly than `rank`, from left to right. -/
def operations (rank : Nat) (first : Expression) : Nat → List Token → Expression × List Token
  | 0, tokens => (first, tokens)
  | fuel + 1, tokens =>
    match operatorAhead? tokens with
    | some (operator, rest) =>
      if operator.rank < rank then
        let (next, rest) := primary fuel rest
        let (second, rest) := operations operator.rank next fuel rest
        operations rank (.binary operator first second) fuel rest
      else (first, tokens)
    | none => (first, tokens)

def primary : Nat → List Token → Expression × List Token
  | 0, _ => stopped "expecting primary"
  | fuel + 1, tokens =>
    match tokens with
    | .number n :: rest => (.number n, rest)
    | .variable name :: rest => (.variable name, rest)
    | .mark "(" :: rest =>
      let (inside, rest) := assignment fuel rest
      match afterMark? ")" rest with
      | some rest => (inside, rest)
      | none => (.broken inside "expecting \x27)\x27", [])
    | .mark "+" :: rest => primary fuel rest
    | .mark text :: rest =>
      match unary? text with
      | some operator =>
        let (operand, rest) := primary fuel rest
        (.unary operator operand, rest)
      | none => stopped "expecting primary"
    | _ => stopped "expecting primary"

end

/-- Reads a whole text as an expression. -/
def read (text : Raw) : Expression :=
  let tokens := tokensFrom (text.length + 1) text
  match assignment (8 * tokens.length + 16) tokens with
  | (expression, []) => expression
  | (expression, _) => .broken expression "expecting EOF"

/-! ## Values -/

/-- What an expression needs of its surroundings. -/
structure Surroundings (m : Type → Type) where
  value : Raw → m Int
  assign : Raw → Int → m Unit
  fail : String → m Int

/-- A value in place of that of an expression that does not count, unless its text is faulty. -/
def skipping {m : Type → Type} [Monad m] (around : Surroundings m) (skipped : Expression)
    (value : m Int) : m Int :=
  match skipped.fault? with
  | some cause => around.fail cause
  | none => value

/-- The value of an expression. Of a choice only one branch counts. -/
def evaluate {m : Type → Type} [Monad m] (around : Surroundings m) : Expression → m Int
  | .number n => return n
  | .variable name => around.value name
  | .unary operator operand => do return operator.apply (← evaluate around operand)
  | .binary operator first second => do
    match operator.result? (← evaluate around first) (← evaluate around second) with
    | some result => return result
    | none => around.fail "division by zero"
  | .both first second => do
    if (← evaluate around first) = 0 then skipping around second (pure 0)
    else return Binary.truth ((← evaluate around second) ≠ 0)
  | .either first second => do
    if (← evaluate around first) ≠ 0 then skipping around second (pure 1)
    else return Binary.truth ((← evaluate around second) ≠ 0)
  | .choice test first second => do
    if (← evaluate around test) ≠ 0 then
      let value ← evaluate around first
      skipping around second (pure value)
    else skipping around first (evaluate around second)
  | .assign name operator value => do
    let new ← evaluate around value
    let result ←
      match operator with
      | none => pure new
      | some operator =>
        match operator.result? (← around.value name) new with
        | some result => pure result
        | none => around.fail "division by zero"
    around.assign name result
    return result
  | .fault cause => around.fail cause
  | .broken expression cause => do
    discard (evaluate around expression)
    around.fail cause

end ProvideIndex.Shell.Arithmetic
