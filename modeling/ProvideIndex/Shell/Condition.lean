import ProvideIndex.Disk.Files
import ProvideIndex.Shell.Arithmetic

/-!
# Conditions

The command `test` compares texts and numbers and asks for files. Its arguments are operators and
operands; what looks like an operator is an operand where no operator can stand.
-/

namespace ProvideIndex.Shell.Condition

inductive Token where
  | ended
  | operand
  | unary (operator : Char)
  | binary (operator : String)
  | negation | both | either | openParenthesis | closeParenthesis
  deriving DecidableEq, Repr

def binaryOperators : List String :=
  ["=", "!=", "<", ">", "-eq", "-ne", "-ge", "-gt", "-le", "-lt", "-nt", "-ot", "-ef"]

/-- What an argument is if it is an operator. -/
def operator? (argument : Raw) : Option Token :=
  match argument with
  | ['-', 'a'] => some .both
  | ['-', 'o'] => some .either
  | ['!'] => some .negation
  | ['('] => some .openParenthesis
  | [')'] => some .closeParenthesis
  | ['-', c] =>
    if "rwxefdcbpugkstznhOGLS".toList.contains c then some (.unary c) else none
  | _ => (binaryOperators.find? fun text => text.toList == argument).map .binary

def isBinary : Option Token → Bool
  | some (.binary _) => true
  | _ => false

/-- Whether an argument is an operand although it looks like an operator. -/
def isOperand : List Raw → Bool
  | [] => true
  | [_] => false
  | next :: _ => isBinary (operator? next)

/-- What the first of some arguments is, in view of those after it. -/
def token : List Raw → Token
  | [] => .ended
  | argument :: rest =>
    match operator? argument with
    | some (.unary c) => if isOperand rest then .operand else .unary c
    | some .openParenthesis => if rest.isEmpty then .operand else .openParenthesis
    | some other => other
    | none => .operand

/-! ## Operators -/

def locate? (disk : Disk) (path : Raw) : Option Location :=
  (disk.locate .target (Raw.decode path)).toOption

def entryOf? (disk : Disk) (path : Raw) : Option Entry := (locate? disk path).bind disk.entryAt?

def hasMode (disk : Disk) (path : Raw) (bits : Nat) : Bool :=
  (locate? disk path).any fun location => Nat.land (disk.mode location) bits ≠ 0

def isLink (disk : Disk) (path : Raw) : Bool :=
  match (disk.locate .entry (Raw.decode path)).toOption.bind disk.entryAt? with
  | some (.link _) => true
  | _ => false

/-- Whether an operator holds of its operand. -/
def holdsUnary (disk : Disk) (operator : Char) (operand : Raw) : Bool :=
  match operator with
  | 'z' => operand.isEmpty
  | 'n' => !operand.isEmpty
  | 'e' | 'r' | 'w' | 'O' | 'G' => (locate? disk operand).isSome
  | 'x' => (entryOf? disk operand matches some .directory) || hasMode disk operand 0o111
  | 'f' =>
    match entryOf? disk operand with
    | some (.file _) | some (.program _) => true
    | _ => false
  | 'd' => (entryOf? disk operand matches some .directory)
  | 'c' => (entryOf? disk operand matches some .sink)
  | 's' =>
    match entryOf? disk operand with
    | some (.file contents) => contents.size ≠ 0
    | some .sink | none => false
    | _ => true
  | 'u' => hasMode disk operand 0o4000
  | 'g' => hasMode disk operand 0o2000
  | 'k' => hasMode disk operand 0o1000
  | 'h' | 'L' => isLink disk operand
  | _ => false

def number (text : Raw) : Except Raw Int :=
  match Arithmetic.number? (some 10) text with
  | some n => .ok n
  | none => .error ("Illegal number: ".toList ++ text)

/-- Whether an operator holds between its operands. -/
def holdsBinary (disk : Disk) (operator : String) (first second : Raw) : Except Raw Bool :=
  let compare (holds : Int → Int → Bool) : Except Raw Bool := do
    return holds (← number first) (← number second)
  match operator with
  | "=" => .ok (first == second)
  | "!=" => .ok (first != second)
  | "<" => .ok (first != second && Raw.isAtMost first second)
  | ">" => .ok (first != second && Raw.isAtMost second first)
  | "-eq" => compare fun a b => a == b
  | "-ne" => compare fun a b => a != b
  | "-ge" => compare fun a b => b ≤ a
  | "-gt" => compare fun a b => b < a
  | "-le" => compare fun a b => a ≤ b
  | "-lt" => compare fun a b => a < b
  | "-ef" => .ok ((locate? disk first).isSome && locate? disk first == locate? disk second)
  | _ => .ok false

/-! ## Expressions -/

mutual

/--
Whether one of several expressions holds. Of the arguments those from the last one that was used on
are left. `fuel` bounds the number of steps, here and below.
-/
def anyOf (disk : Disk) (first : Token) (arguments : List Raw) :
    Nat → Except Raw (Bool × List Raw)
  | 0 => .ok (false, arguments)
  | fuel + 1 => do
    let (holds, left) ← allOf disk first arguments fuel
    if token left.tail == .either then
      let (others, last) ← anyOf disk (token (left.drop 2)) (left.drop 2) fuel
      return (holds || others, last)
    else return (holds, left)
termination_by structural fuel => fuel

def allOf (disk : Disk) (first : Token) (arguments : List Raw) :
    Nat → Except Raw (Bool × List Raw)
  | 0 => .ok (false, arguments)
  | fuel + 1 => do
    let (holds, left) ← negation disk first arguments fuel
    if token left.tail == .both then
      let (others, last) ← allOf disk (token (left.drop 2)) (left.drop 2) fuel
      return (holds && others, last)
    else return (holds, left)
termination_by structural fuel => fuel

def negation (disk : Disk) (first : Token) (arguments : List Raw) :
    Nat → Except Raw (Bool × List Raw)
  | 0 => .ok (false, arguments)
  | fuel + 1 => do
    if first == .negation then
      let next := token arguments.tail
      let rest := if next == .ended then arguments else arguments.tail
      let (holds, left) ← negation disk next rest fuel
      return (!holds, left)
    else primary disk first arguments fuel
termination_by structural fuel => fuel

def primary (disk : Disk) (first : Token) (arguments : List Raw) :
    Nat → Except Raw (Bool × List Raw)
  | 0 => .ok (false, arguments)
  | fuel + 1 => do
    match first with
    | .ended => return (false, arguments)
    | .openParenthesis => do
      let inside := arguments.tail
      if token inside == .closeParenthesis then return (false, inside)
      else
        let (holds, left) ← anyOf disk (token inside) inside fuel
        if token left.tail == .closeParenthesis then return (holds, left.tail)
        else throw "closing paren expected".toList
    | .unary c =>
      match arguments.tail with
      | operand :: rest => return (holdsUnary disk c operand, operand :: rest)
      | [] => throw ('-' :: c :: ": argument expected".toList)
    | _ =>
      match token arguments.tail, arguments with
      | .binary operator, first :: _ :: second :: rest => do
        return (← holdsBinary disk operator first second, second :: rest)
      | .binary operator, _ => throw (operator.toList ++ ": argument expected".toList)
      | _, first :: rest => return (!first.isEmpty, first :: rest)
      | _, [] => return (false, [])
termination_by structural fuel => fuel

end

/-- Whether a whole expression holds. -/
def holdsFrom (disk : Disk) (first : Token) (arguments : List Raw) : Except Raw Bool := do
  let (holds, left) ← anyOf disk first arguments (8 * arguments.length + 16)
  match left with
  | last :: _ :: _ =>
    let start := if last.isEmpty then [] else last ++ ": ".toList
    throw (start ++ "unexpected operator".toList)
  | _ => return holds

/--
Whether arguments hold. Of three of them a binary operator in the middle comes first; otherwise
three or four of them may stand in parentheses or after a negation.
-/
def holdsFor (disk : Disk) (isNegated : Bool) : List Raw → Except Raw Bool
  | [] => .ok false
  | first :: rest =>
    let count := rest.length + 1
    let isShort := count = 3 || count = 4
    let result (start : Token) (arguments : List Raw) : Except Raw Bool := do
      return (← holdsFrom disk start arguments) != isNegated
    if count = 3 && isBinary (rest.head?.bind operator?) then result .operand (first :: rest)
    else if isShort && first == ['('] && rest.getLast? == some [')'] then
      result (token rest.dropLast) rest.dropLast
    else if isShort && first == ['!'] then holdsFor disk true rest
    else result (token (first :: rest)) (first :: rest)

def holds (disk : Disk) (arguments : List Raw) : Except Raw Bool := holdsFor disk false arguments

end ProvideIndex.Shell.Condition
