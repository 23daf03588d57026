import ProvideIndex.Programs.ChangeMode
import ProvideIndex.Shell.Condition
import ProvideIndex.Shell.Control
import ProvideIndex.Shell.Definitions
import ProvideIndex.Shell.Input
import ProvideIndex.Shell.Printing

/-!
# The commands of the shell

Each command takes its arguments and leaves a status. A mistake in one of them is a failure, which
the shell takes up.
-/

namespace ProvideIndex.Shell.Builtins

/-! ## Printing and testing -/

def echo (arguments : List Raw) : Act Nat := do
  Act.print (Printing.echo arguments)
  return 0

def printf (arguments : List Raw) : Act Nat := do
  match ← Options.operands arguments with
  | format :: rest => Printing.printf format rest
  | [] => Act.fail "usage: printf format [arg ...]".toList

def test (arguments : List Raw) : Act Nat := do
  match Condition.holds (← get).disk arguments with
  | .ok holds => return if holds then 0 else 1
  | .error cause => Act.fail cause

/-- Tests what stands before a closing bracket. -/
def bracket (arguments : List Raw) : Act Nat :=
  if arguments.getLast? == some [']'] then test arguments.dropLast
  else Act.fail "missing ]".toList

def read (arguments : List Raw) : Act Nat := do
  let (found, names) ← Options.part "p:r" arguments
  if names.isEmpty then Act.fail "arg count".toList
  else Input.read (found.any (·.letter == 'r')) names

/-! ## The permissions of new files -/

/-- What is left of `n` without some bits. -/
def complement (n : Nat) : Nat := 0o777 - Nat.land 0o777 n

/-- The permissions of one kind of user in letters. -/
def permissions (bits : Nat) : Raw :=
  (if Nat.land bits 4 = 0 then [] else ['r']) ++ (if Nat.land bits 2 = 0 then [] else ['w']) ++
    if Nat.land bits 1 = 0 then [] else ['x']

def showMask (inLetters : Bool) : Act Unit := do
  let mask := (← get).mask
  if inLetters then
    let bits := complement mask
    Act.print ("u=".toList ++ permissions (bits / 64) ++ ",g=".toList ++ permissions (bits / 8) ++
      ",o=".toList ++ permissions bits ++ ['\n'])
  else
    let digits := Nat.toDigits 8 mask
    Act.print (List.replicate (4 - digits.length) '0' ++ digits ++ ['\n'])

/-- The mask that a text stands for. -/
def maskOf (mask : Nat) (text : Raw) : Act Nat := do
  if text.head?.any Char.isDigit then
    match Text.number? 8 text with
    | some n => return Nat.land 0o777 n
    | none => Control.failNumber text
  else
    let clauses := if text.getLast? == some ',' then text.dropLast else text
    match Program.ChangeMode.changes? clauses with
    | some changes =>
      return complement (Program.ChangeMode.adjusted changes false 0 (complement mask))
    | none => Act.fail ("Illegal mode: ".toList ++ text)

def umask (arguments : List Raw) : Act Nat := do
  let (found, operands) ← Options.part "S" arguments
  match operands with
  | [] => showMask (!found.isEmpty)
  | text :: _ => do
    let mask ← maskOf (← get).mask text
    modify fun state => { state with mask := mask }
  return 0

/-! ## Time and limits -/

def times (_ : List Raw) : Act Nat := do
  let line := "0m0.000000s 0m0.000000s\n".toList
  Act.print (line ++ line)
  return 0

/-- Shows a limit on what programs may use; none of those that can be shown is limited. -/
def ulimit (arguments : List Raw) : Act Nat := do
  let (found, _) ← Options.part "HSatfdsmcnpvlwr" arguments
  let letters := (found.map (·.letter)).filter fun c => c != 'H' && c != 'S'
  Act.print (if letters.getLast? == some 'c' then ['0', '\n'] else "unlimited\n".toList)
  return 0

/-! ## All commands -/

/-- A command that leaves a status and nothing else. -/
def quiet (status : Nat) (_ : List Raw) : Act Nat := return status

/-- Runs a command of the shell. -/
def perform (run : Runner) (isTested : Bool) (name : String) : List Raw → Act Nat :=
  match name with
  | "." => Control.source run
  | ":" | "true" | "jobs" => quiet 0
  | "false" => quiet 1
  | "[" => bracket
  | "alias" => Definitions.alias
  | "bg" | "fg" => Control.resume
  | "break" => Control.leaveLoops false
  | "cd" | "chdir" => Directory.change
  | "command" => Definitions.command
  | "continue" => Control.leaveLoops true
  | "echo" => echo
  | "eval" => Control.eval run isTested
  | "exec" => Starting.exec run.program
  | "exit" => Control.exit
  | "export" => Definitions.export
  | "getopts" => Control.getOptions
  | "hash" => Definitions.hash
  | "kill" => Control.kill
  | "local" => Definitions.makeLocal
  | "printf" => printf
  | "pwd" => Directory.printCurrent
  | "read" => read
  | "readonly" => Definitions.readOnly
  | "return" => Control.leaveFunction
  | "set" => Control.set
  | "shift" => Control.shift
  | "test" => test
  | "times" => times
  | "trap" => Control.trap
  | "type" => Definitions.type
  | "ulimit" => ulimit
  | "umask" => umask
  | "unalias" => Definitions.unalias
  | "unset" => Definitions.unset
  | "wait" => Control.wait
  | _ => quiet 127

end ProvideIndex.Shell.Builtins
