import ProvideIndex.CommandLine.Similarity
import ProvideIndex.Regenerate

/-!
# Reading the command line

Arguments are taken one by one. The value that was met last is settled only when the next argument
has been looked at, so a fault of that value may give way to a fault of the argument after it. After
`--` every argument is a value.
-/

namespace ProvideIndex.CommandLine

inductive Parameter where
  | anchor | output | formatter | skipFormat | manifest
  deriving DecidableEq, Repr

namespace Parameter

def shown : Parameter → String
  | anchor => "<ANCHOR>"
  | output => "<OUTPUT>"
  | formatter => "--formatter <FORMATTER>"
  | skipFormat => "--skip-format"
  | manifest => "--manifest <PATH>"

/-- A path must not be empty. -/
def isPath : Parameter → Bool
  | anchor | output | manifest => true
  | formatter | skipFormat => false

/-- The parameters without a name, in their order; all of them have to be given. -/
def positional : List Parameter := [anchor, output]

end Parameter

/-- What a name after two dashes stands for. -/
inductive Switch where
  | valued (parameter : Parameter)
  | flag (parameter : Parameter)
  | help
  | version
  deriving DecidableEq, Repr

namespace Switch

def named : List (String × Switch) :=
  [("formatter", valued .formatter), ("skip-format", flag .skipFormat),
    ("manifest", valued .manifest), ("help", help), ("version", version)]

def shown : Switch → String
  | valued parameter | flag parameter => parameter.shown
  | help => "--help"
  | version => "--version"

end Switch

/-- Why a command line is not carried out. -/
inductive Refusal where
  | help
  | version
  | missingValue (parameter : Parameter)
  | repeated (parameter : Parameter)
  /-- A name after two dashes that means nothing; `used` are the parameters before it. -/
  | unknownName (name : String) (used : List Parameter)
  | unknownLetter (letter : Char)
  | extraValue (value : String)
  /-- A value for a switch that takes none; `settled` tells whether anything was settled before. -/
  | unneededValue (switch : Switch) (value : String) (settled : Bool)
  | missing (parameters used : List Parameter)
  deriving DecidableEq, Repr

/-- What was read so far. -/
structure Progress where
  /-- The settled values, in their order. -/
  settled : List (Parameter × String)
  /-- What is not settled yet: an option may still wait for its value. -/
  pending : Option (Parameter × Option String)
  /-- How many values without a name there were. -/
  positions : Nat
  /-- Whether only values follow. -/
  onlyValues : Bool
  deriving Repr

namespace Progress

def start : Progress := ⟨[], none, 0, false⟩

def value? (parameter : Parameter) (progress : Progress) : Option String :=
  progress.settled.lookup parameter

def isSettled (parameter : Parameter) (progress : Progress) : Bool :=
  (progress.value? parameter).isSome

/-- Settles a value. -/
def settle (parameter : Parameter) (value : String) (progress : Progress) :
    Except Refusal Progress :=
  if progress.isSettled parameter then .error (.repeated parameter)
  else if parameter.isPath && value.isEmpty then .error (.missingValue parameter)
  else .ok { progress with settled := progress.settled ++ [(parameter, value)] }

def settlePending (progress : Progress) : Except Refusal Progress :=
  match progress.pending with
  | none => .ok progress
  | some (parameter, none) => .error (.missingValue parameter)
  | some (parameter, some value) => settle parameter value { progress with pending := none }

/--
The parameters that count as used when something unknown is met: a repeated one does not any more.
-/
def used (progress : Progress) : List Parameter :=
  let settled := progress.settled.map (·.1)
  match progress.pending with
  | some (parameter, some _) =>
    if settled.contains parameter then settled.filter (· != parameter)
    else settled ++ [parameter]
  | _ => settled

/-- Takes a switch, perhaps with a value attached to it. -/
def takeSwitch (switch : Switch) (attached : Option String) (progress : Progress) :
    Except Refusal Progress :=
  match switch, attached with
  | .valued parameter, some value => do (← progress.settlePending).settle parameter value
  | .valued parameter, none => do
    return { (← progress.settlePending) with pending := some (parameter, none) }
  | _, some value => .error (.unneededValue switch value (!progress.settled.isEmpty))
  | .flag parameter, none => do (← progress.settlePending).settle parameter "true"
  | .help, none => do
    let _ ← progress.settlePending
    throw .help
  | .version, none => do
    let _ ← progress.settlePending
    throw .version

/-- Takes what follows two dashes: a name, and a value after an equals sign. -/
def takeName (text : List Char) (progress : Progress) : Except Refusal Progress :=
  let (name, rest) := text.span (· != '=')
  let name := String.ofList name
  match Switch.named.lookup name with
  | some switch => progress.takeSwitch switch (rest.tail? |>.map String.ofList)
  | none => .error (.unknownName name progress.used)

/-- Takes the first letter after a single dash; both letters that mean something end the reading. -/
def takeLetter (letter : Char) (progress : Progress) : Except Refusal Progress :=
  if letter = 'h' then progress.takeSwitch .help none
  else if letter = 'V' then progress.takeSwitch .version none
  else .error (.unknownLetter letter)

def takePositional (value : String) (progress : Progress) : Except Refusal Progress :=
  match Parameter.positional[progress.positions]? with
  | some parameter => do
    let settled ← progress.settlePending
    return { settled with
      pending := some (parameter, some value)
      positions := progress.positions + 1 }
  | none => .error (.extraValue value)

/-- Takes a value: that of the option that waits for one, or the next one without a name. -/
def takeValue (value : String) (progress : Progress) : Except Refusal Progress :=
  match progress.pending with
  | some (parameter, none) => .ok { progress with pending := some (parameter, some value) }
  | _ => progress.takePositional value

def take (argument : String) (progress : Progress) : Except Refusal Progress :=
  if progress.onlyValues then progress.takePositional argument
  else
    match argument.toList with
    | ['-', '-'] => .ok { progress with onlyValues := true }
    | '-' :: '-' :: text => progress.takeName text
    | '-' :: letter :: _ => progress.takeLetter letter
    | _ => progress.takeValue argument

def takeAll : List String → Progress → Except Refusal Progress
  | [], progress => progress.settlePending
  | argument :: arguments, progress => do takeAll arguments (← progress.take argument)

end Progress

/-- What the program is asked to do. -/
structure Invocation where
  anchor : String
  output : String
  formatter : String
  skipFormat : Bool
  manifest : Option String
  deriving DecidableEq, Repr

namespace Invocation

/-- The formatter of the environment stands in for one that is not given. -/
def ofProgress (environment : Option String) (progress : Progress) : Except Refusal Invocation :=
  match progress.value? .anchor, progress.value? .output with
  | some anchor, some output =>
    .ok {
      anchor := anchor
      output := output
      formatter := ((progress.value? .formatter).or environment).getD Formatter.defaultCommand
      skipFormat := progress.isSettled .skipFormat
      manifest := progress.value? .manifest }
  | _, _ =>
    let missing := Parameter.positional.filter fun parameter => !progress.isSettled parameter
    let fromEnvironment :=
      if environment.isSome && !progress.isSettled .formatter then [Parameter.formatter] else []
    .error (.missing missing (progress.used ++ fromEnvironment))

/-- Reads the arguments after the name of the program. -/
def parse (environment : Option String) (arguments : List String) : Except Refusal Invocation := do
  ofProgress environment (← Progress.takeAll arguments .start)

def options (invocation : Invocation) : Regenerate.Options where
  anchor := invocation.anchor
  output := invocation.output
  formatter := if invocation.skipFormat then none else Formatter.parse? invocation.formatter
  manifest := invocation.manifest

end Invocation

end ProvideIndex.CommandLine
