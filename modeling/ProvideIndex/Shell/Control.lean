import ProvideIndex.Shell.Starting

/-!
# Commands that steer a shell

Leaving loops, functions and the shell, the arguments and options of the shell, traps and signals,
and running texts as scripts.
-/

namespace ProvideIndex.Shell.Control

/-- The largest number that a command takes. -/
def largestNumber : Int := 2147483647

def failNumber {α : Type} (text : Raw) : Act α := Act.fail ("Illegal number: ".toList ++ text)

/-- The number that an argument is. -/
def number (text : Raw) : Act Nat := do
  match Arithmetic.number? (some 10) text with
  | some n => if 0 ≤ n ∧ n ≤ largestNumber then return n.toNat else failNumber text
  | none => failNumber text

/-! ## Leaving -/

/-- Leaves loops; `goesOn` says that the last of them is gone on with. -/
def leaveLoops (goesOn : Bool) (arguments : List Raw) : Act Nat := do
  let count ← match arguments with
    | [] => pure 1
    | text :: _ => do
      let n ← number text
      if n = 0 then failNumber text else pure n
  modify fun state =>
    if state.loops = 0 then state
    else { state with skip := some (.loops (min count state.loops) goesOn) }
  return 0

/-- The status that is left if nothing else is said. -/
def statusSoFar (state : State) : Nat := state.savedStatus.getD state.status

/-- Leaves a function or a script. -/
def leaveFunction (arguments : List Raw) : Act Nat := do
  let status ← match arguments with
    | [] => pure (statusSoFar (← get))
    | text :: _ => number text
  modify fun state => { state with skip := some .function }
  return status

def exit (arguments : List Raw) : Act Nat := do
  let status ← match arguments with
    | [] => pure (statusSoFar (← get))
    | text :: _ => number text
  Act.setStatus status
  throw .exit

/-! ## Arguments and options -/

def setArguments (arguments : List Raw) : Act Unit := modify fun state =>
  { state with arguments := arguments, optionIndex := 1, optionOffset := none }

def shift (arguments : List Raw) : Act Nat := do
  let count ← match arguments with
    | [] => pure 1
    | text :: _ => number text
  let current := (← get).arguments
  if current.length < count then Act.fail "can\x27t shift that many".toList
  setArguments (current.drop count)
  return 0

/-- Sets options and arguments, or lists the variables. -/
def set (arguments : List Raw) : Act Nat := do
  if arguments.isEmpty then Listing.printBindings [] false fun _ => true
  else
    let settings ← Options.setAll false arguments
    if settings.isMarked || !settings.operands.isEmpty then setArguments settings.operands
  return 0

def getOptions (arguments : List Raw) : Act Nat := do
  match arguments with
  | spec :: name :: rest => do
    let current := (← get).arguments
    Options.getNext spec name (if rest.isEmpty then current else rest)
  | _ => Act.fail "Usage: getopts optstring var [arg...]".toList

/-! ## Traps -/

/-- Changes what is done about a signal. -/
def setTrap (signal : Signal) (action : Option Raw) : Act Unit := modify fun state =>
  let changed (traps : List (Signal × Raw)) : List (Signal × Raw) :=
    action.toList.map (fun action => (signal, action)) ++ traps.filter (·.1 != signal)
  { state with
    traps := changed state.traps
    firstTraps := if state.isPart then state.firstTraps else changed state.firstTraps }

/-- Sets an action for signals up to one that there is not. -/
def setTraps (action : Option Raw) : List Raw → Act Nat
  | [] => return 0
  | text :: texts => do
    match Signals.ofText? text with
    | some signal => do
      setTrap signal action
      setTraps action texts
    | none => do
      Options.complain ("trap: ".toList ++ text ++ ": bad trap".toList)
      return 1

def isSignalNumber (text : Raw) : Bool :=
  text.all Char.isDigit && (Signals.ofText? text).isSome

def trap (arguments : List Raw) : Act Nat := do
  match ← Options.operands arguments with
  | [] => do
    Listing.traps
    return 0
  | [text] => setTraps none [text]
  | action :: texts =>
    if isSignalNumber action then setTraps none (action :: texts)
    else setTraps (if action == ['-'] then none else some action) texts

/-! ## Signals -/

def killUsage : Raw :=
  ("Usage: kill [-s sigspec | -signum | -sigspec] [pid | job]... or\n" ++
    "kill -l [exitstatus]").toList

/-- A signal that can be sent, by its number or its name. -/
def signal? (text : Raw) : Option Signal :=
  (Signals.ofText? text).filter fun signal => signal != 0 || text.all Char.isDigit

/-- The signal of the last option that names one. -/
def namedSignal : List Options.Found → Act (Option Signal)
  | [] => return none
  | found :: rest => do
    let signal ←
      if found.letter == 's' then
        match signal? found.value with
        | some signal => pure (some signal)
        | none => Act.fail ("invalid signal number or name: ".toList ++ found.value)
      else pure none
    return (← namedSignal rest).or signal

def failJob {α : Type} (text : Raw) : Act α := Act.fail ("No such job: ".toList ++ text)

/-- The shell in the background that a text with a percent sign names. -/
def job (text : Raw) : Act (Nat × Nat) := do
  let shells := (← get).backgroundShells
  match text with
  | '%' :: rest =>
    if [[], ['%'], ['+']].contains rest then
      match shells.head? with
      | some shell => return shell
      | none => Act.fail "No current job".toList
    else if rest.all Char.isDigit then
      match shells.reverse[Text.natural rest - 1]? with
      | some shell => return shell
      | none => failJob text
    else failJob text
  | _ => failJob text

/-- Sends a signal to what a text names; the status is the result. -/
def sendTo (signal : Signal) (text : Raw) : Act Nat := do
  if text.head? == some '%' then
    let _ ← job text
    return 0
  else
    let isGroup := text.head? == some '-'
    let n ← number (if isGroup then text.tail else text)
    let shells := (← get).backgroundShells
    if n = Expand.shellNumber ∨ n = 0 then
      Signals.send signal
      return 0
    else if (shells.lookup n).isSome then return 0
    else
      Act.warn "No such process\n".toList
      return 1

def sendToAll (signal : Signal) : List Raw → Act Nat
  | [] => return 0
  | text :: texts => do
    let status ← sendTo signal text
    return max status (← sendToAll signal texts)

/-- Lists the names of signals, or names the one that a status stands for. -/
def listSignals : List Raw → Act Nat
  | [] => do
    Act.print ['0', '\n']
    Signals.names.forM fun name => Act.print (name ++ "\n").toList
    return 0
  | text :: _ => do
    let n ← number text
    let signal := if 128 < n then n - 128 else n
    if signal = 0 ∨ 64 < signal then
      Act.fail ("invalid signal number or exit status: ".toList ++ text)
    Act.print ((Signals.name signal).toList ++ ['\n'])
    return 0

def kill (arguments : List Raw) : Act Nat := do
  let direct := match arguments.head? with
    | some ('-' :: text) => signal? text
    | _ => none
  match direct, arguments.tail with
  | some _, [] => Act.fail killUsage
  | some signal, targets => sendToAll signal targets
  | none, _ => do
    let (found, operands) ← Options.part "ls:" arguments
    let signal ← namedSignal found
    if found.any (·.letter == 'l') then
      if signal.isSome then Act.fail killUsage else listSignals operands
    else if operands.isEmpty then Act.fail killUsage
    else sendToAll (signal.getD 15) operands

/-! ## Shells in the background -/

def waitFor : List Raw → Act Nat
  | [] => return 127
  | text :: texts => do
    let status ←
      if text.head? == some '%' then pure (← job text).2
      else
        let n ← number text
        pure (((← get).backgroundShells.lookup n).getD 127)
    if texts.isEmpty then return status else waitFor texts

def wait (arguments : List Raw) : Act Nat := do
  let operands ← Options.operands arguments
  if operands.isEmpty then return 0 else waitFor operands

/-- Would go on with a job in the foreground or the background, where there are none. -/
def resume (arguments : List Raw) : Act Nat := do
  let operands ← Options.operands arguments
  let _ ← job (operands.headD ['%'])
  Act.fail ("job ".toList ++ operands.headD ['%'] ++ " not created under job control".toList)

/-! ## Scripts -/

/-- Runs the arguments as a script. -/
def eval (run : Runner) (isTested : Bool) (arguments : List Raw) : Act Nat :=
  run.script isTested ([' '].intercalate arguments)

/-- The text of a script that can be read from a path. -/
def scriptText (path : Raw) : Act Raw := do
  let disk := (← get).disk
  match disk.locate .target (Raw.decode path) with
  | .error fault => Redirect.failToOpen path fault
  | .ok location => return Raw.ofBytes (contentsAt disk location).toList

/-- The path of a script: a bare name is looked for in the search path. -/
def scriptPath (name : Raw) : Act Raw := do
  if name.contains '/' then return name
  else
    let state ← get
    let paths := Program.searched ((state.value? "PATH".toList).getD []) name
    match paths.find? fun path => (Listing.isProgramFile state.disk path) matches .ok true with
    | some path => return path
    | none => Act.fail (name ++ ": not found".toList)

/-- Runs the script at a path in the shell itself. -/
def source (run : Runner) (arguments : List Raw) : Act Nat := do
  match ← Options.operands arguments with
  | [] => return 0
  | name :: _ => do
    let path ← scriptPath name
    let text ← scriptText path
    modify fun state => { state with command := some path }
    let status ← run.script false text
    modify fun state =>
      { state with skip := if state.skip = some .function then none else state.skip }
    return status

end ProvideIndex.Shell.Control
