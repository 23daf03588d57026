import ProvideIndex.Shell.Builtins
import ProvideIndex.Shell.Commands

/-!
# Simple commands

A simple command is a list of words with assignments and redirections. Its first word names a
function, a command of the shell or a program, and its assignments hold for the command alone,
unless it is one of the special commands of the shell.
-/

namespace ProvideIndex.Shell.Simple

/-! ## What is called -/

inductive Meaning where
  | builtin (builtin : Builtin)
  | function (body : Command)
  | program

def meaning (state : State) (withFunctions : Bool) (name : Raw) : Meaning :=
  if name.contains '/' then .program
  else
    match (if withFunctions then state.functions.lookup name else none), builtin? name with
    | some body, _ => .function body
    | none, some builtin => .builtin builtin
    | none, none => .program

/-- The words of a command, of which the first have been expanded. -/
structure Phrase where
  /-- Those that only say how the command is called. -/
  passed : List Raw
  ready : List Raw
  rest : List Word

/-- Expands words until there is one that leaves something. -/
def Phrase.fill (run : Runner) (passed : List Raw) : List Word → Act Phrase
  | [] => return ⟨passed, [], []⟩
  | word :: rest => do
    match ← Expand.fields run word with
    | [] => Phrase.fill run passed rest
    | ready => return ⟨passed, ready, rest⟩

/-- Makes sure that a word is ready, if there is one left. -/
def Phrase.withNext (run : Runner) (phrase : Phrase) : Act Phrase :=
  if phrase.ready.isEmpty then Phrase.fill run phrase.passed phrase.rest else return phrase

/-- The words with the first one passed over. -/
def Phrase.pass (phrase : Phrase) : Phrase :=
  { phrase with passed := phrase.passed ++ phrase.ready.take 1, ready := phrase.ready.drop 1 }

/--
Passes over the options of `command`. The result says whether the usual search path is meant, and it
is missing if the command has something else to do. `fuel` bounds the number of options.
-/
def passOptions (run : Runner) (usual : Bool) : Nat → Phrase → Act (Option Bool × Phrase)
  | 0, phrase => return (none, phrase)
  | fuel + 1, phrase => do
    let phrase ← phrase.withNext run
    match phrase.ready with
    | [] => return (none, phrase)
    | ['-', '-'] :: _ => do
      let phrase ← phrase.pass.withNext run
      return (if phrase.ready.isEmpty then none else some usual, phrase)
    | ('-' :: c :: letters) :: _ =>
      if (c :: letters).all (· == 'p') then passOptions run true fuel phrase.pass
      else return (none, phrase)
    | _ => return (some usual, phrase)

/-- What a simple command calls, and how. -/
structure Callee where
  meaning : Meaning
  /-- The first command of the shell among the words. -/
  first : Option Builtin
  /-- The last command of the shell among the words. -/
  last : Option Builtin
  usual : Bool
  phrase : Phrase

/-- Looks for what the words call. `fuel` bounds how often `command` stands before them. -/
def callee (run : Runner) (known : Callee) : Nat → Act Callee
  | 0 => return known
  | fuel + 1 => do
    let name := known.phrase.ready.headD []
    match meaning (← get) known.first.isNone name with
    | .builtin builtin => do
      let found := { known with
        meaning := .builtin builtin
        first := known.first.or (some builtin)
        last := some builtin }
      if builtin.name != "command" then return found
      else
        let after : Phrase := { known.phrase.pass with passed := [] }
        let size := after.ready.length + after.rest.length + 1
        match ← passOptions run known.usual size after with
        | (some usual, phrase) =>
          let passed := known.phrase.passed ++ name :: phrase.passed
          callee run { found with usual := usual, phrase := { phrase with passed := passed } } fuel
        | (none, phrase) =>
          let ready := name :: phrase.passed ++ phrase.ready
          return { found with phrase := ⟨known.phrase.passed, ready, phrase.rest⟩ }
    | other => return { known with meaning := other }

/-- Expands the words that are left. One that looks like an assignment may be taken as one. -/
def expandRest (run : Runner) (takesAssignments : Bool) : List Word → Act (List Raw)
  | [] => return []
  | word :: rest => do
    let fields ←
      match (if takesAssignments then Grammar.assignment? word else none) with
      | some (name, value) => do
        pure [name ++ '=' :: (← Expand.text run .assignment value)]
      | none => Expand.fields run word
    return fields ++ (← expandRest run takesAssignments rest)

/-- A simple command whose words have been expanded. -/
structure Called where
  meaning : Meaning
  /-- All words. -/
  shown : List Raw
  name : Raw
  arguments : List Raw
  /-- Whether mistakes end the shell. -/
  isSpecial : Bool
  /-- Whether assignments hold for the command alone. -/
  isAlone : Bool
  /-- Whether the command is `exec`. -/
  isExec : Bool
  usual : Bool

/-- Expands the words of a command; without words there is nothing to call. -/
def called? (run : Runner) (words : List Word) : Act (Option Called) := do
  let first ← Phrase.fill run [] words
  if first.ready.isEmpty then return none
  else
    let callee ← callee run ⟨.program, none, none, false, first⟩ (words.length + 1)
    let takes := callee.last.any (·.takesAssignments)
    let all := callee.phrase.ready ++ (← expandRest run takes callee.phrase.rest)
    let isSpecial := callee.first.any (·.isSpecial)
    return some {
      meaning := callee.meaning
      shown := callee.phrase.passed ++ all
      name := all.headD []
      arguments := all.tail
      isSpecial := isSpecial
      isAlone := !isSpecial
      isExec := callee.last.any (·.name == "exec")
      usual := callee.usual }

/-! ## Tracing -/

/-- Expands a text that is no part of a script. -/
def expandText (run : Runner) (text : Raw) : Act Raw := do
  let state ← get
  let reading : Reading := ⟨text, state.line, none, [], 0, [], state.aliases, []⟩
  let fuel := 16 * text.length + 64
  let token := Grammar.token .word .word fuel
  let commands := Grammar.list false true none fuel
  match (Words.parts commands token .document fuel).run reading with
  | .ok (word, _) => Expand.text run .document word
  | .error fault => Act.fail fault.text.toList

/-- Shows a command before it is run, if that was asked for. -/
def trace (run : Runner) (descriptors : List (Nat × Nat)) (words : List Raw) : Act Unit := do
  let state ← get
  if !state.isSet "xtrace" then return
  else
    Options.setFlag "xtrace" false
    let start ← expandText run ((state.value? "PS4".toList).getD [])
    let now ← get
    set { now with options := state.options, descriptors := descriptors }
    let _ ← Act.write 2 (start ++ [' '].intercalate words ++ ['\n'])
    modify fun state => { state with descriptors := now.descriptors }

/-! ## Calling -/

/-- How many functions may be run within each other. -/
def maxCalls : Nat := 1000

/-- Runs a function. -/
def callFunction (run : Runner) (isTested : Bool) (body : Command) (arguments : List Raw) :
    Act Unit := do
  let before ← get
  if maxCalls ≤ before.calls then
    Act.fail ("Maximum function recursion depth (" ++ toString maxCalls ++ ") reached").toList
  set { before with
    arguments := arguments
    optionIndex := 1
    optionOffset := none
    loops := 0
    calls := before.calls + 1 }
  Act.ensuring (run.command isTested body) <| modify fun state =>
    { state with
      arguments := before.arguments
      optionIndex := before.optionIndex
      optionOffset := before.optionOffset
      loops := before.loops
      calls := before.calls
      skip := if state.skip = some .function then none else state.skip }

/-- Runs a command of the shell; mistakes in one that is not special are taken up. -/
def callBuiltin (run : Runner) (isTested isSpecial : Bool) (builtin : Builtin) (name : Raw)
    (arguments : List Raw) : Act Unit := do
  let before ← get
  set { before with command := some name }
  let result ← Act.attempt (Builtins.perform run isTested builtin.name arguments)
  match result with
  | .ok status => do
    let isWritten ← Act.flush
    if !isWritten then Act.warn (name ++ ": I/O error".toList)
    modify fun state =>
      { state with
        command := before.command
        status := if isWritten then status else Nat.lor status 1 }
  | .error stop => do
    modify fun state => { state with command := before.command, printed := [] }
    if stop = .failure && !isSpecial then Act.endLocals before.hidden.length else throw stop

def call (run : Runner) (isTested : Bool) : Option Called → Act Unit
  | none => do Act.setStatus (← get).outputStatus
  | some called =>
    match called.meaning with
    | .builtin builtin =>
      callBuiltin run isTested called.isSpecial builtin called.name called.arguments
    | .function body => callFunction run isTested body called.arguments
    | .program => Starting.runAndWait run.program called.usual called.name called.arguments

/-! ## The whole command -/

/-- Expands an assignment and makes it; the result shows it. -/
def assignOne (run : Runner) (isAlone isExported : Bool) (assignment : Raw × Word) : Act Raw := do
  let value ← Expand.text run .assignment assignment.2
  if isAlone then Act.hide assignment.1
  Act.assign assignment.1 value (isAlone || isExported)
  return assignment.1 ++ '=' :: value

/-- Makes the assignments and calls the command. -/
def finish (run : Runner) (isTested : Bool) (before : List (Nat × Nat))
    (assignments : List (Raw × Word)) (called : Option Called) : Act Unit := do
  let isAlone := called.any (·.isAlone)
  let isExported := called.any fun called => called.isExec && !called.arguments.isEmpty
  let assigned ← assignments.mapM (assignOne run isAlone isExported)
  trace run before (assigned ++ (called.map (·.shown)).getD [])
  call run isTested called

/-- Runs a simple command. -/
def perform (run : Runner) (isTested : Bool) (assignments : List (Raw × Word)) (words : List Word)
    (redirections : List Redirection) : Act Unit := do
  modify fun state => { state with outputStatus := 0 }
  let called ← called? run words
  let before := (← get).descriptors
  let redirections ← Redirect.readyAll run redirections
  let work : Act Unit := do
    if ← Redirect.performAll run redirections then finish run isTested before assignments called
    else
      Act.setStatus 2
      if called.any (·.isSpecial) then throw .failure
  let work := if called.any (·.isAlone) then Act.withLocals work else work
  if called.any (·.isExec) then work
  else Act.ensuring work (Redirect.restore before redirections)

end ProvideIndex.Shell.Simple
