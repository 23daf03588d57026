import ProvideIndex.Shell.Commands
import ProvideIndex.Shell.Simple

/-!
# Running commands

A command is run on the state of the shell and leaves a status. Commands that are tested may fail;
others may end the shell by failing, if it was asked for. Parts of a pipeline are run one after the
other, each on all that the one before it has written.
-/

namespace ProvideIndex.Shell.Run

/-! ## Around a command -/

/-- Ends the shell if a command failed that is not tested. -/
def checkStatus (isTested : Bool) : Act Unit := do
  let state ← get
  if state.isSet "errexit" && !isTested && state.status != 0 then throw .exit else return

/-- Runs a command, with the signals that have come before and after it. -/
def between (run : Runner) (act : Act Unit) : Act Unit := do
  if (← get).isSet "noexec" then return
  else
    Signals.dealWith run
    act
    Signals.dealWith run

def succeeded : Act Bool := return (← get).status = 0

def isLeaving : Act Bool := return (← get).skip.isSome

/-! ## Parts -/

/-- Runs a part in the background. It has nothing to read. -/
def inBackground (run : Runner) (act : Act Unit) : Act Unit := do
  let status ← Act.inPart run do
    Act.connect 0 (some (← Act.addChannel .sink))
    act
  modify fun state =>
    let number := Expand.shellNumber + 1 + state.jobs
    { state with
      status := 0
      jobs := state.jobs + 1
      backgroundShells := (number, status) :: state.backgroundShells }

/-- Looks for the programs that the parts of a pipeline are, so that they are remembered. -/
def notePrograms (commands : List Command) : Act Unit :=
  commands.forM fun
    | .simple _ _ ([.literal name] :: _) _ => do
      let state ← get
      match Simple.meaning state true name, Listing.search state false name with
      | .program, .found _ => if Raw.isName name then Listing.noteFound name else return
      | _, _ => return
    | _ => return

/-- The status of a part that is stopped because nobody reads what it writes. -/
def unreadStatus : Nat := 128 + 13

/-- Runs a part whose output is read by another one. It need not come to an end of its own. -/
def readPart (run : Runner) (act : Act Unit) : Act Nat := do
  match ← Act.attempt (Act.inPart run act) with
  | .ok status => return status
  | .error .exhausted => return unreadStatus
  | .error stop => throw stop

/-- Runs parts, each of which reads what the one before it has written. -/
def pipeline (run : Runner) (input : Option Nat) : List (Act Unit) → Act Unit
  | [] => return
  | act :: acts => do
    let pipe ← if acts.isEmpty then pure none else some <$> Act.addPipe
    let part := if acts.isEmpty then Act.inPart run else readPart run
    let status ← part do
      match input with
      | some pipe => Act.connect 0 (some (← Act.addChannel (.pipe pipe)))
      | none => pure ()
      match pipe with
      | some pipe => Act.connect 1 (some (← Act.addChannel (.pipe pipe)))
      | none => pure ()
      act
    Signals.noteChild
    Act.setStatus status
    pipeline run pipe acts

/-- Runs a part on files of its own. -/
def subshell (run : Runner) (redirections : List Redirection) (act : Act Unit) : Act Unit := do
  let ready ← Redirect.readyAll run redirections
  let status ← Act.inPart run do
    ready.forM (Redirect.perform run)
    act
  Signals.noteChild
  Act.setStatus status

/-- Runs a command on files of its own. -/
def redirected (run : Runner) (redirections : List Redirection) (act : Act Unit) : Act Unit := do
  let before := (← get).descriptors
  let ready ← Redirect.readyAll run redirections
  let work : Act Unit := do
    if ← Redirect.performAll run ready then act else Act.setStatus 2
  Act.ensuring work (Redirect.restore before ready)

/-! ## Loops -/

/-- What becomes of a loop. -/
inductive Turn where
  | goOn
  /-- Goes on without the rest of the body. -/
  | again
  | leave
  | leaveFunction
  deriving DecidableEq, Repr

/-- What becomes of the innermost loop in view of what is being left. -/
def turn : Act Turn := do
  let state ← get
  match state.skip with
  | none => return .goOn
  | some .function => return .leaveFunction
  | some (.loops count goesOn) =>
    if count ≤ 1 then
      set { state with skip := none }
      return if goesOn then .again else .leave
    else
      set { state with skip := some (.loops (count - 1) goesOn) }
      return .leave

/-- Runs something as the body of a loop. -/
def inLoop (act : Act Unit) : Act Unit := do
  let before := (← get).loops
  modify fun state => { state with loops := before + 1 }
  Act.ensuring act (modify fun state => { state with loops := before })

/-- Runs a body as long as a test says so; `status` is that of the body. `fuel` bounds the turns. -/
def whileLoop (untilTrue : Bool) (test body : Act Unit) (status : Nat) : Nat → Act Nat
  | 0 => throw .exhausted
  | fuel + 1 => do
    test
    let found := (← get).status
    match ← turn with
    | .leave => return status
    | .leaveFunction => return found
    | .again => whileLoop untilTrue test body status fuel
    | .goOn =>
      if (found = 0) == untilTrue then return status
      else
        body
        let status := (← get).status
        match ← turn with
        | .leave | .leaveFunction => return status
        | .goOn | .again => whileLoop untilTrue test body status fuel

/-- Runs a body for all values of a variable. -/
def forLoop (name : Raw) (body : Act Unit) : List Raw → Act Unit
  | [] => return
  | value :: values => do
    Act.assign name value false
    body
    match ← turn with
    | .leave | .leaveFunction => return
    | .goOn | .again => forLoop name body values

/-! ## Choices -/

/-- Whether a text matches one of some patterns. -/
def matchesAny (run : Runner) (text : Raw) : List Word → Act Bool
  | [] => return false
  | word :: words => do
    if Pattern.isMatch (← Expand.pattern run word) text then return true
    else matchesAny run text words

/-! ## Commands -/

variable (run : Runner)

mutual

/-- Runs a command. -/
def command (isTested : Bool) : Command → Act Unit
  | .simple line assignments words redirections => between run do
    modify fun state => { state with line := line }
    Simple.perform run isTested assignments words redirections
    checkStatus isTested
  | .pipeline commands isInBackground => between run do
    notePrograms commands
    if isInBackground then inBackground run (pipeline run none (each false commands))
    else
      pipeline run none (each isTested commands)
      checkStatus isTested
  | .redirected line body redirections => between run do
    modify fun state => { state with line := line }
    redirected run redirections (command isTested body)
  | .background body => between run (inBackground run (command false body))
  | .subshell line body redirections => between run do
    modify fun state => { state with line := line }
    subshell run redirections (optional isTested body)
    checkStatus isTested
  | .both first second => between run do
    command true first
    if (← succeeded) && !(← isLeaving) then command isTested second
  | .either first second => between run do
    command true first
    if !(← succeeded) && !(← isLeaving) then command isTested second
  | .sequence first second => between run do
    command isTested first
    if !(← isLeaving) then command isTested second
  | .conditional test thenPart elsePart => between run do
    optional true test
    let holds ← succeeded
    if ← isLeaving then return
    else if holds then optional isTested thenPart
    else if elsePart.isNone then Act.setStatus 0
    else optional isTested elsePart
  | .loop untilTrue test body => between run do
    inLoop do
      Act.setStatus (← whileLoop untilTrue (optional true test) (optional isTested body) 0 run.most)
  | .forEach line name words body => between run do
    modify fun state => { state with line := line }
    let values ← words.flatMapM (Expand.fields run)
    if values.isEmpty then Act.setStatus 0
    else inLoop (forLoop name (optional isTested body) values)
  | .choose line word cases => between run do
    modify fun state => { state with line := line }
    let text ← Expand.text run .text word
    choice isTested text cases
  | .define _ name body => between run do
    modify fun state =>
      { state with status := 0, functions := replaced name body state.functions }
  | .negated body => between run do
    command true body
    if !(← isLeaving) then Act.setStatus (if ← succeeded then 1 else 0)

def optional (isTested : Bool) : Option Command → Act Unit
  | none => return
  | some body => command isTested body

def each (isTested : Bool) : List Command → List (Act Unit)
  | [] => []
  | body :: others => command isTested body :: each isTested others

/-- Runs the first of some commands that has a pattern for a text. -/
def choice (isTested : Bool) (text : Raw) : List (List Word × Option Command) → Act Unit
  | [] => Act.setStatus 0
  | (patterns, body) :: others => do
    if ← matchesAny run text patterns then
      if body.isNone then Act.setStatus 0
      optional isTested body
    else choice isTested text others

end

/-! ## Scripts -/

/-- A number for texts after lines that none of them has yet. -/
def freshNumber (documents : Documents) : Nat := (documents.map (·.1)).foldl max 0 + 1

/-- Runs the lines of a script. `fuel` bounds their number. -/
def lines (shows isTested : Bool) (status : Nat) : Nat → Reading → Act Nat
  | 0, _ => throw .exhausted
  | fuel + 1, reading => do
    let before := { reading with aliases := (← get).aliases }
    match Grammar.line.run before with
    | .error fault => do
      modify fun state => { state with line := fault.line }
      Act.fail fault.text.toList
    | .ok (.ended, _) => return status
    | .ok (.commands found, after) => do
      let state ← get
      set { state with documents := after.documents, readLine := after.line }
      if shows && state.isSet "verbose" then
        discard (Act.write 2 (before.rest.take (before.rest.length - after.rest.length)))
      match found with
      | none => lines shows isTested status fuel after
      | some found => do
        command run isTested found
        if ← isLeaving then return (← get).status
        else lines shows isTested (← get).status fuel after

/-- Runs a text as a script, whose lines may be shown as they are read. -/
def script (shows isTested : Bool) (text : Raw) : Act Nat := do
  let state ← get
  let reading : Reading :=
    ⟨text, 1, none, [], freshNumber state.documents, state.documents, state.aliases, []⟩
  Act.ensuring (lines run shows isTested 0 (text.length + 2) reading)
    (modify fun now => { now with readLine := state.readLine })

end Run

/-- How often a loop may be run. -/
def Run.mostTurns : Nat := 1000000

/-- Runs commands and scripts, with `depth` as the limit to how deep they may lie in each other. -/
def runner (programs : Programs) : Nat → Runner
  | 0 => ⟨fun _ _ => throw .exhausted, fun _ _ => throw .exhausted, programs, Run.mostTurns⟩
  | depth + 1 =>
    ⟨fun isTested found => Run.command (runner programs depth) isTested found,
      fun isTested text => Run.script (runner programs depth) false isTested text,
      programs, Run.mostTurns⟩

end ProvideIndex.Shell
