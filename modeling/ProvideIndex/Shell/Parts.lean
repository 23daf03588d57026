import ProvideIndex.Shell.Signals

/-!
# Parts of a script in shells of their own

A part of a script may be run in a shell of its own, which begins with a copy of the state and hands
back no more than the disk, the open files and its status.
-/

namespace ProvideIndex.Shell.Act

/-- Does what is to be done when the shell ends. -/
def leave (run : Runner) : Act Unit := do
  let state ← get
  match state.traps.lookup 0 with
  | none => return
  | some action =>
    let status := state.savedStatus.getD state.status
    set { state with
      traps := state.traps.filter (·.1 != 0)
      skip := none
      savedStatus := some status }
    match ← attempt (run.script false action) with
    | .ok _ => setStatus status
    | .error .exit | .error .failure | .error (.replaced _) => return
    | .error stop => throw stop

/-- Runs commands to the end of a shell; its status is the status that is left. -/
def runToEnd (run : Runner) (body : Act Unit) : Act Unit := do
  match ← attempt body with
  | .ok () | .error .exit | .error .failure => leave run
  | .error (.replaced none) => return
  | .error stop => throw stop

/-- Says that a signal has killed a program or a shell; the status that is left is the result. -/
def reportKilled (signal : Signal) : Act Nat := do
  match Signals.report? signal with
  | some text => do
    let _ ← write 2 (text ++ "\n").toList
    return 128 + signal
  | none => return 128 + signal

/-- Runs a part in a shell of its own; the status of that shell is the result. -/
def inPart (run : Runner) (body : Act Unit) : Act Nat := do
  let before ← get
  set { before with
    isPart := true
    skip := none
    loops := 0
    savedStatus := none
    traps := before.traps.filter (·.2.isEmpty) }
  let ending ← attempt (runToEnd run body)
  let status := (← get).status % 256
  modify before.after
  match ending with
  | .error (.killed signal) => throw (.killed signal)
  | .error .exhausted => throw .exhausted
  | .error (.replaced (some signal)) => reportKilled signal
  | _ => return status

/-- What a part prints. -/
def outputOf (run : Runner) (body : Act Unit) : Act (Raw × Nat) := do
  let pipe ← addPipe
  let channel ← addChannel (.pipe pipe)
  let status ← inPart run do
    connect 1 (some channel)
    body
  return ((((← get).pipes[pipe]?).map (·.text)).getD [], status)

end ProvideIndex.Shell.Act
