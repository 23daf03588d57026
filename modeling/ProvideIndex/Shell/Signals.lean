import ProvideIndex.Shell.Variables

/-!
# Signals

A signal ends the first shell unless it is ignored or the shell has something to do about it. The
end of the shell counts as a signal that is sent to it.
-/

namespace ProvideIndex.Shell.Signals

/-- The names of signals, from the number 1 on; some have none but their number. -/
def names : List String :=
  ["HUP", "INT", "QUIT", "ILL", "TRAP", "ABRT", "BUS", "FPE", "KILL", "USR1", "SEGV", "USR2",
    "PIPE", "ALRM", "TERM", "16", "CHLD", "CONT", "STOP", "TSTP", "TTIN", "TTOU", "URG", "XCPU",
    "XFSZ", "VTALRM", "PROF", "WINCH", "IO", "PWR", "SYS", "32", "33", "RTMIN"] ++
    (List.range 15).map (fun n => "RTMIN+" ++ toString (n + 1)) ++
    (List.range 14).map (fun n => "RTMAX-" ++ toString (14 - n)) ++ ["RTMAX"]

def child : Signal := 17

/-- The name of a signal; the end of the shell is one. -/
def name (signal : Signal) : String :=
  match signal with
  | 0 => "EXIT"
  | n + 1 => (names[n]?).getD (toString signal)

/-- The signal of a number or a name, whose letters may be small. -/
def ofText? (text : Raw) : Option Signal :=
  if !text.isEmpty && text.all Char.isDigit then
    let n := Text.natural text
    if n < 65 then some n else none
  else
    let upper := text.map Char.toUpper
    if upper == "EXIT".toList then some 0
    else (names.findIdx? fun name => name.toList == upper).map (· + 1)

/-- Signals that do nothing unless a shell asks for them. -/
def isIdle (signal : Signal) : Bool := [17, 18, 19, 20, 21, 22, 23, 28].contains signal

/-- What is said about a program that a signal has killed. -/
def report? (signal : Signal) : Option String :=
  match signal with
  | 1 => some "Hangup"
  | 3 => some "Quit"
  | 4 => some "Illegal instruction"
  | 5 => some "Trace/breakpoint trap"
  | 6 => some "Aborted"
  | 7 => some "Bus error"
  | 8 => some "Floating point exception"
  | 9 => some "Killed"
  | 10 => some "User defined signal 1"
  | 11 => some "Segmentation fault"
  | 12 => some "User defined signal 2"
  | 14 => some "Alarm clock"
  | 15 => some "Terminated"
  | 16 => some "Stack fault"
  | 24 => some "CPU time limit exceeded"
  | 25 => some "File size limit exceeded"
  | 26 => some "Virtual timer expired"
  | 27 => some "Profiling timer expired"
  | 29 => some "I/O possible"
  | 30 => some "Power failure"
  | 31 => some "Bad system call"
  | _ => none

/-- Sends a signal to the first shell. -/
def send (signal : Signal) : Act Unit := do
  let state ← get
  if signal = 0 then return
  else
    match (if signal = 9 then none else state.firstTraps.lookup signal) with
    | some action =>
      if action.isEmpty then return
      else set { state with pending := state.pending ++ [signal] }
    | none => if isIdle signal then return else throw (.killed signal)

/-- Notes that a program or a shell for a part has ended. -/
def noteChild : Act Unit := do
  let state ← get
  match state.traps.lookup child with
  | some action =>
    if action.isEmpty || state.isPart || state.pending.contains child then return
    else set { state with pending := state.pending ++ [child] }
  | none => return

/-- Deals with the signals that have come, unless commands are being left. -/
def dealWith (run : Runner) : Act Unit := do
  let state ← get
  if state.pending.isEmpty || state.isPart || state.skip.isSome then return
  else
    let status := state.savedStatus.getD state.status
    set { state with pending := [], savedStatus := some status }
    state.pending.eraseDups.forM fun signal => do
      match (← get).traps.lookup signal with
      | some action => do
        let _ ← run.script false action
        if (← get).skip.isNone then Act.setStatus status
      | none => return
    modify fun now => { now with savedStatus := state.savedStatus }

end ProvideIndex.Shell.Signals
