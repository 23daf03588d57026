import ProvideIndex.Shell.Run

/-!
# The shell as a program

A shell gets its script from an argument, from a file or from its input. What it prints goes to the
one who called it, and its status is that of the last command unless it says otherwise.
-/

namespace ProvideIndex.Shell

namespace Start

/-! ## The first state -/

/-- The number by which the caller of the shell is known. -/
def callerNumber : Nat := 4320

/-- The variables that a shell has from the start, besides those that it gets. -/
def ownVariables : List (Raw × Variable) :=
  [("IFS", " \t\n"), ("OPTIND", "1"), ("PS1", "# "), ("PS2", "> "), ("PS4", "+ "),
    ("PPID", toString callerNumber)].map fun (name, value) =>
      (name.toList, ⟨some value.toList, false, false⟩)

/-- The variables of a shell that is started in a directory. -/
def bindings (environment : List (Raw × Raw)) (directory : Raw) : List (Raw × Variable) :=
  let given := environment.filterMap fun (name, value) =>
    if Raw.isName name then some (name, (⟨some value, true, false⟩ : Variable)) else none
  let own := ownVariables.filter fun (name, _) =>
    name == "IFS".toList || (environment.lookup name).isNone
  let all := own.foldl (fun known (name, own) => replaced name own known) given
  replaced "PWD".toList ⟨some directory, true, false⟩ all

/-- The path of the working directory: the one that is given, if it leads there. -/
def directory (environment : List (Raw × Raw)) (disk : Disk) : Raw :=
  match environment.lookup "PWD".toList with
  | some path =>
    match disk.locate .target (Raw.decode path) with
    | .ok location =>
      if path.head? == some '/' && location == disk.workingDirectory then path
      else Directory.physical disk
    | .error _ => Directory.physical disk
  | none => Directory.physical disk

/-- The channels of the first descriptors, and where these lead. -/
def openFiles (call : Call) : Array Channel × List (Nat × Nat) :=
  let input : Channel :=
    match call.input with
    | .error .isDirectory => ⟨.directory, 0, false, true, false⟩
    | _ => .pipe 0
  let result (complains : Bool) : Channel := ⟨.caller complains, 0, true, true, true⟩
  let hasInput := !(call.input matches .error .badDescriptor)
  let descriptors := (if hasInput then [(0, 0)] else []) ++
    (if call.output = .closed then [] else [(1, 1)]) ++ [(2, 2)]
  (#[input, result false, result true], descriptors)

def state (call : Call) (disk : Disk) : State :=
  let (channels, descriptors) := openFiles call
  let directory := directory call.environment disk
  { disk := disk
    channels := channels
    pipes := #[.ofText (call.input.toOption.getD [])]
    given := []
    pending := []
    firstTraps := []
    jobs := 0
    name := call.name
    command := none
    line := 0
    readLine := 0
    bindings := bindings call.environment directory
    hidden := []
    functions := []
    aliases := []
    documents := []
    arguments := []
    options := []
    status := 0
    savedStatus := none
    outputStatus := 0
    loops := 0
    calls := 0
    skip := none
    traps := []
    descriptors := descriptors
    printed := []
    mask := call.mask
    directory := directory
    backgroundShells := []
    optionIndex := 1
    optionOffset := none
    found := []
    isPart := false }

/-! ## Scripts -/

/-- Takes up all that can be read from the input. -/
def inputText : Act Raw := do
  let text := (← Act.available 0).getD []
  Act.consume 0 text.length
  return text

/-- Runs the script in the input. -/
def runInput (run : Runner) : Act Unit := do
  discard (Run.script run true false (← inputText))

/-- Runs the script that the arguments name. -/
def runArguments (run : Runner) (arguments : List Raw) : Act Unit := do
  let settings ← Options.setAll true arguments
  let readsInput := (← get).isSet "stdin"
  match settings.takesScript, settings.operands with
  | true, [] => Act.fail "-c requires an argument".toList
  | true, text :: operands => do
    modify fun state =>
      { state with name := operands.headD state.name, arguments := operands.tail }
    discard (Run.script run false false text)
    if readsInput && !(← Run.isLeaving) then runInput run
  | false, [] => do
    Options.setFlag "stdin" true
    runInput run
  | false, path :: operands =>
    if readsInput then
      modify fun state => { state with arguments := path :: operands }
      runInput run
    else
      let text ← Control.scriptText path
      modify fun state => { state with name := path, arguments := operands }
      discard (Run.script run true false text)

/-- How deep commands may lie in each other. -/
def depth : Nat := 5000

/-- The signal of a program that has run out of memory. -/
def outOfMemory : Signal := 11

/-- How a shell ends that has come to a state. -/
def exit (result : Except Stop Unit) (state : State) : Exit :=
  match result with
  | .error (.killed signal) | .error (.replaced (some signal)) => .killed signal
  | .error .exhausted => .killed outOfMemory
  | _ => .status (UInt8.ofNat state.status)

end Start

/-- A shell among the programs of a machine. -/
def program (programs : Programs) : Program := fun call disk =>
  let run := runner programs Start.depth
  let act := Act.runToEnd run (Start.runArguments run call.arguments)
  let (result, last) := act.run (Start.state call disk)
  let directory := disk.workingDirectory
  { exit := Start.exit result last
    printed := last.given.reverse
    unread := ((last.pipes[0]?).map (·.text)).getD []
    disk := { last.disk with workingDirectory := directory } }

end ProvideIndex.Shell
