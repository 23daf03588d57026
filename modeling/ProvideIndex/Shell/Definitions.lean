import ProvideIndex.Shell.Listing

/-!
# What names stand for

Commands that give names a meaning, take it away and tell it: variables that are handed on, closed
to changes or local, aliases, functions and programs.
-/

namespace ProvideIndex.Shell.Definitions

/-! ## Variables -/

/-- A name before an equals sign, and what follows the sign if there is one. -/
def nameAndValue (operand : Raw) : Raw × Option Raw :=
  match operand.span (· != '=') with
  | (name, '=' :: value) => (name, some value)
  | (name, _) => (name, none)

def checkName (name : Raw) : Act Unit :=
  if Raw.isName name then return else Act.fail (name ++ ": bad variable name".toList)

/-- Marks a variable, with a new value if there is one. -/
def markOne (mark : Variable → Variable) (operand : Raw) : Act Unit := do
  let (name, value) := nameAndValue operand
  if ((← get).known? name).isNone then checkName name
  match value with
  | some value => Act.assignNamed name value false
  | none => pure ()
  modify fun state =>
    let known := (state.known? name).getD ⟨none, false, false⟩
    { state with bindings := replaced name (mark known) state.bindings }

/-- Marks variables, or lists those that are marked. -/
def markAll (command : Raw) (mark : Variable → Variable) (isMarked : Variable → Bool)
    (arguments : List Raw) : Act Nat := do
  let (found, operands) ← Options.part "p" arguments
  if found.isEmpty && !operands.isEmpty then operands.forM (markOne mark)
  else Listing.printBindings command true isMarked
  return 0

def «export» : List Raw → Act Nat :=
  markAll "export".toList (fun known => { known with isExported := true }) (·.isExported)

def readOnly : List Raw → Act Nat :=
  markAll "readonly".toList (fun known => { known with isReadOnly := true }) (·.isReadOnly)

/-- Makes variables local to the function that is being run; a dash stands for the options. -/
def makeLocal (operands : List Raw) : Act Nat := do
  if (← get).hidden.isEmpty then Act.fail "not in a function".toList
  operands.forM fun operand => do
    if operand == ['-'] then Act.hideOptions
    else
      let (name, value) := nameAndValue operand
      if ((← get).known? name).isNone then checkName name
      Act.hide name
      match value with
      | some value => Act.assign name value false
      | none => return
  return 0

def unset (arguments : List Raw) : Act Nat := do
  let (found, operands) ← Options.part "vf" arguments
  let ofFunctions := (found.getLast?.map (·.letter)) == some 'f'
  operands.forM fun operand => do
    if ofFunctions then
      modify fun state => { state with functions := without operand state.functions }
    else
      let name := (nameAndValue operand).1
      checkName name
      Act.unsetVariable name
  return 0

/-! ## Aliases -/

def listAliases : Act Unit := do
  let aliases := (← get).aliases
  (Listing.inRows 39 (aliases.map (·.1))).forM fun name =>
    Listing.printAlias name ((aliases.lookup name).getD [])

/-- Puts an alias in the place of an earlier one, or after all others. -/
def withAlias (name value : Raw) (aliases : List (Raw × Raw)) : List (Raw × Raw) :=
  if (aliases.lookup name).isSome then
    aliases.map fun entry => if entry.1 == name then (name, value) else entry
  else aliases ++ [(name, value)]

/-- Defines or prints aliases. -/
def defineAliases : List Raw → Act Nat
  | [] => return 0
  | argument :: arguments => do
    let (rest, value) := nameAndValue argument.tail
    let name := argument.take 1 ++ rest
    let status ←
      match value, (← get).aliases.lookup name with
      | some value, _ => do
        modify fun state => { state with aliases := withAlias name value state.aliases }
        pure 0
      | none, some known => do
        Listing.printAlias name known
        pure 0
      | none, none => do
        Options.complain ("alias: ".toList ++ name ++ " not found".toList)
        pure 1
    return max status (← defineAliases arguments)

def «alias» (arguments : List Raw) : Act Nat := do
  if arguments.isEmpty then
    listAliases
    return 0
  else defineAliases arguments

def forgetAliases : List Raw → Act Nat
  | [] => return 0
  | name :: names => do
    let isKnown := ((← get).aliases.lookup name).isSome
    modify fun state => { state with aliases := without name state.aliases }
    if !isKnown then Options.complain ("unalias: ".toList ++ name ++ " not found".toList)
    return max (if isKnown then 0 else 1) (← forgetAliases names)

def unalias (arguments : List Raw) : Act Nat := do
  let (found, names) ← Options.part "a" arguments
  if found.isEmpty then forgetAliases names
  else
    modify fun state => { state with aliases := [] }
    return 0

/-! ## Programs -/

/-- Looks for programs, which are then remembered. -/
def findPrograms : List Raw → Act Nat
  | [] => return 0
  | name :: names => do
    let state ← get
    let isKnown := name.contains '/' || (builtin? name).isSome ||
      (state.functions.lookup name).isSome
    let status ←
      if isKnown then pure 0
      else
        match Listing.search state false name with
        | .found _ => do
          Listing.noteFound name
          pure 0
        | .failed fault => do
          Listing.warnOfProgram name fault
          pure 1
    return max status (← findPrograms names)

def hash (arguments : List Raw) : Act Nat := do
  let (found, names) ← Options.part "r" arguments
  if !found.isEmpty then
    modify fun state => { state with found := [] }
    return 0
  else if names.isEmpty then
    let state ← get
    (Listing.inRows 31 state.found).forM fun name =>
      match Listing.search state false name with
      | .found path => Act.print (path ++ ['\n'])
      | .failed _ => return
    return 0
  else findPrograms names

/-- Says of all names what they mean; the status tells whether all of them mean something. -/
def describeAll : List Raw → Act Nat
  | [] => return 0
  | name :: names => do
    let status ← Listing.describe true false name
    return max status (← describeAll names)

def type (arguments : List Raw) : Act Nat := do describeAll (← Options.operands arguments)

/-- What is left of the command `command`: it tells what a name means. -/
def command (arguments : List Raw) : Act Nat := do
  let (found, operands) ← Options.part "pvV" arguments
  let letters := found.map (·.letter)
  match letters.filter (· != 'p'), operands with
  | [], _ | _, [] => return 0
  | asked, name :: _ =>
    Listing.describe (asked.getLast? == some 'V') (letters.contains 'p') name

end ProvideIndex.Shell.Definitions
