import ProvideIndex.Shell.Channels
import ProvideIndex.Text.Digits

/-!
# Variables

Variables have values, may be handed on to programs and may be closed to changes. A function may
have variables of its own, which hide others as long as it is run.
-/

namespace ProvideIndex.Shell

/-- Puts a value to a name, in place of an earlier one. -/
def replaced {α : Type} (name : Raw) (value : α) (entries : List (Raw × α)) : List (Raw × α) :=
  (name, value) :: entries.filter (·.1 != name)

def without {α : Type} (name : Raw) (entries : List (Raw × α)) : List (Raw × α) :=
  entries.filter (·.1 != name)

namespace State

def known? (state : State) (name : Raw) : Option Variable := state.bindings.lookup name

/-- The value of a variable, if it has one. -/
def value? (state : State) (name : Raw) : Option Raw :=
  (state.bindings.lookup name).bind (·.value)

/-- Whether an option is set. -/
def isSet (state : State) (name : String) : Bool := state.options.contains name

/-- The variables that programs get. -/
def environment (state : State) : List (Raw × Raw) :=
  state.bindings.filterMap fun (name, known) =>
    if known.isExported then known.value.map fun value => (name, value) else none

end State

namespace Act

def value? (name : Raw) : Act (Option Raw) := return (← get).value? name

def failReadOnly {α : Type} (name : Raw) : Act α := fail (name ++ ": is read only".toList)

/-- Gives a variable a value. -/
def assign (name value : Raw) (exported : Bool) : Act Unit := do
  let state ← get
  let old := (state.known? name).getD ⟨none, false, false⟩
  if old.isReadOnly then failReadOnly name
  else
    let isExported := old.isExported || exported || state.isSet "allexport"
    modify fun state =>
      { state with bindings := replaced name ⟨some value, isExported, false⟩ state.bindings }
    if name == "OPTIND".toList then
      let index := if value.all Char.isDigit then max 1 (Text.natural value) else 1
      modify fun state => { state with optionIndex := index, optionOffset := none }
    if name == "PATH".toList then modify fun state => { state with found := [] }

/-- Gives a variable a value if its name is one that variables have. -/
def assignNamed (name value : Raw) (exported : Bool) : Act Unit := do
  if Raw.isName name then assign name value exported
  else fail (name ++ ": bad variable name".toList)

def unsetVariable (name : Raw) : Act Unit := do
  if ((← get).known? name).any (·.isReadOnly) then failReadOnly name
  else modify fun state => { state with bindings := without name state.bindings }

/-- Changes what is put back when the function ends. -/
def modifyHidden (change : State → Hidden → Hidden) : Act Unit := modify fun state =>
  match state.hidden with
  | hidden :: others => { state with hidden := change state hidden :: others }
  | [] => state

/-- Hides a variable until the function ends. -/
def hide (name : Raw) : Act Unit := modifyHidden fun state hidden =>
  if hidden.bindings.any (·.1 == name) then hidden
  else { hidden with bindings := (name, state.known? name) :: hidden.bindings }

/-- Hides the options until the function ends. -/
def hideOptions : Act Unit := modifyHidden fun state hidden =>
  { hidden with options := hidden.options.or (some state.options) }

/-- The variables after what was hidden has been put back. -/
def restored (hidden : List (Raw × Option Variable)) (bindings : List (Raw × Variable)) :
    List (Raw × Variable) :=
  hidden.foldl (fun bindings (name, known) =>
    match known with
    | some known => replaced name known bindings
    | none => without name bindings) bindings

/-- Puts back what functions hide until no more than `count` of them are left. -/
def endLocals (count : Nat) : Act Unit := modify fun state =>
  let ended := state.hidden.take (state.hidden.length - count)
  { state with
    bindings := ended.foldl (fun bindings hidden => restored hidden.bindings bindings)
      state.bindings
    options := ended.foldl (fun options hidden => hidden.options.getD options) state.options
    hidden := state.hidden.drop ended.length }

/-- Runs something with variables of its own; they stay if it ends early. -/
def withLocals {α : Type} (act : Act α) : Act α := do
  let count := (← get).hidden.length
  modify fun state => { state with hidden := ⟨[], none⟩ :: state.hidden }
  let result ← act
  endLocals count
  return result

end Act

end ProvideIndex.Shell
