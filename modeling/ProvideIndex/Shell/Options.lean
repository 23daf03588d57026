import ProvideIndex.Shell.Variables

/-!
# Options

The options of commands of the shell stand before their operands. Those of the shell itself are set
when it is started or later on.
-/

namespace ProvideIndex.Shell.Options

/-! ## Of commands -/

/-- An option that was found, with its value if it takes one. -/
structure Found where
  letter : Char
  value : Raw

/-- Whether a letter is among the options of `spec`, and whether it takes a value. -/
def takesValue? (letter : Char) : List Char → Option Bool
  | [] => none
  | c :: rest => if c == letter && c != ':' then some (rest.head? == some ':')
    else takesValue? letter rest

/-- The options in the letters of an argument; the arguments after it may hold a value. -/
def fromLetters (spec : List Char) (arguments : List Raw) : Raw → Act (List Found × List Raw)
  | [] => return ([], arguments)
  | c :: rest => do
    match takesValue? c spec with
    | none => Act.fail ("Illegal option -".toList ++ [c])
    | some false => do
      let (more, left) ← fromLetters spec arguments rest
      return (⟨c, []⟩ :: more, left)
    | some true =>
      match rest, arguments with
      | _ :: _, _ => return ([⟨c, rest⟩], arguments)
      | [], value :: left => return ([⟨c, value⟩], left)
      | [], [] => Act.fail ("No arg for -".toList ++ c :: " option".toList)

/-- Parts the options of a command from its operands. `fuel` bounds the number of arguments. -/
def partFrom (spec : List Char) : Nat → List Raw → Act (List Found × List Raw)
  | 0, arguments => return ([], arguments)
  | fuel + 1, arguments => do
    match arguments with
    | ['-', '-'] :: rest => return ([], rest)
    | ('-' :: c :: letters) :: rest => do
      let (found, left) ← fromLetters spec rest (c :: letters)
      let (more, operands) ← partFrom spec fuel left
      return (found ++ more, operands)
    | _ => return ([], arguments)

def part (spec : String) (arguments : List Raw) : Act (List Found × List Raw) :=
  partFrom spec.toList arguments.length arguments

/-- The operands of a command that has no options. -/
def operands (arguments : List Raw) : Act (List Raw) := return (← part "" arguments).2

/-! ## Of the shell -/

def setFlag (name : String) (value : Bool) : Act Unit := modify fun state =>
  let others := state.options.filter (· != name)
  { state with options := if value then name :: others else others }

def setLetter (letter : Char) (value : Bool) : Act Unit := do
  match flags.find? fun flag => flag.letter == some letter with
  | some flag => setFlag flag.name value
  | none => Act.fail ("Illegal option -".toList ++ [letter])

/-- The state of all options, in words or as commands that set them. -/
def listAll (inWords : Bool) : Act Unit := do
  let state ← get
  if inWords then Act.print "Current option settings\n".toList
  flags.forM fun flag =>
    let isSet := state.isSet flag.name
    if inWords then
      let padding := List.replicate (16 - flag.name.length) ' '
      Act.print (flag.name.toList ++ padding ++ (if isSet then "on\n" else "off\n").toList)
    else
      Act.print ((if isSet then "set -o " else "set +o ") ++ flag.name ++ "\n").toList

def setNamed (value : Bool) (name : Option Raw) : Act Unit := do
  match name with
  | none => listAll value
  | some name =>
    match flags.find? fun flag => flag.name.toList == name with
    | some flag => setFlag flag.name value
    | none => Act.fail ("Illegal option -o ".toList ++ name)

/-- Options of the shell as they are read. -/
structure Settings where
  /-- Whether the first operand is a script. -/
  takesScript : Bool
  operands : List Raw
  /-- Whether a double dash came before the operands. -/
  isMarked : Bool

/-- Sets the options in the letters of an argument. -/
def setLetters (atStart value : Bool) (settings : Settings) : Raw → Act Settings
  | [] => return settings
  | c :: rest => do
    if c == 'c' && atStart then
      setLetters atStart value { settings with takesScript := true } rest
    else if c == 'l' && atStart then setLetters atStart value settings rest
    else if c == 'o' then
      setNamed value settings.operands.head?
      setLetters atStart value { settings with operands := settings.operands.tail } rest
    else
      setLetter c value
      setLetters atStart value settings rest

/-- Sets the options at the beginning of some arguments. `fuel` bounds the number of these. -/
def setFrom (atStart : Bool) (settings : Settings) : Nat → Act Settings
  | 0 => return settings
  | fuel + 1 => do
    match settings.operands with
    | ['-', '-'] :: rest => return { settings with operands := rest, isMarked := true }
    | ['-'] :: rest => do
      if !atStart then
        setFlag "xtrace" false
        setFlag "verbose" false
      return { settings with operands := rest }
    | ('-' :: letters) :: rest => do
      let next ← setLetters atStart true { settings with operands := rest } letters
      setFrom atStart next fuel
    | ('+' :: letters) :: rest => do
      let next ← setLetters atStart false { settings with operands := rest } letters
      setFrom atStart next fuel
    | _ => return settings

def setAll (atStart : Bool) (arguments : List Raw) : Act Settings :=
  setFrom atStart ⟨false, arguments, false⟩ (arguments.length + 1)

/-! ## Of scripts -/

/-- Prints on standard error without a name before it. -/
def complain (text : Raw) : Act Unit := do
  let _ ← Act.write 2 (text ++ ['\n'])

/-- What was found of an option: its letter, its value, and where to look for the next one. -/
structure Next where
  letter : Char
  value : Option Raw
  index : Nat
  offset : Option Nat
  isAtEnd : Bool

/-- The value of an option that takes one: the rest of its argument, or the next one. -/
def valueOf (spec : List Char) (arguments : List Raw) (index : Nat) (letter : Char) (rest : Raw) :
    Act Next := do
  match rest, arguments[index - 1]? with
  | _ :: _, _ => return ⟨letter, some rest, index, none, false⟩
  | [], some value => return ⟨letter, some value, index + 1, none, false⟩
  | [], none =>
    if spec.head? == some ':' then return ⟨':', some [letter], index, none, false⟩
    else
      complain ("No arg for -".toList ++ letter :: " option".toList)
      return ⟨'?', none, index, none, false⟩

/-- Looks at the letters that are left of the argument before `index`. -/
def nextLetter (spec : List Char) (arguments : List Raw) (index : Nat) (argument : Raw) :
    Raw → Act Next
  | [] => return ⟨'?', none, index, none, true⟩
  | c :: rest => do
    let offset := some (argument.length - rest.length)
    match takesValue? c spec with
    | some true => valueOf spec arguments index c rest
    | some false => return ⟨c, some [], index, offset, false⟩
    | none =>
      if spec.head? == some ':' then return ⟨'?', some [c], index, offset, false⟩
      else
        complain ("Illegal option -".toList ++ [c])
        return ⟨'?', none, index, offset, false⟩

/-- Looks for the next option among arguments. -/
def next (spec : List Char) (arguments : List Raw) : Act Next := do
  let state ← get
  let index := state.optionIndex
  let current := if index ≤ 1 then none else arguments[index - 2]?
  let left := match current, state.optionOffset with
    | some argument, some offset => argument.drop offset
    | _, _ => []
  if !left.isEmpty then nextLetter spec arguments index (current.getD []) left
  else
    match arguments[index - 1]? with
    | some ['-', '-'] => return ⟨'?', none, index + 1, none, true⟩
    | some ('-' :: c :: rest) =>
      nextLetter spec arguments (index + 1) ('-' :: c :: rest) (c :: rest)
    | _ => return ⟨'?', none, index, none, true⟩

/-- Puts the next option of a script into variables; the status says whether there was one. -/
def getNext (spec name : Raw) (arguments : List Raw) : Act Nat := do
  let next ← next spec arguments
  if !next.isAtEnd then
    match next.value with
    | some value => Act.assign "OPTARG".toList value false
    | none => Act.unsetVariable "OPTARG".toList
  Act.assign "OPTIND".toList (Raw.decimal next.index) false
  Act.assignNamed name [next.letter] false
  modify fun state => { state with optionIndex := next.index, optionOffset := next.offset }
  return if next.isAtEnd then 1 else 0

end ProvideIndex.Shell.Options
