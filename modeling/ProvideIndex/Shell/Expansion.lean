import ProvideIndex.Shell.Arithmetic
import ProvideIndex.Shell.Fields
import ProvideIndex.Shell.Globbing
import ProvideIndex.Shell.Parts

/-!
# Expanding words

The parts of a word are put in place by the texts that they stand for: the values of parameters, the
output of commands, the results of arithmetic. A word of a command is then split into fields, and a
field that is a pattern gives way to the paths that match it.
-/

namespace ProvideIndex.Shell

/-- Where a tilde stands for a directory. -/
inductive Tilde where
  | nowhere
  | atStart
  /-- At the start and after colons, as in assignments. -/
  | afterColons
  deriving DecidableEq, Repr

/-- The rules by which the parts of a word are put in place. -/
structure Setting where
  /-- Whether the word is split into fields. -/
  splits : Bool
  inQuotes : Bool
  /-- Whether the parts are what stands in place of the value of a parameter. -/
  inParameter : Bool
  tilde : Tilde

namespace Setting

def field : Setting := ⟨true, false, false, .atStart⟩

def text : Setting := ⟨false, false, false, .atStart⟩

def assignment : Setting := ⟨false, false, false, .afterColons⟩

def document : Setting := ⟨false, true, false, .nowhere⟩

def arithmetic : Setting := ⟨false, false, false, .nowhere⟩

/-- The setting of a word in place of the value of a parameter. -/
def inPlace (setting : Setting) : Setting :=
  { setting with inParameter := true, tilde := .atStart }

/-- The splitting of what an expansion brings. -/
def splitting (setting : Setting) : Splitting :=
  if setting.inQuotes then .never else .atSeparators

end Setting

namespace Expand

/-! ## Tildes -/

/-- The directory that a tilde and a name stand for. -/
def home? (state : State) (name : Raw) : Option Raw :=
  if name.isEmpty then state.value? "HOME".toList
  else if name == "root".toList then some "/root".toList
  else none

/--
Cuts a text where directories are put in place of tildes; these are marked. A name goes up to a
slash or the end, which a text that is not the last of its word does not have. `fuel` bounds the
length.
-/
def tildes (state : State) (colons isLast atStart : Bool) : Nat → Raw → List (Raw × Bool)
  | 0, text => [(text, false)]
  | fuel + 1, text =>
    let name := (text.drop 1).takeWhile fun c => c != '/' && !(colons && c == ':')
    let after := text.drop (name.length + 1)
    let home := if after.isEmpty && !isLast then none else home? state name
    match atStart && text.head? == some '~', home with
    | true, some home => (home, true) :: tildes state colons isLast false fuel after
    | _, _ =>
      if !colons then [(text, false)]
      else
        match text.span (· != ':') with
        | (first, ':' :: rest) =>
          (first ++ [':'], false) :: tildes state colons isLast true fuel rest
        | _ => [(text, false)]

/-- A text without quotes. -/
def literal (setting : Setting) (isFirst isLast : Bool) (text : Raw) : Act (List Run) := do
  let state ← get
  let isSplit := setting.inParameter && !setting.inQuotes
  let run (text : Raw) : Run :=
    { Run.kept text setting.inQuotes with splitting := if isSplit then .atSeparators else .never }
  match setting.tilde with
  | .nowhere => return [run text]
  | tilde =>
    let atStart := isFirst && !setting.inQuotes
    let colons := tilde == .afterColons && !setting.inQuotes
    return (tildes state colons isLast atStart (text.length + 1) text).map fun (text, isHome) =>
      if isHome then Run.kept text true else run text

/-! ## Parameters -/

/-- The number by which the first shell is known. -/
def shellNumber : Nat := 4321

def isArguments (name : Raw) : Bool := name == ['@'] || name == ['*']

/-- What stands between the arguments of the shell where they are put in one text. -/
def argumentSeparator (state : State) (setting : Setting) (name : Raw) : Raw :=
  let separators := state.value? "IFS".toList
  if name == ['@'] && setting.splits && setting.inQuotes then ['\x00']
  else if setting.splits && !setting.inQuotes then
    if separators.isSome then ['\x00'] else [' ']
  else
    match separators with
    | some separators => separators.take 1
    | none => [' ']

/-- The value of a parameter, if it has one. -/
def value? (state : State) (setting : Setting) (name : Raw) : Option Raw :=
  match name with
  | ['$'] => some (Raw.decimal shellNumber)
  | ['?'] => some (Raw.decimal state.status)
  | ['#'] => some (Raw.decimal state.arguments.length)
  | ['!'] => state.backgroundShells.head?.map fun shell => Raw.decimal shell.1
  | ['-'] => some ((flags.reverse.filter fun flag => state.isSet flag.name).filterMap (·.letter))
  | _ =>
    if isArguments name then
      some ((argumentSeparator state setting name).intercalate state.arguments)
    else if name.all Char.isDigit then
      match Text.natural name with
      | 0 => some state.name
      | n + 1 => state.arguments[n]?
    else state.value? name

/-- A value with the splitting that it has coming from a parameter. -/
def valueRun (state : State) (setting : Setting) (name value : Raw) : Run :=
  let splitting :=
    if setting.inQuotes && setting.splits && name == ['@'] && !state.arguments.isEmpty then
      .betweenArguments
    else setting.splitting
  { Run.kept value setting.inQuotes with splitting := splitting }

/-- A complaint about a parameter without a value. -/
def failUnset {α : Type} (name : Raw) (message : Option Raw) (colon : Bool) : Act α :=
  let text := match message with
    | some message => message
    | none => ("parameter not set" ++ if colon then " or null" else "").toList
  Act.fail (name ++ ": ".toList ++ text)

/-- Requires a value if missing ones are mistakes. -/
def checkUnset (name : Raw) : Act Unit := do
  if (← get).isSet "nounset" then failUnset name none false else return

/-! ## Arithmetic -/

/-- The number that a variable holds. -/
def numberOf (name : Raw) : Act Int := do
  let text := ((← get).value? name).getD []
  match Arithmetic.number? none text with
  | some n => return n
  | none => Act.fail ("Illegal number: ".toList ++ text)

/-- The result of an expression. -/
def calculate (text : Raw) : Act Int := do
  let fail (cause : String) : Act Int :=
    Act.fail ("arithmetic expression: ".toList ++ cause.toList ++ ": \x22".toList ++ text ++
      ['\x22'])
  Arithmetic.evaluate ⟨numberOf, fun name n => Act.assign name (Raw.integer n) false, fail⟩
    (Arithmetic.read text)

/-! ## Parts -/

def withoutLineEnds (text : Raw) : Raw := (text.reverse.dropWhile (· == '\n')).reverse

/-- What a command prints, without line ends at the end. -/
def outputRun (run : Runner) (setting : Setting) (command : Option Command) : Act Run := do
  let text ← match command with
    | none => pure []
    | some command => do
      let (text, status) ← Act.outputOf run (run.command false command)
      modify fun state => { state with outputStatus := status }
      pure (text.filter (· != '\x00'))
  return { Run.kept (withoutLineEnds text) setting.inQuotes with splitting := setting.splitting }

variable (run : Runner)

mutual

/-- The texts that parts stand for. The first parts of a word may begin with a tilde. -/
def parts (setting : Setting) (isFirst : Bool) : List Part → Act (List Run)
  | [] => return []
  | part :: rest => do
    let first ← onePart setting isFirst rest.isEmpty part
    return first ++ (← parts setting false rest)

def onePart (setting : Setting) (isFirst isLast : Bool) : Part → Act (List Run)
  | .literal text => literal setting isFirst isLast text
  | .quoted text => return [.quotes, .kept text true]
  | .doubleQuoted inside => do
    let setting := { setting with inQuotes := true }
    match inside with
    | [.parameter ['@'] .plain []] =>
      if setting.splits then parts setting false inside
      else return .quotes :: (← parts setting false inside)
    | _ => return .quotes :: (← parts setting false inside)
  | .output command => return [← outputRun run setting command]
  | .arithmetic expression => do
    let text := Run.text (← parts .arithmetic false expression)
    let result := Raw.integer (← calculate text)
    return [{ Run.kept result setting.inQuotes with splitting := setting.splitting }]
  | .parameter name use word => do
    let state ← get
    let value := value? state setting name
    let found (value : Raw) : Act (List Run) := return [valueRun (← get) setting name value]
    let usable (colon : Bool) : Option Raw := value.filter fun value => !(colon && value.isEmpty)
    match use with
    | .plain =>
      match value with
      | some value => found value
      | none => do
        checkUnset name
        return []
    | .length =>
      if value.isNone then checkUnset name
      let length := Raw.decimal (value.getD []).length
      return [{ Run.kept length setting.inQuotes with splitting := setting.splitting }]
    | .fallback colon =>
      match usable colon with
      | some value => found value
      | none => parts setting.inPlace true word
    | .replace colon =>
      match usable colon with
      | some _ => parts setting.inPlace true word
      | none => return []
    | .assign colon =>
      match usable colon with
      | some value => found value
      | none => do
        let text := Run.text (← parts { setting with splits := false, tilde := .atStart } true word)
        Act.assignNamed name text false
        found text
    | .require colon =>
      match usable colon with
      | some value => found value
      | none => do
        let text := Run.text (← parts { setting with splits := false, tilde := .atStart } true word)
        failUnset name (if word.isEmpty then none else some text) colon
    | .trim atEnd longest =>
      match value with
      | none => do
        checkUnset name
        return []
      | some value => do
        let pattern := Run.marks (← parts .text true word)
        found (Pattern.trim atEnd longest pattern value)
    | .bad => Act.fail "Bad substitution".toList

end

/-! ## Words -/

/-- A word that is not split. -/
def text (setting : Setting) (word : Word) : Act Raw :=
  return Run.text (← parts run setting true word)

def pattern (word : Word) : Act (List Mark) := return Run.marks (← parts run .text true word)

def separators (state : State) : Raw := (state.value? "IFS".toList).getD [' ', '\t', '\n']

/-- The paths that a field matches, or its text if there are none. -/
def matching (state : State) (glyphs : List Glyph) : List Raw :=
  let marks := glyphs.filterMap fun
    | .char mark => some mark
    | .quotes => none
  let paths := if state.isSet "noglob" then [] else Globbing.paths state.disk marks
  if paths.isEmpty then [marks.map (·.char)] else paths

/-- The fields of a word of a command. -/
def fields (word : Word) : Act (List Raw) := do
  let runs ← parts run .field true word
  let state ← get
  return (Fields.split (separators state) none runs).flatMap (matching state)

end Expand

end ProvideIndex.Shell
