import ProvideIndex.Programs.Basic
import ProvideIndex.Programs.Quoted
import ProvideIndex.Text.Digits

/-!
# Changing modes

`chmod` changes who may read, write and run files. A mode is an octal number, or a list of changes
such as `u+x,go=r`.
-/

namespace ProvideIndex.Program.ChangeMode

def allBits : Nat := 0o7777

/-- The bits of `n` that are not in `bits`. -/
def without (n bits : Nat) : Nat := Nat.xor n (Nat.land n bits)

/-! ## Changes -/

inductive Source where
  /-- Bits that are named. -/
  | bits
  /-- What some already have. -/
  | existing
  /-- Bits that are named, and those to run if anyone may run. -/
  | runIfAny
  deriving DecidableEq, Repr

structure Change where
  operator : Char
  source : Source
  /-- The bits of those whose permissions change; none if nobody was named. -/
  affected : Nat
  value : Nat
  mentioned : Nat
  deriving Repr

def isOctal (c : Char) : Bool := '0' ≤ c && c ≤ '7'

/-- An octal number of at most four digits that count. -/
def octal? (digits : Raw) : Option Nat :=
  (Text.number? 8 digits).bind fun n => if n ≤ allBits then some n else none

/-- The bits of those that a letter names. -/
def affectedBy? : Char → Option Nat
  | 'u' => some 0o4700
  | 'g' => some 0o2070
  | 'o' => some 0o1007
  | 'a' => some allBits
  | _ => none

def permission? : Char → Option Nat
  | 'r' => some 0o444
  | 'w' => some 0o222
  | 'x' => some 0o111
  | 'X' => some 0
  | 's' => some 0o6000
  | 't' => some 0o1000
  | _ => none

def existing? : Char → Option Nat
  | 'u' => some 0o700
  | 'g' => some 0o070
  | 'o' => some 0o007
  | _ => none

def isOperator (c : Char) : Bool := c == '=' || c == '+' || c == '-'

def union (bits : List Nat) : Nat := bits.foldl Nat.lor 0

/-- The change after an operator, and what follows it. -/
def change? (affected : Nat) (operator : Char) (text : Raw) : Option (Change × Raw) :=
  let digits := text.takeWhile isOctal
  if !digits.isEmpty then do
    let value ← octal? digits
    let rest := text.dropWhile isOctal
    if affected ≠ 0 ∨ !(rest.isEmpty || rest.head? == some ',') then none
    else return (⟨operator, .bits, allBits, value, allBits⟩, rest)
  else
    let mentioned (value : Nat) : Nat := if affected = 0 then value else Nat.land affected value
    match text.head?.bind existing? with
    | some value => some (⟨operator, .existing, affected, value, mentioned value⟩, text.tail)
    | none =>
      let letters := text.takeWhile fun c => (permission? c).isSome
      let value := union (letters.filterMap permission?)
      let source := if letters.contains 'X' then .runIfAny else .bits
      some (⟨operator, source, affected, value, mentioned value⟩, text.drop letters.length)

/-- The changes of one clause. `fuel` bounds their number. -/
def clauseFrom (affected : Nat) : Nat → Raw → Option (List Change × Raw)
  | 0, _ => none
  | fuel + 1, text => do
    let operator ← text.head?
    if !isOperator operator then none
    else
      let (change, rest) ← change? affected operator text.tail
      if rest.head?.any isOperator then
        let (changes, last) ← clauseFrom affected fuel rest
        return (change :: changes, last)
      else return ([change], rest)

/-- The changes of clauses between commas. `fuel` bounds their number. -/
def clausesFrom : Nat → Raw → Option (List Change)
  | 0, _ => none
  | fuel + 1, text => do
    let who := text.takeWhile fun c => (affectedBy? c).isSome
    let affected := union (who.filterMap affectedBy?)
    let (changes, rest) ← clauseFrom affected (text.length + 1) (text.drop who.length)
    match rest with
    | [] => return changes
    | ',' :: rest => return changes ++ (← clausesFrom fuel rest)
    | _ => none

def changes? (text : Raw) : Option (List Change) :=
  if text.head?.any isOctal then do
    if !text.all isOctal then none
    else
      let value ← octal? text
      let mentioned :=
        if text.length < 5 then Nat.lor (Nat.land value 0o6000) 0o1777 else allBits
      return [⟨'=', .bits, allBits, value, mentioned⟩]
  else clausesFrom (text.length + 1) text

/-- The bits of some in the places of all three. -/
def spread (bits : Nat) : Nat :=
  union ([0o444, 0o222, 0o111].map fun all => if Nat.land bits all = 0 then 0 else all)

def Change.apply (isDirectory : Bool) (mask mode : Nat) (change : Change) : Nat :=
  let omitted := if isDirectory then without 0o6000 change.mentioned else 0
  let named := match change.source with
    | .bits => change.value
    | .existing => spread (Nat.land change.value mode)
    | .runIfAny =>
      if isDirectory || Nat.land mode 0o111 ≠ 0 then Nat.lor change.value 0o111 else change.value
  let limit := if change.affected = 0 then without allBits mask else change.affected
  let value := without (Nat.land named limit) omitted
  match change.operator with
  | '=' =>
    let others := if change.affected = 0 then 0 else without allBits change.affected
    Nat.lor (Nat.land mode (Nat.lor others omitted)) value
  | '+' => Nat.lor mode value
  | _ => without mode value

def adjusted (changes : List Change) (isDirectory : Bool) (mask mode : Nat) : Nat :=
  changes.foldl (Change.apply isDirectory mask) mode

/-! ## Messages -/

def fourDigits (mode : Nat) : Raw :=
  let digits := Nat.toDigits 8 mode
  List.replicate (4 - digits.length) '0' ++ digits

/-- The nine letters of a mode. -/
def lettersOf (mode : Nat) : Raw :=
  let bit (n : Nat) : Bool := mode.testBit n
  let triple (shift : Nat) (special : Bool) (letter : Char) : Raw :=
    [if bit (shift + 2) then 'r' else '-', if bit (shift + 1) then 'w' else '-',
      match special, bit shift with
      | true, true => letter
      | true, false => letter.toUpper
      | false, true => 'x'
      | false, false => '-']
  triple 6 (bit 11) 's' ++ triple 3 (bit 10) 's' ++ triple 0 (bit 9) 't'

def described (mode : Nat) : Raw := fourDigits mode ++ " (".toList ++ lettersOf mode ++ [')']

/-! ## The program -/

structure Style where
  quiet : Bool
  verbose : Bool
  onlyChanges : Bool
  recursive : Bool
  keepRoot : Bool
  /-- Whether the mode looked like an option. -/
  checksMask : Bool

/-- What the arguments ask for. -/
structure Request where
  letters : List Char
  /-- Modes that look like options. -/
  modes : List Raw
  reference : Option Raw
  operands : List Raw

def letters : List Char := "Rcfv".toList

/-- The letter of the option that takes its mode from another file. -/
def referenceLetter : Char := 'F'

def names : List (String × Char) :=
  [("changes", 'c'), ("recursive", 'R'), ("no-preserve-root", 'n'), ("preserve-root", 'p'),
    ("quiet", 'f'), ("reference", referenceLetter), ("silent", 'f'), ("verbose", 'v')] ++
    accountNames

/-- Letters of options that are modes. -/
def isModeLetter (c : Char) : Bool := "rwxXstugoa,+=01234567".toList.contains c

/-- The options in an argument of letters; at one that begins a mode the whole argument is one. -/
def shortOptions : Raw → Except Unknown (List Char × Bool)
  | [] => .ok ([], false)
  | c :: rest =>
    if isModeLetter c then .ok ([], true)
    else if !letters.contains c then .error (.letter c)
    else do
      let (more, isMode) ← shortOptions rest
      return (c :: more, isMode)

/-- What the arguments ask for. `fuel` bounds their number. -/
def requestFrom : Nat → List Raw → Except Unknown Request
  | 0, _ | _, [] => .ok ⟨[], [], none, []⟩
  | fuel + 1, argument :: arguments =>
    match argument with
    | ['-', '-'] => .ok ⟨[], [], none, arguments⟩
    | '-' :: '-' :: text => do
      let (name, letter) ← longOption names argument
      let value := (text.dropWhile (· != '=')).tail?
      if letter == referenceLetter then
        match value, arguments with
        | some file, _ => do
          let more ← requestFrom fuel arguments
          return { more with reference := more.reference.or (some file) }
        | none, file :: arguments => do
          let more ← requestFrom fuel arguments
          return { more with reference := more.reference.or (some file) }
        | none, [] => throw (.noValue name)
      else if value.isSome then throw (.value name)
      else if letter == accountLetter then return ⟨[letter], [], none, []⟩
      else
        let more ← requestFrom fuel arguments
        return { more with letters := letter :: more.letters }
    | '-' :: c :: rest => do
      let (found, isMode) ← shortOptions (c :: rest)
      let more ← requestFrom fuel arguments
      return { more with
        letters := found ++ more.letters
        modes := if isMode then argument :: more.modes else more.modes }
    | _ => do
      let more ← requestFrom fuel arguments
      return { more with operands := argument :: more.operands }

def request (arguments : List Raw) : Except Unknown Request :=
  requestFrom arguments.length arguments

def report (style : Style) (path : Raw) (old new : Nat) : Job Unit :=
  let shown := "mode of ".toList ++ Quoted.forShell path
  if old ≠ new ∧ (style.verbose ∨ style.onlyChanges) then
    Job.print (shown ++ " changed from ".toList ++ described old ++ " to ".toList ++
      described new ++ ['\n'])
  else if style.verbose then
    Job.print (shown ++ " retained as ".toList ++ described old ++ ['\n'])
  else return

def changeAt (call : Call) (style : Style) (changes : List Change) (path : Raw)
    (location : Location) : Job Unit := do
  let disk ← Job.disk
  let old := disk.mode location
  let isDirectory := disk.isDirectory location
  let new := adjusted changes isDirectory call.mask old
  let naive := adjusted changes isDirectory 0 old
  Job.setDisk (disk.setMode location new)
  report style path old new
  if style.checksMask && without new naive ≠ 0 then
    Job.complain call (Quoted.beforeColon path ++ ": new permissions are ".toList ++
      lettersOf new ++ ", not ".toList ++ lettersOf naive)

/-- Changes what is in a directory, too. `fuel` bounds the depth. -/
def changeTree (call : Call) (style : Style) (changes : List Change) (path : Raw)
    (location : Location) : Nat → Job Unit
  | 0 => return
  | fuel + 1 => do
    changeAt call style changes path location
    let disk ← Job.disk
    let base := (path.reverse.dropWhile (· == '/')).reverse
    (disk.children location).forM fun child =>
      let below := base ++ '/' :: Raw.encode child
      match disk.entryAt? (location ++ [child]) with
      | some .directory =>
        changeTree call style changes below (location ++ [child]) fuel
      | some (.link _) =>
        if style.verbose then
          Job.print ("neither symbolic link ".toList ++ Quoted.forShell below ++
            " nor referent has been changed\n".toList)
        else return
      | _ => changeAt call style changes below (location ++ [child])

def isDanglingLink (disk : Disk) (path : Raw) : Bool :=
  match disk.locate .target (Raw.decode path) with
  | .error (.system .notFound) => (disk.locate .entry (Raw.decode path)).isOk
  | _ => false

def changeOne (call : Call) (style : Style) (changes : List Change) (path : Raw) : Job Unit := do
  let disk ← Job.disk
  match disk.locate .target (Raw.decode path) with
  | .ok location =>
    if style.recursive && style.keepRoot && location.isEmpty then
      Job.complain call "it is dangerous to operate recursively on \x27/\x27".toList
      Job.complain call "use --no-preserve-root to override this failsafe".toList
    else if style.recursive && disk.isDirectory location then
      changeTree call style changes path location (disk.entries.length + 1)
    else changeAt call style changes path location
  | .error fault => do
    let shown := Quoted.forShell path
    if style.quiet then Job.exitWith 1
    else if isDanglingLink disk path then
      Job.complain call ("cannot operate on dangling symlink ".toList ++ shown)
    else
      Job.complain call
        ("cannot access ".toList ++ shown ++ Raw.encode (": " ++ fault.plainText))
    if style.verbose then Job.print (shown ++ " could not be accessed\n".toList)

/-- The mode of another file, as a change. -/
def modeOfFile (disk : Disk) (path : Raw) : Except FileFault (List Change) := do
  let location ← disk.locate .target (Raw.decode path)
  return [⟨'=', .bits, allBits, disk.mode location, allBits⟩]

def changeAll (call : Call) (style : Style) (changes : List Change) (paths : List Raw) : Job Unit :=
  paths.forM (changeOne call style changes)

def serve (call : Call) (request : Request) : Job Unit := do
  let lastOf (group : List Char) : Option Char :=
    request.letters.reverse.find? group.contains
  let style : Style :=
    { quiet := request.letters.contains 'f'
      verbose := lastOf ['c', 'v'] == some 'v'
      onlyChanges := lastOf ['c', 'v'] == some 'c'
      recursive := request.letters.contains 'R'
      keepRoot := lastOf ['n', 'p'] == some 'p'
      checksMask := !request.modes.isEmpty }
  match request.reference, request.modes, request.operands with
  | some _, _ :: _, _ =>
    Job.misuse call "cannot combine mode and --reference options".toList
  | _, _, [] => Job.misuse call "missing operand".toList
  | some file, [], paths =>
    match modeOfFile (← Job.disk) file with
    | .ok changes => changeAll call style changes paths
    | .error fault =>
      Job.complain call ("failed to get attributes of ".toList ++ Quoted.forShell file ++
        Raw.encode (": " ++ fault.plainText))
  | none, [], [mode] =>
    Job.misuse call ("missing operand after ".toList ++ Quoted.withBackslashes mode)
  | none, modes, operands =>
    let (mode, paths) := match modes, operands with
      | [], mode :: paths => (mode, paths)
      | _, _ => ([','].intercalate modes, operands)
    match changes? mode with
    | some changes => changeAll call style changes paths
    | none => Job.misuse call ("invalid mode: ".toList ++ Quoted.withBackslashes mode)

def run : Program := Job.program fun call =>
  match request call.arguments with
  | .error unknown => Job.misuse call unknown.text
  | .ok request => if request.letters.contains accountLetter then return else serve call request

end ProvideIndex.Program.ChangeMode
