import ProvideIndex.Programs.Basic
import ProvideIndex.Programs.Quoted

/-!
# Removing files

`rm` removes files, and with its options also empty directories or directories with all they hold.
-/

namespace ProvideIndex.Program.Remove

/-- When it is asked before files are removed; without an answer nothing is removed. -/
inductive Asking where
  | always | once | never
  /-- Files without a name for it are asked about. -/
  | unspecified
  deriving DecidableEq, Repr

structure Style where
  force : Bool
  asking : Asking
  recursive : Bool
  emptyDirectories : Bool
  verbose : Bool
  keepRoot : Bool

def letters : List Char := "dfiIrRv".toList

def names : List (String × Char) :=
  [("dir", 'd'), ("force", 'f'), ("recursive", 'r'), ("verbose", 'v'), ("interactive", 'i'),
    ("one-file-system", 'x'), ("no-preserve-root", 'n'), ("preserve-root", 'p')] ++ accountNames

/-- Of force and questions the option that comes last counts. -/
def Style.ofLetters (letters : List Char) : Style where
  force := (letters.reverse.find? "fiI".toList.contains) == some 'f'
  asking := match letters.reverse.find? "fiI".toList.contains with
    | some 'f' => .never
    | some 'i' => .always
    | some 'I' => .once
    | _ => .unspecified
  recursive := letters.contains 'r' || letters.contains 'R'
  emptyDirectories := letters.contains 'd'
  verbose := letters.contains 'v'
  keepRoot := (letters.reverse.find? "np".toList.contains) != some 'n'

def refuse (call : Call) (path : Raw) (cause : String) : Job Unit :=
  Job.complain call
    ("cannot remove ".toList ++ Quoted.forShell path ++ Raw.encode (": " ++ cause))

def remove (style : Style) (kind : String) (path : Raw) (location : Location) : Job Unit := do
  Job.setDisk ((← Job.disk).remove location)
  if style.verbose then
    Job.print ("removed ".toList ++ kind.toList ++ Quoted.forShell path ++ ['\n'])

/-- A question on standard error, which nobody answers. -/
def ask (call : Call) (text : Raw) : Job Unit := modify fun done =>
  let question := call.name ++ ": ".toList ++ text ++ "? ".toList
  { done with printed := done.printed ++ [.complaint question] }

def kindOf (disk : Disk) (location : Location) : String :=
  match disk.entryAt? location with
  | some .directory => "directory"
  | some (.link _) => "symbolic link"
  | some (.file contents) => if contents.isEmpty then "regular empty file" else "regular file"
  | some .sink => "character special file"
  | _ => "regular file"

def withoutSlashes (path : Raw) : Raw := (path.reverse.dropWhile (· == '/')).reverse

/-- Removes a directory with all it holds. `fuel` bounds the depth. -/
def removeTree (style : Style) (path : Raw) (location : Location) : Nat → Job Unit
  | 0 => Job.exitWith 1
  | fuel + 1 => do
    let disk ← Job.disk
    match disk.entryAt? location with
    | some .directory => do
      (disk.children location).forM fun child =>
        removeTree style (withoutSlashes path ++ '/' :: Raw.encode child) (location ++ [child]) fuel
      remove style "directory " path location
    | _ => remove style "" path location

/-- Whether the last step of a path is `.` or `..`. -/
def endsInDots (path : Raw) : Bool :=
  let last := ((withoutSlashes path).reverse.takeWhile (· != '/')).reverse
  last == ['.'] || last == ['.', '.']

/-- Whether a path is a link with a slash after it. -/
def isLinkWithSlash (disk : Disk) (path : Raw) : Bool :=
  match path.getLast?, disk.locate .entry (Raw.decode (withoutSlashes path)) with
  | some '/', .ok location => (disk.entryAt? location matches some (.link _))
  | _, _ => false

def removeDirectory (call : Call) (style : Style) (path : Raw) (location : Location) :
    Job Unit := do
  let disk ← Job.disk
  let isEmpty := (disk.children location).isEmpty
  if !style.recursive && !style.emptyDirectories then
    refuse call path SystemFault.isDirectory.text
  else if location.isEmpty && style.recursive && style.keepRoot then
    Job.complain call "it is dangerous to operate recursively on \x27/\x27".toList
    Job.complain call "use --no-preserve-root to override this failsafe".toList
  else if style.recursive && endsInDots path then
    Job.complain call ("refusing to remove \x27.\x27 or \x27..\x27 directory: skipping ".toList ++
      Quoted.forShell path)
  else if !style.recursive && !isEmpty then refuse call path "Directory not empty"
  else if endsInDots path then refuse call path "Invalid argument"
  else if style.asking = .always then
    let verb := if isEmpty then "remove directory " else "descend into directory "
    ask call (verb.toList ++ Quoted.forShell path)
  else if style.recursive && isLinkWithSlash disk path then
    (disk.children location).forM fun child =>
      removeTree style (path ++ Raw.encode child) (location ++ [child]) (disk.entries.length + 1)
    refuse call path SystemFault.notDirectory.text
  else removeTree style path location (disk.entries.length + 1)

def removeOne (call : Call) (style : Style) (path : Raw) : Job Unit := do
  let disk ← Job.disk
  match disk.locate .entry (Raw.decode path) with
  | .error fault =>
    let isMissing := fault == .system .notFound || fault == .system .notDirectory
    if style.force && isMissing then return else refuse call path fault.plainText
  | .ok location =>
    if disk.isDirectory location then removeDirectory call style path location
    else if style.asking = .always then
      ask call ("remove ".toList ++ (kindOf disk location).toList ++ ' ' :: Quoted.forShell path)
    else
      match disk.removeFile (Raw.decode path) with
      | .ok _ => remove style "" path location
      | .error fault => refuse call path fault.plainText

/-- What is asked once, before many files or whole directories are removed. -/
def askOnce (call : Call) (style : Style) (count : Nat) : Job Unit :=
  let noun := if count = 1 then "argument" else "arguments"
  let tail := if style.recursive then " recursively" else ""
  ask call (("remove " ++ toString count ++ " " ++ noun ++ tail).toList)

/-- The letters for the values of the option that says when to ask. -/
def interactiveValues : List (String × Char) :=
  [("never", 'f'), ("no", 'f'), ("none", 'f'), ("once", 'I'), ("always", 'i'), ("yes", 'i')]

/-- The letter for a value, which may be shortened as long as it stays clear. -/
def interactive? (value : Raw) : Option Char :=
  match interactiveValues.find? fun entry => entry.1.toList == value with
  | some entry => some entry.2
  | none =>
    match interactiveValues.filter fun entry => value.isPrefixOf entry.1.toList with
    | [] => none
    | entry :: entries => if entries.all (·.2 == entry.2) then some entry.2 else none

/-- The value of the option that says when to ask, if an argument is that option. -/
def interactiveValue? (argument : Raw) : Option Raw :=
  match argument.span (· != '=') with
  | (name, '=' :: value) =>
    if "--i".toList.isPrefixOf name && name.isPrefixOf "--interactive".toList then some value
    else none
  | _ => none

/-- Writes the option that says when to ask as a letter. -/
def shortened (argument : Raw) : Raw :=
  match (interactiveValue? argument).bind interactive? with
  | some letter => ['-', letter]
  | none => argument

/-- A value that the option does not have. -/
def wrongValue? (arguments : List Raw) : Option Raw :=
  ((arguments.takeWhile (· != ['-', '-'])).filterMap interactiveValue?).find? fun value =>
    (interactive? value).isNone

/-- Lists the values that the option has. -/
def refuseValue (call : Call) (value : Raw) : Job Unit := do
  let isUnclear := interactiveValues.any fun entry => value.isPrefixOf entry.1.toList
  let kind := if isUnclear then "ambiguous" else "invalid"
  Job.complain call (kind.toList ++ " argument ".toList ++ Quoted.withBackslashes value ++
    " for \x27--interactive\x27".toList)
  let values := "Valid arguments are:\n  - \x27never\x27, \x27no\x27, \x27none\x27\n" ++
    "  - \x27once\x27\n  - \x27always\x27, \x27yes\x27\n"
  modify fun done => { done with printed := done.printed ++ [.complaint values.toList] }
  Job.pointToHelp call

/-- Points out a file whose name looks like an option. -/
def adviseOn (call : Call) : Job Unit := do
  let disk ← Job.disk
  let isFile (argument : Raw) : Bool :=
    ['-'].isPrefixOf argument && argument.length > 1 &&
      (disk.locate .entry (Raw.decode ("./".toList ++ argument))).isOk
  match call.arguments.find? isFile with
  | some argument =>
    let advice := "Try \x27".toList ++ call.name ++ " ./".toList ++ argument ++
      "\x27 to remove the file ".toList ++ Quoted.forShell argument ++ ".\n".toList
    modify fun done => { done with printed := done.printed ++ [.complaint advice] }
  | none => return

def serve (call : Call) : Job Unit := do
  match options letters names (call.arguments.map shortened) with
  | .error unknown =>
    Job.complain call unknown.text
    adviseOn call
    Job.pointToHelp call
  | .ok options =>
    let style := Style.ofLetters options.letters
    let count := options.operands.length
    if options.letters.contains accountLetter then return
    else if count = 0 then
      if style.force then return else Job.misuse call "missing operand".toList
    else if style.asking = .once && (style.recursive || 3 < count) then askOnce call style count
    else options.operands.forM (removeOne call style)

def run : Program := Job.program fun call =>
  match wrongValue? call.arguments with
  | some value => refuseValue call value
  | none => serve call

end ProvideIndex.Program.Remove
