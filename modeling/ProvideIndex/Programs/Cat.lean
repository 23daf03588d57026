import ProvideIndex.Programs.Basic
import ProvideIndex.Programs.Quoted

/-!
# Printing files

`cat` prints files one after the other, or its input. Its options number the lines, drop repeated
empty lines, and make characters visible that do not show.
-/

namespace ProvideIndex.Program.Cat

structure Style where
  /-- Numbers for all lines. -/
  numbered : Bool
  /-- Numbers for lines that are not empty. -/
  numberedUnlessEmpty : Bool
  squeezed : Bool
  showEnds : Bool
  showTabs : Bool
  showControls : Bool

def letters : List Char := "AbeEnstTuv".toList

def names : List (String × Char) :=
  [("number-nonblank", 'b'), ("number", 'n'), ("squeeze-blank", 's'), ("show-nonprinting", 'v'),
    ("show-ends", 'E'), ("show-tabs", 'T'), ("show-all", 'A')] ++ accountNames

def Style.ofLetters (letters : List Char) : Style where
  numberedUnlessEmpty := letters.contains 'b'
  numbered := letters.contains 'n' || letters.contains 'b'
  squeezed := letters.contains 's'
  showEnds := letters.any "AEe".toList.contains
  showTabs := letters.any "ATt".toList.contains
  showControls := letters.any "Aetv".toList.contains

/-- Whether files are printed as they are. -/
def Style.isPlain (style : Style) : Bool :=
  !(style.numbered || style.squeezed || style.showEnds || style.showTabs || style.showControls)

/-- Where printing has come to. -/
structure Progress where
  /-- The number of the last line with a number. -/
  number : Nat
  /-- How many line ends came last, up to two; none inside a line. -/
  lineEnds : Option Nat

def Progress.start : Progress := ⟨0, some 0⟩

def lineNumber (n : Nat) : Raw :=
  let digits := Raw.decimal n
  List.replicate (6 - digits.length) ' ' ++ digits ++ ['\t']

/-- A character with the marks that make it visible. -/
def visible (style : Style) (c : Char) : Raw :=
  let n := c.toNat
  let plain (n : Nat) : Raw :=
    if n == 0x7f then ['^', '?']
    else if n < 0x20 then ['^', Char.ofNat (n + 0x40)]
    else [Char.ofNat n]
  if c == '\t' then if style.showTabs then ['^', 'I'] else [c]
  else if !style.showControls then [c]
  else if 0x80 ≤ n then ['M', '-'] ++ plain (n - 0x80)
  else plain n

/-- Prints a text. -/
def print (style : Style) (progress : Progress) : Raw → Raw × Progress
  | [] => ([], progress)
  | '\n' :: rest =>
    let count := match progress.lineEnds with
      | none => 0
      | some n => min 2 (n + 1)
    if style.squeezed && count == 2 then print style { progress with lineEnds := some 2 } rest
    else
      let hasNumber := 0 < count && style.numbered && !style.numberedUnlessEmpty
      let number := if hasNumber then progress.number + 1 else progress.number
      let (more, last) := print style ⟨number, some count⟩ rest
      let line := (if hasNumber then lineNumber number else []) ++
        (if style.showEnds then ['$'] else []) ++ ['\n']
      (line ++ more, last)
  | c :: rest =>
    let hasNumber := progress.lineEnds.isSome && style.numbered
    let number := if hasNumber then progress.number + 1 else progress.number
    let (more, last) := print style ⟨number, none⟩ rest
    let endsLine := c == '\r' && style.showEnds && rest.head? == some '\n'
    let text := if endsLine then ['^', 'M'] else visible style c
    ((if hasNumber then lineNumber number else []) ++ text ++ more, last)

/-- The contents of a file; a dash means the input. -/
def contents (call : Call) (path : Raw) : Job (Except FileFault Raw) := do
  if path = ['-'] then return (← Job.readAll call).mapError .system
  else
    return ((← Job.disk).readBytes (Raw.decode path)).map fun bytes => Raw.ofBytes bytes.toList

/-- Whether a file would be printed to itself, behind what is read of it. -/
def isOutput (call : Call) (path : Raw) (disk : Disk) : Bool :=
  match call.output, disk.locate .target (Raw.decode path) with
  | .file location offset, .ok source => location == source && 0 < offset
  | _, _ => false

def printAll (call : Call) (style : Style) : Progress → List Raw → Job Unit
  | _, [] => return
  | progress, path :: paths => do
    let name := Quoted.beforeColon path
    if isOutput call path (← Job.disk) then
      Job.complain call (name ++ ": input file is output file".toList)
      printAll call style progress paths
    else
      match ← contents call path with
      | .ok text => do
        let (text, next) := if style.isPlain then (text, progress) else print style progress text
        Job.print text
        printAll call style next paths
      | .error fault => do
        Job.complain call (name ++ ": ".toList ++ Raw.encode fault.plainText)
        printAll call style progress paths

def run : Program := Job.program fun call =>
  match options letters names call.arguments with
  | .error unknown => Job.misuse call unknown.text
  | .ok options =>
    if options.letters.contains accountLetter then return
    else if call.output = .closed then
      Job.complain call "standard output: Bad file descriptor".toList
    else do
      let paths := if options.operands.isEmpty then [['-']] else options.operands
      printAll call (.ofLetters options.letters) .start paths
      if paths.contains ['-'] && call.input matches .error .badDescriptor then
        Job.complain call "closing standard input: Bad file descriptor".toList

end ProvideIndex.Program.Cat
