import ProvideIndex.CommandLine.Parse
import ProvideIndex.Text.Terminal

/-!
# What the command line answers

The help, the version, and the messages of refused command lines, each with a line on how the
program is used. Once parameters have been used, that line names the options among them. Names and
values are set apart for a terminal; what is answered is the visible text, so a value shows nothing
of its own sequences.
-/

namespace ProvideIndex.CommandLine

open Text.Terminal (highlighted visible)

def programName : String := "provmap"

def version : String := "0.1.0"

/-- The name by which the program was called. -/
def calledName (arguments : List String) : String :=
  (arguments.head?.bind Path.fileName?).getD programName

def positionalUsage : String := " ".intercalate (Parameter.positional.map (·.shown))

def optionsUsage : String := "[OPTIONS] " ++ positionalUsage

/-- How the program is used with some options. -/
def usageWith (options : List String) : String := " ".intercalate (options ++ [positionalUsage])

/-- The options among some parameters. -/
def optionsShown (used : List Parameter) : List String :=
  (used.filter fun parameter => !Parameter.positional.contains parameter).map (·.shown)

/-- How the program is used once some parameters have been used. -/
def usageAfter (used : List Parameter) : String :=
  if used.isEmpty then optionsUsage else usageWith (optionsShown used)

/-- All parameters as one group. -/
def groupUsage : String :=
  "<ANCHOR|OUTPUT|" ++
    "|".intercalate ([Parameter.formatter, .skipFormat, .manifest].map (·.shown)) ++ ">"

/-! ## Help -/

def spaces (count : Nat) : String := String.ofList (List.replicate count ' ')

/-- How many columns the terms take, for arguments and for options. -/
def argumentWidth : Nat := 10

def optionWidth : Nat := 29

/--
A line of the help: a term, which may be moved in, and what it means. More lines of the meaning
begin in the column of the first.
-/
def helpLine (width moved : Nat) (term meaning : String) : String :=
  let gap := spaces (width - moved - term.length)
  let lines := meaning.replace "\n" ("\n" ++ spaces (width + 2))
  spaces (moved + 2) ++ highlighted term ++ gap ++ lines ++ "\n"

/-- What the help says about the value of the formatter. -/
def formatterNotes (environment : Option String) : String :=
  "[env: PROVMAP_FORMATTER=" ++ environment.getD "" ++ "] [default: \"" ++
    Formatter.defaultCommand ++ "\"]"

def help (name : String) (environment : Option String) : String :=
  "Generate the provide-to-target table for a Closure Library checkout\n\n" ++
    "Usage: " ++ highlighted name ++ " " ++ optionsUsage ++ "\n\n" ++
    "Arguments:\n" ++
    helpLine argumentWidth 0 "<ANCHOR>"
      "Path to \x60closure/goog/base.js\x60 inside the source tree" ++
    helpLine argumentWidth 0 "<OUTPUT>" "Absolute path of the generated Go source file" ++
    "\nOptions:\n" ++
    helpLine optionWidth 4 "--formatter <FORMATTER>"
      ("Command run over the output file after it is written " ++ formatterNotes environment) ++
    helpLine optionWidth 4 "--skip-format" "Leave the output file exactly as rendered" ++
    helpLine optionWidth 4 "--manifest <PATH>"
      "Also write a YAML manifest of every library and its requires" ++
    helpLine optionWidth 0 "-h, --help" "Print help" ++
    helpLine optionWidth 0 "-V, --version" "Print version"

/-! ## Refusals -/

namespace Refusal

inductive Kind where
  | displayHelp
  | displayVersion
  | invalidValue
  | unknownArgument
  | argumentConflict
  | tooManyValues
  | missingRequiredArgument
  deriving DecidableEq, Repr

def kind : Refusal → Kind
  | help => .displayHelp
  | version => .displayVersion
  | missingValue _ => .invalidValue
  | repeated _ => .argumentConflict
  | unknownName .. | unknownLetter _ | extraValue _ => .unknownArgument
  | unneededValue .. => .tooManyValues
  | missing .. => .missingRequiredArgument

/-- Help and the version are answers, all else is an error. -/
def isError : Refusal → Bool
  | help | version => false
  | _ => true

def hint : String := "For more information, try \x27--help\x27.\n"

/-- A message with tips and a line on how the program is used, where there are any. -/
def layout (text : String) (tip usage : Option String) : String :=
  "error: " ++ text ++ "\n\n" ++
    (match tip with
      | some tip => "  tip: " ++ tip ++ "\n\n"
      | none => "") ++
    (match usage with
      | some usage => "Usage: " ++ usage ++ "\n\n"
      | none => "") ++
    hint

def unexpected (argument : String) : String :=
  "unexpected argument \x27" ++ highlighted argument ++ "\x27 found"

/-- The tip that an argument can be made a value. -/
def asValueTip (argument : String) : String :=
  "to pass \x27" ++ highlighted argument ++ "\x27 as a value, use \x27" ++
    highlighted ("-- " ++ argument) ++ "\x27"

/-- An unknown name; the name most similar to it counts as used. -/
def unknownNameText (program name : String) (used : List Parameter) : String :=
  let argument := "--" ++ name
  match mostSimilar? name (Switch.named.map (·.1)) with
  | some similar =>
    let meant := (Switch.named.lookup similar).toList.map (·.shown)
    let options := optionsShown used
    let others := meant.filter fun shown => !options.contains shown
    layout (unexpected argument)
      (some ("a similar argument exists: \x27--" ++ similar ++ "\x27"))
      (some (program ++ " " ++ usageWith (options ++ others)))
  | none =>
    layout (unexpected argument) (some (asValueTip argument))
      (some (program ++ " " ++ usageAfter used))

/--
A value for a switch without one; once anything was settled all parameters are shown as a group.
-/
def unneededValueText (program : String) (switch : Switch) (value : String) (settled : Bool) :
    String :=
  let isParameter := switch matches .valued _ | .flag _
  let usage :=
    if !settled then usageWith [switch.shown]
    else if isParameter then groupUsage
    else switch.shown ++ " " ++ groupUsage
  layout ("unexpected value \x27" ++ highlighted value ++ "\x27 for \x27" ++ switch.shown ++
      "\x27 found; no more were expected")
    none (some (program ++ " " ++ usage))

/-- The text of a refusal for a program called by a name, with what a terminal takes out. -/
def terminalText (name : String) (environment : Option String) (refusal : Refusal) : String :=
  let program := highlighted name
  match refusal with
  | help => CommandLine.help name environment
  | version => programName ++ " " ++ CommandLine.version ++ "\n"
  | missingValue parameter =>
    layout ("a value is required for \x27" ++ parameter.shown ++ "\x27 but none was supplied")
      none none
  | repeated parameter =>
    layout ("the argument \x27" ++ parameter.shown ++ "\x27 cannot be used multiple times")
      none (some (program ++ " " ++ optionsUsage))
  | unknownName name used => unknownNameText program name used
  | unknownLetter letter =>
    let argument := "-" ++ letter.toString
    layout (unexpected argument) (some (asValueTip argument))
      (some (program ++ " " ++ optionsUsage))
  | extraValue value => layout (unexpected value) none (some (program ++ " " ++ optionsUsage))
  | unneededValue switch value settled => unneededValueText program switch value settled
  | missing parameters used =>
    let lines := parameters.map fun parameter => "\n  " ++ parameter.shown
    layout ("the following required arguments were not provided:" ++ String.join lines)
      none (some (program ++ " " ++ usageWith (optionsShown used)))

/-- The text of a refusal for a program called by a name. -/
def text (name : String) (environment : Option String) (refusal : Refusal) : String :=
  visible (refusal.terminalText name environment)

end Refusal

end ProvideIndex.CommandLine
