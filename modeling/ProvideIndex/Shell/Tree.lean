import ProvideIndex.Raw

/-!
# Scripts

A script is a tree of commands. Words are made of parts, which stand for texts only when the command
is run. The texts that follow a line with `<<` are kept apart from the commands, by numbers.
-/

namespace ProvideIndex.Shell

/-- What is made of the value of a parameter. -/
inductive Use where
  | plain
  | length
  /-- A word in place of a value that is missing; with a colon an empty one counts as missing. -/
  | fallback (colon : Bool)
  /-- The same word, which becomes the value. -/
  | assign (colon : Bool)
  /-- A complaint about a value that is missing. -/
  | require (colon : Bool)
  /-- A word in place of a value that is there. -/
  | replace (colon : Bool)
  /-- The value without what a pattern matches at one of its ends. -/
  | trim (atEnd longest : Bool)
  /-- What has no meaning. -/
  | bad
  deriving DecidableEq, Repr

/-- How a redirection opens a file. -/
inductive Opening where
  | read
  | readWrite
  | write
  /-- Writes even where files are kept from being overwritten. -/
  | overwrite
  | append
  deriving DecidableEq, Repr

mutual

inductive Part where
  | literal (text : Raw)
  | quoted (text : Raw)
  | doubleQuoted (parts : List Part)
  | parameter (name : Raw) (use : Use) (word : List Part)
  /-- The output of a command. -/
  | output (command : Option Command)
  | arithmetic (expression : List Part)

inductive Redirection where
  | file (descriptor : Nat) (opening : Opening) (path : List Part)
  /-- A descriptor becomes a copy of another; a dash closes it. -/
  | copy (descriptor : Nat) (source : List Part)
  /-- The text of a number is what the descriptor reads. -/
  | document (descriptor number : Nat)

inductive Command where
  | simple (line : Nat) (assignments : List (Raw × List Part)) (words : List (List Part))
      (redirections : List Redirection)
  | pipeline (commands : List Command) (inBackground : Bool)
  | redirected (line : Nat) (body : Command) (redirections : List Redirection)
  | background (body : Command)
  | subshell (line : Nat) (body : Option Command) (redirections : List Redirection)
  | both (first second : Command)
  | either (first second : Command)
  | sequence (first second : Command)
  | conditional (test : Option Command) (thenPart elsePart : Option Command)
  | loop (untilTrue : Bool) (test body : Option Command)
  | forEach (line : Nat) (name : Raw) (words : List (List Part)) (body : Option Command)
  | choose (line : Nat) (word : List Part) (cases : List (List (List Part) × Option Command))
  | define (line : Nat) (name : Raw) (body : Command)
  | negated (body : Command)

end

abbrev Word := List Part

/-- The texts after lines with `<<`. -/
abbrev Documents := List (Nat × Word)

end ProvideIndex.Shell
