import ProvideIndex.Disk.Files
import ProvideIndex.Shell.Pattern

/-!
# Paths that match a pattern

A pattern is matched step by step: up to the first step that can match several names it is a path,
and each name that matches there is gone on with. Names that begin with a point are matched only by
steps that begin with one.
-/

namespace ProvideIndex.Shell.Globbing

/-- Whether a bracket begins here that is closed again. -/
def beginsBracket (marks : List Mark) : Bool :=
  match marks with
  | first :: rest =>
    let inside := match rest with
      | c :: more => if Pattern.isPlain c '!' then more else rest
      | [] => []
    Pattern.isPlain first '[' && (inside.drop 1).any (Pattern.isPlain · ']')
  | [] => false

/-- Whether a step can match other names than itself. -/
def isOpen : List Mark → Bool
  | [] => false
  | mark :: rest =>
    Pattern.isPlain mark '*' || Pattern.isPlain mark '?' || beginsBracket (mark :: rest) ||
      isOpen rest

/-- The steps of a path, between its slashes. -/
def steps : List Mark → List (List Mark)
  | [] => [[]]
  | mark :: rest =>
    match steps rest with
    | step :: more => if mark.char == '/' then [] :: step :: more else (mark :: step) :: more
    | [] => [[mark]]

def textOf (step : List Mark) : Raw := step.map (·.char)

/-- The names in a directory that a step matches. -/
def names (disk : Disk) (directory : Raw) (step : List Mark) : List Raw :=
  let path := if directory.isEmpty then "." else Raw.decode directory
  match disk.locate .target path with
  | .ok location =>
    if !disk.isDirectory location then []
    else
      let all := ['.'] :: ['.', '.'] :: (disk.children location).map Raw.encode
      all.filter fun name =>
        (name.head? != some '.' || (step.head?.map (·.char)) == some '.') &&
          Pattern.isMatch step name
  | .error _ => []

/-- The paths that begin with `start` and go on as the steps match. -/
def pathsFrom (disk : Disk) (start : Raw) : List (List Mark) → List Raw
  | [] => []
  | [step] =>
    if isOpen step then (names disk start step).map (start ++ ·)
    else
      let path := start ++ textOf step
      if start.isEmpty || !(disk.locate .entry (Raw.decode path)).isOk then [] else [path]
  | step :: rest =>
    if isOpen step then
      (names disk start step).flatMap fun name => pathsFrom disk (start ++ name ++ ['/']) rest
    else pathsFrom disk (start ++ textOf step ++ ['/']) rest

/-- The paths that a pattern matches, in ascending order. -/
def paths (disk : Disk) (pattern : List Mark) : List Raw :=
  let steps := steps (Pattern.withoutBackslashes pattern)
  if steps.any isOpen then (pathsFrom disk [] steps).mergeSort Raw.isAtMost else []

end ProvideIndex.Shell.Globbing
