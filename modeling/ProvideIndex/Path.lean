import ProvideIndex.Text.Split

/-!
# Paths as texts

A path is kept as it is written. Its parts are the names between slashes; empty parts and the part
`.` name nothing, except that a slash or a `.` at the very start is a part of its own. A part `..`
is never resolved.
-/

namespace ProvideIndex.Path

def isAbsolute (path : String) : Bool := Text.startsWith ['/'] path.toList

/-- A part that names nothing. -/
def isIdle (part : List Char) : Bool := part == [] || part == ['.']

def dropIdleEnd (parts : List (List Char)) : List (List Char) :=
  (parts.reverse.dropWhile isIdle).reverse

/--
The parts of a path from its leading part on: the root of an absolute path (written as an empty
part), a leading `.`, or nothing.
-/
def leadAndBody (path : List Char) : List (List Char) × List (List Char) :=
  match Text.split '/' path with
  | first :: parts =>
    if isIdle first && path != [] then ([first], parts) else ([], first :: parts)
  | [] => ([], [])

/-- A path from its leading part and its other parts; a lone root is a slash. -/
def ofParts (lead body : List (List Char)) : List Char :=
  if lead == [[]] && body == [] then ['/'] else Text.join '/' (lead ++ body)

/-- The path without its last part; the root and the empty path have none. -/
def parent? (path : String) : Option String :=
  let (lead, body) := leadAndBody path.toList
  match dropIdleEnd body with
  | [] => if lead == [['.']] then some "" else none
  | parts => some (String.ofList (ofParts lead (dropIdleEnd parts.dropLast)))

/-- The last part, if it is a name. -/
def fileName? (path : String) : Option String :=
  let (_, body) := leadAndBody path.toList
  match (dropIdleEnd body).getLast? with
  | some name => if name == ['.', '.'] then none else some (String.ofList name)
  | none => none

/-- A path below another; an absolute one stands for itself. -/
def join (base path : String) : String :=
  if isAbsolute path then path
  else if base == "" || Text.endsWith ['/'] base.toList then base ++ path
  else base ++ "/" ++ path

end ProvideIndex.Path
