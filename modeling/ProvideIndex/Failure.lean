/-!
# Failures

The causes that end a run early, each with the path or the command that it concerns.
-/

namespace ProvideIndex

/-- What was tried on a path when the file system refused. -/
inductive FileAction where
  | read | walk | write
  deriving DecidableEq, Repr

def FileAction.verb : FileAction → String
  | read => "read"
  | walk => "walk"
  | write => "write"

inductive Failure where
  | outputNotAbsolute (path : String)
  | anchorNotFound (path : String)
  | rootNotFound (path : String)
  | fileSystem (action : FileAction) (path cause : String)
  | formatterNotStarted (command cause : String)
  deriving DecidableEq, Repr

def Failure.message : Failure → String
  | outputNotAbsolute path => "output path must be absolute: " ++ path
  | anchorNotFound path => "anchor file not found: " ++ path
  | rootNotFound path => "scan root not found: " ++ path
  | fileSystem action path cause => "failed to " ++ action.verb ++ " " ++ path ++ ": " ++ cause
  | formatterNotStarted command cause =>
    "failed to run canonicalizer \x60" ++ command ++ "\x60: " ++ cause

end ProvideIndex
