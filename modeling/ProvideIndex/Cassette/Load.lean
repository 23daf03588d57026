import ProvideIndex.Cassette.Text

/-!
# Loading a cassette

A cassette that is to be replayed comes from a file, which may be missing or hold something else.
-/

namespace ProvideIndex.Cassette

inductive LoadFault where
  | unreadable (path cause : String)
  | malformed (path : String)
  deriving DecidableEq, Repr

/-- What is said about a file that cannot be read. -/
def unreadableMessage (path cause : String) : String :=
  "Failed to read cassette file " ++ path ++ ": " ++ cause

/-- The cassette in the file at a path, from what reading the file brought. -/
def load (path : String) (content : Except String String) : Except LoadFault Cassette :=
  match content with
  | .error cause => .error (.unreadable path cause)
  | .ok text =>
    match ofText? text with
    | some cassette => .ok cassette
    | none => .error (.malformed path)

end ProvideIndex.Cassette
