import ProvideIndex.Timestamp
import ProvideIndex.Value.Basic

/-!
# Cassettes

A cassette is a record of what was asked of the outside and what came back, so that the same answers
can be given again without it. Each interaction names the service and the method that was called.
-/

namespace ProvideIndex

structure Interaction where
  /-- The place of the interaction in the recording. -/
  seq : UInt64
  service : String
  method : String
  input : Value
  output : Value
  deriving Repr

structure Cassette where
  name : String
  recordedAt : Timestamp
  interactions : List Interaction
  deriving Repr

/-- A recording under way. -/
structure Recorder where
  name : String
  interactions : List Interaction

namespace Recorder

def start (name : String) : Recorder := ⟨name, []⟩

/-- Takes one more interaction, which gets the next place. -/
def record (recorder : Recorder) (service method : String) (input output : Value) : Recorder :=
  let seq := UInt64.ofNat recorder.interactions.length
  ⟨recorder.name, recorder.interactions ++ [⟨seq, service, method, input, output⟩]⟩

def finish (recorder : Recorder) (now : Timestamp) : Cassette :=
  ⟨recorder.name, now, recorder.interactions⟩

end Recorder

end ProvideIndex
