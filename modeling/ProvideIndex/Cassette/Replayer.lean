import ProvideIndex.Cassette.Basic
import ProvideIndex.Text.Quoted

/-!
# Replaying a cassette

The interactions of one service and method are handed out in the order of the recording, whatever is
asked of other services and methods in between. Asking for more than was recorded exhausts the
cassette.
-/

namespace ProvideIndex

structure Replayer where
  /-- The services and methods that the recording knows, each once. -/
  known : List (String × String)
  pending : List Interaction

/-- Why there is no interaction to hand out. -/
inductive Exhaustion where
  /-- The recording does not know the service and method; it knows the ones listed. -/
  | unknown (service method : String) (known : List String)
  | consumed (service method : String)
  deriving DecidableEq, Repr

def Exhaustion.message : Exhaustion → String
  | unknown service method known =>
    "Cassette exhausted: no interactions recorded for port=" ++ Text.quoted service ++ " method=" ++
      Text.quoted method ++ ". Available port::method pairs: [" ++ ", ".intercalate known ++ "]"
  | consumed service method =>
    "Cassette exhausted: all interactions for port=" ++ Text.quoted service ++ " method=" ++
      Text.quoted method ++ " have been consumed"

namespace Replayer

def ofCassette (cassette : Cassette) : Replayer where
  known := (cassette.interactions.map fun one => (one.service, one.method)).eraseDups
  pending := cassette.interactions

/-- The names of what the recording knows, in ascending order. -/
def knownNames (replayer : Replayer) : List String :=
  (replayer.known.map fun (service, method) => service ++ "::" ++ method).mergeSort fun a b => a ≤ b

def isFor (service method : String) (interaction : Interaction) : Bool :=
  interaction.service == service && interaction.method == method

/-- The next interaction of a service and method. -/
def next (service method : String) (replayer : Replayer) :
    Except Exhaustion (Interaction × Replayer) :=
  match replayer.pending.find? (isFor service method) with
  | some interaction =>
    let pending := replayer.pending.eraseP (isFor service method)
    .ok (interaction, { replayer with pending := pending })
  | none =>
    if replayer.known.contains (service, method) then .error (.consumed service method)
    else .error (.unknown service method replayer.knownNames)

def isDrained (replayer : Replayer) : Bool := replayer.pending.isEmpty

end Replayer

end ProvideIndex
