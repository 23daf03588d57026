import ProvideIndex.Cassette.Replayer
import ProvideIndex.Run

/-!
# A world made of a cassette

Requests are answered from the outputs of a recording. An output is an object with the field `err`,
or one with the field `ok`, or the answer itself. The file system and the programs each replay the
whole recording on their own; once one of them was asked for more than was recorded, it answers
nothing more.
-/

namespace ProvideIndex

namespace Value

/-- How a value is called where a value of another type is expected. -/
def found : Value → String
  | .null => "null"
  | .bool b => "boolean \x60" ++ toString b ++ "\x60"
  | .number (.whole n) => "integer \x60" ++ toString n.val ++ "\x60"
  | .number (.float x) => "floating point \x60" ++ String.ofList (x.text .signed) ++ "\x60"
  | .string text => "string " ++ Text.quoted text
  | .list _ => "sequence"
  | .object _ => "map"

def mismatch (value : Value) (expected : String) : String :=
  "invalid type: " ++ value.found ++ ", expected " ++ expected

def asText (value : Value) : Except String String :=
  match value with
  | .string text => .ok text
  | _ => .error (value.mismatch "a string")

def asTexts (value : Value) : Except String (List String) :=
  match value with
  | .list items => items.mapM asText
  | _ => .error (value.mismatch "a sequence")

/-- The refusal that an output holds. -/
def refusal? (output : Value) : Option String :=
  (output.field? "err").map fun cause => cause.string?.getD "unknown error"

/-- The answer that an output holds. -/
def answer (output : Value) : Value := (output.field? "ok").getD output

/-- What an output answers, read as a type; `method` is named if it is of another type. -/
def extract {α : Type} (method : String) (read : Value → Except String α) (output : Value) :
    Except String α :=
  match output.refusal? with
  | some cause => .error cause
  | none =>
    match read output.answer with
    | .ok result => .ok result
    | .error cause => .error ("fs::" ++ method ++ ": failed to deserialize: " ++ cause)

/-- The output of a program; parts that are missing are empty, and a code out of range is 1. -/
def asProgramOutput (value : Value) : ProgramOutput :=
  let text (name : String) : String := ((value.field? name).bind string?).getD ""
  let code := ((value.field? "exit_code").bind signed?).getD 0
  let exitCode := if -2147483648 ≤ code ∧ code < 2147483648 then Int32.ofInt code else 1
  ⟨exitCode, text "stdout", text "stderr"⟩

end Value

/-- Why a replayed request has no answer. -/
inductive ReplayFault where
  | exhausted (cause : Exhaustion)
  /-- The cassette was exhausted before. -/
  | blocked
  /-- The recording does not say whether the file exists. -/
  | noTruthValue
  deriving DecidableEq, Repr

def ReplayFault.message : ReplayFault → String
  | exhausted cause => cause.message
  | blocked => "replayer lock poisoned: PoisonError \x7b .. \x7d"
  | noTruthValue => "fs::exists: expected boolean output"

/-- A replayer, unless it was exhausted. -/
abbrev Tape := Option Replayer

namespace Tape

def next (service method : String) : Tape → (ReplayFault ⊕ Interaction) × Tape
  | none => (.inl .blocked, none)
  | some replayer =>
    match replayer.next service method with
    | .ok (interaction, rest) => (.inr interaction, some rest)
    | .error cause => (.inl (.exhausted cause), none)

/-- Answers a request from the next interaction. -/
def answer {ρ : Type} (service method : String) (reply : Interaction → ReplayFault ⊕ ρ)
    (tape : Tape) : (ReplayFault ⊕ ρ) × Tape :=
  match tape.next service method with
  | (.inl fault, rest) => (.inl fault, rest)
  | (.inr interaction, rest) => (reply interaction, rest)

end Tape

structure ReplayState where
  files : Tape
  programs : Tape

namespace Replay

def start (cassette : Cassette) : ReplayState :=
  ⟨some (.ofCassette cassette), some (.ofCassette cassette)⟩

def existsReply (interaction : Interaction) : ReplayFault ⊕ Bool :=
  match interaction.output.bool? with
  | some found => .inr found
  | none => .inl .noTruthValue

/-- A write is accepted unless the recording has other contents. -/
def writeReply (path contents : String) (interaction : Interaction) : Except String Unit :=
  match interaction.output.refusal? with
  | some cause => .error cause
  | none =>
    match (interaction.input.field? "contents").bind Value.string? with
    | some recorded =>
      if recorded = contents then .ok ()
      else
        .error ("fs::write_atomic: contents written to " ++ path ++
          " differ from the recording (seq=" ++ toString interaction.seq ++ ")")
    | none => .ok ()

def programReply (interaction : Interaction) : Except String ProgramOutput :=
  match interaction.output.refusal? with
  | some cause => .error cause
  | none => .ok interaction.output.answer.asProgramOutput

def answer (request : Request) (state : ReplayState) :
    (ReplayFault ⊕ request.Reply) × ReplayState :=
  match request with
  | .fileExists _ =>
    let (reply, files) := state.files.answer "fs" "exists" existsReply
    (reply, { state with files := files })
  | .listFiles _ =>
    let (reply, files) := state.files.answer "fs" "walk_files" fun one =>
      .inr (one.output.extract "walk_files" Value.asTexts)
    (reply, { state with files := files })
  | .readText _ =>
    let (reply, files) := state.files.answer "fs" "read_to_string" fun one =>
      .inr (one.output.extract "read_to_string" Value.asText)
    (reply, { state with files := files })
  | .writeText path contents =>
    let (reply, files) := state.files.answer "fs" "write_atomic" fun one =>
      .inr (writeReply path contents one)
    (reply, { state with files := files })
  | .runProgram _ _ =>
    let (reply, programs) := state.programs.answer "shell" "run" fun one =>
      .inr (programReply one)
    (reply, { state with programs := programs })

/-- The world in which a recorded run happens again. -/
def world : World ReplayFault ReplayState := ⟨answer⟩

end Replay

end ProvideIndex
