import ProvideIndex.Cassette.Text
import ProvideIndex.Proofs.Timestamp.Text
import ProvideIndex.Proofs.Yaml.ValueReading

/-!
# Recorded cassettes read back

The text of a cassette is read back as the cassette, whatever texts and values it holds: what looks
like a number, a truth value or a date stays a text, numbers stay exact, and so do texts of many
lines and the names of fields. The values may be nested as deep as the reader follows them.

* `Interaction.read_nodeOf`: one interaction.
* `Cassette.ofText?_text`: a whole cassette.
* `Recorder.ofText?_finish`: what was recorded, call by call.
-/

namespace ProvideIndex

open Yaml

/-- Whether a value can be kept in an interaction: its objects are maps, whose names ascend, and it
is not nested deeper than an interaction is read. -/
def Value.isKept (v : Value) : Bool := v.isOrdered && decide (v.depth ≤ Interaction.valueDepth)

namespace Interaction

/-- A written interaction is read back. -/
theorem read_nodeOf {document : Document} {one : Interaction} (hInput : one.input.isKept = true)
    (hOutput : one.output.isKept = true) :
    read document (nodeOf (.object one.fields)) = pure one := by
  rw [Value.isKept, Bool.and_eq_true, decide_eq_true_eq] at hInput hOutput
  have hFields : document.fields ["seq", "port", "method", "input", "output"]
      (nodeOf (.object one.fields)) =
      pure [nodeOf (.ofUInt64 one.seq), nodeOf (.string one.service), nodeOf (.string one.method),
        nodeOf one.input, nodeOf one.output] := by
    rw [Document.fields_nodeOf]
    rfl
  rw [read, hFields]
  simp only [pure_bind, Document.uint64_nodeOf, Document.string_nodeOf,
    Document.value_nodeOf _ _ hInput.1 hInput.2, Document.value_nodeOf _ _ hOutput.1 hOutput.2]

end Interaction

namespace Cassette

variable {cassette : Cassette}

theorem read_nodeOf {document : Document} (hTime : cassette.recordedAt.IsValid)
    (hKept : ∀ one ∈ cassette.interactions, one.input.isKept = true ∧ one.output.isKept = true) :
    read document (nodeOf (.object [("name", .string cassette.name),
      ("recorded_at", .string cassette.recordedAt.text),
      ("interactions", .list (cassette.interactions.map fun one => .object one.fields))])) =
      pure cassette := by
  have hFields : document.fields ["name", "recorded_at", "interactions"] (nodeOf (.object
      [("name", .string cassette.name), ("recorded_at", .string cassette.recordedAt.text),
        ("interactions", .list (cassette.interactions.map fun one => .object one.fields))])) =
      pure [nodeOf (.string cassette.name), nodeOf (.string cassette.recordedAt.text),
        nodeOf (.list (cassette.interactions.map fun one => .object one.fields))] := by
    rw [Document.fields_nodeOf]
    rfl
  have hInteractions : document.list (Interaction.read document)
      (nodeOf (.list (cassette.interactions.map fun one => .object one.fields))) =
      pure (cassette.interactions.map id) :=
    Document.list_nodeOf fun one hMem =>
      Interaction.read_nodeOf (hKept one hMem).1 (hKept one hMem).2
  have hMoment : (liftM (Timestamp.ofText? cassette.recordedAt.text) : Reader Timestamp) =
      pure cassette.recordedAt := by
    rw [Timestamp.ofText?_text hTime]
    rfl
  rw [read, hFields]
  simp only [pure_bind, Document.string_nodeOf, hMoment, hInteractions, List.map_id]

/-- The text of a cassette is read back as the cassette. -/
theorem ofText?_text (hTime : cassette.recordedAt.IsValid)
    (hKept : ∀ one ∈ cassette.interactions, one.input.isKept = true ∧ one.output.isKept = true) :
    ofText? cassette.text = some cassette := by
  rw [ofText?, text, Document.ofText?_writeRecord]
  simp only [Option.bind_eq_bind, Option.bind_some, Document.read?, read_nodeOf hTime hKept]
  rfl

end Cassette

namespace Recorder

/-- What is recorded as one interaction. -/
structure Call where
  service : String
  method : String
  input : Value
  output : Value

/-- The interaction of a call at a place of the recording. -/
def Call.interaction (place : Nat) (call : Call) : Interaction :=
  ⟨UInt64.ofNat place, call.service, call.method, call.input, call.output⟩

def recordAll (recorder : Recorder) (calls : List Call) : Recorder :=
  calls.foldl (fun recorder call =>
    recorder.record call.service call.method call.input call.output) recorder

theorem name_recordAll (recorder : Recorder) (calls : List Call) :
    (recorder.recordAll calls).name = recorder.name := by
  induction calls generalizing recorder with
  | nil => rfl
  | cons call calls ih => exact ih _

/-- The calls are numbered from where the recording stands. -/
theorem interactions_recordAll (recorder : Recorder) (calls : List Call) :
    (recorder.recordAll calls).interactions = recorder.interactions ++
      calls.mapIdx fun place => Call.interaction (recorder.interactions.length + place) := by
  induction calls generalizing recorder with
  | nil => exact (List.append_nil _).symm
  | cons call calls ih =>
    have hFirst : (recorder.record call.service call.method call.input call.output).interactions =
        recorder.interactions ++ [Call.interaction recorder.interactions.length call] := rfl
    have hPlaces : (fun place => Call.interaction (recorder.interactions.length + 1 + place)) =
        fun place => Call.interaction (recorder.interactions.length + (place + 1)) :=
      funext fun place => congrArg Call.interaction (by omega)
    have hRest := ih (recorder.record call.service call.method call.input call.output)
    rw [hFirst, List.length_append, List.length_singleton, hPlaces, List.append_assoc] at hRest
    rw [List.mapIdx_cons]
    exact hRest

/-- A recording is read back from its text as it was recorded: under its name, with every call in
its place, and each service, method, input and output as it was given. -/
theorem ofText?_finish (name : String) (calls : List Call) (now : Timestamp) (hNow : now.IsValid)
    (hCalls : ∀ call ∈ calls, call.input.isKept = true ∧ call.output.isKept = true) :
    ∃ cassette, Cassette.ofText? (((start name).recordAll calls).finish now).text = some cassette ∧
      cassette.name = name ∧ cassette.recordedAt = now ∧
      cassette.interactions = calls.mapIdx Call.interaction ∧
      (calls.length ≤ UInt64.size →
        cassette.interactions.map (fun one => one.seq.toNat) = List.range calls.length) := by
  have hInteractions :
      ((start name).recordAll calls).interactions = calls.mapIdx Call.interaction := by
    rw [interactions_recordAll]
    have hPlaces : (fun place => Call.interaction ((start name).interactions.length + place)) =
        Call.interaction := funext fun place => congrArg Call.interaction (Nat.zero_add place)
    rw [hPlaces]
    rfl
  have hKept : ∀ one ∈ ((start name).recordAll calls).interactions,
      one.input.isKept = true ∧ one.output.isKept = true := by
    intro one hMem
    rw [hInteractions, List.mem_mapIdx] at hMem
    obtain ⟨place, hPlace, rfl⟩ := hMem
    exact hCalls calls[place] (List.getElem_mem hPlace)
  refine ⟨((start name).recordAll calls).finish now, Cassette.ofText?_text hNow hKept,
    name_recordAll _ _, rfl, hInteractions, fun hSize => ?_⟩
  have hAll :
      (((start name).recordAll calls).finish now).interactions = calls.mapIdx Call.interaction :=
    hInteractions
  rw [hAll]
  refine List.ext_getElem ?_ fun place hPlace hRange => ?_
  · rw [List.length_map, List.length_mapIdx, List.length_range]
  · rw [List.length_range] at hRange
    rw [List.getElem_map, List.getElem_mapIdx, List.getElem_range, Call.interaction]
    exact UInt64.toNat_ofNat_of_lt (hRange.trans_le hSize)

/-- Calls with texts that look like something else, with quotes, blanks and breaks, and with numbers
at the ends of their ranges. -/
def awkwardCalls : List Call :=
  [⟨"true", "12",
      .object [("", .null),
        ("a: b\n# c", .list [.string "0x1F", .string " - \x22it's\x22 \\", .list [], .object []]),
        ("z", .ofUInt64 18446744073709551615)],
      .string "first\n  second \n\n"⟩,
    ⟨"2024-01-01", "~", .list [.list [.bool false, .ofInt32 (-2147483648)]],
      .number (.float (.zero true))⟩]

theorem ofText?_awkwardCalls :
    ∃ cassette, Cassette.ofText? (((start "null").recordAll awkwardCalls).finish ⟨0, 0, 0⟩).text =
        some cassette ∧
      cassette.name = "null" ∧ cassette.recordedAt = ⟨0, 0, 0⟩ ∧
      cassette.interactions = awkwardCalls.mapIdx Call.interaction ∧
      (awkwardCalls.length ≤ UInt64.size →
        cassette.interactions.map (fun one => one.seq.toNat) = List.range awkwardCalls.length) :=
  ofText?_finish "null" awkwardCalls ⟨0, 0, 0⟩ ⟨by decide, by decide, by decide, by decide⟩
    (by decide +kernel)

end Recorder

end ProvideIndex
