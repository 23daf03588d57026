import ProvideIndex.Cassette.Basic
import ProvideIndex.Yaml.Document
import ProvideIndex.Yaml.Write

/-!
# Cassettes as texts

A cassette is kept as a YAML record with the list of its interactions.
-/

namespace ProvideIndex

open Yaml

namespace Interaction

def fields (interaction : Interaction) : List (String × Value) :=
  [("seq", .ofUInt64 interaction.seq), ("port", .string interaction.service),
    ("method", .string interaction.method), ("input", interaction.input),
    ("output", interaction.output)]

/-- How deep a value of an interaction may be: it lies in three collections. -/
def valueDepth : Nat := Document.maxDepth - 3

def read (document : Document) (node : Node) : Reader Interaction := do
  match ← document.fields ["seq", "port", "method", "input", "output"] node with
  | [seq, service, method, input, output] =>
    return {
      seq := ← document.uint64 seq
      service := ← document.string service
      method := ← document.string method
      input := ← document.value valueDepth input
      output := ← document.value valueDepth output }
  | _ => failure

end Interaction

namespace Cassette

def text (cassette : Cassette) : String :=
  writeRecord
    [("name", .string cassette.name), ("recorded_at", .string cassette.recordedAt.text),
      ("interactions", .list (cassette.interactions.map fun one => .object one.fields))]

def read (document : Document) (node : Node) : Reader Cassette := do
  match ← document.fields ["name", "recorded_at", "interactions"] node with
  | [name, recordedAt, interactions] =>
    return {
      name := ← document.string name
      recordedAt := ← liftM (Timestamp.ofText? (← document.string recordedAt))
      interactions := ← document.list (Interaction.read document) interactions }
  | _ => failure

def ofText? (text : String) : Option Cassette := do
  let document ← Document.ofText? text
  document.read? (read document)

end Cassette

end ProvideIndex
