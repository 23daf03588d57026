import ProvideIndex.Proofs.Cassette.Fidelity
import ProvideIndex.Proofs.Scan.FileTree
import ProvideIndex.Regenerate

/-!
# Replaying a regeneration run

* `replay_of_recording`: a run that is replayed from a recording of itself ends as the recorded run
  did, after the same exchanges and events, and the recording is used up.
-/

namespace ProvideIndex.Regenerate

theorem replay_of_recording {σ : Type} (world : World Empty σ) (options : Options) (state : σ)
    {cassette : Cassette}
    (h : List.Forall₂ Interaction.Keeps cassette.interactions
      ((run options).execute world state).exchanges) :
    let outcome := (run options).execute world state
    ∃ files programs,
      (run options).execute Replay.world (Replay.start cassette) =
          ⟨.ofResult outcome.ending.result, outcome.exchanges, outcome.events,
            ⟨some files, some programs⟩⟩ ∧
        (∀ interaction ∈ files.pending, interaction.service ≠ "fs") ∧
        ∀ interaction ∈ programs.pending, interaction.service ≠ "shell" :=
  Replay.execute_start world (run options) state h

/-- What a run over `FileTree.twoProviders` to `/out.go` and `/manifest.yaml` records. -/
def twoProvidersCassette : Cassette :=
  let outcome := (run ⟨"/t/closure/goog/base.js", "/out.go", Formatter.parse? "go fmt",
    some "/manifest.yaml"⟩).execute (FileTree.twoProviders.overlay .accepting) ()
  ((Recorder.start "two providers").takeAll outcome.exchanges).finish ⟨0, 0, 0⟩

theorem replay_of_twoProviders :
    let outcome := (run ⟨"/t/closure/goog/base.js", "/out.go", Formatter.parse? "go fmt",
      some "/manifest.yaml"⟩).execute (FileTree.twoProviders.overlay .accepting) ()
    List.Forall₂ Interaction.Keeps twoProvidersCassette.interactions outcome.exchanges ∧
      ∃ files programs,
        (run ⟨"/t/closure/goog/base.js", "/out.go", Formatter.parse? "go fmt",
            some "/manifest.yaml"⟩).execute Replay.world (Replay.start twoProvidersCassette) =
            ⟨.ofResult outcome.ending.result, outcome.exchanges, outcome.events,
              ⟨some files, some programs⟩⟩ ∧
          (∀ interaction ∈ files.pending, interaction.service ≠ "fs") ∧
          ∀ interaction ∈ programs.pending, interaction.service ≠ "shell" := by
  intro outcome
  have hKeeps : List.Forall₂ Interaction.Keeps twoProvidersCassette.interactions
      outcome.exchanges := Recorder.keeps_takeAll _ _ _
  exact ⟨hKeeps, replay_of_recording (FileTree.twoProviders.overlay .accepting) _ () hKeeps⟩

end ProvideIndex.Regenerate
