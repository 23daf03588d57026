import ProvideIndex.Proofs.Cassette.Consumption
import ProvideIndex.Proofs.Regenerate.Replay
import ProvideIndex.Proofs.Regenerate.Table
import ProvideIndex.Proofs.Regenerate.Tabulate

/-!
# Replays that have drifted from the recording

A replay checks what is written against the contents that the recording keeps. The writes take the
interactions of one queue in order, the table the first and the manifest the second, and no lookup
takes any of them.

* `foundIn_of_done`: the files of a replay are those that the recorded lookups determine.
* `recorded_of_done`: a replay that ends with a report wrote what was recorded.
* `execute_of_differing`: a table that differs from the recorded one is the last thing of a replay.
* `replay_detects_drift`: both of this for any cassette.
-/

namespace ProvideIndex

/-- The contents that a recorded write is held to, if it keeps any. -/
def Interaction.contents? (interaction : Interaction) : Option String :=
  (interaction.input.field? "contents").bind Value.string?

/-- The recorded writes, in the order of the recording. -/
def Cassette.writes (cassette : Cassette) : List Interaction :=
  cassette.recorded ("fs", "write_atomic")

namespace Replay

variable {path contents : String} {one : Interaction}

theorem contents_of_writeReply (h : writeReply path contents one = .ok ()) :
    ∀ text, one.contents? = some text → text = contents := by
  intro text hText
  rw [writeReply] at h
  cases hRefusal : one.output.refusal? with
  | some cause =>
    rw [hRefusal] at h
    cases h
  | none =>
    have hKept : (one.input.field? "contents").bind Value.string? = some text := hText
    rw [hRefusal, hKept] at h
    by_contra hNe
    simp only [if_neg hNe] at h
    cases h

theorem writeReply_of_differing {text : String} (hErr : one.output.field? "err" = none)
    (hText : one.contents? = some text) (hNe : text ≠ contents) :
    writeReply path contents one = .error (differing path one.seq) := by
  have hRefusal : one.output.refusal? = none := by rw [Value.refusal?, hErr, Option.map_none]
  have hKept : (one.input.field? "contents").bind Value.string? = some text := hText
  rw [writeReply, hRefusal, hKept]
  exact if_neg hNe

theorem world_answer_of_queue {request : Request} {state : ReplayState} {replayer : Replayer}
    {first : Interaction} {rest : List Interaction}
    (hTape : state.tape request.port = some replayer)
    (hQueue : replayer.queue request.key.1 request.key.2 = first :: rest) :
    ∃ next, world.answer request state = (replyTo request first, next) := by
  have hAnswer := answer_eq request state
  rw [hTape, answerFrom_of_queue hQueue] at hAnswer
  exact ⟨_, hAnswer⟩

end Replay

namespace Regenerate

open Run Script

variable {options : Options} {files : List Source.File} {cassette : Cassette}

/-! ### The files of a recording -/

/--
Whether files are those of a scan whose lookups are answered by a recording: those of each method by
the first interactions that are recorded for it, one for each lookup, in order.
-/
def FoundIn (cassette : Cassette) (anchor : String) (files : List Source.File) : Prop :=
  ∃ scan : Scan.Answers, files = scan.files ∧ ∀ method, ∃ taken left,
    cassette.recorded ("fs", method) = taken ++ left ∧
      List.Forall₂ Interaction.Answers taken
        ((gathered anchor true scan).filter (Exchange.isFor "fs" method))

theorem foundIn_of_done {anchor : String}
    (h : ((gather anchor).execute Replay.world (Replay.start cassette)).ending = .done files) :
    FoundIn cassette anchor files := by
  have hCourse : Course (gather anchor) _ _ (.ok files) := course_of_ending h
  obtain ⟨scan, hFiles, hExchanges⟩ := gathered_of_course_gather hCourse
  have hEnding : ∀ fault,
      ((gather anchor).execute Replay.world (Replay.start cassette)).ending ≠ .broken fault := by
    intro fault hBroken
    rw [h] at hBroken
    cases hBroken
  obtain ⟨left, -, hTaken⟩ := Replay.execute_start_takes _ cassette hEnding .files
  refine ⟨scan, hFiles, fun method => ?_⟩
  obtain ⟨taken, hSplit, hAnswers⟩ := hTaken method
  rw [hExchanges] at hAnswers
  exact ⟨taken, _, hSplit, hAnswers⟩

/-! ### The writes of a recording -/

theorem isFor_write_eq_false {exchange : Exchange} (h : exchange.request.isLookup = true) :
    exchange.isFor "fs" "write_atomic" = false := by
  obtain ⟨request, reply⟩ := exchange
  cases request with
  | fileExists | listFiles | readText => rfl
  | writeText | runProgram => cases h

theorem filter_write_of_isLookup {exchanges : List Exchange}
    (h : ∀ exchange ∈ exchanges, exchange.request.isLookup = true) :
    exchanges.filter (Exchange.isFor "fs" "write_atomic") = [] :=
  List.filter_eq_nil_iff.mpr fun exchange hMem =>
    Bool.eq_false_iff.mp (isFor_write_eq_false (h exchange hMem))

theorem filter_manifestWritten (options : Options) (files : List Source.File) :
    (manifestWritten options files).filter (Exchange.isFor "fs" "write_atomic") =
      manifestWritten options files := by
  refine List.filter_eq_self.mpr fun exchange hMem => ?_
  obtain ⟨path, -, rfl⟩ := List.mem_map.mp hMem
  rfl

/-- The writes of a run that ended with a report: the table and then the manifest. -/
theorem filter_write_of_done {ε σ : Type} {world : World ε σ} {state : σ} {report : Report}
    (h : ((run options).execute world state).ending = .done report) :
    ∃ files, ((gather options.anchor).execute world state).ending = .done files ∧
      ((run options).execute world state).exchanges.filter (Exchange.isFor "fs" "write_atomic") =
        tableWritten options files :: manifestWritten options files := by
  obtain ⟨files, hTabulate, hConclude, hExchanges, -⟩ := tabulate_of_done h
  obtain ⟨lookups, _, hGather, hTable, -⟩ := course_tabulate (course_of_ending hTabulate)
  obtain ⟨programs, _, hAfter, -, hPrograms, -⟩ := course_conclude (course_of_ending hConclude)
  have hNoWrite : programs.filter (Exchange.isFor "fs" "write_atomic") = [] := by
    refine List.filter_eq_nil_iff.mpr fun exchange hMem => ?_
    obtain ⟨program, arguments, hRequest⟩ := hPrograms exchange hMem
    obtain ⟨request, reply⟩ := exchange
    cases hRequest
    exact Bool.false_ne_true
  refine ⟨files, gather_of_tabulate hTabulate, ?_⟩
  rw [hExchanges, hTable, hAfter, List.filter_append, List.filter_append, List.filter_append,
    filter_write_of_isLookup (isLookup_of_course_gather hGather), hNoWrite, filter_manifestWritten,
    List.append_nil]
  rfl

/-- What a cassette is held to by a replay that wrote these files. -/
structure Recorded (options : Options) (files : List Source.File) (cassette : Cassette) : Prop where
  table : ∃ first, cassette.writes[0]? = some first ∧
    ∀ text, first.contents? = some text → text = TableText.render (.ofFiles files)
  manifest : ∀ path, options.manifest = some path → ∃ second, cassette.writes[1]? = some second ∧
    ∀ text, second.contents? = some text → text = (Manifest.ofFiles files).text

theorem recorded_of_done {report : Report}
    (h : ((run options).execute Replay.world (Replay.start cassette)).ending = .done report) :
    ∃ files, ((gather options.anchor).execute Replay.world (Replay.start cassette)).ending =
        .done files ∧ Recorded options files cassette := by
  obtain ⟨files, hGather, hWrites⟩ := filter_write_of_done h
  have hEnding : ∀ fault,
      ((run options).execute Replay.world (Replay.start cassette)).ending ≠ .broken fault := by
    intro fault hBroken
    rw [h] at hBroken
    cases hBroken
  obtain ⟨left, -, hTaken⟩ := Replay.execute_start_takes _ cassette hEnding .files
  obtain ⟨taken, hSplit, hAnswers⟩ := hTaken "write_atomic"
  have hQueue : cassette.writes = taken ++ left.queue "fs" "write_atomic" := hSplit
  have hFilter : List.Forall₂ Interaction.Answers taken
      (tableWritten options files :: manifestWritten options files) := hWrites ▸ hAnswers
  obtain ⟨first, later, hFirst, hLater, rfl⟩ := List.forall₂_cons_right_iff.mp hFilter
  refine ⟨files, hGather, ⟨first, ?_, ?_⟩, fun path hPath => ?_⟩
  · rw [hQueue]
    rfl
  · exact Replay.contents_of_writeReply (Sum.inr.inj hFirst)
  · rw [manifestWritten, hPath] at hLater
    obtain ⟨second, _, hSecond, -, rfl⟩ := List.forall₂_cons_right_iff.mp hLater
    refine ⟨second, ?_, Replay.contents_of_writeReply (Sum.inr.inj hSecond)⟩
    rw [hQueue]
    rfl

/-! ### A table that differs -/

theorem execute_writeTable_of_refused {ε σ α : Type} {world : World ε σ} {state next : σ}
    {table : SymbolTable} {output cause : String} (rest : Unit → Run α)
    (h : world.answer (.writeText output (TableText.render table)) state =
      (.inr (.error cause), next)) :
    (writeTable table output >>= rest).execute world state =
      ⟨.failed (.fileSystem .write output cause),
        [⟨.writeText output (TableText.render table), .error cause⟩], [], next⟩ := by
  change (Run.ask (.writeText output (TableText.render table)) _).execute world state = _
  rw [execute, h]
  rfl

/-- The lookups of a run leave the recorded writes in their place. -/
theorem tape_of_gather
    (h : ((gather options.anchor).execute Replay.world (Replay.start cassette)).ending =
      .done files) :
    ∃ left,
      ((gather options.anchor).execute Replay.world (Replay.start cassette)).state.tape .files =
        some left ∧ left.queue "fs" "write_atomic" = cassette.writes := by
  have hCourse : Course (gather options.anchor) _ _ (.ok files) := course_of_ending h
  exact Replay.exists_tape_of_unasked h .files
    (filter_write_of_isLookup (isLookup_of_course_gather hCourse))

/-- The write of a table that the recording refuses. -/
def tableRefused (options : Options) (files : List Source.File) (seq : UInt64) : Exchange :=
  ⟨.writeText options.output (TableText.render (.ofFiles files)),
    .error (Replay.differing options.output seq)⟩

theorem execute_of_differing {first : Interaction} {text : String}
    (hOutput : Path.isAbsolute options.output = true)
    (hGather : ((gather options.anchor).execute Replay.world (Replay.start cassette)).ending =
      .done files)
    (hFirst : cassette.writes[0]? = some first) (hErr : first.output.field? "err" = none)
    (hText : first.contents? = some text) (hNe : text ≠ TableText.render (.ofFiles files)) :
    ((run options).execute Replay.world (Replay.start cassette)).ending =
        .failed (.fileSystem .write options.output (Replay.differing options.output first.seq)) ∧
      ((run options).execute Replay.world (Replay.start cassette)).exchanges =
        ((gather options.anchor).execute Replay.world (Replay.start cassette)).exchanges ++
          [tableRefused options files first.seq] := by
  obtain ⟨left, hTape, hWrites⟩ := tape_of_gather hGather
  obtain ⟨rest, hQueue⟩ : ∃ rest, left.queue "fs" "write_atomic" = first :: rest := by
    rw [hWrites]
    cases hList : cassette.writes with
    | nil =>
      rw [hList] at hFirst
      cases hFirst
    | cons head rest =>
      rw [hList] at hFirst
      cases hFirst
      exact ⟨rest, rfl⟩
  have hReply : Replay.replyTo (.writeText options.output (TableText.render (.ofFiles files))) first =
      .inr (.error (Replay.differing options.output first.seq)) :=
    congrArg Sum.inr (Replay.writeReply_of_differing hErr hText hNe)
  obtain ⟨next, hAnswer⟩ : ∃ next, Replay.world.answer (.writeText _ _) _ =
      (Replay.replyTo (.writeText options.output (TableText.render (.ofFiles files))) first, next) :=
    Replay.world_answer_of_queue hTape hQueue
  rw [hReply] at hAnswer
  rw [run_eq, if_pos hOutput, execute_bind, Outcome.andThen, hGather]
  simp only [publish_eq_conclude, execute_reportAll, execute_writeTable_of_refused _ hAnswer,
    tableRefused, and_self]

/--
A replay of any cassette that ends with a report was held to the recorded writes: the first was the
table of the files that the recorded lookups determine, the second their manifest. Where the lookups
give files and the first recorded write was accepted with another text than their table, the replay
ends with a failure that names the place in the recording, and this write is all that it asked for
besides the lookups.
-/
theorem replay_detects_drift (cassette : Cassette) (options : Options) :
    let outcome := (run options).execute Replay.world (Replay.start cassette)
    let found := (gather options.anchor).execute Replay.world (Replay.start cassette)
    (∀ report, outcome.ending = .done report →
      ∃ files, found.ending = .done files ∧ FoundIn cassette options.anchor files ∧
        Recorded options files cassette) ∧
    ∀ files first text, Path.isAbsolute options.output = true → found.ending = .done files →
      cassette.writes[0]? = some first → first.output.field? "err" = none →
      first.contents? = some text → text ≠ TableText.render (.ofFiles files) →
        FoundIn cassette options.anchor files ∧
          outcome.ending = .failed
            (.fileSystem .write options.output (Replay.differing options.output first.seq)) ∧
          outcome.exchanges = found.exchanges ++ [tableRefused options files first.seq] ∧
          ∀ exchange ∈ found.exchanges, exchange.request.isLookup = true := by
  intro outcome found
  constructor
  · intro report hDone
    obtain ⟨files, hGather, hRecorded⟩ := recorded_of_done hDone
    exact ⟨files, hGather, foundIn_of_done hGather, hRecorded⟩
  · intro files first text hOutput hGather hFirst hErr hText hNe
    obtain ⟨hEnding, hExchanges⟩ := execute_of_differing hOutput hGather hFirst hErr hText hNe
    have hCourse : Course (gather options.anchor) _ _ (.ok files) := course_of_ending hGather
    exact ⟨foundIn_of_done hGather, hEnding, hExchanges, isLookup_of_course_gather hCourse⟩

/-- The files of `FileTree.twoProviders`, if its source of `x.B` declares these symbols. -/
def providersWith (provides : List String) : List Source.File :=
  [⟨"closure/goog/a_test.js", .ignored⟩, ⟨"closure/goog/b.js", .library provides [] false⟩,
    ⟨"closure/goog/notes.txt", .asset⟩,
    ⟨"third_party/closure/goog/c.js", .library ["x.A"] [] false⟩]

/-- The recording `twoProvidersCassette`, but its source of `x.B` was read with another text. -/
def driftedCassette : Cassette :=
  { twoProvidersCassette with
    interactions := twoProvidersCassette.interactions.map fun one =>
      if one.seq = 5 then { one with output := .accepted (.string "goog.provide('x.C');\n") }
      else one }

/-- The options under which `twoProvidersCassette` was recorded. -/
def recordedOptions : Options :=
  ⟨"/t/closure/goog/base.js", "/out.go", Formatter.parse? "go fmt", some "/manifest.yaml"⟩

/--
The recording of a run over two libraries is replayed with their table and their manifest. After a
change to what one of them declares, the write of the table is refused, and neither the manifest nor
the formatter comes about.
-/
theorem twoProviders_drifted :
    let kept := (run recordedOptions).execute Replay.world (Replay.start twoProvidersCassette)
    let drifted := (run recordedOptions).execute Replay.world (Replay.start driftedCassette)
    let found :=
      (gather recordedOptions.anchor).execute Replay.world (Replay.start driftedCassette)
    (kept.ending = .done ⟨4, 2, 2, 0⟩ ∧
        FoundIn twoProvidersCassette recordedOptions.anchor (providersWith ["x.B", "x.A"]) ∧
        Recorded recordedOptions (providersWith ["x.B", "x.A"]) twoProvidersCassette) ∧
      FoundIn driftedCassette recordedOptions.anchor (providersWith ["x.C"]) ∧
      drifted.ending = .failed (.fileSystem .write "/out.go" (Replay.differing "/out.go" 7)) ∧
      drifted.exchanges =
        found.exchanges ++ [tableRefused recordedOptions (providersWith ["x.C"]) 7] := by
  have hKept : ((run recordedOptions).execute Replay.world
      (Replay.start twoProvidersCassette)).ending = .done ⟨4, 2, 2, 0⟩ := by decide +kernel
  have hGathered : ((gather recordedOptions.anchor).execute Replay.world
      (Replay.start twoProvidersCassette)).ending = .done (providersWith ["x.B", "x.A"]) := by
    decide +kernel
  obtain ⟨files, hFiles, hFound, hRecorded⟩ :=
    (replay_detects_drift twoProvidersCassette recordedOptions).1 _ hKept
  obtain rfl := Ending.done.inj (hFiles.symm.trans hGathered)
  have hDrifted : ((gather recordedOptions.anchor).execute Replay.world
      (Replay.start driftedCassette)).ending = .done (providersWith ["x.C"]) := by
    decide +kernel
  have hWritten :
      driftedCassette.writes[0]?.map (fun one =>
          (one.seq, (one.output.field? "err").isNone, one.contents?)) =
        some (7, true, some twoProvidersTable) := by
    decide +kernel
  obtain ⟨first, hFirst, hParts⟩ := Option.map_eq_some_iff.mp hWritten
  obtain ⟨hSeq, hErr, hText⟩ : first.seq = 7 ∧ first.output.field? "err" = none ∧
      first.contents? = some twoProvidersTable := by simpa using hParts
  have hOutput : Path.isAbsolute recordedOptions.output = true := by decide +kernel
  have hDiffer : twoProvidersTable ≠ TableText.render (.ofFiles (providersWith ["x.C"])) := by
    decide +kernel
  obtain ⟨hFoundIn, hEnding, hExchanges, -⟩ :=
    (replay_detects_drift driftedCassette recordedOptions).2 _ _ _ hOutput hDrifted hFirst hErr
      hText hDiffer
  rw [hSeq] at hEnding hExchanges
  exact ⟨⟨hKept, hFound, hRecorded⟩, hFoundIn, hEnding, hExchanges⟩

end Regenerate

end ProvideIndex
