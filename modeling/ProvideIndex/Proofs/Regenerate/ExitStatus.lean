import ProvideIndex.Proofs.Regenerate.Drift
import ProvideIndex.Proofs.Run.Requests
import ProvideIndex.Proofs.Scan.Reports

/-!
# The exit status of a replayed run

A recorded exit code is any whole number of 64 bits, with a sign or without. A replay reads it with a
sign, brings it into the 32 bits of an exit code and ends with it as its status, three ranges one
after another. A code above the first range counts as none at all, and so as success.

* `toInt_exitCode`, `toNat_exitStatus`: what each of the ranges makes of a code.
* `execute_run_of_formatted`: a replayed run that has started its formatter ends with a report.
* `tells_recorded`: the status and the events tell the recorded code, if it fits 64 bits with a sign.
-/

namespace ProvideIndex

/-! ### From range to range -/

/-- The code that a replay reads: one that does not fit 64 bits with a sign counts as none. -/
def heard (code : Whole) : Int := if code.val < 9223372036854775808 then code.val else 0

/-- Whether a whole number fits the 32 bits of an exit code. -/
def FitsExitCode (code : Int) : Prop := -2147483648 ≤ code ∧ code < 2147483648

instance (code : Int) : Decidable (FitsExitCode code) :=
  inferInstanceAs (Decidable (_ ∧ _))

theorem toInt_exitCode {value : Value} {code : Whole}
    (h : value.field? "exit_code" = some (.number (.whole code))) :
    value.asProgramOutput.exitCode.toInt = if FitsExitCode (heard code) then heard code else 1 := by
  have hHeard : ((value.field? "exit_code").bind Value.signed?).getD 0 = heard code := by
    rw [h, Option.bind_some, Value.signed?, heard]
    by_cases hFits : code.val < 9223372036854775808
    · rw [if_pos hFits, if_pos hFits, Option.getD_some]
    · rw [if_neg hFits, if_neg hFits, Option.getD_none]
  rw [Value.asProgramOutput]
  simp only [hHeard]
  change (if FitsExitCode (heard code) then _ else _ : Int32).toInt = _
  by_cases hFits : FitsExitCode (heard code)
  · rw [if_pos hFits, if_pos hFits]
    exact Int32.toInt_ofInt_of_le hFits.1 hFits.2
  · rw [if_neg hFits, if_neg hFits]
    rfl

namespace Regenerate

open Run Script

/-- The status for a code: the code itself if a status can say it, and otherwise 1. -/
def statusFor (code : Int) : Nat := if 0 ≤ code ∧ code ≤ 255 then code.toNat else 1

theorem toNat_exitStatus (report : Report) :
    report.exitStatus.toNat = statusFor report.formatterExit.toInt := by
  rw [Report.exitStatus, statusFor]
  by_cases h : 0 ≤ report.formatterExit.toInt ∧ report.formatterExit.toInt ≤ 255
  · rw [if_pos h, if_pos h]
    exact UInt8.toNat_ofNat_of_lt (by change _ < 256; omega)
  · rw [if_neg h, if_neg h]
    rfl

/-- A code that does not fit 32 bits gets the same status as one that does not fit a status. -/
theorem statusFor_fitted (code : Int) :
    statusFor (if FitsExitCode code then code else 1) = statusFor code := by
  by_cases h : FitsExitCode code
  · rw [if_pos h]
  · have hStatus : ¬(0 ≤ code ∧ code ≤ 255) := by
      intro hRange
      exact h ⟨by omega, by omega⟩
    rw [if_neg h, statusFor, statusFor, if_neg hStatus]
    rfl

theorem fitted_eq_zero (code : Int) :
    (if FitsExitCode code then code else 1) = 0 ↔ code = 0 := by
  by_cases h : FitsExitCode code
  · rw [if_pos h]
  · have hNe : code ≠ 0 := by
      rintro rfl
      exact h ⟨by omega, by omega⟩
    simp [if_neg h, hNe]

/-! ### Up to the formatter -/

/-- What a run does before it starts the formatter. -/
def prepare (options : Options) : Run (List Source.File) := do
  let files ← tabulate options
  writeManifestIf files options.manifest
  return files

variable {options : Options} {cassette : Cassette} {files : List Source.File}

theorem run_eq_prepare (hOutput : Path.isAbsolute options.output = true) :
    run options = prepare options >>= fun files =>
      format options.output options.formatter >>= fun exit => .done (reportOn files exit) := by
  rw [run_eq_tabulate hOutput]
  refine Eq.symm ((bind_bind _ _ _).trans (congrArg _ (funext fun files => ?_)))
  exact bind_bind _ _ _

theorem asksOnly_prepare (options : Options) :
    (prepare options).AsksOnly fun request => request.port = .files := by
  have hGather : (gather options.anchor).AsksOnly fun request => request.port = .files := by
    refine asksOnly_of_course fun exchanges events result hCourse exchange hMem => ?_
    have hLookup := isLookup_of_course_gather hCourse exchange hMem
    obtain ⟨request, reply⟩ := exchange
    cases request with
    | fileExists | listFiles | readText | writeText => rfl
    | runProgram => cases hLookup
  have hWrite (output contents : String) (failure : String → Failure) (rest : Unit → Run Unit)
      (hRest : (rest ()).AsksOnly fun request => request.port = .files) :
      (Run.request (.writeText output contents) >>= fun reply =>
        Run.orFail failure reply >>= rest).AsksOnly fun request => request.port = .files :=
    ⟨rfl, fun reply => (asksOnly_orFail _ reply).bind fun _ => hRest⟩
  have hTabulate : (tabulate options).AsksOnly fun request => request.port = .files := by
    refine hGather.bind fun files => (asksOnly_reportAll _).bind fun _ => ?_
    refine AsksOnly.bind ?_ fun _ => trivial
    exact hWrite _ _ _ _ trivial
  refine hTabulate.bind fun files => AsksOnly.bind ?_ fun _ => trivial
  cases options.manifest with
  | none => trivial
  | some path => exact ⟨rfl, fun reply => asksOnly_orFail _ reply⟩

/-- Whether an event says that the formatter failed. -/
def SaysFailed (event : Event) : Prop := event.message = "canonicalizer failed"

theorem saysFailed_iff {event : Event} :
    SaysFailed event ↔ ∃ command code stderr, event = .formatterFailed command code stderr := by
  rw [SaysFailed]
  cases event with
  | formatterFailed command code stderr => exact iff_of_true rfl ⟨command, code, stderr, rfl⟩
  | rootWalked | rootAbsent | classified | clash | scanned | tableWritten =>
    refine iff_of_false ?_ fun ⟨_, _, _, h⟩ => by cases h
    rw [Event.message]
    decide

theorem reportsOnly_prepare (options : Options) :
    (prepare options).ReportsOnly fun event => ¬SaysFailed event := by
  have hGather : (gather options.anchor).ReportsOnly fun event => ¬SaysFailed event := by
    have hDebug : (gather options.anchor).ReportsOnly Scan.IsDebug :=
      (Scan.reportsOnly_locate _).bind fun tree => Scan.reportsOnly_files _
    refine hDebug.mono fun event hDebugged hFailed => ?_
    obtain ⟨command, code, stderr, rfl⟩ := saysFailed_iff.mp hFailed
    cases hDebugged
  have hFound (tree : String) (files : List Source.File) :
      ∀ event ∈ foundEvents tree files, ¬SaysFailed event := by
    intro event hMem hFailed
    obtain ⟨command, code, stderr, rfl⟩ := saysFailed_iff.mp hFailed
    rcases List.mem_append.mp hMem with hClash | hScanned
    · obtain ⟨clash, -, hEq⟩ := List.mem_map.mp hClash
      cases hEq
    · cases List.mem_singleton.mp hScanned
  have hTabulate : (tabulate options).ReportsOnly fun event => ¬SaysFailed event := by
    refine hGather.bind fun files => (reportsOnly_reportAll (hFound _ _)).bind fun _ => ?_
    refine ReportsOnly.bind (fun reply => ?_) fun _ => trivial
    refine (reportsOnly_orFail _ reply).bind fun _ => ⟨fun hFailed => ?_, trivial⟩
    obtain ⟨command, code, stderr, hEq⟩ := saysFailed_iff.mp hFailed
    cases hEq
  refine hTabulate.bind fun files => ReportsOnly.bind ?_ fun _ => trivial
  cases options.manifest with
  | none => trivial
  | some path => exact fun reply => reportsOnly_orFail _ reply

/-! ### The formatter -/

/-- Before the formatter is started, all recorded programs are still to be replayed. -/
theorem tape_of_prepare
    (h : ((prepare options).execute Replay.world (Replay.start cassette)).ending = .done files) :
    ∃ left,
      ((prepare options).execute Replay.world (Replay.start cassette)).state.tape .programs =
        some left ∧ left.queue "shell" "run" = cassette.recorded ("shell", "run") := by
  refine Replay.exists_tape_of_unasked h .programs (List.filter_eq_nil_iff.mpr ?_)
  intro exchange hMem
  have hPort := (asksOnly_prepare options).of_execute Replay.world _ exchange hMem
  rw [Replay.isFor_of_port_ne (by rw [hPort]; decide)]
  exact Bool.false_ne_true

theorem execute_format {ε σ : Type} {world : World ε σ} {state next : σ} {formatter : Formatter}
    {path : String} {output : ProgramOutput}
    (h : world.answer (.runProgram formatter.program (formatter.arguments ++ [path])) state =
      (.inr (.ok output), next)) :
    (format path (some formatter)).execute world state =
      ⟨.done output.exitCode,
        [⟨.runProgram formatter.program (formatter.arguments ++ [path]), .ok output⟩],
        formatEvents formatter output, next⟩ := by
  change (Run.ask (.runProgram formatter.program (formatter.arguments ++ [path])) fun reply =>
    (Run.orFail (.formatterNotStarted formatter.command) reply).bind fun output =>
      if output.succeeded then .done output.exitCode
      else
        .report (.formatterFailed formatter.command output.exitCode
          (String.ofList (Text.trimEnd output.stderr.toList))) (.done output.exitCode)).execute
    world state = _
  rw [execute, h, formatEvents]
  simp only [Run.orFail, Run.bind]
  cases output.succeeded with
  | true => rfl
  | false => rfl

/-- A replayed run that has started its formatter ends with a report on what was recorded of it. -/
theorem execute_run_of_formatted {first : Interaction}
    (hFirst : (cassette.recorded ("shell", "run")).head? = some first)
    (hErr : first.output.field? "err" = none)
    (hReached : ∃ exchange ∈ ((run options).execute Replay.world (Replay.start cassette)).exchanges,
      exchange.request.port = .programs) :
    ∃ files formatter events,
      ((run options).execute Replay.world (Replay.start cassette)).ending =
          .done (reportOn files first.output.answer.asProgramOutput.exitCode) ∧
        ((run options).execute Replay.world (Replay.start cassette)).events =
          events ++ formatEvents formatter first.output.answer.asProgramOutput ∧
        ∀ event ∈ events, ¬SaysFailed event := by
  obtain ⟨exchange, hMem, hPort⟩ := hReached
  by_cases hOutput : Path.isAbsolute options.output = true
  · rw [run_eq_prepare hOutput, execute_bind, Outcome.andThen] at hMem ⊢
    have hBefore : ∀ one ∈
        ((prepare options).execute Replay.world (Replay.start cassette)).exchanges,
        one.request.port = .files := (asksOnly_prepare options).of_execute Replay.world _
    have hNotBefore :
        exchange ∉ ((prepare options).execute Replay.world (Replay.start cassette)).exchanges := by
      intro hOne
      have hFiles := hBefore exchange hOne
      rw [hPort] at hFiles
      cases hFiles
    cases hEnding : ((prepare options).execute Replay.world (Replay.start cassette)).ending with
    | failed failure =>
      rw [hEnding] at hMem
      exact absurd hMem hNotBefore
    | broken cause =>
      rw [hEnding] at hMem
      exact absurd hMem hNotBefore
    | done files =>
      rw [hEnding] at hMem
      cases hFormatter : options.formatter with
      | none =>
        rw [hFormatter] at hMem
        exact absurd ((List.mem_append.mp hMem).resolve_right List.not_mem_nil) hNotBefore
      | some formatter =>
        obtain ⟨left, hTape, hQueue⟩ := tape_of_prepare hEnding
        obtain ⟨rest, hRest⟩ : ∃ rest, left.queue "shell" "run" = first :: rest :=
          ⟨_, hQueue.trans (List.eq_cons_of_mem_head? hFirst)⟩
        have hRefusal : first.output.refusal? = none := by
          rw [Value.refusal?, hErr, Option.map_none]
        have hReply (program : String) (arguments : List String) :
            Replay.replyTo (.runProgram program arguments) first =
              .inr (.ok first.output.answer.asProgramOutput) := by
          rw [Replay.replyTo, Replay.programReply, hRefusal]
        obtain ⟨next, hAnswer⟩ : ∃ next, Replay.world.answer
            (.runProgram formatter.program (formatter.arguments ++ [options.output])) _ =
              (Replay.replyTo (.runProgram formatter.program
                (formatter.arguments ++ [options.output])) first, next) :=
          Replay.world_answer_of_queue hTape hRest
        rw [hReply] at hAnswer
        refine ⟨files, formatter,
          ((prepare options).execute Replay.world (Replay.start cassette)).events, ?_, ?_, ?_⟩
        · simp only [execute_bind, execute_format hAnswer, Outcome.andThen, execute]
        · simp only [execute_bind, execute_format hAnswer, Outcome.andThen, execute,
            List.append_nil]
        · exact (reportsOnly_prepare options).of_execute Replay.world _
  · rw [run_eq, if_neg hOutput] at hMem
    cases hMem

/-! ### What the status tells -/

/-- Whether a report and its events tell this exit code of the formatter. -/
structure Tells (code : Int) (report : Report) (events : List Event) : Prop where
  status : report.exitStatus.toNat = statusFor code
  logged : (∃ event ∈ events, SaysFailed event) ↔ code ≠ 0

theorem exists_saysFailed_formatEvents (formatter : Formatter) (output : ProgramOutput) :
    (∃ event ∈ formatEvents formatter output, SaysFailed event) ↔ output.exitCode.toInt ≠ 0 := by
  have hZero : output.exitCode.toInt ≠ 0 ↔ output.succeeded = false := by
    rw [ProgramOutput.succeeded, beq_eq_false_iff_ne, Ne, Ne, not_iff_not]
    exact @Int32.toInt_inj _ 0
  rw [formatEvents, hZero]
  cases output.succeeded with
  | true => simp
  | false => simp [saysFailed_iff]

/--
Of the output of a recorded formatter, in either form, a replayed run that gets as far as the
formatter ends with a report whose status and events tell the recorded exit code exactly if the code
fits 64 bits with a sign; a code above them is told as success.
-/
theorem tells_recorded (cassette : Cassette) (options : Options) {first : Interaction} {code : Whole}
    (hFirst : (cassette.recorded ("shell", "run")).head? = some first)
    (hErr : first.output.field? "err" = none)
    (hCode : first.output.answer.field? "exit_code" = some (.number (.whole code))) :
    let outcome := (run options).execute Replay.world (Replay.start cassette)
    (∃ exchange ∈ outcome.exchanges, exchange.request.port = .programs) →
      ∃ report, outcome.ending = .done report ∧
        (Tells code.val report outcome.events ↔ code.val < 9223372036854775808) ∧
        (9223372036854775808 ≤ code.val → Tells 0 report outcome.events) := by
  intro outcome hReached
  obtain ⟨files, formatter, events, hEnding, hEvents, hBefore⟩ :=
    execute_run_of_formatted hFirst hErr hReached
  have hHeard : Tells (heard code)
      (reportOn files first.output.answer.asProgramOutput.exitCode) outcome.events := by
    constructor
    · rw [toNat_exitStatus, ← statusFor_fitted (heard code), ← toInt_exitCode hCode]
      rfl
    · rw [hEvents]
      simp only [List.mem_append, or_and_right, exists_or]
      rw [exists_saysFailed_formatEvents, toInt_exitCode hCode, Ne, fitted_eq_zero]
      exact or_iff_right fun ⟨event, hMem, hFailed⟩ => hBefore event hMem hFailed
  refine ⟨_, hEnding, ?_, fun hHigh => ?_⟩
  · constructor
    · intro hTells
      by_contra hHigh
      rw [heard, if_neg hHigh] at hHeard
      exact absurd rfl (hHeard.logged.mp (hTells.logged.mpr (by omega)))
    · intro hLow
      rw [heard, if_pos hLow] at hHeard
      exact hHeard
  · rw [heard, if_neg (by omega)] at hHeard
    exact hHeard

/-- A recording of a run over a tree without sources, whose formatter ended with this code. -/
def formattedCassette (code : Whole) : Cassette where
  name := "formatted"
  recordedAt := ⟨0, 0, 0⟩
  interactions :=
    [⟨0, "fs", "exists", .null, .bool true⟩, ⟨1, "fs", "exists", .null, .bool true⟩,
      ⟨2, "fs", "walk_files", .null, .list []⟩, ⟨3, "fs", "exists", .null, .bool false⟩,
      ⟨4, "fs", "write_atomic", .null, .null⟩,
      ⟨5, "shell", "run", .null,
        .object [("ok", .object [("exit_code", .number (.whole code))])]⟩]

/-- The low 32 bits of this code are 2, and yet it does not end as a code of 2 does. -/
theorem tells_wideCode :
    let options : Options := ⟨"/t/closure/goog/base.js", "/out.go", some ⟨"go", ["fmt"]⟩, none⟩
    let cassette := formattedCassette ⟨4294967298, by decide⟩
    let outcome := (run options).execute Replay.world (Replay.start cassette)
    (∃ exchange ∈ outcome.exchanges, exchange.request.port = .programs) ∧
      ∃ report, outcome.ending = .done report ∧ Tells 4294967298 report outcome.events := by
  intro options cassette outcome
  have hReached : ∃ exchange ∈ outcome.exchanges, exchange.request.port = .programs := by
    decide +kernel
  obtain ⟨report, hEnding, hTells, -⟩ :=
    @tells_recorded cassette options _ ⟨4294967298, by decide⟩ rfl rfl rfl hReached
  exact ⟨hReached, report, hEnding, hTells.mpr (by decide)⟩

/-- The least code that does not fit 64 bits with a sign is a failure that a replay hides. -/
theorem unsignedCode_hidden :
    let options : Options := ⟨"/t/closure/goog/base.js", "/out.go", some ⟨"go", ["fmt"]⟩, none⟩
    let cassette := formattedCassette ⟨9223372036854775808, by decide⟩
    let outcome := (run options).execute Replay.world (Replay.start cassette)
    outcome.ending = .done ⟨0, 0, 0, 0⟩ ∧ (⟨0, 0, 0, 0⟩ : Report).exitStatus = 0 ∧
      ¬Tells 9223372036854775808 ⟨0, 0, 0, 0⟩ outcome.events := by
  intro options cassette outcome
  refine ⟨by decide +kernel, by decide, fun hTells => ?_⟩
  have hStatus := hTells.status
  exact absurd hStatus (by decide)

end Regenerate

end ProvideIndex
