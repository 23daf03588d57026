import ProvideIndex.Cassette.World
import ProvideIndex.Proofs.Cassette.Queue
import ProvideIndex.Proofs.Run.Course
import Mathlib.Data.List.Forall2

/-!
# Replaying what was recorded

A recording keeps an exchange as an interaction whose service and method are those of the request
and whose output holds the reply. A replay looks at the service and the method alone, so the queues
of a recording have to come out in step with the requests of the run.

* `Ready`: what the replayers still hold is what the run is still to exchange.
* `answer_of_ready`: a request of such a run is answered as it was recorded.
* `execute_of_ready`: a run that is replayed from its own recording takes the same course and leaves
  nothing behind.
-/

namespace ProvideIndex

/-! ### How an exchange is kept -/

namespace Request

def service : Request → String
  | runProgram _ _ => "shell"
  | _ => "fs"

def method : Request → String
  | fileExists _ => "exists"
  | listFiles _ => "walk_files"
  | readText _ => "read_to_string"
  | writeText _ _ => "write_atomic"
  | runProgram _ _ => "run"

end Request

namespace Value

/-- The output for a reply that is not a refusal. -/
def accepted (value : Value) : Value := .object [("ok", value)]

def refused (cause : String) : Value := .object [("err", .string cause)]

def ofProgramOutput (output : ProgramOutput) : Value :=
  .object
    [("exit_code", .ofInt32 output.exitCode), ("stderr", .string output.stderr),
      ("stdout", .string output.stdout)]

end Value

/-- The output that keeps the reply of an exchange. -/
def Exchange.output : Exchange → Value
  | ⟨.fileExists _, found⟩ => .bool found
  | ⟨.listFiles _, .ok names⟩ => .accepted (.list (names.map .string))
  | ⟨.listFiles _, .error cause⟩ => .refused cause
  | ⟨.readText _, .ok text⟩ => .accepted (.string text)
  | ⟨.readText _, .error cause⟩ => .refused cause
  | ⟨.writeText _ _, .ok ()⟩ => .null
  | ⟨.writeText _ _, .error cause⟩ => .refused cause
  | ⟨.runProgram _ _, .ok output⟩ => .accepted (.ofProgramOutput output)
  | ⟨.runProgram _ _, .error cause⟩ => .refused cause

/--
Whether an interaction keeps an exchange. Of the input only the contents of a write matter, and the
place in the recording is free.
-/
structure Interaction.Keeps (interaction : Interaction) (exchange : Exchange) : Prop where
  service : interaction.service = exchange.request.service
  method : interaction.method = exchange.request.method
  output : interaction.output = exchange.output
  contents : ∀ path contents, exchange.request = .writeText path contents →
    interaction.input.field? "contents" = some (.string contents)

/-! ### Reading an output back -/

namespace Value

variable {α : Type}

theorem asTexts_map_string (names : List String) :
    asTexts (.list (names.map .string)) = .ok names := by
  change (names.map Value.string).mapM asText = .ok names
  induction names with
  | nil => rfl
  | cons name names ih =>
    rw [List.map_cons, List.mapM_cons, ih]
    rfl

theorem extract_accepted {method : String} {read : Value → Except String α} {value : Value} {a : α}
    (h : read value = .ok a) : (accepted value).extract method read = .ok a := by
  have hAnswer : (accepted value).answer = value := rfl
  have hRefusal : (accepted value).refusal? = none := rfl
  rw [extract, hRefusal, hAnswer, h]

/-- An exit code fits 32 bits, so nothing of it is lost. -/
theorem asProgramOutput_ofProgramOutput (output : ProgramOutput) :
    (ofProgramOutput output).asProgramOutput = output := by
  obtain ⟨code, stdout, stderr⟩ := output
  have hLow := code.le_toInt
  have hHigh := code.toInt_lt
  have hSigned : (ofInt32 code).signed? = some code.toInt := by
    have hFits : code.toInt < 9223372036854775808 := by omega
    rw [ofInt32, signed?, if_pos hFits]
  have hCode : (((ofProgramOutput ⟨code, stdout, stderr⟩).field? "exit_code").bind signed?).getD 0 =
      code.toInt := by
    change ((ofInt32 code).signed?).getD 0 = _
    rw [hSigned, Option.getD_some]
  have hRange : -2147483648 ≤ code.toInt ∧ code.toInt < 2147483648 := by omega
  rw [asProgramOutput, hCode, if_pos hRange, Int32.ofInt_toInt]
  rfl

end Value

/-! ### Queues in step -/

section Queues

variable {interactions : List Interaction} {exchange : Exchange} {exchanges : List Exchange}
  {replayer : Replayer} {service method : String}

def Exchange.isFor (service method : String) (exchange : Exchange) : Bool :=
  exchange.request.service == service && exchange.request.method == method

/-- Whether the queues of a service keep what is still to be exchanged with it. -/
def Replayer.Holds (service : String) (exchanges : List Exchange) (replayer : Replayer) : Prop :=
  ∀ method, List.Forall₂ Interaction.Keeps (replayer.queue service method)
    (exchanges.filter (Exchange.isFor service method))

theorem holds_ofCassette {cassette : Cassette} (service : String)
    (h : List.Forall₂ Interaction.Keeps cassette.interactions exchanges) :
    (Replayer.ofCassette cassette).Holds service exchanges := by
  intro method
  refine List.rel_filter (fun interaction exchange hKeeps => ?_) h
  have hFor : Replayer.isFor service method interaction =
      Exchange.isFor service method exchange := by
    rw [Replayer.isFor, Exchange.isFor, hKeeps.service, hKeeps.method]
  exact Bool.eq_iff_iff.mp hFor

theorem Replayer.Holds.of_cons (h : replayer.Holds service (exchange :: exchanges))
    (hService : exchange.request.service ≠ service) : replayer.Holds service exchanges := by
  intro method
  have hNot : ¬Exchange.isFor service method exchange = true := by simp [Exchange.isFor, hService]
  have hQueue := h method
  rwa [List.filter_cons_of_neg hNot] at hQueue

/-- The next exchange is kept at the front of its queue, and the rest is kept behind it. -/
theorem Replayer.Holds.next (h : replayer.Holds exchange.request.service (exchange :: exchanges)) :
    ∃ interaction, interaction.Keeps exchange ∧
      replayer.next exchange.request.service exchange.request.method =
        .ok (interaction, replayer.advance exchange.request.service exchange.request.method) ∧
      (replayer.advance exchange.request.service exchange.request.method).Holds
        exchange.request.service exchanges := by
  have hFor : Exchange.isFor exchange.request.service exchange.request.method exchange = true := by
    simp [Exchange.isFor]
  have hQueue := h exchange.request.method
  rw [List.filter_cons_of_pos hFor] at hQueue
  obtain ⟨interaction, rest, hKeeps, hRest, hEq⟩ := List.forall₂_cons_right_iff.mp hQueue
  refine ⟨interaction, hKeeps, next_of_queue hEq, fun method => ?_⟩
  by_cases hMethod : method = exchange.request.method
  · subst hMethod
    rw [queue_advance, hEq]
    exact hRest
  · have hNot : ¬Exchange.isFor exchange.request.service method exchange = true := by
      simp [Exchange.isFor, Ne.symm hMethod]
    have hOther := h method
    rw [List.filter_cons_of_neg hNot] at hOther
    rw [queue_advance_of_ne hMethod]
    exact hOther

/-- With nothing left to exchange, a service is used up. -/
theorem Replayer.Holds.service_ne (h : replayer.Holds service []) :
    ∀ interaction ∈ replayer.pending, interaction.service ≠ service := by
  intro interaction hMem hService
  have hEmpty : replayer.queue service interaction.method = [] :=
    List.forall₂_nil_right_iff.mp (h interaction.method)
  have hQueue : interaction ∈ replayer.queue service interaction.method :=
    List.mem_filter.mpr ⟨hMem, by simp [isFor, hService]⟩
  rw [hEmpty] at hQueue
  exact List.not_mem_nil hQueue

end Queues

/-! ### Replies as they were recorded -/

/-- What the replayers still hold is what a run is still to exchange. -/
structure Replay.Ready (exchanges : List Exchange) (state : ReplayState) : Prop where
  files : ∃ replayer, state.files = some replayer ∧ replayer.Holds "fs" exchanges
  programs : ∃ replayer, state.programs = some replayer ∧ replayer.Holds "shell" exchanges

namespace Replay

variable {exchange : Exchange} {exchanges : List Exchange} {state : ReplayState}

theorem ready_start {cassette : Cassette}
    (h : List.Forall₂ Interaction.Keeps cassette.interactions exchanges) :
    Ready exchanges (start cassette) :=
  ⟨⟨_, rfl, holds_ofCassette "fs" h⟩, ⟨_, rfl, holds_ofCassette "shell" h⟩⟩

/-- A tape answers the next exchange as the reply of its interaction. -/
theorem tape_answer {ρ : Type} {replayer : Replayer} {reply : Interaction → ReplayFault ⊕ ρ} {r : ρ}
    (h : replayer.Holds exchange.request.service (exchange :: exchanges))
    (hReply : ∀ interaction, interaction.Keeps exchange → reply interaction = .inr r) :
    ∃ left, Tape.answer exchange.request.service exchange.request.method reply (some replayer) =
        (.inr r, some left) ∧ left.Holds exchange.request.service exchanges := by
  obtain ⟨interaction, hKeeps, hNext, hLeft⟩ := h.next
  refine ⟨_, ?_, hLeft⟩
  rw [Tape.answer, Tape.next, hNext]
  exact congrArg (·, _) (hReply interaction hKeeps)

/-- An exchange with the file system takes its interaction off the tape of the files alone. -/
theorem Ready.files_answer {ρ : Type} {reply : Interaction → ReplayFault ⊕ ρ} {r : ρ}
    (h : Ready (exchange :: exchanges) state) (hService : exchange.request.service = "fs")
    (hReply : ∀ interaction, interaction.Keeps exchange → reply interaction = .inr r) :
    ∃ left,
      (match state.files.answer "fs" exchange.request.method reply with
        | (reply, files) => (reply, { state with files := files })) = (.inr r, left) ∧
      Ready exchanges left := by
  obtain ⟨⟨files, hFiles, hHolds⟩, ⟨programs, hPrograms, hOthers⟩⟩ := h
  rw [← hService] at hHolds
  obtain ⟨left, hAnswer, hLeft⟩ := tape_answer hHolds hReply
  rw [hService] at hAnswer hLeft
  refine ⟨⟨some left, state.programs⟩, ?_, ⟨left, rfl, hLeft⟩, ⟨programs, hPrograms, ?_⟩⟩
  · rw [hFiles, hAnswer]
  · have hNe : exchange.request.service ≠ "shell" := by
      rw [hService]
      decide
    exact hOthers.of_cons hNe

/-- An exchange with a program takes its interaction off the tape of the programs alone. -/
theorem Ready.programs_answer {ρ : Type} {reply : Interaction → ReplayFault ⊕ ρ} {r : ρ}
    (h : Ready (exchange :: exchanges) state) (hService : exchange.request.service = "shell")
    (hReply : ∀ interaction, interaction.Keeps exchange → reply interaction = .inr r) :
    ∃ left,
      (match state.programs.answer "shell" exchange.request.method reply with
        | (reply, programs) => (reply, { state with programs := programs })) = (.inr r, left) ∧
      Ready exchanges left := by
  obtain ⟨⟨files, hFiles, hOthers⟩, ⟨programs, hPrograms, hHolds⟩⟩ := h
  rw [← hService] at hHolds
  obtain ⟨left, hAnswer, hLeft⟩ := tape_answer hHolds hReply
  rw [hService] at hAnswer hLeft
  refine ⟨⟨state.files, some left⟩, ?_, ⟨files, hFiles, ?_⟩, ⟨left, rfl, hLeft⟩⟩
  · rw [hPrograms, hAnswer]
  · have hNe : exchange.request.service ≠ "fs" := by
      rw [hService]
      decide
    exact hOthers.of_cons hNe

theorem existsReply_of_keeps {path : String} {found : Bool} {interaction : Interaction}
    (h : interaction.Keeps ⟨.fileExists path, found⟩) : existsReply interaction = .inr found := by
  rw [existsReply, h.output]
  rfl

theorem extract_of_keeps_listFiles {root : String} {reply : Except String (List String)}
    {interaction : Interaction} (h : interaction.Keeps ⟨.listFiles root, reply⟩) :
    interaction.output.extract "walk_files" Value.asTexts = reply := by
  rw [h.output]
  cases reply with
  | error cause => rfl
  | ok names => exact Value.extract_accepted (Value.asTexts_map_string names)

theorem extract_of_keeps_readText {path : String} {reply : Except String String}
    {interaction : Interaction} (h : interaction.Keeps ⟨.readText path, reply⟩) :
    interaction.output.extract "read_to_string" Value.asText = reply := by
  rw [h.output]
  cases reply with
  | error cause => rfl
  | ok text => exact Value.extract_accepted rfl

/-- The contents that are written again are those of the recording. -/
theorem writeReply_of_keeps {path contents : String} {reply : Except String Unit}
    {interaction : Interaction} (h : interaction.Keeps ⟨.writeText path contents, reply⟩) :
    writeReply path contents interaction = reply := by
  rw [writeReply, h.output, h.contents path contents rfl]
  cases reply with
  | error cause => rfl
  | ok done => exact if_pos rfl

theorem programReply_of_keeps {program : String} {arguments : List String}
    {reply : Except String ProgramOutput} {interaction : Interaction}
    (h : interaction.Keeps ⟨.runProgram program arguments, reply⟩) :
    programReply interaction = reply := by
  rw [programReply, h.output]
  cases reply with
  | error cause => rfl
  | ok output => exact congrArg Except.ok (Value.asProgramOutput_ofProgramOutput output)

/-- A request is answered as it was recorded. -/
theorem answer_of_ready {request : Request} {reply : request.Reply}
    (h : Ready (⟨request, reply⟩ :: exchanges) state) :
    ∃ left, world.answer request state = (.inr reply, left) ∧ Ready exchanges left := by
  cases request with
  | fileExists path => exact h.files_answer rfl fun _ => existsReply_of_keeps
  | listFiles root =>
    exact h.files_answer rfl fun _ hKeeps => congrArg Sum.inr (extract_of_keeps_listFiles hKeeps)
  | readText path =>
    exact h.files_answer rfl fun _ hKeeps => congrArg Sum.inr (extract_of_keeps_readText hKeeps)
  | writeText path contents =>
    exact h.files_answer rfl fun _ hKeeps => congrArg Sum.inr (writeReply_of_keeps hKeeps)
  | runProgram program arguments =>
    exact h.programs_answer rfl fun _ hKeeps => congrArg Sum.inr (programReply_of_keeps hKeeps)

/-- A run that is replayed from what it exchanged takes the same course and uses it up. -/
theorem execute_of_ready {α : Type} {run : Run α} {events : List Event} {result : Except Failure α}
    (h : run.Course exchanges events result) (hReady : Ready exchanges state) :
    ∃ left, run.execute world state = ⟨.ofResult result, exchanges, events, left⟩ ∧
      Ready [] left := by
  induction h generalizing state with
  | done result => exact ⟨state, rfl, hReady⟩
  | fail failure => exact ⟨state, rfl, hReady⟩
  | report h ih =>
    obtain ⟨left, hRest, hLeft⟩ := ih hReady
    refine ⟨left, ?_, hLeft⟩
    rw [Run.execute, hRest]
  | ask h ih =>
    obtain ⟨next, hAnswer, hNext⟩ := answer_of_ready hReady
    obtain ⟨left, hRest, hLeft⟩ := ih hNext
    refine ⟨left, ?_, hLeft⟩
    rw [Run.execute, hAnswer]
    simp only [hRest]

/-- Replaying a recording of a run gives what the run gave, and uses up both services. -/
theorem execute_start {σ α : Type} (original : World Empty σ) (run : Run α) (state : σ)
    {cassette : Cassette}
    (h : List.Forall₂ Interaction.Keeps cassette.interactions
      (run.execute original state).exchanges) :
    ∃ files programs,
      run.execute world (start cassette) =
          ⟨.ofResult (run.execute original state).ending.result,
            (run.execute original state).exchanges, (run.execute original state).events,
            ⟨some files, some programs⟩⟩ ∧
        (∀ interaction ∈ files.pending, interaction.service ≠ "fs") ∧
        ∀ interaction ∈ programs.pending, interaction.service ≠ "shell" := by
  obtain ⟨⟨_, _⟩, hExecute, hLeft⟩ :=
    execute_of_ready (Run.course_execute original run state) (ready_start h)
  obtain ⟨⟨files, rfl, hFiles⟩, ⟨programs, rfl, hPrograms⟩⟩ := hLeft
  exact ⟨files, programs, hExecute, hFiles.service_ne, hPrograms.service_ne⟩

end Replay

/-! ### Making a recording -/

/-- The input that is kept of a request. -/
def Request.input : Request → Value
  | .fileExists path | .listFiles path | .readText path => .object [("path", .string path)]
  | .writeText path contents => .object [("contents", .string contents), ("path", .string path)]
  | .runProgram program arguments =>
    .object [("args", .list (arguments.map .string)), ("program", .string program)]

namespace Recorder

def take (recorder : Recorder) (exchange : Exchange) : Recorder :=
  recorder.record exchange.request.service exchange.request.method exchange.request.input
    exchange.output

def takeAll (recorder : Recorder) (exchanges : List Exchange) : Recorder :=
  exchanges.foldl take recorder

theorem interactions_takeAll (recorder : Recorder) (exchanges : List Exchange) :
    ∃ taken, (recorder.takeAll exchanges).interactions = recorder.interactions ++ taken ∧
      List.Forall₂ Interaction.Keeps taken exchanges := by
  induction exchanges generalizing recorder with
  | nil => exact ⟨[], (List.append_nil _).symm, .nil⟩
  | cons exchange exchanges ih =>
    obtain ⟨taken, hTaken, hKeep⟩ := ih (recorder.take exchange)
    refine ⟨_ :: taken, hTaken.trans (List.append_assoc ..), .cons ⟨rfl, rfl, rfl, ?_⟩ hKeep⟩
    rintro path contents hRequest
    rw [hRequest]
    rfl

/-- What a recorder takes, it keeps. -/
theorem keeps_takeAll (name : String) (exchanges : List Exchange) (now : Timestamp) :
    List.Forall₂ Interaction.Keeps (((start name).takeAll exchanges).finish now).interactions
      exchanges := by
  obtain ⟨taken, hTaken, hKeep⟩ := (start name).interactions_takeAll exchanges
  change List.Forall₂ Interaction.Keeps ((start name).takeAll exchanges).interactions exchanges
  rw [hTaken]
  exact hKeep

end Recorder

end ProvideIndex
