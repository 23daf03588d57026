import ProvideIndex.Proofs.Cassette.Calls
import ProvideIndex.Proofs.Cassette.Fidelity

/-!
# The two services of a replay

The file system and the programs are replayed from two tapes of the same cassette. A request looks
at the tape of its own service, where its method finds a queue. It takes the first interaction of
that queue, whatever it makes of it; with no interaction there the tape stops for good.

* `answerFrom_of_queue`, `answerFrom_of_queue_nil`, `answerFrom_none`: all that one request can do.
* `answers_filter`: each service is answered as if the other were never asked.
* `answers_like`: paths, programs and arguments make no difference.
* `blocked_of_stopped`: a tape that has stopped answers nothing more.
* `tape_answerAll`: a tape stops only at a request that finds its queue empty.
* `failStop`: all of this for the replay of a cassette.
-/

namespace ProvideIndex

/-- The services that replay a cassette on their own. -/
inductive Port where
  | files | programs
  deriving DecidableEq, Repr

def Request.port : Request → Port
  | runProgram _ _ => .programs
  | _ => .files

/-- The queue from which a request is answered. -/
def Request.key (request : Request) : String × String := (request.service, request.method)

namespace ReplayState

def tape (state : ReplayState) : Port → Tape
  | .files => state.files
  | .programs => state.programs

def setTape (state : ReplayState) (port : Port) (tape : Tape) : ReplayState :=
  match port with
  | .files => { state with files := tape }
  | .programs => { state with programs := tape }

@[simp] theorem tape_setTape (state : ReplayState) (port : Port) (tape : Tape) :
    (state.setTape port tape).tape port = tape := by
  cases port <;> rfl

theorem tape_setTape_of_ne {port other : Port} (h : other ≠ port) (state : ReplayState)
    (tape : Tape) : (state.setTape port tape).tape other = state.tape other := by
  cases port with
  | files => cases other with
    | files => exact absurd rfl h
    | programs => rfl
  | programs => cases other with
    | files => rfl
    | programs => exact absurd rfl h

theorem setTape_tape (state : ReplayState) (port : Port) :
    state.setTape port (state.tape port) = state := by
  cases port <;> rfl

end ReplayState

namespace Replay

/-! ### One request -/

/-- What a request makes of the interaction that it takes. -/
def replyTo : (request : Request) → Interaction → ReplayFault ⊕ request.Reply
  | .fileExists _, one => existsReply one
  | .listFiles _, one => .inr (one.output.extract "walk_files" Value.asTexts)
  | .readText _, one => .inr (one.output.extract "read_to_string" Value.asText)
  | .writeText path contents, one => .inr (writeReply path contents one)
  | .runProgram _ _, one => .inr (programReply one)

/-- The answer to a request from a tape, and what is left of the tape. -/
def answerFrom (request : Request) (tape : Tape) : (ReplayFault ⊕ request.Reply) × Tape :=
  tape.answer request.service request.method (replyTo request)

theorem answer_eq (request : Request) (state : ReplayState) :
    answer request state =
      ((answerFrom request (state.tape request.port)).1,
        state.setTape request.port (answerFrom request (state.tape request.port)).2) := by
  cases request <;> rfl

section One

variable {request : Request} {replayer : Replayer}

/-- A request takes the first interaction of its queue, whatever it makes of it. -/
theorem answerFrom_of_queue {first : Interaction} {rest : List Interaction}
    (h : replayer.queue request.key.1 request.key.2 = first :: rest) :
    answerFrom request (some replayer) =
      (replyTo request first, some (replayer.advance request.key.1 request.key.2)) := by
  have hNext : replayer.next request.service request.method =
      .ok (first, replayer.advance request.key.1 request.key.2) := Replayer.next_of_queue h
  rw [answerFrom, Tape.answer, Tape.next, hNext]

/-- With no interaction in its queue, a request stops the tape. -/
theorem answerFrom_of_queue_nil (h : replayer.queue request.key.1 request.key.2 = []) :
    answerFrom request (some replayer) =
      (.inl (.exhausted (replayer.exhaustion request.key)), none) := by
  have hNext : replayer.next request.service request.method =
      .error (replayer.exhaustion request.key) := Replayer.next_of_queue_nil h
  rw [answerFrom, Tape.answer, Tape.next, hNext]

/-- A tape that has stopped answers nothing more. -/
theorem answerFrom_none (request : Request) :
    answerFrom request none = (.inl .blocked, none) := rfl

end One

/-! ### Any number of requests -/

/-- A request with the answer that it got. -/
structure Answered where
  request : Request
  answer : ReplayFault ⊕ request.Reply

/-- The answers to requests, in order, and the state that they leave. -/
def answerAll : List Request → ReplayState → List Answered × ReplayState
  | [], state => ([], state)
  | request :: requests, state =>
    let (reply, next) := answer request state
    let (replies, last) := answerAll requests next
    (⟨request, reply⟩ :: replies, last)

theorem answerAll_cons (request : Request) (requests : List Request) (state : ReplayState) :
    answerAll (request :: requests) state =
      (⟨request, (answer request state).1⟩ :: (answerAll requests (answer request state).2).1,
        (answerAll requests (answer request state).2).2) := rfl

theorem tape_answer_of_ne {port : Port} (h : port ≠ request.port) (state : ReplayState) :
    (answer request state).2.tape port = state.tape port := by
  rw [answer_eq]
  exact ReplayState.tape_setTape_of_ne h ..

/-! ### Each service by itself -/

/-- The answers of a service depend on its own tape and on the requests to it alone. -/
theorem answers_filter (requests : List Request) {port : Port} {state other : ReplayState}
    (h : state.tape port = other.tape port) :
    (answerAll requests state).1.filter (fun one => one.request.port = port) =
      (answerAll (requests.filter fun request => request.port = port) other).1 := by
  induction requests generalizing state other with
  | nil => rfl
  | cons request requests ih =>
    by_cases hPort : request.port = port
    · subst hPort
      have hAnswer : answerFrom request (state.tape request.port) =
          answerFrom request (other.tape request.port) := by rw [h]
      rw [List.filter_cons_of_pos (by simp), answerAll_cons, answerAll_cons, answer_eq,
        answer_eq, hAnswer, List.filter_cons_of_pos (by simp)]
      refine congrArg _ (ih ?_)
      rw [ReplayState.tape_setTape, ReplayState.tape_setTape]
    · rw [List.filter_cons_of_neg (by simpa using hPort), answerAll_cons,
        List.filter_cons_of_neg (by simpa using hPort)]
      exact ih ((tape_answer_of_ne (Ne.symm hPort) state).trans h)

/-! ### What does not matter -/

end Replay

/-- Whether two requests call the same method, with the same contents if they write. -/
inductive Request.Like : Request → Request → Prop
  | fileExists (path other : String) : Like (.fileExists path) (.fileExists other)
  | listFiles (root other : String) : Like (.listFiles root) (.listFiles other)
  | readText (path other : String) : Like (.readText path) (.readText other)
  | writeText (path other contents : String) :
    Like (.writeText path contents) (.writeText other contents)
  | runProgram (program other : String) (arguments others : List String) :
    Like (.runProgram program arguments) (.runProgram other others)

namespace Replay

/-- What is said of a write to `path` with other contents than the interaction at `seq` has. -/
def differing (path : String) (seq : UInt64) : String :=
  "fs::write_atomic: contents written to " ++ path ++ " differ from the recording (seq=" ++
    toString seq ++ ")"

/-- Whether two requests got the same answer, but for the path of contents that differ. -/
inductive Answered.Like : Answered → Answered → Prop
  | fault {request other : Request} (h : request.Like other) (fault : ReplayFault) :
    Like ⟨request, .inl fault⟩ ⟨other, .inl fault⟩
  | fileExists (path other : String) (found : Bool) :
    Like ⟨.fileExists path, .inr found⟩ ⟨.fileExists other, .inr found⟩
  | listFiles (root other : String) (reply : Except String (List String)) :
    Like ⟨.listFiles root, .inr reply⟩ ⟨.listFiles other, .inr reply⟩
  | readText (path other : String) (reply : Except String String) :
    Like ⟨.readText path, .inr reply⟩ ⟨.readText other, .inr reply⟩
  | writeText (path other contents : String) (reply : Except String Unit) :
    Like ⟨.writeText path contents, .inr reply⟩ ⟨.writeText other contents, .inr reply⟩
  | differing (path other contents : String) (seq : UInt64) :
    Like ⟨.writeText path contents, .inr (.error (differing path seq))⟩
      ⟨.writeText other contents, .inr (.error (differing other seq))⟩
  | runProgram (program other : String) (arguments others : List String)
      (reply : Except String ProgramOutput) :
    Like ⟨.runProgram program arguments, .inr reply⟩ ⟨.runProgram other others, .inr reply⟩

variable {request other : Request}

theorem port_eq_of_like (h : request.Like other) : request.port = other.port := by
  cases h <;> rfl

theorem key_eq_of_like (h : request.Like other) : request.key = other.key := by
  cases h <;> rfl

/-- A write is refused for its contents with the path that was asked for, or it does not show. -/
theorem writeReply_like (path other contents : String) (one : Interaction) :
    Answered.Like ⟨.writeText path contents, .inr (writeReply path contents one)⟩
      ⟨.writeText other contents, .inr (writeReply other contents one)⟩ := by
  rw [writeReply, writeReply]
  cases one.output.refusal? with
  | some cause => exact .writeText ..
  | none =>
    cases (one.input.field? "contents").bind Value.string? with
    | none => exact .writeText ..
    | some recorded =>
      by_cases h : recorded = contents
      · simp only [if_pos h]
        exact .writeText ..
      · simp only [if_neg h]
        exact .differing path other contents one.seq

theorem replyTo_like (h : request.Like other) (one : Interaction) :
    Answered.Like ⟨request, replyTo request one⟩ ⟨other, replyTo other one⟩ := by
  cases h with
  | fileExists path other =>
    rw [replyTo, replyTo, existsReply]
    cases one.output.bool? with
    | none => exact .fault (.fileExists ..) _
    | some found => exact .fileExists ..
  | listFiles root other => exact .listFiles ..
  | readText path other => exact .readText ..
  | writeText path other contents => exact writeReply_like path other contents one
  | runProgram program other arguments others => exact .runProgram ..

/-- Requests that are alike take alike from the same tape. -/
theorem answerFrom_like (h : request.Like other) (tape : Tape) :
    Answered.Like ⟨request, (answerFrom request tape).1⟩ ⟨other, (answerFrom other tape).1⟩ ∧
      (answerFrom request tape).2 = (answerFrom other tape).2 := by
  have hKey := key_eq_of_like h
  cases tape with
  | none => exact ⟨.fault h .blocked, rfl⟩
  | some replayer =>
    cases hQueue : replayer.queue request.key.1 request.key.2 with
    | nil =>
      have hOther : replayer.queue other.key.1 other.key.2 = [] := hKey ▸ hQueue
      rw [answerFrom_of_queue_nil hQueue, answerFrom_of_queue_nil hOther, hKey]
      exact ⟨.fault h _, rfl⟩
    | cons first rest =>
      have hOther : replayer.queue other.key.1 other.key.2 = first :: rest := hKey ▸ hQueue
      rw [answerFrom_of_queue hQueue, answerFrom_of_queue hOther, hKey]
      exact ⟨replyTo_like h first, rfl⟩

theorem answers_like {requests others : List Request} (h : List.Forall₂ Request.Like requests others)
    (state : ReplayState) :
    List.Forall₂ Answered.Like (answerAll requests state).1 (answerAll others state).1 := by
  induction h generalizing state with
  | nil => exact .nil
  | @cons request other requests others hFirst hRest ih =>
    obtain ⟨hAnswer, hTape⟩ := answerFrom_like hFirst (state.tape request.port)
    have hPort := port_eq_of_like hFirst
    rw [answerAll_cons, answerAll_cons, answer_eq, answer_eq, ← hPort, hTape]
    exact .cons hAnswer (ih _)

/-! ### What an answer takes -/

theorem tape_answer_self (request : Request) (state : ReplayState) :
    (answer request state).2.tape request.port =
      (answerFrom request (state.tape request.port)).2 := by
  rw [answer_eq, ReplayState.tape_setTape]

/-- The only fault that lies in an interaction is that it has no truth value. -/
theorem fault_of_replyTo {request : Request} {one : Interaction} {fault : ReplayFault}
    (h : replyTo request one = .inl fault) :
    fault = .noTruthValue ∧ request.method = "exists" ∧ one.output.bool? = none := by
  cases request with
  | fileExists path =>
    rw [replyTo, existsReply] at h
    cases hOutput : one.output.bool? with
    | none =>
      rw [hOutput] at h
      cases h
      exact ⟨rfl, rfl, rfl⟩
    | some found =>
      rw [hOutput] at h
      cases h
  | listFiles root | readText path | writeText path contents | runProgram program arguments =>
    cases h

/--
Whether a request takes exactly one interaction, the first of its queue, is answered from it, and
leaves all else to be replayed as it was.
-/
def TakesFirst (request : Request) (state : ReplayState) : Prop :=
  ∃ replayer left first rest,
    state.tape request.port = some replayer ∧
      replayer.queue request.key.1 request.key.2 = first :: rest ∧
      answer request state = (replyTo request first, state.setTape request.port (some left)) ∧
      left.queue request.key.1 request.key.2 = rest ∧
      ∀ key, key ≠ request.key → left.queue key.1 key.2 = replayer.queue key.1 key.2

/-- Whether a request finds its queue empty and stops its tape. -/
def Stops (request : Request) (state : ReplayState) : Prop :=
  ∃ replayer,
    state.tape request.port = some replayer ∧
      replayer.queue request.key.1 request.key.2 = [] ∧
      answer request state =
        (.inl (.exhausted (replayer.exhaustion request.key)), state.setTape request.port none)

/-- Whether a request finds its tape stopped and leaves everything as it is. -/
def IsBlocked (request : Request) (state : ReplayState) : Prop :=
  state.tape request.port = none ∧ answer request state = (.inl .blocked, state)

theorem answer_cases (request : Request) (state : ReplayState) :
    TakesFirst request state ∨ Stops request state ∨ IsBlocked request state := by
  cases hTape : state.tape request.port with
  | none =>
    refine .inr (.inr ⟨hTape, ?_⟩)
    rw [answer_eq, hTape, answerFrom_none, ← hTape, ReplayState.setTape_tape]
  | some replayer =>
    cases hQueue : replayer.queue request.key.1 request.key.2 with
    | nil =>
      refine .inr (.inl ⟨replayer, hTape, hQueue, ?_⟩)
      rw [answer_eq, hTape, answerFrom_of_queue_nil hQueue]
    | cons first rest =>
      have hCall := Replayer.call_snd request.key replayer
      have hLeft := Replayer.queue_call request.key request.key replayer
      rw [hCall, if_pos rfl, hQueue] at hLeft
      refine .inl ⟨replayer, _, first, rest, hTape, hQueue, ?_, hLeft, fun key hKey => ?_⟩
      · rw [answer_eq, hTape, answerFrom_of_queue hQueue]
      · have hOther := Replayer.queue_call request.key key replayer
        rwa [hCall, if_neg (Ne.symm hKey)] at hOther

/-- What is neither exhausted nor blocked has taken an interaction, be it for a refusal. -/
theorem takesFirst_of_ne {request : Request} {state : ReplayState}
    (hExhausted : ∀ cause, (answer request state).1 ≠ .inl (.exhausted cause))
    (hBlocked : (answer request state).1 ≠ .inl .blocked) : TakesFirst request state := by
  rcases answer_cases request state with h | ⟨replayer, -, -, hAnswer⟩ | ⟨-, hAnswer⟩
  · exact h
  · exact absurd (congrArg Prod.fst hAnswer) (hExhausted _)
  · exact absurd (congrArg Prod.fst hAnswer) hBlocked

theorem stops_of_exhausted {request : Request} {state : ReplayState} {cause : Exhaustion}
    (h : (answer request state).1 = .inl (.exhausted cause)) : Stops request state := by
  rcases answer_cases request state with ⟨_, _, _, _, -, -, hAnswer, -⟩ | hStops | ⟨-, hAnswer⟩
  · rw [hAnswer] at h
    cases (fault_of_replyTo h).1
  · exact hStops
  · rw [hAnswer] at h
    cases h

theorem isBlocked_of_blocked {request : Request} {state : ReplayState}
    (h : (answer request state).1 = .inl .blocked) : IsBlocked request state := by
  rcases answer_cases request state with ⟨_, _, _, _, -, -, hAnswer, -⟩ | ⟨_, -, -, hAnswer⟩ |
    hBlocked
  · rw [hAnswer] at h
    cases (fault_of_replyTo h).1
  · rw [hAnswer] at h
    cases h
  · exact hBlocked

/-! ### Tapes that stop -/

/-- A tape that has stopped answers nothing more, whatever is asked of the other. -/
theorem blocked_of_stopped (requests : List Request) {port : Port} {state : ReplayState}
    (h : state.tape port = none) :
    ∀ one ∈ (answerAll requests state).1, one.request.port = port → one.answer = .inl .blocked := by
  induction requests generalizing state with
  | nil => simp [answerAll]
  | cons request requests ih =>
    have hNext : (answer request state).2.tape port = none := by
      by_cases hPort : port = request.port
      · subst hPort
        rw [tape_answer_self, h, answerFrom_none]
      · rw [tape_answer_of_ne hPort, h]
    rw [answerAll_cons, List.forall_mem_cons]
    refine ⟨fun hPort => ?_, ih hNext⟩
    subst hPort
    rw [answer_eq, h, answerFrom_none]

/-- After an answer that exhausts a queue, its service answers nothing more. -/
theorem blocked_of_exhausted {requests : List Request} {state : ReplayState}
    {earlier later : List Answered} {request : Request} {cause : Exhaustion}
    (h : (answerAll requests state).1 = earlier ++ ⟨request, .inl (.exhausted cause)⟩ :: later) :
    ∀ one ∈ later, one.request.port = request.port → one.answer = .inl .blocked := by
  induction requests generalizing state earlier with
  | nil => simp [answerAll] at h
  | cons first requests ih =>
    rw [answerAll_cons] at h
    cases earlier with
    | cons answered earlier => exact ih (List.cons_eq_cons.mp h).2
    | nil =>
      obtain ⟨hFirst, hLater⟩ := List.cons_eq_cons.mp h
      obtain ⟨rfl, hAnswer⟩ := Answered.mk.inj hFirst
      obtain ⟨_, -, -, hStops⟩ := stops_of_exhausted (eq_of_heq hAnswer)
      rw [← hLater, hStops]
      exact blocked_of_stopped requests (ReplayState.tape_setTape ..)

/-! ### Tapes that go on -/

/-- What a request makes of the answer of its queue. -/
def answerOf (request : Request) : Except Exhaustion Interaction → ReplayFault ⊕ request.Reply
  | .ok one => replyTo request one
  | .error cause => .inl (.exhausted cause)

/-- A request is a call for its queue, after which the tape goes on if there was an interaction. -/
theorem answerFrom_some (request : Request) (replayer : Replayer) :
    (answerFrom request (some replayer)).1 = answerOf request (replayer.call request.key).1 ∧
      ((answerFrom request (some replayer)).2 = some (replayer.call request.key).2 ∨
        ∃ cause, (answerFrom request (some replayer)).1 = .inl (.exhausted cause)) := by
  cases hQueue : replayer.queue request.key.1 request.key.2 with
  | nil =>
    rw [answerFrom_of_queue_nil hQueue, Replayer.call_of_queue_nil hQueue]
    exact ⟨rfl, .inr ⟨_, rfl⟩⟩
  | cons first rest =>
    rw [answerFrom_of_queue hQueue, Replayer.call_of_queue hQueue]
    exact ⟨rfl, .inl rfl⟩

/-- The queues from which the requests to a service are answered. -/
def keysFor (port : Port) (requests : List Request) : List (String × String) :=
  (requests.filter fun request => request.port = port).map Request.key

/-- Whether a request to a service found its queue empty. -/
def Exhausted (port : Port) (answers : List Answered) : Prop :=
  ∃ one ∈ answers, one.request.port = port ∧ ∃ cause, one.answer = .inl (.exhausted cause)

/-- A tape has answered the calls of all requests to it, unless one of them was exhausted. -/
theorem tape_answerAll (requests : List Request) {port : Port} {state : ReplayState}
    {replayer : Replayer} (h : state.tape port = some replayer) :
    (answerAll requests state).2.tape port = some (replayer.callAll (keysFor port requests)).2 ∨
      Exhausted port (answerAll requests state).1 := by
  induction requests generalizing state replayer with
  | nil => exact .inl h
  | cons request requests ih =>
    rw [answerAll_cons]
    by_cases hPort : request.port = port
    · subst hPort
      have hKeys : keysFor request.port (request :: requests) =
          request.key :: keysFor request.port requests := by
        rw [keysFor, List.filter_cons_of_pos (by simp), List.map_cons]
        rfl
      rw [hKeys, Replayer.callAll_cons]
      have hNext := tape_answer_self request state
      rcases (answerFrom_some request replayer).2 with hTape | ⟨cause, hCause⟩
      · rw [h, hTape] at hNext
        exact (ih hNext).imp_right fun ⟨one, hOne, hRest⟩ =>
          ⟨one, List.mem_cons_of_mem _ hOne, hRest⟩
      · refine .inr ⟨_, List.mem_cons_self .., rfl, cause, ?_⟩
        rw [answer_eq, h]
        exact hCause
    · have hKeys : keysFor port (request :: requests) = keysFor port requests := by
        rw [keysFor, List.filter_cons_of_neg (by simpa using hPort)]
        rfl
      rw [hKeys]
      have hNext := (tape_answer_of_ne (Ne.symm hPort) state).trans h
      exact (ih hNext).imp_right fun ⟨one, hOne, hRest⟩ =>
        ⟨one, List.mem_cons_of_mem _ hOne, hRest⟩

theorem port_eq_of_key_eq {request other : Request} (h : request.key = other.key) :
    request.port = other.port := by
  cases request <;> cases other <;> first | rfl | simp [Request.key, Request.service] at h

/-- Only requests to its own service are for the queue of a request. -/
theorem count_keysFor (requests : List Request) (request : Request) :
    (keysFor request.port requests).count request.key =
      (requests.map Request.key).count request.key := by
  rw [keysFor, List.count_eq_countP, List.count_eq_countP, List.countP_map, List.countP_map,
    List.countP_filter]
  refine congrArg (List.countP · requests) (funext fun other => ?_)
  by_cases hKey : other.key = request.key
  · simp [hKey, port_eq_of_key_eq hKey]
  · simp [hKey]

/-! ### A cassette -/

/-- The answers to requests in a replay of a cassette, and the state that they leave. -/
def session (cassette : Cassette) (requests : List Request) : List Answered × ReplayState :=
  answerAll requests (start cassette)

/-- How the two services of a replay answer any requests. -/
structure FailStop (cassette : Cassette) : Prop where
  /-- Each service is answered as if the other were never asked. -/
  alone : ∀ requests port,
    (session cassette requests).1.filter (fun one => one.request.port = port) =
      (session cassette (requests.filter fun request => request.port = port)).1
  /-- Paths, programs and arguments make no difference, but for the path in one refusal. -/
  alike : ∀ requests others, List.Forall₂ Request.Like requests others →
    List.Forall₂ Answered.Like (session cassette requests).1 (session cassette others).1
  /-- A service that was asked for more than was recorded answers nothing more. -/
  stopped : ∀ requests earlier request cause later,
    (session cassette requests).1 = earlier ++ ⟨request, .inl (.exhausted cause)⟩ :: later →
      ∀ one ∈ later, one.request.port = request.port → one.answer = .inl .blocked
  /-- It comes to that only where a queue is empty. -/
  exhausted : ∀ requests request cause,
    (answer request (session cassette requests).2).1 = .inl (.exhausted cause) →
      Stops request (session cassette requests).2
  blocked : ∀ requests request,
    (answer request (session cassette requests).2).1 = .inl .blocked →
      IsBlocked request (session cassette requests).2
  /-- A replay begins unblocked, and a service is blocked only after one of its own requests. -/
  since : ∀ requests request,
    (answer request (session cassette requests).2).1 = .inl .blocked →
      Exhausted request.port (session cassette requests).1
  /-- Up to then a request is answered from its queue, at the place that its forerunners leave. -/
  served : ∃ names, cassette.Names names ∧ ∀ requests request,
    ¬Exhausted request.port (session cassette requests).1 →
      (answer request (session cassette requests).2).1 =
        answerOf request (cassette.answerTo names
          ((requests.map Request.key).count request.key) request.key)
  /-- Every other answer, a refusal or a missing truth value too, takes one interaction. -/
  taken : ∀ requests request,
    (∀ cause, (answer request (session cassette requests).2).1 ≠ .inl (.exhausted cause)) →
      (answer request (session cassette requests).2).1 ≠ .inl .blocked →
        TakesFirst request (session cassette requests).2

theorem tape_start (cassette : Cassette) (port : Port) :
    (start cassette).tape port = some (.ofCassette cassette) := by
  cases port <;> rfl

theorem exhausted_of_blocked {cassette : Cassette} {requests : List Request} {request : Request}
    (h : (answer request (session cassette requests).2).1 = .inl .blocked) :
    Exhausted request.port (session cassette requests).1 := by
  obtain ⟨hStopped, -⟩ := isBlocked_of_blocked h
  refine (tape_answerAll requests (tape_start cassette request.port)).resolve_left fun hTape => ?_
  have hNone : (answerAll requests (start cassette)).2.tape request.port = none := hStopped
  rw [hTape] at hNone
  cases hNone

theorem answer_of_unexhausted {cassette : Cassette} {requests : List Request} {request : Request}
    (h : ¬Exhausted request.port (session cassette requests).1) :
    (answer request (session cassette requests).2).1 =
      answerOf request (cassette.answerTo (Replayer.ofCassette cassette).knownNames
        ((requests.map Request.key).count request.key) request.key) := by
  have hTape : (session cassette requests).2.tape request.port =
      some (cassette.session (keysFor request.port requests)).2 :=
    (tape_answerAll requests (tape_start cassette request.port)).resolve_right h
  rw [answer_eq, hTape, (answerFrom_some ..).1, cassette.call_session, count_keysFor]

/--
The services of a replay are independent of each other, and each stops at its first exhaustion.
-/
theorem failStop (cassette : Cassette) : FailStop cassette where
  alone requests _ := answers_filter requests rfl
  alike _ _ h := answers_like h _
  stopped _ _ _ _ _ h := blocked_of_exhausted h
  exhausted _ _ _ h := stops_of_exhausted h
  blocked _ _ h := isBlocked_of_blocked h
  since _ _ h := exhausted_of_blocked h
  served := ⟨_, cassette.names_knownNames, fun _ _ h => answer_of_unexhausted h⟩
  taken _ _ hExhausted hBlocked := takesFirst_of_ne hExhausted hBlocked

/-- A recording of both services in which the file system does not say whether a file exists. -/
def unclearCassette : Cassette where
  name := "unclear"
  recordedAt := ⟨0, 0, 0⟩
  interactions :=
    [⟨0, "fs", "exists", .null, .null⟩,
      ⟨1, "fs", "read_to_string", .null, .accepted (.string "first")⟩,
      ⟨2, "shell", "run", .null, .accepted (.ofProgramOutput ⟨0, "formatted", ""⟩)⟩,
      ⟨3, "fs", "read_to_string", .null, .accepted (.string "second")⟩]

/--
A missing truth value leaves the file system to be asked on; asked for more than was recorded, it
stops with an interaction still to come, and the programs go on.
-/
theorem failStop_unclearCassette :
    FailStop unclearCassette ∧
      (session unclearCassette [.fileExists "/a", .readText "/b", .fileExists "/c", .readText "/d",
          .runProgram "go" ["fmt"]]).1 =
        [⟨.fileExists "/a", .inl .noTruthValue⟩, ⟨.readText "/b", .inr (.ok "first")⟩,
          ⟨.fileExists "/c", .inl (.exhausted (.consumed "fs" "exists"))⟩,
          ⟨.readText "/d", .inl .blocked⟩,
          ⟨.runProgram "go" ["fmt"], .inr (.ok ⟨0, "formatted", ""⟩)⟩] :=
  ⟨failStop unclearCassette, rfl⟩

end Replay

end ProvideIndex
