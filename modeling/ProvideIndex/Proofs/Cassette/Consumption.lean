import ProvideIndex.Proofs.Cassette.Ports

/-!
# What a replayed run takes from its cassette

A run that is replayed without a fault gets the reply to each request from the next interaction of
the queue of that request. So of each queue it has taken the first interactions, one for each
request, in the order of the requests.

* `execute_takes`: what is taken from each queue of a service and what is left of it.
* `execute_start_takes`: the same for the replay of a cassette from its start.
-/

namespace ProvideIndex

def Port.service : Port → String
  | .files => "fs"
  | .programs => "shell"

theorem Port.service_ne {port other : Port} (h : port ≠ other) : port.service ≠ other.service := by
  cases port with
  | files => cases other with
    | files => exact absurd rfl h
    | programs => decide
  | programs => cases other with
    | files => decide
    | programs => exact absurd rfl h

theorem Request.service_eq (request : Request) : request.service = request.port.service := by
  cases request <;> rfl

/-- Whether the reply of an exchange is what its request makes of the interaction. -/
def Interaction.Answers (interaction : Interaction) (exchange : Exchange) : Prop :=
  Replay.replyTo exchange.request interaction = .inr exchange.reply

namespace Replay

variable {α : Type} {port : Port}

theorem isFor_of_port_ne {exchange : Exchange} (h : exchange.request.port ≠ port)
    (method : String) : exchange.isFor port.service method = false := by
  rw [Exchange.isFor, Request.service_eq, Bool.and_eq_false_iff]
  exact .inl (beq_false_of_ne (Port.service_ne h))

/-- A run without a fault has taken the first interactions of each queue, one for each request. -/
theorem execute_takes (run : Run α) {state : ReplayState} {replayer : Replayer}
    (hTape : state.tape port = some replayer)
    (hEnding : ∀ fault, (run.execute world state).ending ≠ .broken fault) :
    ∃ left, (run.execute world state).state.tape port = some left ∧
      ∀ method, ∃ taken,
        replayer.queue port.service method = taken ++ left.queue port.service method ∧
          List.Forall₂ Interaction.Answers taken
            ((run.execute world state).exchanges.filter (Exchange.isFor port.service method)) := by
  induction run generalizing state replayer with
  | done result => exact ⟨replayer, hTape, fun method => ⟨[], rfl, .nil⟩⟩
  | fail failure => exact ⟨replayer, hTape, fun method => ⟨[], rfl, .nil⟩⟩
  | report event rest ih => exact ih hTape hEnding
  | ask request rest ih =>
    have hAnswered : world.answer request state = answer request state := rfl
    rw [Run.execute, hAnswered] at hEnding ⊢
    rcases answer_cases request state with
      ⟨found, next, first, others, hFound, hQueue, hAnswer, hNext, hOther⟩ |
      ⟨_, -, -, hAnswer⟩ | ⟨-, hAnswer⟩
    · rw [hAnswer] at hEnding ⊢
      cases hReply : replyTo request first with
      | inl fault =>
        rw [hReply] at hEnding
        exact absurd rfl (hEnding fault)
      | inr reply =>
        rw [hReply] at hEnding
        by_cases hPort : request.port = port
        · subst hPort
          cases hFound.symm.trans hTape
          obtain ⟨left, hLeft, hTaken⟩ := ih reply (ReplayState.tape_setTape ..) hEnding
          refine ⟨left, hLeft, fun method => ?_⟩
          obtain ⟨taken, hSplit, hAnswers⟩ := hTaken method
          rw [← Request.service_eq] at hSplit hAnswers ⊢
          by_cases hMethod : method = request.method
          · subst hMethod
            have hFor : Exchange.isFor request.service request.method ⟨request, reply⟩ = true := by
              simp [Exchange.isFor]
            refine ⟨first :: taken, ?_, ?_⟩
            · rw [List.cons_append, ← hSplit]
              exact hQueue.trans (congrArg _ hNext.symm)
            · rw [List.filter_cons_of_pos hFor]
              exact .cons hReply hAnswers
          · have hNot : ¬Exchange.isFor request.service method ⟨request, reply⟩ = true := by
              simp [Exchange.isFor, Ne.symm hMethod]
            have hKey : (request.service, method) ≠ request.key := fun h =>
              hMethod (Prod.mk.inj h).2
            refine ⟨taken, (hOther _ hKey).symm.trans hSplit, ?_⟩
            rw [List.filter_cons_of_neg hNot]
            exact hAnswers
        · have hKept : (state.setTape request.port (some next)).tape port = some replayer :=
            (ReplayState.tape_setTape_of_ne (Ne.symm hPort) ..).trans hTape
          obtain ⟨left, hLeft, hTaken⟩ := ih reply hKept hEnding
          refine ⟨left, hLeft, fun method => ?_⟩
          rw [List.filter_cons_of_neg (Bool.eq_false_iff.mp (isFor_of_port_ne hPort method))]
          exact hTaken method
    · rw [hAnswer] at hEnding
      exact absurd rfl (hEnding _)
    · rw [hAnswer] at hEnding
      exact absurd rfl (hEnding _)

/-- What a run without a fault takes from a cassette. -/
theorem execute_start_takes (run : Run α) (cassette : Cassette)
    (hEnding : ∀ fault, (run.execute world (start cassette)).ending ≠ .broken fault)
    (port : Port) :
    ∃ left, (run.execute world (start cassette)).state.tape port = some left ∧
      ∀ method, ∃ taken,
        cassette.recorded (port.service, method) = taken ++ left.queue port.service method ∧
          List.Forall₂ Interaction.Answers taken
            ((run.execute world (start cassette)).exchanges.filter
              (Exchange.isFor port.service method)) := by
  exact execute_takes run (tape_start cassette port) hEnding

/-- A run that ends well and asks nothing of a method leaves all that is recorded of it. -/
theorem exists_tape_of_unasked {run : Run α} {cassette : Cassette} {result : α}
    (h : (run.execute world (start cassette)).ending = .done result) (port : Port) {method : String}
    (hNone : (run.execute world (start cassette)).exchanges.filter
      (Exchange.isFor port.service method) = []) :
    ∃ left, (run.execute world (start cassette)).state.tape port = some left ∧
      left.queue port.service method = cassette.recorded (port.service, method) := by
  have hEnding : ∀ fault, (run.execute world (start cassette)).ending ≠ .broken fault := by
    intro fault hBroken
    rw [h] at hBroken
    cases hBroken
  obtain ⟨left, hLeft, hTaken⟩ := execute_start_takes run cassette hEnding port
  obtain ⟨taken, hSplit, hAnswers⟩ := hTaken method
  rw [hNone, List.forall₂_nil_right_iff] at hAnswers
  subst hAnswers
  exact ⟨left, hLeft, hSplit.symm⟩

end Replay

end ProvideIndex
