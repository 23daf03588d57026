import ProvideIndex.Run

/-!
# The courses of a run

A course of a run is what shows of it from outside while every request is answered: the answered
requests in order, the events in order, and the result. A course knows nothing of the world that
answers, so what holds of every course of a run holds in every world.

* `course_bind`: a course of two runs in a row is a course of the first that fails, or a course of
  the first and then one of the second.
* `course_of_ending`, `course_execute`: a world that lets a run end, as one that always answers does,
  leads it along one of its courses.
* `exists_answer_of_mem`: every exchange of an execution was answered by the world, in some state.
* `passage_execute`: the exchanges of an execution lead its world from the first state to the last.
-/

namespace ProvideIndex

variable {α β σ ε : Type}

/-- The result of a run in a world that always answers. -/
def Ending.result : Ending Empty α → Except Failure α
  | .done result => .ok result
  | .failed failure => .error failure
  | .broken cause => cause.elim

/-- The ending with this result; it is not broken. -/
def Ending.ofResult : Except Failure α → Ending ε α
  | .ok result => .done result
  | .error failure => .failed failure

theorem Ending.ofResult_result (ending : Ending Empty α) : .ofResult ending.result = ending := by
  cases ending with
  | done result => rfl
  | failed failure => rfl
  | broken cause => exact cause.elim

theorem Ending.result_eq_ok {ending : Ending Empty α} {a : α} :
    ending.result = .ok a ↔ ending = .done a := by
  cases ending with
  | done result => simp [Ending.result]
  | failed failure => simp [Ending.result]
  | broken cause => exact cause.elim

theorem Ending.result_eq_error {ending : Ending Empty α} {failure : Failure} :
    ending.result = .error failure ↔ ending = .failed failure := by
  cases ending with
  | done result => simp [Ending.result]
  | failed cause => simp [Ending.result]
  | broken cause => exact cause.elim

/-- What a run and the run that goes on from its result come to together. -/
def Outcome.andThen (first : Outcome ε σ α) (next : α → σ → Outcome ε σ β) : Outcome ε σ β :=
  match first.ending with
  | .done a =>
    ⟨(next a first.state).ending, first.exchanges ++ (next a first.state).exchanges,
      first.events ++ (next a first.state).events, (next a first.state).state⟩
  | .failed failure => ⟨.failed failure, first.exchanges, first.events, first.state⟩
  | .broken cause => ⟨.broken cause, first.exchanges, first.events, first.state⟩

namespace Run

inductive Course : Run α → List Exchange → List Event → Except Failure α → Prop
  | done (result : α) : Course (.done result) [] [] (.ok result)
  | fail (failure : Failure) : Course (.fail failure) [] [] (.error failure)
  | report {event : Event} {rest : Run α} {exchanges : List Exchange} {events : List Event}
      {result : Except Failure α} (h : Course rest exchanges events result) :
      Course (.report event rest) exchanges (event :: events) result
  | ask {request : Request} {rest : request.Reply → Run α} {reply : request.Reply}
      {exchanges : List Exchange} {events : List Event} {result : Except Failure α}
      (h : Course (rest reply) exchanges events result) :
      Course (.ask request rest) (⟨request, reply⟩ :: exchanges) events result

variable {exchanges : List Exchange} {events : List Event}

/-! ### Courses of each form of run -/

theorem course_done {a : α} {result : Except Failure α} :
    Course (.done a) exchanges events result ↔ exchanges = [] ∧ events = [] ∧ result = .ok a := by
  constructor
  · intro h
    cases h
    exact ⟨rfl, rfl, rfl⟩
  · rintro ⟨rfl, rfl, rfl⟩
    exact .done a

theorem course_fail {failure : Failure} {result : Except Failure α} :
    Course (.fail failure) exchanges events result ↔
      exchanges = [] ∧ events = [] ∧ result = .error failure := by
  constructor
  · intro h
    cases h
    exact ⟨rfl, rfl, rfl⟩
  · rintro ⟨rfl, rfl, rfl⟩
    exact .fail failure

theorem course_report {event : Event} {rest : Run α} {result : Except Failure α} :
    Course (.report event rest) exchanges events result ↔
      ∃ later, Course rest exchanges later result ∧ events = event :: later := by
  constructor
  · intro h
    cases h with
    | report h => exact ⟨_, h, rfl⟩
  · rintro ⟨later, h, rfl⟩
    exact .report h

theorem course_ask {request : Request} {rest : request.Reply → Run α}
    {result : Except Failure α} :
    Course (.ask request rest) exchanges events result ↔
      ∃ reply later, Course (rest reply) later events result ∧
        exchanges = ⟨request, reply⟩ :: later := by
  constructor
  · intro h
    cases h with
    | ask h => exact ⟨_, _, h, rfl⟩
  · rintro ⟨reply, later, h, rfl⟩
    exact .ask h

theorem course_request {r : Request} {f : r.Reply → Run α} {result : Except Failure α} :
    Course (Run.request r >>= f) exchanges events result ↔
      ∃ reply later, Course (f reply) later events result ∧ exchanges = ⟨r, reply⟩ :: later :=
  course_ask

theorem course_reportAll {all : List Event} {f : Unit → Run α} {result : Except Failure α} :
    Course (Run.reportAll all >>= f) exchanges events result ↔
      ∃ later, Course (f ()) exchanges later result ∧ events = all ++ later := by
  induction all generalizing events with
  | nil => exact ⟨fun h => ⟨events, h, rfl⟩, fun ⟨_, h, hEq⟩ => hEq ▸ h⟩
  | cons event all ih =>
    constructor
    · intro h
      obtain ⟨_, hRest, rfl⟩ := course_report.mp h
      obtain ⟨later, hLater, rfl⟩ := ih.mp hRest
      exact ⟨later, hLater, rfl⟩
    · rintro ⟨later, h, rfl⟩
      exact .report (ih.mpr ⟨later, h, rfl⟩)

/-- Two runs in a row: the first fails, or it ends and the second goes on from its result. -/
theorem course_bind {run : Run α} {f : α → Run β} {result : Except Failure β} :
    Course (run >>= f) exchanges events result ↔
      (∃ failure, Course run exchanges events (.error failure) ∧ result = .error failure) ∨
        ∃ a first second firstEvents secondEvents, Course run first firstEvents (.ok a) ∧
          Course (f a) second secondEvents result ∧ exchanges = first ++ second ∧
          events = firstEvents ++ secondEvents := by
  change Course (run.bind f) exchanges events result ↔ _
  induction run generalizing exchanges events with
  | done a =>
    simp only [Run.bind, course_done]
    constructor
    · intro h
      exact .inr ⟨a, [], exchanges, [], events, ⟨rfl, rfl, rfl⟩, h, rfl, rfl⟩
    · rintro (⟨failure, ⟨-, -, h⟩, -⟩ | ⟨_, _, _, _, _, ⟨rfl, rfl, h⟩, h', rfl, rfl⟩)
      · cases h
      · cases h
        exact h'
  | fail failure =>
    simp only [Run.bind, course_fail]
    constructor
    · rintro ⟨rfl, rfl, rfl⟩
      exact .inl ⟨failure, ⟨rfl, rfl, rfl⟩, rfl⟩
    · rintro (⟨_, ⟨rfl, rfl, h⟩, rfl⟩ | ⟨_, _, _, _, _, ⟨-, -, h⟩, -⟩)
      · cases h
        exact ⟨rfl, rfl, rfl⟩
      · cases h
  | report event rest ih =>
    simp only [Run.bind, course_report, ih]
    constructor
    · rintro ⟨later, ⟨failure, h, rfl⟩ | ⟨a, first, second, es, later', h, h', rfl, rfl⟩, rfl⟩
      · exact .inl ⟨failure, ⟨later, h, rfl⟩, rfl⟩
      · exact .inr ⟨a, first, second, event :: es, later', ⟨es, h, rfl⟩, h', rfl, rfl⟩
    · rintro (⟨failure, ⟨later, h, rfl⟩, rfl⟩ |
        ⟨a, first, second, _, later', ⟨es, h, rfl⟩, h', rfl, rfl⟩)
      · exact ⟨later, .inl ⟨failure, h, rfl⟩, rfl⟩
      · exact ⟨es ++ later', .inr ⟨a, first, second, es, later', h, h', rfl, rfl⟩, rfl⟩
  | ask request rest ih =>
    simp only [Run.bind, course_ask, ih]
    constructor
    · rintro ⟨reply, later, ⟨failure, h, rfl⟩ | ⟨a, first, second, es, later', h, h', rfl, rfl⟩,
        rfl⟩
      · exact .inl ⟨failure, ⟨reply, later, h, rfl⟩, rfl⟩
      · exact .inr ⟨a, _ :: first, second, es, later', ⟨reply, first, h, rfl⟩, h', rfl, rfl⟩
    · rintro (⟨failure, ⟨reply, later, h, rfl⟩, rfl⟩ |
        ⟨a, _, second, es, later', ⟨reply, first, h, rfl⟩, h', rfl, rfl⟩)
      · exact ⟨reply, later, .inl ⟨failure, h, rfl⟩, rfl⟩
      · exact ⟨reply, first ++ second, .inr ⟨a, first, second, es, later', h, h', rfl, rfl⟩, rfl⟩

/-! ### Executions -/

/-- A run that its world lets come to an end goes along a course of its own. -/
theorem course_of_ending {world : World ε σ} {run : Run α} {state : σ} {result : Except Failure α}
    (h : (run.execute world state).ending = .ofResult result) :
    Course run (run.execute world state).exchanges (run.execute world state).events result := by
  induction run generalizing state with
  | done a =>
    cases result with
    | ok b =>
      cases h
      exact .done a
    | error failure => cases h
  | fail failure =>
    cases result with
    | ok b => cases h
    | error cause =>
      cases h
      exact .fail failure
  | report event rest ih => exact .report (ih h)
  | ask request rest ih =>
    rw [execute] at h ⊢
    cases hAnswer : world.answer request state with
    | mk answer next =>
      rw [hAnswer] at h
      cases answer with
      | inl cause => cases result <;> cases h
      | inr reply => exact .ask (ih reply h)

theorem course_execute (world : World Empty σ) (run : Run α) (state : σ) :
    Course run (run.execute world state).exchanges (run.execute world state).events
      (run.execute world state).ending.result :=
  course_of_ending (Ending.ofResult_result _).symm

theorem execute_bind (world : World ε σ) (run : Run α) (f : α → Run β) (state : σ) :
    (run >>= f).execute world state =
      (run.execute world state).andThen fun a next => (f a).execute world next := by
  change (run.bind f).execute world state = _
  induction run generalizing state with
  | done result => rfl
  | fail failure => rfl
  | report event rest ih =>
    rw [Run.bind, execute, execute, ih]
    simp only [Outcome.andThen]
    cases (rest.execute world state).ending <;> rfl
  | ask request rest ih =>
    rw [Run.bind, execute, execute]
    cases world.answer request state with
    | mk answer next =>
      cases answer with
      | inl cause => rfl
      | inr reply =>
        simp only [ih, Outcome.andThen]
        cases ((rest reply).execute world next).ending <;> rfl

theorem exists_answer_of_mem {world : World ε σ} {run : Run α} {state : σ} {exchange : Exchange}
    (h : exchange ∈ (run.execute world state).exchanges) :
    ∃ before after, world.answer exchange.request before = (.inr exchange.reply, after) := by
  induction run generalizing state with
  | done result => simp [execute] at h
  | fail failure => simp [execute] at h
  | report event rest ih => exact ih h
  | ask request rest ih =>
    rw [execute] at h
    cases hAnswer : world.answer request state with
    | mk answer next =>
      rw [hAnswer] at h
      cases answer with
      | inl cause => simp at h
      | inr reply =>
        rcases List.mem_cons.mp h with rfl | h
        · exact ⟨state, next, hAnswer⟩
        · exact ih reply h

/-- The way of a world from one state to another while it makes these exchanges. -/
inductive Passage (world : World ε σ) : σ → List Exchange → σ → Prop
  | nil (state : σ) : Passage world state [] state
  | cons {state next final : σ} {exchange : Exchange} {exchanges : List Exchange}
      (h : world.answer exchange.request state = (.inr exchange.reply, next))
      (hRest : Passage world next exchanges final) :
      Passage world state (exchange :: exchanges) final

theorem passage_append {world : World ε σ} {state final : σ} {first second : List Exchange} :
    Passage world state (first ++ second) final ↔
      ∃ middle, Passage world state first middle ∧ Passage world middle second final := by
  constructor
  · intro h
    induction first generalizing state with
    | nil => exact ⟨state, .nil state, h⟩
    | cons exchange first ih =>
      cases h with
      | cons hAnswer hRest =>
        obtain ⟨middle, hFirst, hSecond⟩ := ih hRest
        exact ⟨middle, .cons hAnswer hFirst, hSecond⟩
  · rintro ⟨middle, hFirst, hSecond⟩
    induction hFirst with
    | nil => exact hSecond
    | cons hAnswer _ ih => exact .cons hAnswer (ih hSecond)

theorem Passage.eq_of_forall {world : World ε σ} {state final : σ} {exchanges : List Exchange}
    (hPassage : Passage world state exchanges final)
    (h : ∀ exchange ∈ exchanges, ∀ s, (world.answer exchange.request s).2 = s) :
    final = state := by
  induction hPassage with
  | nil => rfl
  | @cons state next final exchange exchanges hAnswer _ ih =>
    obtain ⟨hFirst, hRest⟩ := List.forall_mem_cons.mp h
    have hNext : next = state := by
      have hState := hFirst state
      rwa [hAnswer] at hState
    exact (ih hRest).trans hNext

theorem passage_execute (world : World Empty σ) (run : Run α) (state : σ) :
    Passage world state (run.execute world state).exchanges (run.execute world state).state := by
  induction run generalizing state with
  | done result => exact .nil state
  | fail failure => exact .nil state
  | report event rest ih => exact ih state
  | ask request rest ih =>
    rw [execute]
    cases hAnswer : world.answer request state with
    | mk answer next =>
      cases answer with
      | inl cause => exact cause.elim
      | inr reply => exact .cons hAnswer (ih reply next)

/-- A run leaves the state as it is if answering what it asks does so. -/
theorem state_execute {world : World Empty σ} {run : Run α} {state : σ}
    (h : ∀ exchange ∈ (run.execute world state).exchanges, ∀ s,
      (world.answer exchange.request s).2 = s) : (run.execute world state).state = state :=
  (passage_execute world run state).eq_of_forall h

/-- Two worlds that answer alike what a run asks lead it along the same course. -/
theorem execute_congr {first second : World Empty σ} {run : Run α} {state : σ}
    (h : ∀ exchange ∈ (run.execute first state).exchanges, ∀ s,
      first.answer exchange.request s = second.answer exchange.request s) :
    run.execute first state = run.execute second state := by
  induction run generalizing state with
  | done result => rfl
  | fail failure => rfl
  | report event rest ih =>
    rw [execute, execute, ih h]
  | ask request rest ih =>
    rw [execute] at h
    rw [execute, execute]
    cases hAnswer : first.answer request state with
    | mk answer next =>
      rw [hAnswer] at h
      cases answer with
      | inl cause => exact cause.elim
      | inr reply =>
        obtain ⟨hFirst, hRest⟩ := List.forall_mem_cons.mp h
        have hSame : second.answer request state = (.inr reply, next) :=
          (hFirst state).symm.trans hAnswer
        rw [hSame]
        simp only [ih reply hRest]

theorem execute_reportAll (world : World ε σ) (all : List Event) (f : Unit → Run α)
    (state : σ) :
    (Run.reportAll all >>= f).execute world state =
      { (f ()).execute world state with events := all ++ ((f ()).execute world state).events } := by
  induction all with
  | nil => rfl
  | cons event all ih =>
    change (Run.report event (Run.reportAll all >>= f)).execute world state = _
    rw [execute, ih]
    rfl

theorem execute_map (world : World Empty σ) (run : Run α) (f : α → β) (state : σ) :
    (run >>= fun a => .done (f a)).execute world state =
      ⟨.ofResult ((run.execute world state).ending.result.map f),
        (run.execute world state).exchanges, (run.execute world state).events,
        (run.execute world state).state⟩ := by
  rw [execute_bind, Outcome.andThen]
  cases (run.execute world state).ending with
  | done a =>
    simp only [execute, List.append_nil]
    rfl
  | failed failure => rfl
  | broken cause => exact cause.elim

end Run

end ProvideIndex
