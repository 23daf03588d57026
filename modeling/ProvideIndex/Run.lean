import ProvideIndex.Event
import ProvideIndex.Failure
import ProvideIndex.Request

/-!
# Runs

A run is a tree: it ends with a result or a failure, reports an event and goes on, or makes a
request and goes on as the reply tells it to. What answers the requests is a separate matter: a
`World` answers from a state of its own, and `Run.execute` gives the result together with the
requests that were answered, in order, and the events that were reported.
-/

namespace ProvideIndex

inductive Run (α : Type) where
  | done (result : α)
  | fail (failure : Failure)
  | report (event : Event) (rest : Run α)
  | ask (request : Request) (rest : request.Reply → Run α)

namespace Run

variable {α β : Type}

def bind : Run α → (α → Run β) → Run β
  | done result, f => f result
  | fail failure, _ => fail failure
  | report event rest, f => report event (rest.bind f)
  | ask request rest, f => ask request fun reply => (rest reply).bind f

instance : Monad Run where
  pure := done
  bind := bind

/-- A request by itself. -/
def request (r : Request) : Run r.Reply := ask r done

def reportAll : List Event → Run Unit
  | [] => done ()
  | event :: events => report event (reportAll events)

/-- The result of a reply that may be a refusal. -/
def orFail (failure : String → Failure) : Except String α → Run α
  | .ok result => done result
  | .error cause => fail (failure cause)

theorem bind_bind {γ : Type} (run : Run α) (f : α → Run β) (g : β → Run γ) :
    (run.bind f).bind g = run.bind fun a => (f a).bind g := by
  induction run with
  | done result => rfl
  | fail failure => rfl
  | report event rest ih => rw [bind, bind, bind, ih]
  | ask request rest ih =>
    rw [bind, bind, bind]
    exact congrArg _ (funext ih)

end Run

/-- A request together with the reply that it got. -/
structure Exchange where
  request : Request
  reply : request.Reply

/--
What answers requests, from a state `σ`. Where it breaks down (`Sum.inl`), the run ends there; `ε`
says why.
-/
structure World (ε σ : Type) where
  answer : (request : Request) → σ → (ε ⊕ request.Reply) × σ

namespace World

variable {σ : Type}

/-- A world that always answers. -/
def reliable (answer : (request : Request) → σ → request.Reply × σ) : World Empty σ where
  answer request state :=
    let (reply, next) := answer request state
    (.inr reply, next)

end World

/-- How a run ended. -/
inductive Ending (ε α : Type) where
  | done (result : α)
  | failed (failure : Failure)
  | broken (cause : ε)
  deriving DecidableEq, Repr

/-- A finished run: how it ended, what was exchanged, what was reported, and the state it left. -/
structure Outcome (ε σ α : Type) where
  ending : Ending ε α
  exchanges : List Exchange
  events : List Event
  state : σ

namespace Run

variable {ε σ α : Type}

def execute (world : World ε σ) : Run α → σ → Outcome ε σ α
  | done result, state => ⟨.done result, [], [], state⟩
  | fail failure, state => ⟨.failed failure, [], [], state⟩
  | report event rest, state =>
    let outcome := rest.execute world state
    { outcome with events := event :: outcome.events }
  | ask request rest, state =>
    match world.answer request state with
    | (.inl cause, next) => ⟨.broken cause, [], [], next⟩
    | (.inr reply, next) =>
      let outcome := (rest reply).execute world next
      { outcome with exchanges := ⟨request, reply⟩ :: outcome.exchanges }

end Run

end ProvideIndex
