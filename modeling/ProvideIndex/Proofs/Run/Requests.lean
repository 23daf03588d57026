import ProvideIndex.Proofs.Run.Course

/-!
# What a run asks

A run is a tree, so which requests it can make at all can be read off it, whatever its world answers.

* `AsksOnly.bind`: two runs in a row.
* `asksOnly_of_course`: what holds of all courses of a run holds of its tree.
* `AsksOnly.of_execute`: no execution asks anything else, even if the world breaks down on the way.
-/

namespace ProvideIndex

/-- Some reply; every request has one. -/
def Request.anyReply : (request : Request) → request.Reply
  | .fileExists _ => false
  | .listFiles _ | .readText _ | .writeText _ _ | .runProgram _ _ => .error ""

namespace Run

variable {α β ε σ : Type} {allowed : Request → Prop}

/-- Whether a run can make no other requests than the allowed ones. -/
def AsksOnly (allowed : Request → Prop) : Run α → Prop
  | done _ => True
  | fail _ => True
  | report _ rest => rest.AsksOnly allowed
  | ask request rest => allowed request ∧ ∀ reply, (rest reply).AsksOnly allowed

theorem AsksOnly.bind {run : Run α} {f : α → Run β} (h : run.AsksOnly allowed)
    (hNext : ∀ a, (f a).AsksOnly allowed) : (run >>= f).AsksOnly allowed := by
  induction run with
  | done result => exact hNext result
  | fail failure => trivial
  | report event rest ih => exact ih h
  | ask request rest ih => exact ⟨h.1, fun reply => ih reply (h.2 reply)⟩

theorem asksOnly_orFail (failure : String → Failure) (reply : Except String α) :
    (orFail failure reply).AsksOnly allowed := by
  cases reply <;> trivial

theorem asksOnly_reportAll (events : List Event) : (reportAll events).AsksOnly allowed := by
  induction events with
  | nil => trivial
  | cons event events ih => exact ih

/-- Every run has a course, whatever it asks. -/
theorem exists_course (run : Run α) : ∃ exchanges events result,
    Course run exchanges events result := by
  induction run with
  | done result => exact ⟨_, _, _, .done result⟩
  | fail failure => exact ⟨_, _, _, .fail failure⟩
  | report event rest ih =>
    obtain ⟨exchanges, events, result, h⟩ := ih
    exact ⟨_, _, _, .report h⟩
  | ask request rest ih =>
    obtain ⟨exchanges, events, result, h⟩ := ih request.anyReply
    exact ⟨_, _, _, .ask h⟩

theorem asksOnly_of_course {run : Run α}
    (h : ∀ exchanges events result, Course run exchanges events result →
      ∀ exchange ∈ exchanges, allowed exchange.request) : run.AsksOnly allowed := by
  induction run with
  | done result => trivial
  | fail failure => trivial
  | report event rest ih =>
    exact ih fun exchanges events result hCourse => h _ _ _ (.report hCourse)
  | ask request rest ih =>
    constructor
    · -- Some course goes on from the request, so the request is one of its exchanges.
      obtain ⟨exchanges, events, result, hCourse⟩ := exists_course (rest request.anyReply)
      exact h _ _ _ (.ask hCourse) _ List.mem_cons_self
    · intro reply
      refine ih reply fun exchanges events result hCourse exchange hMem => ?_
      exact h _ _ _ (.ask hCourse) exchange (List.mem_cons_of_mem _ hMem)

/-- No execution asks anything else, even if the world breaks down on the way. -/
theorem AsksOnly.of_execute {run : Run α} (h : run.AsksOnly allowed) (world : World ε σ)
    (state : σ) : ∀ exchange ∈ (run.execute world state).exchanges, allowed exchange.request := by
  induction run generalizing state with
  | done result => exact fun exchange hMem => absurd hMem List.not_mem_nil
  | fail failure => exact fun exchange hMem => absurd hMem List.not_mem_nil
  | report event rest ih => exact ih h state
  | ask request rest ih =>
    rw [execute]
    cases world.answer request state with
    | mk answer next =>
      cases answer with
      | inl cause => exact fun exchange hMem => absurd hMem List.not_mem_nil
      | inr reply => exact List.forall_mem_cons.mpr ⟨h.1, ih reply (h.2 reply) next⟩

end Run

end ProvideIndex
