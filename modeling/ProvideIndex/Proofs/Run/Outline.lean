import ProvideIndex.Proofs.Run.Script

/-!
# Outlines of scripts

The outline of a script leaves out the names in listings, counts of files, and which paths were
classified. Steps fail in the outline as they do in the script.

* `performed_outline`: what is performed of an outline is the outline of what is performed.
* `exchanges_outline`, `events_outline`: what shows of an outline.
-/

namespace ProvideIndex

/-- An exchange without the names that a directory holds. -/
def Exchange.outline : Exchange → Exchange
  | ⟨.listFiles root, .ok _⟩ => ⟨.listFiles root, .ok []⟩
  | exchange => exchange

/-- An event without counts of files; classified paths are left out. -/
def Event.outline? : Event → Option Event
  | .classified _ => none
  | .rootWalked root _ => some (.rootWalked root 0)
  | .scanned tree _ libraries symbols => some (.scanned tree 0 libraries symbols)
  | event => some event

def Step.outline? : Step → Option Step
  | .asked exchange failure => some (.asked exchange.outline failure)
  | .reported event => event.outline?.map .reported

namespace Script

def outline (script : Script) : Script := script.filterMap Step.outline?

variable {script first second : Script}

theorem outline_append : (first ++ second).outline = first.outline ++ second.outline :=
  List.filterMap_append

theorem outline_flatMap {κ : Type} (keys : List κ) (script : κ → Script) :
    outline (keys.flatMap script) = keys.flatMap fun key => (script key).outline :=
  List.filterMap_flatMap

theorem outline_cons_asked (exchange : Exchange) (failure : Option Failure) :
    outline (.asked exchange failure :: script) =
      .asked exchange.outline failure :: script.outline := rfl

theorem outline_cons_reported (event : Event) :
    outline (.reported event :: script) =
      (event.outline?.map Step.reported).toList ++ script.outline := by
  rw [outline, List.filterMap_cons]
  cases hEvent : event.outline? <;> simp [Step.outline?, hEvent, outline]

theorem failure?_outline : script.outline.failure? = script.failure? := by
  induction script with
  | nil => rfl
  | cons step script ih =>
    cases step with
    | asked exchange failure =>
      rw [outline_cons_asked, failure?, failure?, List.findSome?_cons, List.findSome?_cons]
      cases failure with
      | none => exact ih
      | some failure => rfl
    | reported event =>
      rw [outline_cons_reported, failure?_append, ih]
      cases event.outline? <;> rfl

theorem performed_outline : script.outline.performed = script.performed.outline := by
  induction script with
  | nil => rfl
  | cons step script ih =>
    cases step with
    | asked exchange failure =>
      rw [outline_cons_asked]
      cases failure with
      | none => exact congrArg _ ih
      | some failure => rfl
    | reported event =>
      have hReported :
          performed (.reported event :: script) = .reported event :: performed script := rfl
      rw [outline_cons_reported, hReported, outline_cons_reported, ← ih]
      cases event.outline? <;> rfl

theorem exchanges_outline : script.outline.exchanges = script.exchanges.map Exchange.outline := by
  induction script with
  | nil => rfl
  | cons step script ih =>
    cases step with
    | asked exchange failure => exact congrArg _ ih
    | reported event =>
      rw [outline_cons_reported, exchanges_append, ih]
      cases event.outline? <;> rfl

theorem events_outline : script.outline.events = script.events.filterMap Event.outline? := by
  induction script with
  | nil => rfl
  | cons step script ih =>
    cases step with
    | asked exchange failure => exact ih
    | reported event =>
      have hEvents : events (.reported event :: script) = event :: events script := rfl
      rw [outline_cons_reported, events_append, ih, hEvents, List.filterMap_cons]
      cases event.outline? <;> rfl

end Script

end ProvideIndex
