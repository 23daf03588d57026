import ProvideIndex.Proofs.Run.Course
import Mathlib.Logic.Function.Basic

/-!
# Scripts

A script is what a run does, step by step, under given answers. A step is an answered request or an
event; an answer from which the run cannot go on carries the failure that it means. Of a script, the
steps up to the first failing one are performed, that one included, and its failure is the result.

* `Follows.append`, `Follows.append_of_error`: scripts of runs in a row are put one after another.
* `follows_each`: a run that does the same for each key of a list, each key once, follows the
  scripts of the keys in the order of the list.
-/

namespace ProvideIndex

inductive Step where
  | asked (exchange : Exchange) (failure : Option Failure)
  | reported (event : Event)

namespace Step

def failure? : Step → Option Failure
  | asked _ failure => failure
  | reported _ => none

def exchange? : Step → Option Exchange
  | asked exchange _ => some exchange
  | reported _ => none

def event? : Step → Option Event
  | asked _ _ => none
  | reported event => some event

/-- The failure that a refused request means. -/
def refusal {α : Type} (failure : String → Failure) : Except String α → Option Failure
  | .ok _ => none
  | .error cause => some (failure cause)

@[simp] theorem refusal_ok {α : Type} {failure : String → Failure} {a : α} :
    refusal failure (.ok a) = none := rfl

@[simp] theorem refusal_error {α : Type} {failure : String → Failure} {cause : String} :
    refusal failure (.error cause : Except String α) = some (failure cause) := rfl

theorem refusal_eq_none {α : Type} {failure : String → Failure} {reply : Except String α} :
    refusal failure reply = none ↔ ∃ a, reply = .ok a := by
  cases reply <;> simp

end Step

abbrev Script := List Step

namespace Script

/-- The failure of the first step that fails. -/
def failure? (script : Script) : Option Failure := script.findSome? Step.failure?

/-- The steps up to the first failing one, that one included. -/
def performed : Script → Script
  | [] => []
  | step :: steps =>
    match step.failure? with
    | none => step :: performed steps
    | some _ => [step]

def exchanges (script : Script) : List Exchange := script.filterMap Step.exchange?

def events (script : Script) : List Event := script.filterMap Step.event?

/-- The result of a script that arrives at `value` if no step fails. -/
def result {α : Type} (script : Script) (value : α) : Except Failure α :=
  match failure? script with
  | none => .ok value
  | some failure => .error failure

variable {α β : Type} {first second : Script}

/-! ### Scripts one after another -/

theorem failure?_append : failure? (first ++ second) = (failure? first).or (failure? second) :=
  List.findSome?_append

theorem exchanges_append : exchanges (first ++ second) = exchanges first ++ exchanges second :=
  List.filterMap_append

theorem events_append : events (first ++ second) = events first ++ events second :=
  List.filterMap_append

theorem exchanges_flatMap {κ : Type} (keys : List κ) (script : κ → Script) :
    exchanges (keys.flatMap script) = keys.flatMap fun key => (script key).exchanges :=
  List.filterMap_flatMap

theorem failure?_flatMap {κ : Type} (keys : List κ) (script : κ → Script) :
    failure? (keys.flatMap script) = keys.findSome? fun key => (script key).failure? := by
  induction keys with
  | nil => rfl
  | cons key keys ih =>
    rw [List.flatMap_cons, failure?_append, ih, List.findSome?_cons]
    cases (script key).failure? <;> rfl

theorem failure?_flatMap_eq_none {κ : Type} {keys : List κ} {script : κ → Script} :
    failure? (keys.flatMap script) = none ↔ ∀ key ∈ keys, (script key).failure? = none := by
  rw [failure?_flatMap, List.findSome?_eq_none_iff]

theorem performed_append_of_none (h : failure? first = none) :
    performed (first ++ second) = first ++ performed second := by
  induction first with
  | nil => rfl
  | cons step steps ih =>
    rw [failure?, List.findSome?_cons] at h
    cases hStep : step.failure? with
    | none =>
      rw [hStep] at h
      rw [List.cons_append, performed, hStep]
      exact congrArg _ (ih h)
    | some failure => simp [hStep] at h

theorem performed_append_of_some {failure : Failure} (h : failure? first = some failure) :
    performed (first ++ second) = performed first := by
  induction first with
  | nil => simp [failure?] at h
  | cons step steps ih =>
    rw [failure?, List.findSome?_cons] at h
    rw [List.cons_append, performed, performed]
    cases hStep : step.failure? with
    | none =>
      rw [hStep] at h
      exact congrArg _ (ih h)
    | some failure => rfl

theorem performed_of_none (h : failure? first = none) : performed first = first := by
  have hAppend : performed (first ++ []) = first ++ performed [] := performed_append_of_none h
  rwa [List.append_nil, performed, List.append_nil] at hAppend

theorem failure?_reportedAll (events : List Event) :
    failure? (events.map .reported) = none := by
  induction events with
  | nil => rfl
  | cons event events ih => exact ih

theorem exchanges_reportedAll (events : List Event) : exchanges (events.map .reported) = [] := by
  induction events with
  | nil => rfl
  | cons event events ih => exact ih

theorem performed_prefix_self (script : Script) : performed script <+: script := by
  induction script with
  | nil => exact List.prefix_refl _
  | cons step steps ih =>
    rw [performed]
    split
    · exact List.prefix_cons_inj step |>.mpr ih
    · exact ⟨steps, rfl⟩

theorem prefix_exchanges (script : Script) : script.performed.exchanges <+: script.exchanges :=
  (performed_prefix_self script).filterMap _

theorem result_eq_ok {value a : α} :
    first.result value = .ok a ↔ failure? first = none ∧ value = a := by
  rw [result]
  split
  · rename_i h
    simp [h]
  · rename_i h
    simp [h]

theorem result_eq_error {value : α} {failure : Failure} :
    first.result value = .error failure ↔ failure? first = some failure := by
  rw [result]
  split
  · rename_i h
    simp [h]
  · rename_i h
    simp [h]

/-! ### Runs that follow a script -/

/-- What shows of a run that follows a script to `value`, as far as the script is performed. -/
structure Follows (script : Script) (value : α) (exchanges : List Exchange) (events : List Event)
    (result : Except Failure α) : Prop where
  exchanges_eq : exchanges = script.performed.exchanges
  events_eq : events = script.performed.events
  result_eq : result = script.result value

variable {exchanges : List Exchange} {events : List Event}

theorem Follows.failure?_of_ok {value a : α}
    (h : Follows first value exchanges events (.ok a)) : failure? first = none ∧ value = a :=
  result_eq_ok.mp h.result_eq.symm

theorem Follows.nil (value : α) : Follows [] value [] [] (.ok value) := ⟨rfl, rfl, rfl⟩

theorem Follows.failing (exchange : Exchange) (failure : Failure) (value : α) :
    Follows (.asked exchange (some failure) :: first) value [exchange] [] (.error failure) :=
  ⟨rfl, rfl, rfl⟩

theorem Follows.asked (exchange : Exchange) {value : α} {result : Except Failure α}
    (h : Follows first value exchanges events result) :
    Follows (.asked exchange none :: first) value (exchange :: exchanges) events result :=
  ⟨congrArg _ h.exchanges_eq, h.events_eq, h.result_eq⟩

theorem Follows.reported (event : Event) {value : α} {result : Except Failure α}
    (h : Follows first value exchanges events result) :
    Follows (.reported event :: first) value exchanges (event :: events) result :=
  ⟨h.exchanges_eq, congrArg _ h.events_eq, h.result_eq⟩

theorem Follows.reportedAll (all : List Event) {value : α} {result : Except Failure α}
    (h : Follows first value exchanges events result) :
    Follows (all.map .reported ++ first) value exchanges (all ++ events) result := by
  induction all with
  | nil => exact h
  | cons event all ih => exact .reported event ih

theorem Follows.append {value a : α} {next : β} {result : Except Failure β}
    {later : List Exchange} {laterEvents : List Event}
    (h : Follows first value exchanges events (.ok a))
    (hNext : Follows second next later laterEvents result) :
    Follows (first ++ second) next (exchanges ++ later) (events ++ laterEvents) result := by
  obtain ⟨hNone, -⟩ := h.failure?_of_ok
  have hFirst := performed_of_none hNone
  refine ⟨?_, ?_, ?_⟩
  · rw [h.exchanges_eq, hNext.exchanges_eq, performed_append_of_none hNone, hFirst,
      exchanges_append]
  · rw [h.events_eq, hNext.events_eq, performed_append_of_none hNone, hFirst, events_append]
  · rw [hNext.result_eq, Script.result, Script.result, failure?_append, hNone, Option.none_or]

theorem Follows.append_of_error {value : α} {next : β} {failure : Failure}
    (h : Follows first value exchanges events (.error failure)) :
    Follows (first ++ second) next exchanges events (.error failure) := by
  have hSome := result_eq_error.mp h.result_eq.symm
  refine ⟨?_, ?_, ?_⟩
  · rw [h.exchanges_eq, performed_append_of_some hSome]
  · rw [h.events_eq, performed_append_of_some hSome]
  · rw [Script.result, failure?_append, hSome, Option.some_or]

theorem Follows.map {value : α} {result : Except Failure α} (f : α → β)
    (h : Follows first value exchanges events result) :
    Follows first (f value) exchanges events (result.map f) := by
  refine ⟨h.exchanges_eq, h.events_eq, ?_⟩
  rw [h.result_eq, Script.result, Script.result]
  cases failure? first <;> rfl

/-- A run comes to the end of a script, or it stops right after the first step that fails. -/
inductive Ends (script : Script) (value : α) : List Exchange → Ending Empty α → Prop where
  | done (h : ∀ step ∈ script, step.failure? = none) :
      Ends script value script.exchanges (.done value)
  | failed {before after : Script} {exchange : Exchange} {failure : Failure}
      (hScript : script = before ++ .asked exchange (some failure) :: after)
      (hBefore : ∀ step ∈ before, step.failure? = none) :
      Ends script value (before.exchanges ++ [exchange]) (.failed failure)

/-- A script that fails is performed up to its first failing step. -/
theorem exists_first_of_failure? {script : Script} {failure : Failure}
    (h : failure? script = some failure) :
    ∃ before exchange after, script = before ++ .asked exchange (some failure) :: after ∧
      (∀ step ∈ before, step.failure? = none) ∧
      performed script = before ++ [.asked exchange (some failure)] := by
  obtain ⟨before, step, after, rfl, hStep, hBefore⟩ := List.findSome?_eq_some_iff.mp h
  cases step with
  | asked exchange failure? =>
    cases hStep
    refine ⟨before, exchange, after, rfl, hBefore, ?_⟩
    rw [performed_append_of_none (List.findSome?_eq_none_iff.mpr hBefore)]
    rfl
  | reported event => cases hStep

/-- Of scripts in a row, those before the first failing one are performed, and that one. -/
theorem exists_first_of_flatMap {κ : Type} {keys : List κ} {script : κ → Script}
    {failure : Failure} (h : failure? (keys.flatMap script) = some failure) :
    ∃ before key after, keys = before ++ key :: after ∧
      (∀ other ∈ before, (script other).failure? = none) ∧ (script key).failure? = some failure ∧
      performed (keys.flatMap script) = before.flatMap script ++ (script key).performed := by
  induction keys with
  | nil => simp [failure?] at h
  | cons key keys ih =>
    rw [List.flatMap_cons, failure?_append] at h
    cases hKey : (script key).failure? with
    | some found =>
      rw [hKey, Option.some_or] at h
      cases h
      exact ⟨[], key, keys, rfl, by simp, hKey, performed_append_of_some hKey⟩
    | none =>
      rw [hKey, Option.none_or] at h
      obtain ⟨before, first, after, rfl, hBefore, hFirst, hPerformed⟩ := ih h
      refine ⟨key :: before, first, after, rfl, List.forall_mem_cons.mpr ⟨hKey, hBefore⟩,
        hFirst, ?_⟩
      rw [List.flatMap_cons, performed_append_of_none hKey, hPerformed, List.flatMap_cons,
        List.append_assoc]

theorem Follows.ends {script : Script} {value : α} {ending : Ending Empty α}
    (h : Follows script value exchanges events ending.result) :
    script.Ends value exchanges ending := by
  rw [h.exchanges_eq]
  have hResult := h.result_eq
  cases hFailure : failure? script with
  | none =>
    rw [result, hFailure, Ending.result_eq_ok] at hResult
    rw [hResult, performed_of_none hFailure]
    exact .done (List.findSome?_eq_none_iff.mp hFailure)
  | some failure =>
    rw [result, hFailure, Ending.result_eq_error] at hResult
    obtain ⟨before, exchange, after, hScript, hBefore, hPerformed⟩ :=
      exists_first_of_failure? hFailure
    rw [hResult, hPerformed, exchanges_append]
    exact .failed hScript hBefore

end Script

namespace Run

open Script

variable {α β γ κ ρ : Type} {exchanges : List Exchange} {events : List Event}

theorem course_map {run : Run α} {f : α → β} {result : Except Failure β} :
    Course (run >>= fun a => .done (f a)) exchanges events result ↔
      ∃ before, Course run exchanges events before ∧ result = before.map f := by
  rw [course_bind]
  constructor
  · rintro (⟨failure, h, rfl⟩ | ⟨a, first, second, es, later, h, hDone, rfl, rfl⟩)
    · exact ⟨_, h, rfl⟩
    · obtain ⟨rfl, rfl, rfl⟩ := course_done.mp hDone
      exact ⟨_, by simpa using h, rfl⟩
  · rintro ⟨before, h, rfl⟩
    cases before with
    | error failure => exact .inl ⟨failure, h, rfl⟩
    | ok a =>
      exact .inr ⟨a, exchanges, [], events, [], h, course_done.mpr ⟨rfl, rfl, rfl⟩, by simp,
        by simp⟩

/-- Two runs in a row, each of which follows a script under some answer. -/
theorem follows_bind {σ : Type} {run : Run α} {f : α → Run β} {script : ρ → Script} {value : ρ → α}
    {next : ρ → σ → Script} {final : ρ → σ → β} {result : Except Failure β}
    (h : Course (run >>= f) exchanges events result)
    (hFirst : ∀ {exchanges events result}, Course run exchanges events result →
      ∃ answer, Follows (script answer) (value answer) exchanges events result)
    (hNext : ∀ answer {exchanges events result},
      Course (f (value answer)) exchanges events result →
        ∃ later, Follows (next answer later) (final answer later) exchanges events result)
    (fallback : σ) :
    ∃ answer later, Follows (script answer ++ next answer later) (final answer later)
      exchanges events result := by
  rcases course_bind.mp h with
    ⟨failure, hRun, rfl⟩ | ⟨a, first, second, _, _, hRun, hRest, rfl, rfl⟩
  · obtain ⟨answer, hFollows⟩ := hFirst hRun
    exact ⟨answer, fallback, hFollows.append_of_error⟩
  · obtain ⟨answer, hFollows⟩ := hFirst hRun
    obtain ⟨-, rfl⟩ := hFollows.failure?_of_ok
    obtain ⟨later, hLater⟩ := hNext answer hRest
    exact ⟨answer, later, hFollows.append hLater⟩

/-! ### The same for each key -/

section Each

variable {step : κ → Run β} {all : List κ → Run γ} {start : γ} {combine : β → γ → γ}
  {script : κ → ρ → Script} {value : κ → ρ → β} {given : κ → ρ → Prop}
  {allowed : Exchange → Prop} {base : κ → ρ} {keys : List κ} {result : Except Failure γ}

/--
`all` does `step` for each key of a list. If each `step` follows a script under some answer, `all`
follows their scripts; what is not reached is answered by `base`.
-/
theorem follows_each (h : Course (all keys) exchanges events result)
    (hAllowed : ∀ exchange ∈ exchanges, allowed exchange) (hNil : all [] = .done start)
    (hCons : ∀ key keys, all (key :: keys) =
      step key >>= fun b => all keys >>= fun c => .done (combine b c))
    (hStep : ∀ key {exchanges events result}, Course (step key) exchanges events result →
      (∀ exchange ∈ exchanges, allowed exchange) → ∃ answer, given key answer ∧
        Follows (script key answer) (value key answer) exchanges events result)
    (hBase : ∀ key, given key (base key)) :
    ∃ answers : List (κ × ρ), answers.map Prod.fst = keys ∧
      (∀ answer ∈ answers, given answer.1 answer.2) ∧
      Follows (answers.flatMap fun answer => script answer.1 answer.2)
        (answers.foldr (fun answer c => combine (value answer.1 answer.2) c) start)
        exchanges events result := by
  induction keys generalizing exchanges events result with
  | nil =>
    rw [hNil] at h
    obtain ⟨rfl, rfl, rfl⟩ := course_done.mp h
    exact ⟨[], rfl, by simp, rfl, rfl, rfl⟩
  | cons key keys ih =>
    rw [hCons, course_bind] at h
    rcases h with ⟨failure, h, rfl⟩ | ⟨b, first, second, es, later, h, hRest, rfl, rfl⟩
    · obtain ⟨answer, hGiven, hFollows⟩ := hStep key h hAllowed
      refine ⟨(key, answer) :: keys.map fun other => (other, base other), ?_, ?_, ?_⟩
      · simp [Function.comp_def]
      · intro other hOther
        rcases List.mem_cons.mp hOther with rfl | hOther
        · exact hGiven
        · obtain ⟨_, -, rfl⟩ := List.mem_map.mp hOther
          exact hBase _
      · exact hFollows.append_of_error
    · obtain ⟨answer, hGiven, hFollows⟩ := hStep key h
        fun exchange hMem => hAllowed exchange (List.mem_append_left _ hMem)
      obtain ⟨before, hKeys, rfl⟩ := course_map.mp hRest
      obtain ⟨answers, rfl, hAnswers, hTail⟩ := ih hKeys
        fun exchange hMem => hAllowed exchange (List.mem_append_right _ hMem)
      obtain ⟨-, hValue⟩ := hFollows.failure?_of_ok
      refine ⟨(key, answer) :: answers, rfl, List.forall_mem_cons.mpr ⟨hGiven, hAnswers⟩, ?_⟩
      rw [List.flatMap_cons, List.foldr_cons, hValue]
      exact hFollows.append (hTail.map (combine b))

/-- Answers to keys without repetition are those of a function. -/
theorem exists_answers_of_nodup [DecidableEq κ] {answers : List (κ × ρ)}
    (hNodup : (answers.map Prod.fst).Nodup) (hAnswers : ∀ answer ∈ answers, given answer.1 answer.2)
    (hBase : ∀ key, given key (base key)) :
    ∃ f : κ → ρ, (∀ key, given key (f key)) ∧
      answers = (answers.map Prod.fst).map fun key => (key, f key) := by
  induction answers with
  | nil => exact ⟨base, hBase, rfl⟩
  | cons answer answers ih =>
    obtain ⟨hAnswer, hOthers⟩ := List.forall_mem_cons.mp hAnswers
    obtain ⟨hNew, hNodup⟩ := List.nodup_cons.mp hNodup
    obtain ⟨f, hGiven, hEq⟩ := ih hNodup hOthers
    refine ⟨Function.update f answer.1 answer.2, fun key => ?_, ?_⟩
    · by_cases hKey : key = answer.1
      · subst hKey
        rwa [Function.update_self]
      · rw [Function.update_of_ne hKey]
        exact hGiven key
    · rw [List.map_cons, List.map_cons, Function.update_self]
      refine congrArg _ (hEq.trans (List.map_congr_left fun key hKey => ?_))
      have hNe : key ≠ answer.1 := by
        rintro rfl
        exact hNew hKey
      rw [Function.update_of_ne hNe]

/-- `follows_each` for keys without repetition: the answers depend on the key alone. -/
theorem follows_each_of_nodup [DecidableEq κ] (h : Course (all keys) exchanges events result)
    (hAllowed : ∀ exchange ∈ exchanges, allowed exchange) (hNodup : keys.Nodup)
    (hNil : all [] = .done start)
    (hCons : ∀ key keys, all (key :: keys) =
      step key >>= fun b => all keys >>= fun c => .done (combine b c))
    (hStep : ∀ key {exchanges events result}, Course (step key) exchanges events result →
      (∀ exchange ∈ exchanges, allowed exchange) → ∃ answer, given key answer ∧
        Follows (script key answer) (value key answer) exchanges events result)
    (hBase : ∀ key, given key (base key)) :
    ∃ f : κ → ρ, (∀ key, given key (f key)) ∧
      Follows (keys.flatMap fun key => script key (f key))
        (keys.foldr (fun key c => combine (value key (f key)) c) start)
        exchanges events result := by
  obtain ⟨answers, rfl, hAnswers, hFollows⟩ := follows_each h hAllowed hNil hCons hStep hBase
  obtain ⟨f, hGiven, hEq⟩ := exists_answers_of_nodup hNodup hAnswers hBase
  refine ⟨f, hGiven, ?_⟩
  rw [hEq, List.flatMap_map, List.foldr_map] at hFollows
  exact hFollows

end Each

end Run

end ProvideIndex
