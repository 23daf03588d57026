import Mathlib.Data.List.TakeDrop
import Mathlib.Data.List.TakeWhile

/-!
# Runs of characters

A run of characters of one class is found again in front of a text that goes on with another class.

* `takeWhile_append_stop`, `dropWhile_append_stop`, `span_append_stop`: the run and what follows it.
* `exists_run`: every text as a run and what follows it.
-/

namespace ProvideIndex.Text

variable {p : Char → Bool} {run rest : List Char}

/-- Whether a text does not begin with a character of a class. -/
def Stops (p : Char → Bool) (text : List Char) : Prop := ∀ c, text.head? = some c → p c = false

/-- What holds of each character of a text by evaluation. -/
theorem forall_of_all {p : Char → Prop} [DecidablePred p] {text : List Char}
    (h : text.all (fun c => decide (p c)) = true) : ∀ c ∈ text, p c := fun c hMem =>
  of_decide_eq_true (List.all_eq_true.mp h c hMem)

theorem stops_nil : Stops p [] := fun _ h => by cases h

theorem stops_cons {c : Char} (h : p c = false) : Stops p (c :: rest) := by
  intro d hHead
  cases hHead
  exact h

theorem takeWhile_of_stops (h : Stops p rest) : rest.takeWhile p = [] := by
  cases rest with
  | nil => rfl
  | cons c rest => rw [List.takeWhile_cons_of_neg (by rw [h c rfl]; decide)]

theorem dropWhile_of_stops (h : Stops p rest) : rest.dropWhile p = rest := by
  cases rest with
  | nil => rfl
  | cons c rest => rw [List.dropWhile_cons_of_neg (by rw [h c rfl]; decide)]

theorem takeWhile_append_stop (hRun : ∀ c ∈ run, p c = true) (hRest : Stops p rest) :
    (run ++ rest).takeWhile p = run := by
  rw [List.takeWhile_append_of_pos hRun, takeWhile_of_stops hRest, List.append_nil]

theorem dropWhile_append_stop (hRun : ∀ c ∈ run, p c = true) (hRest : Stops p rest) :
    (run ++ rest).dropWhile p = rest := by
  rw [List.dropWhile_append_of_pos hRun, dropWhile_of_stops hRest]

theorem span_append_stop (hRun : ∀ c ∈ run, p c = true) (hRest : Stops p rest) :
    (run ++ rest).span p = (run, rest) := by
  rw [List.span_eq_takeWhile_dropWhile, takeWhile_append_stop hRun hRest,
    dropWhile_append_stop hRun hRest]

/-- Every text begins with a run, which may be empty. -/
theorem exists_run (p : Char → Bool) (text : List Char) :
    ∃ run rest, text = run ++ rest ∧ (∀ c ∈ run, p c = true) ∧ Stops p rest := by
  refine ⟨text.takeWhile p, text.dropWhile p, List.takeWhile_append_dropWhile.symm,
    fun c hMem => List.mem_takeWhile_imp hMem, fun c hHead => ?_⟩
  have hNot := List.head?_dropWhile_not p text
  rw [hHead] at hNot
  exact hNot

end ProvideIndex.Text
