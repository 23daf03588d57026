import ProvideIndex.Cassette.Replayer

/-!
# The queues of a replayer

What is left of one service and method is a queue. Handing out an interaction takes the first one
off its queue and leaves the other queues as they are.

* `next_of_queue`: a queue that is not empty hands out its first interaction.
* `queue_advance`, `queue_advance_of_ne`: what is left of each queue.
-/

namespace ProvideIndex.Replayer

variable {α : Type} {p q : α → Bool} {list : List α}

theorem filter_eraseP_self : (list.eraseP p).filter p = (list.filter p).tail := by
  induction list with
  | nil => rfl
  | cons a list ih =>
    cases hFirst : p a with
    | true => rw [List.eraseP_cons_of_pos hFirst, List.filter_cons_of_pos hFirst, List.tail_cons]
    | false =>
      have hNot : ¬p a = true := by simp [hFirst]
      rw [List.eraseP_cons_of_neg hNot, List.filter_cons_of_neg hNot, List.filter_cons_of_neg hNot,
        ih]

theorem filter_eraseP_of_disjoint (h : ∀ a, p a = true → q a = false) :
    (list.eraseP p).filter q = list.filter q := by
  induction list with
  | nil => rfl
  | cons a list ih =>
    cases hFirst : p a with
    | true =>
      have hNot : ¬q a = true := by simp [h a hFirst]
      rw [List.eraseP_cons_of_pos hFirst, List.filter_cons_of_neg hNot]
    | false =>
      have hNot : ¬p a = true := by simp [hFirst]
      rw [List.eraseP_cons_of_neg hNot, List.filter_cons, List.filter_cons, ih]

variable {service method : String} {replayer : Replayer}

/-- What is left of a service and method, in the order of the recording. -/
def queue (replayer : Replayer) (service method : String) : List Interaction :=
  replayer.pending.filter (isFor service method)

/-- The replayer after the next interaction of a service and method. -/
def advance (replayer : Replayer) (service method : String) : Replayer :=
  { replayer with pending := replayer.pending.eraseP (isFor service method) }

theorem next_of_queue {first : Interaction} {rest : List Interaction}
    (h : replayer.queue service method = first :: rest) :
    replayer.next service method = .ok (first, replayer.advance service method) := by
  have hFirst : replayer.pending.find? (isFor service method) = some first := by
    rw [← List.head?_filter]
    exact congrArg List.head? h
  rw [next, hFirst]
  rfl

theorem queue_advance :
    (replayer.advance service method).queue service method =
      (replayer.queue service method).tail := filter_eraseP_self

theorem queue_advance_of_ne {other : String} (h : other ≠ method) :
    (replayer.advance service method).queue service other = replayer.queue service other := by
  refine filter_eraseP_of_disjoint fun one hOne => ?_
  rw [isFor, Bool.and_eq_true, beq_iff_eq, beq_iff_eq] at hOne
  have hNe : one.method ≠ other := fun hEq => h (hEq.symm.trans hOne.2)
  rw [isFor, Bool.and_eq_false_iff]
  exact .inr (beq_false_of_ne hNe)

end ProvideIndex.Replayer
