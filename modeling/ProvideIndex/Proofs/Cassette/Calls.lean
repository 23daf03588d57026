import ProvideIndex.Proofs.Cassette.Queue
import Mathlib.Data.List.Count
import Mathlib.Data.List.Nodup
import Mathlib.Data.List.Sort

/-!
# Calls on a replayer

A call asks a replayer for the next interaction of a service and method. It is answered with the
first interaction of that queue, or it is refused, and then it takes nothing. Any calls in any
order, refused ones among them, are answered from the queues of the recording.

* `call_snd`, `queue_call`: a call takes the first interaction off its queue and leaves the other
  queues as they are.
* `getElem?_callAll`: the answer to each call, from the recording and the calls before it.
* `served_append_queue`, `perm_callAll`: what was served and what is left make up the recording.
* `call_comm`: calls for different queues may be exchanged.
* `firstInFirstOut`: all of this for the replayer of a cassette.
-/

namespace ProvideIndex

namespace Replayer

variable {replayer : Replayer} {key other : String × String}

/-! ### One call -/

/-- Why an empty queue hands out nothing. -/
def exhaustion (replayer : Replayer) (key : String × String) : Exhaustion :=
  if replayer.known.contains key then .consumed key.1 key.2
  else .unknown key.1 key.2 replayer.knownNames

/-- The answer to a call, and the replayer that answers the next one. -/
def call (key : String × String) (replayer : Replayer) : Except Exhaustion Interaction × Replayer :=
  match replayer.next key.1 key.2 with
  | .ok (interaction, rest) => (.ok interaction, rest)
  | .error cause => (.error cause, replayer)

theorem not_isFor_of_queue_nil (h : replayer.queue key.1 key.2 = []) :
    ∀ one ∈ replayer.pending, ¬isFor key.1 key.2 one = true :=
  List.filter_eq_nil_iff.mp h

theorem next_of_queue_nil (h : replayer.queue key.1 key.2 = []) :
    replayer.next key.1 key.2 = .error (replayer.exhaustion key) := by
  have hNone : replayer.pending.find? (isFor key.1 key.2) = none :=
    List.find?_eq_none.mpr (not_isFor_of_queue_nil h)
  rw [next, hNone, exhaustion]
  change (if replayer.known.contains key then _ else _) = _
  split <;> rfl

theorem call_of_queue {first : Interaction} {rest : List Interaction}
    (h : replayer.queue key.1 key.2 = first :: rest) :
    replayer.call key = (.ok first, replayer.advance key.1 key.2) := by
  rw [call, next_of_queue h]

theorem call_of_queue_nil (h : replayer.queue key.1 key.2 = []) :
    replayer.call key = (.error (replayer.exhaustion key), replayer) := by
  rw [call, next_of_queue_nil h]

theorem advance_of_queue_nil (h : replayer.queue key.1 key.2 = []) :
    replayer.advance key.1 key.2 = replayer := by
  rw [advance, List.eraseP_of_forall_not (not_isFor_of_queue_nil h)]

theorem call_fst (key : String × String) (replayer : Replayer) :
    (replayer.call key).1 =
      match (replayer.queue key.1 key.2).head? with
      | some first => .ok first
      | none => .error (replayer.exhaustion key) := by
  cases h : replayer.queue key.1 key.2 with
  | nil => rw [call_of_queue_nil h]; rfl
  | cons first rest => rw [call_of_queue h]; rfl

/-- Served or refused, a call leaves its queue without its first interaction. -/
theorem call_snd (key : String × String) (replayer : Replayer) :
    (replayer.call key).2 = replayer.advance key.1 key.2 := by
  cases h : replayer.queue key.1 key.2 with
  | nil => rw [call_of_queue_nil h, advance_of_queue_nil h]
  | cons first rest => rw [call_of_queue h]

theorem isFor_eq_true {interaction : Interaction} :
    isFor key.1 key.2 interaction = true ↔ (interaction.service, interaction.method) = key := by
  obtain ⟨service, method⟩ := key
  rw [isFor, Bool.and_eq_true, beq_iff_eq, beq_iff_eq, Prod.mk.injEq]

theorem isFor_disjoint (h : key ≠ other) (interaction : Interaction)
    (hKey : isFor key.1 key.2 interaction = true) : isFor other.1 other.2 interaction = false := by
  rw [Bool.eq_false_iff]
  intro hOther
  exact h ((isFor_eq_true.mp hKey).symm.trans (isFor_eq_true.mp hOther))

theorem queue_call (key other : String × String) (replayer : Replayer) :
    (replayer.call key).2.queue other.1 other.2 =
      if key = other then (replayer.queue other.1 other.2).tail
      else replayer.queue other.1 other.2 := by
  rw [call_snd]
  split
  · rename_i h
    subst h
    exact queue_advance
  · rename_i h
    exact filter_eraseP_of_disjoint (isFor_disjoint h)

theorem known_call (key : String × String) (replayer : Replayer) :
    (replayer.call key).2.known = replayer.known := by
  rw [call_snd]
  rfl

/-- Whether an empty queue was never there or is used up depends on the recording alone. -/
theorem exhaustion_call (key other : String × String) (replayer : Replayer) :
    (replayer.call key).2.exhaustion other = replayer.exhaustion other := by
  rw [exhaustion, exhaustion, knownNames, knownNames, known_call]

/-- Calls for different queues may be exchanged. -/
theorem call_comm (h : key ≠ other) (replayer : Replayer) :
    ((replayer.call key).2.call other).1 = (replayer.call other).1 ∧
      ((replayer.call key).2.call other).2 = ((replayer.call other).2.call key).2 := by
  constructor
  · rw [call_fst, call_fst, queue_call, if_neg h, exhaustion_call]
  · rw [call_snd, call_snd, call_snd, call_snd, advance, advance, advance, advance]
    refine congrArg (Replayer.mk replayer.known) (List.eraseP_comm fun one _ => ?_)
    by_cases hKey : isFor key.1 key.2 one = true
    · exact .inr (Bool.eq_false_iff.mp (isFor_disjoint h one hKey))
    · exact .inl hKey

/-! ### Any number of calls -/

/-- The answers to calls, in order, and the replayer that they leave. -/
def callAll : List (String × String) → Replayer → List (Except Exhaustion Interaction) × Replayer
  | [], replayer => ([], replayer)
  | key :: keys, replayer =>
    let (answer, next) := replayer.call key
    let (answers, last) := callAll keys next
    (answer :: answers, last)

variable {keys : List (String × String)}

theorem callAll_cons (key : String × String) (keys : List (String × String)) (replayer : Replayer) :
    replayer.callAll (key :: keys) =
      ((replayer.call key).1 :: ((replayer.call key).2.callAll keys).1,
        ((replayer.call key).2.callAll keys).2) := rfl

theorem callAll_append (keys others : List (String × String)) (replayer : Replayer) :
    replayer.callAll (keys ++ others) =
      ((replayer.callAll keys).1 ++ ((replayer.callAll keys).2.callAll others).1,
        ((replayer.callAll keys).2.callAll others).2) := by
  induction keys generalizing replayer with
  | nil => rfl
  | cons key keys ih => rw [List.cons_append, callAll_cons, callAll_cons, ih]; rfl

/-- Of each queue, the calls for it have taken one interaction each, as far as there are any. -/
theorem queue_callAll (keys : List (String × String)) (replayer : Replayer)
    (key : String × String) :
    (replayer.callAll keys).2.queue key.1 key.2 =
      (replayer.queue key.1 key.2).drop (keys.count key) := by
  induction keys generalizing replayer with
  | nil => rfl
  | cons first keys ih =>
    rw [callAll_cons, ih, queue_call, List.count_cons]
    by_cases h : first = key
    · rw [if_pos h, if_pos (beq_iff_eq.mpr h), List.drop_tail, Nat.add_comm]
    · rw [if_neg h, if_neg (fun hEq => h (beq_iff_eq.mp hEq)), Nat.add_zero]

theorem exhaustion_callAll (keys : List (String × String)) (replayer : Replayer)
    (key : String × String) :
    (replayer.callAll keys).2.exhaustion key = replayer.exhaustion key := by
  induction keys generalizing replayer with
  | nil => rfl
  | cons first keys ih => rw [callAll_cons, ih, exhaustion_call]

/-- A call is answered from what the calls before it have left. -/
theorem getElem?_callAll (keys : List (String × String)) (replayer : Replayer) (i : Nat) :
    (replayer.callAll keys).1[i]? =
      keys[i]?.map fun key => ((replayer.callAll (keys.take i)).2.call key).1 := by
  induction keys generalizing replayer i with
  | nil => rfl
  | cons first keys ih =>
    cases i with
    | zero => rfl
    | succ i =>
      rw [callAll_cons, List.getElem?_cons_succ, List.getElem?_cons_succ, ih, List.take_succ_cons]
      rfl

/-! ### What was served -/

/-- The interactions among the answers. -/
def served (answers : List (Except Exhaustion Interaction)) : List Interaction :=
  answers.filterMap Except.toOption

/-- A call serves the first interaction of its queue, or nothing if there is none. -/
theorem served_callAll_cons (key : String × String) (keys : List (String × String))
    (replayer : Replayer) :
    served (replayer.callAll (key :: keys)).1 =
      (replayer.queue key.1 key.2).head?.toList ++
        served ((replayer.call key).2.callAll keys).1 := by
  rw [callAll_cons, call_fst]
  cases (replayer.queue key.1 key.2).head? <;> rfl

/-- Of each queue, what was served stands before what is left. -/
theorem served_append_queue (keys : List (String × String)) (replayer : Replayer)
    (key : String × String) :
    (served (replayer.callAll keys).1).filter (isFor key.1 key.2) ++
        (replayer.callAll keys).2.queue key.1 key.2 =
      replayer.queue key.1 key.2 := by
  induction keys generalizing replayer with
  | nil => rfl
  | cons first keys ih =>
    have hRest := ih (replayer.call first).2
    rw [queue_call] at hRest
    rw [served_callAll_cons, List.filter_append, callAll_cons, List.append_assoc, hRest]
    cases hQueue : replayer.queue first.1 first.2 with
    | nil =>
      by_cases h : first = key
      · subst h
        rw [if_pos rfl, hQueue]
        rfl
      · rw [if_neg h]
        rfl
    | cons interaction rest =>
      have hMem : interaction ∈ replayer.queue first.1 first.2 := hQueue ▸ List.mem_cons_self ..
      have hFor : isFor first.1 first.2 interaction = true := (List.mem_filter.mp hMem).2
      by_cases h : first = key
      · subst h
        rw [if_pos rfl, hQueue, List.head?_cons, Option.toList_some, List.filter_cons_of_pos hFor]
        rfl
      · rw [if_neg h, List.head?_cons, Option.toList_some, List.filter_cons, isFor_disjoint h _ hFor]
        rfl

/-- A call takes what it serves out of what is pending. -/
theorem perm_call (key : String × String) (replayer : Replayer) :
    ((replayer.queue key.1 key.2).head?.toList ++ (replayer.call key).2.pending).Perm
      replayer.pending := by
  rw [call_snd, queue, List.head?_filter, advance]
  cases h : replayer.pending.find? (isFor key.1 key.2) with
  | none =>
    rw [List.eraseP_of_forall_not (List.find?_eq_none.mp h)]
    rfl
  | some first =>
    obtain ⟨hFirst, before, after, hPending, hBefore⟩ := List.find?_eq_some_iff_append.mp h
    have hNot : ∀ one ∈ before, ¬isFor key.1 key.2 one = true := by simpa using hBefore
    rw [hPending, List.eraseP_append_right _ hNot, List.eraseP_cons_of_pos hFirst,
      Option.toList_some, List.singleton_append]
    exact List.perm_middle.symm

/-- What was served and what is left are what there was. -/
theorem perm_callAll (keys : List (String × String)) (replayer : Replayer) :
    (served (replayer.callAll keys).1 ++ (replayer.callAll keys).2.pending).Perm
      replayer.pending := by
  induction keys generalizing replayer with
  | nil => rfl
  | cons key keys ih =>
    rw [served_callAll_cons, callAll_cons, List.append_assoc]
    exact ((ih (replayer.call key).2).append_left _).trans (perm_call key replayer)

theorem isDrained_callAll (keys : List (String × String)) (replayer : Replayer) :
    (replayer.callAll keys).2.isDrained = true ↔
      (served (replayer.callAll keys).1).Perm replayer.pending := by
  have hPerm := perm_callAll keys replayer
  rw [isDrained, List.isEmpty_iff]
  constructor
  · intro h
    rwa [h, List.append_nil] at hPerm
  · intro h
    have hLength := hPerm.length_eq
    rw [List.length_append, h.length_eq] at hLength
    exact List.length_eq_zero_iff.mp (by omega)

end Replayer

/-! ### The replayer of a cassette -/

namespace Cassette

/-- What is recorded of a service and method, in the order of the recording. -/
def recorded (cassette : Cassette) (key : String × String) : List Interaction :=
  cassette.interactions.filter (Replayer.isFor key.1 key.2)

/-- Whether names are those of the recorded services and methods, each once, in ascending order. -/
structure Names (cassette : Cassette) (names : List String) : Prop where
  ascending : names.Pairwise (· ≤ ·)
  recorded : ∃ keys : List (String × String), keys.Nodup ∧
    (∀ key, key ∈ keys ↔ cassette.recorded key ≠ []) ∧
    names.Perm (keys.map fun key => key.1 ++ "::" ++ key.2)

/-- The answer to a call that comes after `earlier` calls for the same service and method. -/
def answerTo (cassette : Cassette) (names : List String) (earlier : Nat) (key : String × String) :
    Except Exhaustion Interaction :=
  match (cassette.recorded key)[earlier]? with
  | some interaction => .ok interaction
  | none =>
    if (cassette.recorded key).isEmpty then .error (.unknown key.1 key.2 names)
    else .error (.consumed key.1 key.2)

variable {cassette other : Cassette} {names others : List String}

theorem nodup_eraseDups {α : Type} [BEq α] [LawfulBEq α] (list : List α) : list.eraseDups.Nodup := by
  match list with
  | [] => simp
  | a :: list =>
    rw [List.eraseDups_cons, List.nodup_cons, List.mem_eraseDups]
    exact ⟨by simp, nodup_eraseDups _⟩
termination_by list.length
decreasing_by exact Nat.lt_succ_of_le (List.length_filter_le ..)

theorem mem_known (cassette : Cassette) (key : String × String) :
    key ∈ (Replayer.ofCassette cassette).known ↔ cassette.recorded key ≠ [] := by
  rw [Replayer.ofCassette, List.mem_eraseDups, List.mem_map, recorded, Ne,
    List.filter_eq_nil_iff]
  simp only [Replayer.isFor_eq_true, not_forall, not_not, exists_prop]

theorem names_knownNames (cassette : Cassette) :
    cassette.Names (Replayer.ofCassette cassette).knownNames where
  ascending := by
    have hTrans (a b c : String) (hab : decide (a ≤ b) = true) (hbc : decide (b ≤ c) = true) :
        decide (a ≤ c) = true :=
      decide_eq_true (String.le_trans (of_decide_eq_true hab) (of_decide_eq_true hbc))
    have hTotal (a b : String) : (decide (a ≤ b) || decide (b ≤ a)) = true := by
      simpa using String.le_total a b
    exact (List.pairwise_mergeSort hTrans hTotal _).imp fun h => of_decide_eq_true h
  recorded := ⟨_, nodup_eraseDups _, cassette.mem_known, List.mergeSort_perm ..⟩

/-- The names are determined by which services and methods are recorded. -/
theorem Names.unique (h : cassette.Names names) (hOther : other.Names others)
    (hSame : ∀ key, cassette.recorded key = other.recorded key) : names = others := by
  obtain ⟨keys, hNodup, hKeys, hNames⟩ := h.recorded
  obtain ⟨otherKeys, hOtherNodup, hOtherKeys, hOtherNames⟩ := hOther.recorded
  have hPerm : keys.Perm otherKeys := by
    refine (List.perm_ext_iff_of_nodup hNodup hOtherNodup).mpr fun key => ?_
    rw [hKeys, hOtherKeys, hSame]
  have hAll : names.Perm others := hNames.trans ((hPerm.map _).trans hOtherNames.symm)
  exact hAll.eq_of_pairwise' h.ascending hOther.ascending

theorem queue_ofCassette (cassette : Cassette) (key : String × String) :
    (Replayer.ofCassette cassette).queue key.1 key.2 = cassette.recorded key := rfl

theorem exhaustion_ofCassette (cassette : Cassette) (key : String × String) :
    (Replayer.ofCassette cassette).exhaustion key =
      if (cassette.recorded key).isEmpty then
        .unknown key.1 key.2 (Replayer.ofCassette cassette).knownNames
      else .consumed key.1 key.2 := by
  have hKnown := cassette.mem_known key
  rw [Replayer.exhaustion]
  cases hRecorded : cassette.recorded key with
  | nil =>
    have hNot : key ∉ (Replayer.ofCassette cassette).known := by simp [hKnown, hRecorded]
    rw [if_neg (by simpa using hNot)]
    rfl
  | cons first rest =>
    have hMem : key ∈ (Replayer.ofCassette cassette).known := by simp [hKnown, hRecorded]
    rw [if_pos (by simpa using hMem)]
    rfl

/-- The answers to calls on a replayer of the cassette, and what they leave. -/
def session (cassette : Cassette) (calls : List (String × String)) :
    List (Except Exhaustion Interaction) × Replayer :=
  (Replayer.ofCassette cassette).callAll calls

/-- The next call is answered by the recording and the number of calls for the same queue. -/
theorem call_session (cassette : Cassette) (calls : List (String × String))
    (key : String × String) :
    ((cassette.session calls).2.call key).1 =
      cassette.answerTo (Replayer.ofCassette cassette).knownNames (calls.count key) key := by
  rw [session, Replayer.call_fst, Replayer.queue_callAll, Replayer.exhaustion_callAll,
    queue_ofCassette, exhaustion_ofCassette, List.head?_drop, answerTo]
  cases (cassette.recorded key)[calls.count key]? with
  | some first => rfl
  | none => exact apply_ite Except.error ..

/-- A call is answered by the recording and the number of earlier calls for the same queue. -/
theorem getElem?_session (cassette : Cassette) (calls : List (String × String)) (i : Nat) :
    (cassette.session calls).1[i]? =
      calls[i]?.map fun key =>
        cassette.answerTo (Replayer.ofCassette cassette).knownNames ((calls.take i).count key)
          key := by
  rw [session, Replayer.getElem?_callAll]
  exact congrArg (calls[i]?.map ·) (funext fun key => cassette.call_session ..)

/-- How a replayer of a cassette answers any calls, refused ones among them. -/
structure FirstInFirstOut (cassette : Cassette) : Prop where
  /-- Each call is answered with the next interaction of its queue, or refused if there is none. -/
  answers : ∃ names, cassette.Names names ∧ ∀ calls i,
    (cassette.session calls).1[i]? =
      calls[i]?.map fun key => cassette.answerTo names ((calls.take i).count key) key
  /-- A call that is refused leaves everything as it was. -/
  refused : ∀ calls key cause, ((cassette.session calls).2.call key).1 = .error cause →
    ((cassette.session calls).2.call key).2 = (cassette.session calls).2
  /-- Of each queue, what was served and what is left are what was recorded, in order. -/
  queues : ∀ calls key,
    (Replayer.served (cassette.session calls).1).filter (Replayer.isFor key.1 key.2) ++
      (cassette.session calls).2.queue key.1 key.2 = cassette.recorded key
  /-- Nothing is lost and nothing is served twice. -/
  conserved : ∀ calls, (Replayer.served (cassette.session calls).1 ++
    (cassette.session calls).2.pending).Perm cassette.interactions
  drained : ∀ calls, (cassette.session calls).2.isDrained = true ↔
    (Replayer.served (cassette.session calls).1).Perm cassette.interactions
  /-- The answers depend on the queues alone. -/
  determined : ∀ other : Cassette, (∀ key, cassette.recorded key = other.recorded key) →
    ∀ calls, (cassette.session calls).1 = (other.session calls).1
  /-- Neighbouring calls for different queues may be exchanged, and their answers with them. -/
  commute : ∀ before key other after, key ≠ other → ∃ answer otherAnswer last rest,
    cassette.session (before ++ key :: other :: after) =
        ((cassette.session before).1 ++ answer :: otherAnswer :: last, rest) ∧
      cassette.session (before ++ other :: key :: after) =
        ((cassette.session before).1 ++ otherAnswer :: answer :: last, rest)

theorem session_eq_of_recorded (h : ∀ key, cassette.recorded key = other.recorded key)
    (calls : List (String × String)) :
    (cassette.session calls).1 = (other.session calls).1 := by
  have hNames := cassette.names_knownNames.unique other.names_knownNames h
  refine List.ext_getElem? fun i => ?_
  rw [getElem?_session, getElem?_session, hNames]
  refine congrArg (calls[i]?.map ·) (funext fun key => ?_)
  rw [answerTo, answerTo, h]

theorem session_exchange {key other : String × String} (h : key ≠ other) (cassette : Cassette)
    (before after : List (String × String)) :
    ∃ answer otherAnswer last rest,
      cassette.session (before ++ key :: other :: after) =
          ((cassette.session before).1 ++ answer :: otherAnswer :: last, rest) ∧
        cassette.session (before ++ other :: key :: after) =
          ((cassette.session before).1 ++ otherAnswer :: answer :: last, rest) := by
  obtain ⟨hOther, hState⟩ := Replayer.call_comm h (cassette.session before).2
  obtain ⟨hKey, -⟩ := Replayer.call_comm (Ne.symm h) (cassette.session before).2
  refine ⟨((cassette.session before).2.call key).1, ((cassette.session before).2.call other).1,
    ((((cassette.session before).2.call key).2.call other).2.callAll after).1,
    ((((cassette.session before).2.call key).2.call other).2.callAll after).2, ?_, ?_⟩
  · rw [← hOther, session, Replayer.callAll_append]
    rfl
  · rw [← hKey, hState, session, Replayer.callAll_append]
    rfl

/-- A replayer hands out each queue of its cassette in order, each interaction once. -/
theorem firstInFirstOut (cassette : Cassette) : cassette.FirstInFirstOut where
  answers := ⟨_, cassette.names_knownNames, cassette.getElem?_session⟩
  refused calls key cause h := by
    cases hQueue : (cassette.session calls).2.queue key.1 key.2 with
    | nil => rw [Replayer.call_of_queue_nil hQueue]
    | cons first rest =>
      rw [Replayer.call_of_queue hQueue] at h
      cases h
  queues calls key := Replayer.served_append_queue calls _ key
  conserved calls := Replayer.perm_callAll calls _
  drained calls := Replayer.isDrained_callAll calls _
  determined _ h := session_eq_of_recorded h
  commute before _ _ after h := session_exchange h cassette before after

end Cassette

end ProvideIndex
