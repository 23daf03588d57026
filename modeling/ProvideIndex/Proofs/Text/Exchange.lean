import ProvideIndex.Text.Split

/-!
# The exchange of a word

`Text.replace` exchanges the occurrences of a word in a text, from left to right and without
overlap.

* `mem_replace_iff`: which characters the exchange keeps.
* `replace_append_word`, `replace_cons`, `replace_of_absent`: the exchange at an occurrence, and
  where there is none.
* `replace_append`: where the exchange can be cut.
-/

namespace ProvideIndex.Text

variable {c separator : Char} {word fresh text rest : List Char}

/-- What follows an occurrence of a word, told by its length. -/
theorem drop_of_startsWith {d : Char} (hNonempty : word ≠ [])
    (h : startsWith word (d :: text) = true) :
    ∃ tail, d :: text = word ++ tail ∧ text.drop (word.length - 1) = tail := by
  obtain ⟨tail, hText⟩ := startsWith_iff.mp h
  refine ⟨tail, hText, ?_⟩
  cases word with
  | nil => exact absurd rfl hNonempty
  | cons w word =>
    obtain ⟨-, rfl⟩ := List.cons_eq_cons.mp hText
    exact List.drop_left

theorem mem_replaceFrom_iff (hNonempty : word ≠ []) (hWord : c ∉ word) (hFresh : c ∉ fresh)
    (skip : Nat) : c ∈ replaceFrom word fresh skip text ↔ c ∈ text.drop skip := by
  induction text generalizing skip with
  | nil => simp [replaceFrom]
  | cons d text ih =>
    cases skip with
    | succ skip => rw [replaceFrom, List.drop_succ_cons, ih]
    | zero =>
      rw [replaceFrom, List.drop_zero]
      cases hStart : startsWith word (d :: text) with
      | false => rw [if_neg Bool.false_ne_true, List.mem_cons, List.mem_cons, ih, List.drop_zero]
      | true =>
        obtain ⟨tail, hText, hTail⟩ := drop_of_startsWith hNonempty hStart
        rw [if_pos rfl, List.mem_append, ih, hTail, hText, List.mem_append, or_iff_right hFresh,
          or_iff_right hWord]

theorem mem_replace_iff (hNonempty : word ≠ []) (hWord : c ∉ word) (hFresh : c ∉ fresh) :
    c ∈ replace word fresh text ↔ c ∈ text :=
  mem_replaceFrom_iff hNonempty hWord hFresh 0

theorem startsWith_append_cons (hSeparator : separator ∉ word) (text rest : List Char) :
    startsWith word (text ++ separator :: rest) = startsWith word text := by
  rw [startsWith, startsWith, after?_append_cons hSeparator, Option.isSome_map]

/-- No occurrence of a word reaches over a character that the word does not hold. -/
theorem replaceFrom_append (hNonempty : word ≠ []) (hSeparator : separator ∉ word) {skip : Nat}
    (hSkip : skip ≤ text.length) :
    replaceFrom word fresh skip (text ++ separator :: rest) =
      replaceFrom word fresh skip text ++ separator :: replace word fresh rest := by
  induction text generalizing skip with
  | nil =>
    obtain rfl := Nat.le_zero.mp hSkip
    have hStart : startsWith word (separator :: rest) = startsWith word [] :=
      startsWith_append_cons hSeparator [] rest
    have hNot : startsWith word [] = false := by
      cases word with
      | nil => exact absurd rfl hNonempty
      | cons w word => rfl
    simp [replaceFrom, replace, hStart, hNot]
  | cons d text ih =>
    cases skip with
    | succ skip =>
      rw [List.cons_append, replaceFrom, replaceFrom, ih (Nat.le_of_succ_le_succ hSkip)]
    | zero =>
      have hStart := startsWith_append_cons hSeparator (d :: text) rest
      rw [List.cons_append] at hStart ⊢
      rw [replaceFrom, replaceFrom, hStart]
      cases hFound : startsWith word (d :: text) with
      | false =>
        rw [if_neg Bool.false_ne_true, if_neg Bool.false_ne_true, ih (Nat.zero_le _),
          List.cons_append]
      | true =>
        have hLength : word.length - 1 ≤ text.length := by
          obtain ⟨tail, hText, -⟩ := drop_of_startsWith hNonempty hFound
          have hCount := congrArg List.length hText
          simp only [List.length_cons, List.length_append] at hCount
          omega
        rw [if_pos rfl, if_pos rfl, ih hLength, List.append_assoc]

theorem replace_append (hNonempty : word ≠ []) (hSeparator : separator ∉ word) :
    replace word fresh (text ++ separator :: rest) =
      replace word fresh text ++ separator :: replace word fresh rest :=
  replaceFrom_append hNonempty hSeparator (Nat.zero_le _)

/-! ### Occurrences -/

theorem replaceFrom_eq_drop (word fresh : List Char) (skip : Nat) (text : List Char) :
    replaceFrom word fresh skip text = replace word fresh (text.drop skip) := by
  induction text generalizing skip with
  | nil => simp [replaceFrom, replace]
  | cons c text ih =>
    cases skip with
    | zero => rfl
    | succ skip => rw [replaceFrom, ih, List.drop_succ_cons]

theorem replace_append_word (hNonempty : word ≠ []) (text : List Char) :
    replace word fresh (word ++ text) = fresh ++ replace word fresh text := by
  cases hWord : word ++ text with
  | nil => exact absurd (List.append_eq_nil_iff.mp hWord).1 hNonempty
  | cons c rest =>
    have hStart : startsWith word (c :: rest) = true := startsWith_iff.mpr ⟨text, hWord.symm⟩
    obtain ⟨tail, hTail, hDrop⟩ := drop_of_startsWith hNonempty hStart
    have hSame : tail = text := List.append_cancel_left (hTail.symm.trans hWord.symm)
    rw [replace, replaceFrom, if_pos hStart, replaceFrom_eq_drop, hDrop, hSame]

theorem replace_cons (h : ¬ word <+: c :: text) :
    replace word fresh (c :: text) = c :: replace word fresh text := by
  rw [replace, replaceFrom, if_neg]
  · rfl
  · rwa [startsWith_iff_isPrefix]

theorem replace_of_absent (h : ¬ word <:+: text) : replace word fresh text = text := by
  induction text with
  | nil => rfl
  | cons c text ih =>
    rw [List.infix_cons_iff, not_or] at h
    rw [replace_cons h.1, ih h.2]

end ProvideIndex.Text
