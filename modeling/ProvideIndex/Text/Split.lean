import ProvideIndex.Text.Match

/-!
# Splitting at a character

`split` cuts a text at every occurrence of a separator and `join` puts the pieces together again;
`splitLast?` cuts at the last occurrence only. `replace` exchanges the occurrences of a word, from
left to right and without overlap.
-/

namespace ProvideIndex.Text

/-- The pieces between separators; a text without a separator is one piece. -/
def split (separator : Char) : List Char → List (List Char)
  | [] => [[]]
  | c :: text =>
    if c = separator then [] :: split separator text
    else
      match split separator text with
      | [] => [[c]]
      | piece :: pieces => (c :: piece) :: pieces

def join (separator : Char) : List (List Char) → List Char
  | [] => []
  | [piece] => piece
  | piece :: next :: pieces => piece ++ separator :: join separator (next :: pieces)

/-- The text before and after the last separator. -/
def splitLast? (separator : Char) : List Char → Option (List Char × List Char)
  | [] => none
  | c :: text =>
    match splitLast? separator text with
    | some (before, rest) => some (c :: before, rest)
    | none => if c = separator then some ([], text) else none

/--
The text with every occurrence of `word` exchanged for `fresh`. The first `skip` characters are
dropped: they belong to an occurrence that has been exchanged.
-/
def replaceFrom (word fresh : List Char) (skip : Nat) : List Char → List Char
  | [] => []
  | c :: text =>
    match skip with
    | skip + 1 => replaceFrom word fresh skip text
    | 0 =>
      if startsWith word (c :: text) then fresh ++ replaceFrom word fresh (word.length - 1) text
      else c :: replaceFrom word fresh 0 text

/-- The text with the occurrences of a nonempty `word` exchanged for `fresh`. -/
def replace (word fresh text : List Char) : List Char := replaceFrom word fresh 0 text

theorem split_ne_nil (separator : Char) (text : List Char) : split separator text ≠ [] := by
  induction text with
  | nil => simp [split]
  | cons c text ih =>
    rw [split]
    split
    · simp
    · split <;> simp

theorem join_split (separator : Char) (text : List Char) :
    join separator (split separator text) = text := by
  induction text with
  | nil => rfl
  | cons c text ih =>
    rw [split]
    cases h : split separator text with
    | nil => exact absurd h (split_ne_nil separator text)
    | cons piece pieces =>
      rw [h] at ih
      by_cases hc : c = separator
      · simp [hc, join, ih]
      · rw [if_neg hc]
        cases pieces with
        | nil => simpa [join] using ih
        | cons next pieces => simpa [join] using ih

theorem not_mem_of_mem_split {separator : Char} {text piece : List Char}
    (h : piece ∈ split separator text) : separator ∉ piece := by
  induction text generalizing piece with
  | nil => simp_all [split]
  | cons c text ih =>
    rw [split] at h
    by_cases hc : c = separator
    · rw [if_pos hc] at h
      rcases List.mem_cons.mp h with rfl | h
      · simp
      · exact ih h
    · rw [if_neg hc] at h
      cases hs : split separator text with
      | nil => simp_all [Ne.symm hc]
      | cons first pieces =>
        rw [hs] at h ih
        rcases List.mem_cons.mp h with rfl | h
        · simp [Ne.symm hc, ih (List.mem_cons_self ..)]
        · exact ih (List.mem_cons_of_mem _ h)

theorem splitLast?_eq_none {separator : Char} {text : List Char} :
    splitLast? separator text = none ↔ separator ∉ text := by
  induction text with
  | nil => simp [splitLast?]
  | cons c text ih =>
    cases h : splitLast? separator text with
    | none =>
      have hText := ih.mp h
      by_cases hc : c = separator
      · simp [splitLast?, h, hc]
      · simp [splitLast?, h, hc, hText, Ne.symm hc]
    | some parts =>
      have hMem : separator ∈ text := Decidable.not_not.mp fun hm => by simp [ih.mpr hm] at h
      simp [splitLast?, h, hMem]

theorem splitLast?_some {separator : Char} {text before rest : List Char}
    (h : splitLast? separator text = some (before, rest)) :
    text = before ++ separator :: rest ∧ separator ∉ rest := by
  induction text generalizing before with
  | nil => simp [splitLast?] at h
  | cons c text ih =>
    cases hs : splitLast? separator text with
    | none =>
      by_cases hc : c = separator
      · simp only [splitLast?, hs, if_pos hc, Option.some.injEq, Prod.mk.injEq] at h
        obtain ⟨rfl, rfl⟩ := h
        exact ⟨by simp [hc], splitLast?_eq_none.mp hs⟩
      · simp [splitLast?, hs, hc] at h
    | some parts =>
      simp only [splitLast?, hs, Option.some.injEq, Prod.mk.injEq] at h
      obtain ⟨rfl, rfl⟩ := h
      obtain ⟨hText, hRest⟩ := ih hs
      exact ⟨by simp [hText], hRest⟩

end ProvideIndex.Text
