import ProvideIndex.Text.Blank
import ProvideIndex.Text.Split

/-!
# The words of a text

The words of a text are its longest runs without white space, in their order. `HasWords` says so of
a text and a list, and `words` finds the list.

* `words_eq_iff`: every text has exactly one list of words, which is the one that is found.
* `words_eq_nil_iff`: a text without words is white space.
* `hasWords_join`: words that are joined by single spaces stay the same words.
-/

namespace ProvideIndex.Text

/-- A word is not empty and holds no white space. -/
structure IsWord (word : List Char) : Prop where
  nonempty : word ≠ []
  unbroken : ∀ c ∈ word, isBlank c = false

/-- A text has these words, in this order. In front of a word stands nothing but white space, and
behind it stands white space or nothing, so no word could be longer. -/
inductive HasWords : List Char → List (List Char) → Prop
  | nil {gap : List Char} (hGap : ∀ c ∈ gap, isBlank c = true) : HasWords gap []
  | cons {gap word rest : List Char} {others : List (List Char)}
      (hGap : ∀ c ∈ gap, isBlank c = true) (hWord : IsWord word)
      (hEnd : ∀ c, rest.head? = some c → isBlank c = true) (hRest : HasWords rest others) :
      HasWords (gap ++ word ++ rest) (word :: others)

variable {c : Char} {gap word more rest text : List Char} {pieces : List (List Char)}

/-! ### Reading finds the words -/

theorem words_cons_blank (hc : isBlank c = true) (text : List Char) :
    words (c :: text) = words text := by
  rw [words, wordsFrom, if_pos hc]
  rfl

theorem words_gap_append (hGap : ∀ c ∈ gap, isBlank c = true) (text : List Char) :
    words (gap ++ text) = words text := by
  induction gap with
  | nil => rfl
  | cons c gap ih =>
    obtain ⟨hc, hRest⟩ := List.forall_mem_cons.mp hGap
    rw [List.cons_append, words_cons_blank hc, ih hRest]

theorem wordsFrom_append (hMore : ∀ c ∈ more, isBlank c = false) (word text : List Char) :
    wordsFrom word (more ++ text) = wordsFrom (word ++ more) text := by
  induction more generalizing word with
  | nil => rw [List.nil_append, List.append_nil]
  | cons c more ih =>
    obtain ⟨hc, hRest⟩ := List.forall_mem_cons.mp hMore
    rw [List.cons_append, wordsFrom, hc, if_neg Bool.false_ne_true, ih hRest, List.append_assoc]
    rfl

/-- A word ends where white space follows, and where the text ends. -/
theorem wordsFrom_of_end (hWord : word ≠ [])
    (hEnd : ∀ c, rest.head? = some c → isBlank c = true) :
    wordsFrom word rest = word :: words rest := by
  have hNonempty : ¬word.isEmpty = true := mt List.isEmpty_iff.mp hWord
  cases rest with
  | nil =>
    rw [wordsFrom, if_neg hNonempty]
    rfl
  | cons c rest =>
    have hc : isBlank c = true := hEnd c rfl
    rw [wordsFrom, if_pos hc, if_neg hNonempty, words_cons_blank hc]
    rfl

theorem HasWords.words_eq (h : HasWords text pieces) : words text = pieces := by
  induction h with
  | @nil gap hGap =>
    have hBlank : words (gap ++ []) = words [] := words_gap_append hGap []
    rwa [List.append_nil] at hBlank
  | @cons gap word rest others hGap hWord hEnd hRest ih =>
    rw [List.append_assoc, words_gap_append hGap, words, wordsFrom_append hWord.unbroken,
      List.nil_append, wordsFrom_of_end hWord.nonempty hEnd, ih]

theorem HasWords.cons_blank (hc : isBlank c = true) (h : HasWords text pieces) :
    HasWords (c :: text) pieces := by
  cases h with
  | nil hGap => exact .nil (List.forall_mem_cons.mpr ⟨hc, hGap⟩)
  | cons hGap hWord hEnd hRest =>
    exact .cons (List.forall_mem_cons.mpr ⟨hc, hGap⟩) hWord hEnd hRest

/-- A word in front of a text that begins with white space, or is empty. -/
theorem HasWords.append (hWord : IsWord word) (hEnd : ∀ c, rest.head? = some c → isBlank c = true)
    (h : HasWords rest pieces) : HasWords (word ++ rest) (word :: pieces) := by
  have hWords : HasWords ([] ++ word ++ rest) (word :: pieces) :=
    .cons (List.forall_mem_nil _) hWord hEnd h
  rwa [List.nil_append] at hWords

/-- By induction on what is still to be read; `word` is the word that has been begun. -/
theorem hasWords_wordsFrom (hWord : ∀ c ∈ word, isBlank c = false) (text : List Char) :
    HasWords (word ++ text) (wordsFrom word text) := by
  induction text generalizing word with
  | nil =>
    rw [wordsFrom]
    by_cases hEmpty : word = []
    · subst hEmpty
      exact .nil (List.forall_mem_nil _)
    · rw [if_neg (mt List.isEmpty_iff.mp hEmpty)]
      exact .append ⟨hEmpty, hWord⟩ (fun c hHead => by cases hHead) (.nil (List.forall_mem_nil _))
  | cons c text ih =>
    rw [wordsFrom]
    by_cases hc : isBlank c = true
    · have hRest : HasWords (c :: text) (wordsFrom [] text) :=
        (ih (List.forall_mem_nil _)).cons_blank hc
      rw [if_pos hc]
      by_cases hEmpty : word = []
      · subst hEmpty
        exact hRest
      · rw [if_neg (mt List.isEmpty_iff.mp hEmpty)]
        refine .append ⟨hEmpty, hWord⟩ (fun x hHead => ?_) hRest
        obtain rfl := Option.some.inj hHead
        exact hc
    · have hLonger : ∀ x ∈ word ++ [c], isBlank x = false := by
        intro x hMem
        rcases List.mem_append.mp hMem with hMem | hMem
        · exact hWord x hMem
        · rw [List.mem_singleton.mp hMem]
          exact Bool.eq_false_iff.mpr hc
      have hWords := ih hLonger
      rw [if_neg hc]
      rwa [List.append_assoc] at hWords

/-- A text has exactly the words that reading finds. -/
theorem words_eq_iff : words text = pieces ↔ HasWords text pieces := by
  constructor
  · rintro rfl
    exact hasWords_wordsFrom (List.forall_mem_nil _) text
  · exact HasWords.words_eq

theorem words_eq_nil_iff : words text = [] ↔ ∀ c ∈ text, isBlank c = true := by
  rw [words_eq_iff]
  constructor
  · intro h
    cases h with
    | nil hGap => exact hGap
  · exact .nil

/-! ### Words that are joined -/

theorem HasWords.isWord (h : HasWords text pieces) : ∀ word ∈ pieces, IsWord word := by
  induction h with
  | nil => exact List.forall_mem_nil _
  | cons _ hWord _ _ ih => exact List.forall_mem_cons.mpr ⟨hWord, ih⟩

theorem hasWords_join (h : ∀ word ∈ pieces, IsWord word) : HasWords (join ' ' pieces) pieces := by
  induction pieces with
  | nil => exact .nil (List.forall_mem_nil _)
  | cons word others ih =>
    obtain ⟨hWord, hOthers⟩ := List.forall_mem_cons.mp h
    cases others with
    | nil =>
      have hLast : HasWords (word ++ []) [word] :=
        .append hWord (fun c hHead => by cases hHead) (.nil (List.forall_mem_nil _))
      rwa [List.append_nil] at hLast
    | cons next others =>
      have hRest : HasWords (' ' :: join ' ' (next :: others)) (next :: others) :=
        (ih hOthers).cons_blank (by decide)
      refine .append hWord (fun c hHead => ?_) hRest
      obtain rfl := Option.some.inj hHead
      decide

/-- White space of any kind stands between words, and as much of it as may be. -/
example : words "\u3000go \t\u2003fmt\u0085".toList = ["go".toList, "fmt".toList] := by decide

end ProvideIndex.Text
