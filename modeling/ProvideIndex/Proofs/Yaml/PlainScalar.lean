import ProvideIndex.Proofs.Yaml.Gap
import ProvideIndex.Yaml.PlainScalar
import Mathlib.Data.List.Basic

/-!
# Texts without quotes

A text that is written without quotes is read word by word, and the reading stops where the text
ends: before the colon of a key, or at the end of a line.

* `word?_append`: one word.
* `exists_lastWord`: all words but the last one.
* `read?_key`, `read?_line`: the whole text, in front of a colon and in front of another line.
-/

namespace ProvideIndex.Yaml.PlainScalar

open Text ScalarText

variable {text word more following content : List Char} {cursor : Cursor} {least column : Nat}

/-- What is left of a text without quotes where one of its words begins. -/
structure IsPlain (text : List Char) : Prop where
  nonempty : text ≠ []
  shown : ∀ c ∈ text, isPrintable c = true
  line : ∀ c ∈ text, isBreak c = false
  marks : hasInnerMark true text = false
  head : Stops isSpace text
  last : text.getLast?.any isSpace = false

theorem isPlain_of_allowed (hText : text ≠ []) (h : plainAllowed text = true) : IsPlain text := by
  simp only [plainAllowed, needsEscapes, isMultiline, Bool.and_eq_true, Bool.not_eq_true',
    Bool.or_eq_false_iff] at h
  obtain ⟨⟨⟨⟨⟨⟨hShown, -⟩, hLine⟩, -⟩, hMarks⟩, hHead⟩, hLast⟩ := h
  refine ⟨hText, fun c hMem => ?_, fun c hMem => ?_, hMarks, fun c hFirst => ?_, hLast⟩
  · simpa using List.any_eq_false.mp hShown c hMem
  · simpa using List.any_eq_false.mp hLine c hMem
  · simpa [hFirst] using hHead

/-! ### Words -/

theorem isStrayColon_block (c : Char) (next : Option Char) : isStrayColon false c next = false := by
  rw [isStrayColon.eq_def, Bool.false_and, Bool.false_and]

theorem word?_white {c : Char} (h : isWhite c = true) : word? false (c :: following) = some [] := by
  have hGap : isGapOrEnd (some c) = true := h
  rw [word?, hGap]
  rfl

theorem word?_colon (h : isGapOrEnd following.head? = true) :
    word? false (':' :: following) = some [] := by
  rw [word?, isStrayColon_block, endsAt, h]
  rfl

/-- A word is read up to where the text stops. -/
theorem word?_append {afterBlank : Bool} (hWord : ∀ c ∈ word, isWhite c = false)
    (hMarks : hasInnerMark afterBlank (word ++ more) = false)
    (hStop : word? false (more ++ following) = some []) :
    word? false (word ++ (more ++ following)) = some word := by
  induction word generalizing afterBlank with
  | nil => exact hStop
  | cons c word ih =>
    rw [List.cons_append, hasInnerMark, Bool.or_eq_false_iff, Bool.or_eq_false_iff] at hMarks
    obtain ⟨⟨hColon, -⟩, hMarks⟩ := hMarks
    have hWhite : isGapOrEnd (some c) = false := hWord c (List.mem_cons_self ..)
    have hRest := ih (fun d hMem => hWord d (List.mem_cons_of_mem _ hMem)) hMarks
    have hEnds : (c == ':' && isGapOrEnd (word ++ (more ++ following)).head?) = false := by
      rw [Bool.and_eq_false_iff] at hColon ⊢
      refine hColon.imp_right fun hNext => ?_
      rw [← List.append_assoc]
      cases hJoined : word ++ more with
      | nil => rw [hJoined] at hNext; cases hNext
      | cons d joined => rwa [hJoined] at hNext
    rw [List.cons_append, word?, hWhite, isStrayColon_block, endsAt, hEnds, hRest]
    rfl

/-! ### The words of a text -/

/-- A text is one word, or a word and spaces before the next one. -/
theorem split_words (hText : text ≠ []) (hHead : Stops isSpace text) :
    (∀ c ∈ text, isSpace c = false) ∨
      ∃ word count more, text = word ++ (spaces (count + 1) ++ more) ∧ word ≠ [] ∧
        (∀ c ∈ word, isSpace c = false) ∧ Stops isSpace more := by
  obtain ⟨word, rest, rfl, hWord, hRest⟩ := exists_run (!isSpace ·) text
  obtain ⟨run, more, rfl, hRun, hMore⟩ := exists_run isSpace rest
  have hNoSpace : ∀ c ∈ word, isSpace c = false := fun c hMem => by simpa using hWord c hMem
  have hSpaces : run = spaces run.length := eq_spaces_of_all hRun
  cases run with
  | nil =>
    -- The rest begins neither with a space nor with anything else.
    have hEmpty : more = [] := by
      cases more with
      | nil => rfl
      | cons c more =>
        have hSpace : (!isSpace c) = false := hRest c rfl
        rw [hMore c rfl] at hSpace
        cases hSpace
    subst hEmpty
    exact .inl fun c hMem => hNoSpace c (by simpa using hMem)
  | cons c run =>
    refine .inr ⟨word, run.length, more, by rw [hSpaces]; rfl, ?_, hNoSpace, hMore⟩
    rintro rfl
    have hSpace := hHead c rfl
    rw [hRun c (List.mem_cons_self ..)] at hSpace
    cases hSpace

theorem hasInnerMark_behind_space {first : List Char} {afterBlank : Bool}
    (h : hasInnerMark afterBlank (first ++ ' ' :: more) = false) :
    hasInnerMark true more = false := by
  induction first generalizing afterBlank with
  | nil =>
    rw [List.nil_append, hasInnerMark, Bool.or_eq_false_iff] at h
    exact h.2
  | cons c first ih =>
    rw [List.cons_append, hasInnerMark, Bool.or_eq_false_iff] at h
    exact ih h.2

/-- What follows a word and its spaces is again a text without quotes. -/
theorem IsPlain.behind {count : Nat} (h : IsPlain (word ++ (spaces (count + 1) ++ more)))
    (hMore : Stops isSpace more) : IsPlain more := by
  have hSome : more ≠ [] := by
    rintro rfl
    have hLast := h.last
    rw [List.append_nil, spaces_succ, ← List.append_assoc, List.getLast?_concat] at hLast
    cases hLast
  have hMem : ∀ c ∈ more, c ∈ word ++ (spaces (count + 1) ++ more) := fun c hMem =>
    List.mem_append_right _ (List.mem_append_right _ hMem)
  refine ⟨hSome, fun c hIn => h.shown c (hMem c hIn), fun c hIn => h.line c (hMem c hIn), ?_, hMore,
    ?_⟩
  · have hMarks := h.marks
    rw [spaces_succ, ← List.append_assoc, ← List.append_assoc, List.append_assoc,
      List.singleton_append] at hMarks
    exact hasInnerMark_behind_space hMarks
  · have hLast := h.last
    rwa [List.getLast?_append_of_ne_nil _ (List.append_ne_nil_of_right_ne_nil _ hSome),
      List.getLast?_append_of_ne_nil _ hSome] at hLast

theorem IsPlain.isWhite_eq (h : IsPlain text) {c : Char} (hMem : c ∈ text) :
    isWhite c = isSpace c := isWhite_of_shown (h.shown c hMem) (h.line c hMem)

theorem IsPlain.stops (h : IsPlain text) : Stops isWhite (text ++ following) := by
  intro c hHead
  rw [List.head?_append_of_ne_nil _ h.nonempty] at hHead
  rw [h.isWhite_eq (List.mem_of_mem_head? hHead)]
  exact h.head c hHead

theorem IsPlain.head_ne_number (h : IsPlain text) (hRest : cursor.rest = text ++ following) :
    (cursor.peek 0 == some '#') = false := by
  rw [beq_eq_false_iff_ne, Cursor.peek_zero, hRest]
  cases text with
  | nil => exact absurd rfl h.nonempty
  | cons c text =>
    have hMarks := h.marks
    rw [hasInnerMark, Bool.or_eq_false_iff, Bool.or_eq_false_iff, Bool.and_true] at hMarks
    intro hHead
    rw [Option.some.inj hHead] at hMarks
    cases hMarks.1.2

/-- One word with the spaces after it. -/
theorem readFrom_word {done : Progress} {count fuel : Nat}
    (h : IsPlain (word ++ (spaces (count + 1) ++ more))) (hWord : word ≠ [])
    (hNoSpace : ∀ c ∈ word, isSpace c = false) (hMore : Stops isSpace more)
    (hRest : done.cursor.rest = word ++ (spaces (count + 1) ++ more) ++ following)
    (hMark : done.cursor.atDocumentMark = false) (hLeast : least ≤ done.cursor.column + 1) :
    readFrom false least done (fuel + 1) =
      readFrom false least ⟨done.text ++ done.gap.text ++ word, ⟨spaces (count + 1), []⟩,
        done.cursor.advance (word.length + (count + 1))⟩ fuel := by
  have hNoWhite : ∀ c ∈ word, isWhite c = false := fun c hMem => by
    rw [h.isWhite_eq (List.mem_append_left _ hMem)]
    exact hNoSpace c hMem
  have hStop : word? false (spaces (count + 1) ++ more ++ following) = some [] := word?_white rfl
  have hRead : word? false done.cursor.rest = some word := by
    rw [hRest, List.append_assoc]
    exact word?_append hNoWhite h.marks hStop
  have hAfter :
      (done.cursor.advance word.length).rest = spaces (count + 1) ++ (more ++ following) := by
    refine Cursor.rest_advance (hRest.trans ?_)
    simp only [List.append_assoc]
  have hPeek : (done.cursor.advance word.length).peek 0 = some ' ' := by
    rw [Cursor.peek_zero, hAfter]
    rfl
  have hGap : Gap.read least (done.cursor.advance word.length) =
      some (⟨spaces (count + 1), []⟩, (done.cursor.advance word.length).advance (count + 1)) :=
    Gap.read_spaces hAfter (h.behind hMore).stops
  have hLength : 0 < word.length := List.length_pos_iff.mpr hWord
  have hColumn : ¬done.cursor.column + (word.length + (count + 1)) < least := by omega
  have hEmpty : word.isEmpty = false := List.isEmpty_eq_false_iff.mpr hWord
  have hWhite : isGapOrEnd (some ' ') = true := rfl
  rw [readFrom, hMark, h.head_ne_number hRest, hRead]
  simp only [Bool.or_self, Bool.false_eq_true, if_false, Option.bind_eq_bind, Option.bind_some,
    hEmpty, hPeek, hWhite, if_true, hGap, Cursor.advance_advance, Cursor.column_advance, hColumn,
    decide_false, Bool.and_false]

/-- The state before the last word of a text: `less` steps are left after it. -/
structure LastWord (least : Nat) (text following : List Char) (done : Progress) (fuel : Nat)
    (last : Progress) (word : List Char) (less : Nat) : Prop where
  reads : readFrom false least done fuel = readFrom false least last (less + 1)
  plain : IsPlain word
  noSpace : ∀ c ∈ word, isSpace c = false
  rest : last.cursor.rest = word ++ following
  mark : last.cursor.atDocumentMark = false
  whole : last.text ++ last.gap.text ++ word = done.text ++ done.gap.text ++ text
  place : last.cursor.advance word.length = done.cursor.advance text.length

theorem exists_lastWord {done : Progress} {fuel : Nat} (h : IsPlain text)
    (hRest : done.cursor.rest = text ++ following) (hMark : done.cursor.atDocumentMark = false)
    (hLeast : least ≤ done.cursor.column + 1) (hFuel : text.length ≤ fuel) :
    ∃ last word less, LastWord least text following done fuel last word less := by
  induction hLength : text.length using Nat.strong_induction_on generalizing text done fuel with
  | _ length ih =>
    obtain ⟨fuel, rfl⟩ : ∃ less, fuel = less + 1 := by
      have hSome := List.length_pos_iff.mpr h.nonempty
      exact ⟨fuel - 1, by omega⟩
    rcases split_words h.nonempty h.head with hWord | ⟨word, count, more, rfl, hSome, hWord, hMore⟩
    · exact ⟨done, text, fuel, rfl, h, hWord, hRest, hMark, rfl, rfl⟩
    · have hStep : readFrom false least done (fuel + 1) = _ :=
        readFrom_word h hSome hWord hMore hRest hMark hLeast
      have hJoined : done.cursor.rest = (word ++ spaces (count + 1)) ++ (more ++ following) :=
        hRest.trans (by simp only [List.append_assoc])
      have hNext := Cursor.rest_advance hJoined
      rw [List.length_append, spaces, List.length_replicate] at hNext
      have hLess : more.length < length := by
        rw [← hLength, List.length_append, List.length_append, spaces, List.length_replicate]
        omega
      have hLeft : more.length ≤ fuel := by omega
      have hPlace : (done.cursor.advance (word.length + (count + 1))).atDocumentMark = false :=
        Cursor.atDocumentMark_of_column (by rw [Cursor.column_advance]; omega)
      have hDeep : least ≤ (done.cursor.advance (word.length + (count + 1))).column + 1 := by
        rw [Cursor.column_advance]
        omega
      have hTail : ∃ last tail less, LastWord least more following
          ⟨done.text ++ done.gap.text ++ word, ⟨spaces (count + 1), []⟩,
            done.cursor.advance (word.length + (count + 1))⟩ fuel last tail less :=
        ih more.length hLess (h.behind hMore) hNext hPlace hDeep hLeft rfl
      obtain ⟨last, tail, less, hLast⟩ := hTail
      refine ⟨last, tail, less, hStep.trans hLast.reads, hLast.plain, hLast.noSpace, hLast.rest,
        hLast.mark, hLast.whole.trans ?_, hLast.place.trans ?_⟩
      · simp only [Gap.text, List.isEmpty_nil, if_true, List.append_assoc]
      · rw [Cursor.advance_advance]
        simp only [List.length_append, spaces, List.length_replicate, Nat.add_assoc]

/-! ### The end of a text -/

/-- The last word is read up to the end of the text. -/
theorem LastWord.word?_eq {done last : Progress} {fuel less : Nat}
    (h : LastWord least text following done fuel last word less)
    (hStop : word? false following = some []) : word? false last.cursor.rest = some word := by
  have hNoWhite : ∀ c ∈ word, isWhite c = false := fun c hMem => by
    rw [h.plain.isWhite_eq hMem]
    exact h.noSpace c hMem
  have hMarks : hasInnerMark true (word ++ []) = false := by
    rw [List.append_nil]
    exact h.plain.marks
  rw [h.rest]
  exact word?_append hNoWhite hMarks hStop

/-- A text without quotes is no document mark, nor is it one together with what follows it. -/
theorem atDocumentMark_of_plain (h : beginsWithMark text = false)
    (hRest : cursor.rest = text ++ following)
    (hStop : ∀ c, following.head? = some c → c ≠ '-' ∧ c ≠ '.') :
    cursor.atDocumentMark = false := by
  rw [← Bool.not_eq_true]
  intro hTrue
  obtain ⟨a, rest, hMark, hChar⟩ := Cursor.exists_of_atDocumentMark hTrue
  rw [hRest] at hMark
  have hNotNext : following.head? ≠ some a := fun hHead => by
    obtain ⟨hMinus, hPoint⟩ := hStop a hHead
    exact hChar.elim hMinus hPoint
  rcases text with - | ⟨b, - | ⟨c, - | ⟨d, text⟩⟩⟩
  · exact hNotNext (congrArg List.head? hMark)
  · exact hNotNext (congrArg List.head? (List.cons_eq_cons.mp hMark).2)
  · exact hNotNext (congrArg List.head? (List.cons_eq_cons.mp (List.cons_eq_cons.mp hMark).2).2)
  · obtain ⟨rfl, hMark⟩ := List.cons_eq_cons.mp hMark
    obtain ⟨rfl, hMark⟩ := List.cons_eq_cons.mp hMark
    obtain ⟨rfl, -⟩ := List.cons_eq_cons.mp hMark
    rcases hChar with rfl | rfl <;> cases h

section Ends

variable (hText : text ≠ []) (hPlain : plainAllowed text = true)
    (hLeast : least ≤ cursor.column + 1)

include hText hPlain hLeast

/-- All words of a text but the last one are read. -/
theorem exists_lastWord_start (hRest : cursor.rest = text ++ following)
    (hStop : ∀ c, following.head? = some c → c ≠ '-' ∧ c ≠ '.') :
    ∃ last word less,
      LastWord least text following ⟨[], ⟨[], []⟩, cursor⟩ (cursor.rest.length + 1)
        last word less := by
  have hBegin : beginsWithMark text = false := by
    simp only [plainAllowed, Bool.and_eq_true, Bool.not_eq_true'] at hPlain
    exact hPlain.1.1.1.2
  have hFuel : text.length ≤ cursor.rest.length + 1 := by
    rw [hRest, List.length_append]
    omega
  exact exists_lastWord (isPlain_of_allowed hText hPlain) hRest
    (atDocumentMark_of_plain hBegin hRest hStop) hLeast hFuel

/-- A text that is written without quotes is read back in front of the colon of a key. -/
theorem read?_key (hRest : cursor.rest = text ++ ':' :: following)
    (hColon : isGapOrEnd following.head? = true) :
    read? false least cursor = some (text, false, cursor.advance text.length) := by
  obtain ⟨last, word, less, hLast⟩ := exists_lastWord_start hText hPlain hLeast hRest
    fun c hHead => by cases hHead; decide
  have hAfter : (cursor.advance text.length).peek 0 = some ':' := by
    rw [Cursor.peek_zero, Cursor.rest_advance hRest]
    rfl
  have hEmpty : word.isEmpty = false := List.isEmpty_eq_false_iff.mpr hLast.plain.nonempty
  have hNoWhite : isGapOrEnd (some ':') = false := rfl
  have hWhole : last.text ++ last.gap.text ++ word = text := hLast.whole
  rw [read?, hLast.reads, readFrom, hLast.mark, hLast.plain.head_ne_number hLast.rest,
    hLast.word?_eq (word?_colon hColon)]
  simp only [Bool.or_self, Bool.false_eq_true, if_false, Option.bind_eq_bind, Option.bind_some,
    hEmpty, hWhole, hLast.place, hAfter, hNoWhite]
  rfl

/-- A text that is written without quotes is read back at the end of its line. -/
theorem read?_line {column : Nat} (hRest : cursor.rest = text ++ '\n' :: (spaces column ++ content))
    (hContent : Stops isWhite content) (hColumn : column < least) :
    ∃ next, read? false least cursor = some (text, true, next) ∧ next.rest = content ∧
      cursor.line < next.line ∧ next.column = column := by
  obtain ⟨last, word, less, hLast⟩ := exists_lastWord_start hText hPlain hLeast hRest
    fun c hHead => by cases hHead; decide
  have hBreak : (cursor.advance text.length).rest = '\n' :: [] ++ (spaces column ++ content) :=
    Cursor.rest_advance hRest
  have hAfter : (cursor.advance text.length).peek 0 = some '\n' := by
    rw [Cursor.peek_zero, hBreak]
    rfl
  have hBreaks : ∀ b ∈ ['\n'], isBreak b = true ∧ isPrintable b = true := forall_of_all rfl
  have hRead : ∃ next, Gap.read least (cursor.advance text.length) = some (⟨[], ['\n']⟩, next) ∧
      next.rest = content ∧ cursor.line < next.line ∧ next.column = column :=
    Gap.read_lines hBreaks hBreak hContent
  obtain ⟨next, hGap, hNext, hLine, hReached⟩ := hRead
  have hEmpty : word.isEmpty = false := List.isEmpty_eq_false_iff.mpr hLast.plain.nonempty
  have hWhite : isGapOrEnd (some '\n') = true := rfl
  have hWhole : last.text ++ last.gap.text ++ word = text := hLast.whole
  have hShallow : decide (next.column < least) = true := decide_eq_true (hReached ▸ hColumn)
  refine ⟨next, ?_, hNext, hLine, hReached⟩
  rw [read?, hLast.reads, readFrom, hLast.mark, hLast.plain.head_ne_number hLast.rest,
    hLast.word?_eq (word?_white rfl)]
  simp only [Bool.or_self, Bool.false_eq_true, if_false, Option.bind_eq_bind, Option.bind_some,
    hEmpty, hWhole, hLast.place, hAfter, hWhite, if_true, hGap, hShallow, Bool.not_false,
    Bool.and_self]
  rfl

end Ends

end ProvideIndex.Yaml.PlainScalar
