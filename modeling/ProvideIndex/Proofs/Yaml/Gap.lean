import ProvideIndex.Proofs.Text.Run
import ProvideIndex.Yaml.Fold
import ProvideIndex.Yaml.ScalarText

/-!
# Gaps in a stream

A cursor in front of a known text passes over it, and a gap in front of a word is read as the blanks
or the line breaks that it is made of.

* `advance_advance`, `rest_advance`: what a cursor has passed over.
* `readBreak?_of_break`: a line break, read as itself.
* `Gap.read_spaces`, `Gap.read_lines`: a gap in one line, and a gap over several lines.
-/

namespace ProvideIndex.Yaml

open Text ScalarText

/-- A space, a tab or a line break. -/
def isWhite (c : Char) : Bool := isGap c || isBreak c

theorem isGapOrEnd_some (c : Char) : isGapOrEnd (some c) = isWhite c := rfl

variable {cursor : Cursor} {run rest breaks : List Char} {p : Char → Bool}

theorem stops_of_imp {p q : Char → Bool} (h : Stops p rest) (hImp : ∀ c, q c = true → p c = true) :
    Stops q rest := fun c hHead => Bool.eq_false_iff.mpr fun hq => by
  have hp := h c hHead
  rw [hImp c hq] at hp
  cases hp

theorem stops_break_of_white (h : Stops isWhite rest) : Stops isBreak rest :=
  stops_of_imp h fun c hBreak => by rw [isWhite, hBreak, Bool.or_true]

theorem stops_gap_of_white (h : Stops isWhite rest) : Stops isGap rest :=
  stops_of_imp h fun c hGap => by rw [isWhite, hGap, Bool.true_or]

/-- Among the characters that are shown in one line, only the space is a blank. -/
theorem isWhite_of_shown {c : Char} (hShown : isPrintable c = true) (hLine : isBreak c = false) :
    isWhite c = isSpace c := by
  have hTab : (c == '\t') = false := by
    rw [beq_eq_false_iff_ne]
    rintro rfl
    cases hShown
  rw [isWhite, isGap, hLine, hTab, Bool.or_false, Bool.or_false]
  rfl

theorem spaces_succ (count : Nat) : spaces (count + 1) = spaces count ++ [' '] :=
  List.replicate_succ'

theorem eq_spaces_of_all (h : ∀ c ∈ run, isSpace c = true) : run = spaces run.length :=
  List.eq_replicate_of_mem fun c hMem => beq_iff_eq.mp (h c hMem)

/-- A text that begins with a space begins with all spaces that are there. -/
theorem exists_spaces (text : List Char) :
    ∃ count more, ' ' :: text = spaces (count + 1) ++ more ∧ Stops isSpace more := by
  obtain ⟨run, more, rfl, hRun, hMore⟩ := exists_run isSpace text
  refine ⟨run.length, more, ?_, hMore⟩
  rw [eq_spaces_of_all hRun, spaces, spaces, List.length_replicate, List.replicate_succ,
    List.cons_append]

/-- A text that begins with a line break begins with all line breaks that are there. -/
theorem exists_breaks {c : Char} (text : List Char) (hBreak : isBreak c = true) :
    ∃ breaks more, c :: text = c :: breaks ++ more ∧ (∀ b ∈ c :: breaks, isBreak b = true) ∧
      Stops isBreak more := by
  obtain ⟨run, more, rfl, hRun, hMore⟩ := exists_run isBreak text
  exact ⟨run, more, rfl, List.forall_mem_cons.mpr ⟨hBreak, hRun⟩, hMore⟩

namespace Cursor

/-! ### Passing over characters -/

@[simp] theorem line_advance (cursor : Cursor) (count : Nat) :
    (cursor.advance count).line = cursor.line := rfl

@[simp] theorem column_advance (cursor : Cursor) (count : Nat) :
    (cursor.advance count).column = cursor.column + count := rfl

theorem advance_zero (cursor : Cursor) : cursor.advance 0 = cursor := rfl

theorem rest_advance (h : cursor.rest = run ++ rest) :
    (cursor.advance run.length).rest = rest := by
  rw [advance, h]
  exact List.drop_left

theorem rest_advance_one {c : Char} (h : cursor.rest = c :: rest) :
    (cursor.advance 1).rest = rest := by
  rw [advance, h]
  rfl

theorem rest_advance_spaces {count : Nat} (h : cursor.rest = spaces count ++ rest) :
    (cursor.advance count).rest = rest := by
  have hRest := rest_advance h
  rwa [spaces, List.length_replicate] at hRest

theorem peek_zero (cursor : Cursor) : cursor.peek 0 = cursor.rest.head? :=
  List.head?_eq_getElem?.symm

theorem foldl_width (text : List Char) (bytes : Nat) :
    text.foldl (fun bytes c => bytes + c.utf8Size) bytes =
      bytes + text.foldl (fun bytes c => bytes + c.utf8Size) 0 := by
  induction text generalizing bytes with
  | nil => rfl
  | cons c text ih => rw [List.foldl_cons, List.foldl_cons, ih, ih (0 + _)]; omega

theorem width_add (cursor : Cursor) (first second : Nat) :
    cursor.width (first + second) = cursor.width first + (cursor.advance first).width second := by
  rw [width, List.take_add, List.foldl_append, foldl_width]
  rfl

theorem advance_advance (cursor : Cursor) (first second : Nat) :
    (cursor.advance first).advance second = cursor.advance (first + second) := by
  have hRest : (cursor.rest.drop first).drop second = cursor.rest.drop (first + second) :=
    List.drop_drop ..
  have hIndex : cursor.index + cursor.width first + (cursor.advance first).width second =
      cursor.index + cursor.width (first + second) := by
    rw [width_add, Nat.add_assoc]
  have hColumn : cursor.column + first + second = cursor.column + (first + second) :=
    Nat.add_assoc ..
  calc (cursor.advance first).advance second
      = ⟨(cursor.rest.drop first).drop second,
          cursor.index + cursor.width first + (cursor.advance first).width second, cursor.line,
          cursor.column + first + second⟩ := rfl
    _ = cursor.advance (first + second) := by rw [hRest, hIndex, hColumn]; rfl

theorem takeRun_eq (h : cursor.rest = run ++ rest) (hRun : ∀ c ∈ run, p c = true)
    (hRest : Stops p rest) : cursor.takeRun p = (run, cursor.advance run.length) := by
  rw [takeRun, h, takeWhile_append_stop hRun hRest]

theorem atDocumentMark_of_column (h : 0 < cursor.column) : cursor.atDocumentMark = false := by
  rw [atDocumentMark, beq_eq_false_iff_ne.mpr (by omega), Bool.false_and]

/-- A document mark is made of three equal characters. -/
theorem exists_of_atDocumentMark (h : cursor.atDocumentMark = true) :
    ∃ c rest, cursor.rest = c :: c :: c :: rest ∧ (c = '-' ∨ c = '.') := by
  rw [atDocumentMark, Bool.and_eq_true] at h
  obtain ⟨-, h⟩ := h
  split at h
  case h_1 a b c rest hRest =>
    simp only [Bool.and_eq_true, beq_iff_eq, Bool.or_eq_true] at h
    obtain ⟨⟨⟨rfl, rfl⟩, hMark⟩, -⟩ := h
    exact ⟨a, rest, hRest, hMark⟩
  case h_2 => cases h

/-! ### Line breaks -/

theorem readBreak?_eq_none (h : Stops isBreak cursor.rest) : cursor.readBreak? = none := by
  rw [readBreak?]
  split
  case h_1 hRest => cases h '\r' (by rw [hRest]; rfl)
  case h_2 c rest _ hRest =>
    have hNoBreak : isBreak c = false := h c (by rw [hRest]; rfl)
    have hSeparator : (c == '\u2028' || c == '\u2029') = false := by
      simp only [isBreak, Bool.or_eq_false_iff] at hNoBreak ⊢
      exact ⟨hNoBreak.1.2, hNoBreak.2⟩
    rw [hSeparator, hNoBreak]
    rfl
  case h_3 => rfl

/-- The line breaks that are shown as they are. -/
theorem eq_of_break {c : Char} (hBreak : isBreak c = true) (hShown : isPrintable c = true) :
    c = '\n' ∨ c = '\u2028' ∨ c = '\u2029' := by
  simp only [isBreak, Bool.or_eq_true, beq_iff_eq] at hBreak
  rcases hBreak with (((rfl | rfl) | rfl) | rfl) | rfl
  · exact .inl rfl
  · cases hShown
  · cases hShown
  · exact .inr (.inl rfl)
  · exact .inr (.inr rfl)

/-- A line break that is shown as it is goes to the next line and is read as itself. -/
theorem readBreak?_of_break {c : Char} (h : cursor.rest = c :: rest) (hBreak : isBreak c = true)
    (hShown : isPrintable c = true) :
    ∃ next, cursor.readBreak? = some (c, next) ∧ next.rest = rest ∧
      next.line = cursor.line + 1 ∧ next.column = 0 := by
  refine ⟨⟨cursor.rest.drop 1, cursor.index + cursor.width 1, cursor.line + 1, 0⟩, ?_, ?_, rfl, rfl⟩
  · rw [readBreak?]
    rcases eq_of_break hBreak hShown with rfl | rfl | rfl <;> simp only [h] <;> rfl
  · rw [h]
    rfl

end Cursor

/-! ### Gaps -/

namespace Gap

variable {least count fuel : Nat}

/-- At the end of a gap nothing more is read. -/
theorem readFrom_stop {gap : Gap} (hRest : Stops isWhite cursor.rest) :
    readFrom least gap fuel cursor = some (gap, cursor) := by
  cases fuel with
  | zero => rfl
  | succ fuel =>
    rw [readFrom, Cursor.readBreak?_eq_none (stops_break_of_white hRest), Cursor.peek_zero]
    cases hHead : cursor.rest.head? with
    | none => rfl
    | some c =>
      have hGap := stops_gap_of_white hRest c hHead
      simp only [hGap, Bool.false_eq_true, if_false]

theorem readFrom_spaces {blanks : List Char} (h : cursor.rest = spaces count ++ rest)
    (hRest : Stops isWhite rest) (hFuel : count ≤ fuel) :
    readFrom least ⟨blanks, []⟩ fuel cursor =
      some (⟨blanks ++ spaces count, []⟩, cursor.advance count) := by
  induction count generalizing cursor blanks fuel with
  | zero =>
    rw [readFrom_stop (by rw [h]; exact hRest), Cursor.advance_zero]
    simp only [spaces, List.replicate_zero, List.append_nil]
  | succ count ih =>
    obtain ⟨fuel, rfl⟩ : ∃ less, fuel = less + 1 := ⟨fuel - 1, by omega⟩
    have hSpace : cursor.rest = ' ' :: (spaces count ++ rest) := h
    have hPeek : cursor.peek 0 = some ' ' := by rw [Cursor.peek_zero, h]; rfl
    have hNext : (cursor.advance 1).rest = spaces count ++ rest := Cursor.rest_advance_one hSpace
    rw [readFrom, Cursor.readBreak?_eq_none (by rw [hSpace]; exact stops_cons rfl), hPeek]
    simp only [isGap, beq_self_eq_true, Bool.true_or, if_true, List.isEmpty_nil]
    rw [ih hNext (by omega), Cursor.advance_advance, Nat.add_comm 1 count]
    simp only [spaces, List.replicate_succ, List.append_assoc, List.singleton_append]

/-- The spaces in front of a line are dropped from a gap. -/
theorem readFrom_indentation {gap : Gap} (hBreaks : gap.breaks ≠ [])
    (h : cursor.rest = spaces count ++ rest) (hRest : Stops isWhite rest) (hFuel : count ≤ fuel) :
    readFrom least gap fuel cursor = some (gap, cursor.advance count) := by
  induction count generalizing cursor fuel with
  | zero => rw [readFrom_stop (by rw [h]; exact hRest), Cursor.advance_zero]
  | succ count ih =>
    obtain ⟨fuel, rfl⟩ : ∃ less, fuel = less + 1 := ⟨fuel - 1, by omega⟩
    have hSpace : cursor.rest = ' ' :: (spaces count ++ rest) := h
    have hPeek : cursor.peek 0 = some ' ' := by rw [Cursor.peek_zero, h]; rfl
    have hNext : (cursor.advance 1).rest = spaces count ++ rest := Cursor.rest_advance_one hSpace
    have hSome : gap.breaks.isEmpty = false := List.isEmpty_eq_false_iff.mpr hBreaks
    have hNoTab : (' ' == '\t') = false := rfl
    rw [readFrom, Cursor.readBreak?_eq_none (by rw [hSpace]; exact stops_cons rfl), hPeek]
    simp only [isGap, beq_self_eq_true, Bool.true_or, if_true, hSome, hNoTab, Bool.false_and,
      Bool.false_eq_true, if_false]
    rw [ih hNext (by omega), Cursor.advance_advance, Nat.add_comm 1 count]

/-- Line breaks are kept, and blanks in front of them are not. -/
theorem readFrom_lines {gap : Gap} {c : Char}
    (hBreaks : ∀ b ∈ c :: breaks, isBreak b = true ∧ isPrintable b = true)
    (h : cursor.rest = c :: breaks ++ (spaces count ++ rest)) (hRest : Stops isWhite rest)
    (hFuel : breaks.length + 1 + count ≤ fuel) :
    ∃ next, readFrom least gap fuel cursor = some (⟨[], gap.breaks ++ c :: breaks⟩, next) ∧
      next.rest = rest ∧ cursor.line < next.line ∧ next.column = count := by
  induction breaks generalizing cursor gap c fuel with
  | nil =>
    obtain ⟨fuel, rfl⟩ : ∃ less, fuel = less + 1 := ⟨fuel - 1, by omega⟩
    obtain ⟨hBreak, hShown⟩ := hBreaks c (List.mem_cons_self ..)
    obtain ⟨line, hRead, hLine, hNumber, hColumn⟩ :=
      Cursor.readBreak?_of_break h hBreak hShown
    refine ⟨line.advance count, ?_, Cursor.rest_advance_spaces hLine, ?_, ?_⟩
    · have hSome : gap.breaks ++ [c] ≠ [] := List.append_ne_nil_of_right_ne_nil _ (by simp)
      rw [readFrom, hRead]
      exact readFrom_indentation hSome hLine hRest (by omega)
    · rw [Cursor.line_advance, hNumber]
      exact Nat.lt_succ_self _
    · rw [Cursor.column_advance, hColumn, Nat.zero_add]
  | cons d breaks ih =>
    obtain ⟨fuel, rfl⟩ : ∃ less, fuel = less + 1 := ⟨fuel - 1, by omega⟩
    obtain ⟨hBreak, hShown⟩ := hBreaks c (List.mem_cons_self ..)
    obtain ⟨line, hRead, hLine, hNumber, -⟩ := Cursor.readBreak?_of_break h hBreak hShown
    have hLeft : breaks.length + 1 + count ≤ fuel := by
      rw [List.length_cons] at hFuel
      omega
    have hBehind : ∀ b ∈ d :: breaks, isBreak b = true ∧ isPrintable b = true := fun b hMem =>
      hBreaks b (List.mem_cons_of_mem _ hMem)
    obtain ⟨next, hMore, hNext, hLess, hColumn⟩ := ih hBehind hLine hLeft
    refine ⟨next, ?_, hNext, by omega, hColumn⟩
    rw [readFrom, hRead]
    exact hMore.trans (by rw [List.append_assoc, List.singleton_append])

theorem read_spaces (h : cursor.rest = spaces count ++ rest) (hRest : Stops isWhite rest) :
    read least cursor = some (⟨spaces count, []⟩, cursor.advance count) := by
  have hFuel : count ≤ cursor.rest.length := by
    rw [h, List.length_append, spaces, List.length_replicate]
    exact Nat.le_add_right ..
  exact readFrom_spaces h hRest hFuel

theorem read_lines {c : Char} (hBreaks : ∀ b ∈ c :: breaks, isBreak b = true ∧ isPrintable b = true)
    (h : cursor.rest = c :: breaks ++ (spaces count ++ rest)) (hRest : Stops isWhite rest) :
    ∃ next, read least cursor = some (⟨[], c :: breaks⟩, next) ∧ next.rest = rest ∧
      cursor.line < next.line ∧ next.column = count := by
  have hFuel : breaks.length + 1 + count ≤ cursor.rest.length := by
    rw [h, List.length_append, List.length_append, List.length_cons, spaces, List.length_replicate]
    omega
  exact readFrom_lines hBreaks h hRest hFuel

end Gap

end ProvideIndex.Yaml
