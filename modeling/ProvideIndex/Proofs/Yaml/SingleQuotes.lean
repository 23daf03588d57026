import ProvideIndex.Proofs.Yaml.DoubleQuotes

/-!
# Texts between single quotes

Single quotes hold every character that can be shown. A text of more than one line goes on after an
indentation, which is dropped again when the text is read.

* `singleQuotedFrom_spaces`, `singleQuotedFrom_breaks`, `singleQuotedFrom_lineStart`: what is
  written for the parts of a text.
* `Runs`, `runs`: every text in runs of spaces, runs of breaks, and other characters.
* `ReadsBack`, `readsBack`: all characters of a text, up to the closing quote.
* `read?_singleQuoted`: a whole text.
-/

namespace ProvideIndex.Yaml.QuotedScalar

open Text ScalarText

variable {a c : Char} {p : Char → Char → Bool} {first breaks text more done following : List Char}
  {cursor : Cursor} {indentation fuel : Nat} {lineStart : Bool}

/-! ### Pairs of characters -/

theorem anyPair_behind (h : anyPair p (first ++ more) = false) : anyPair p more = false := by
  induction first with
  | nil => exact h
  | cons a first ih =>
    refine ih ?_
    cases hJoined : first ++ more with
    | nil => rfl
    | cons b joined =>
      rw [List.cons_append, hJoined, anyPair, Bool.or_eq_false_iff] at h
      exact h.2

theorem stops_of_anyPair (h : anyPair p (first ++ a :: more) = false) : Stops (p a) more := by
  have hPair := anyPair_behind h
  intro b hHead
  obtain ⟨rest, rfl⟩ := List.head?_eq_some_iff.mp hHead
  rw [anyPair, Bool.or_eq_false_iff] at hPair
  exact hPair.1

/-- What is left of a text that single quotes can hold. -/
structure IsSingle (text : List Char) : Prop where
  shown : ∀ c ∈ text, isPrintable c = true
  noFeed : '\n' ∉ text
  noTrailing : anyPair (fun a b => isSpace a && isBreak b) text = false
  noIndented : anyPair (fun a b => isBreak a && isSpace b) text = false

theorem isSingle_of_allowed (hFeed : text.contains '\n' = false)
    (h : singleQuotesAllowed text = true) : IsSingle text := by
  simp only [singleQuotesAllowed, needsEscapes, Bool.and_eq_true, Bool.not_eq_true',
    Bool.or_eq_false_iff] at h
  obtain ⟨⟨hShown, hTrailing⟩, hIndented⟩ := h
  refine ⟨fun c hMem => ?_, ?_, hTrailing, hIndented⟩
  · simpa using List.any_eq_false.mp hShown c hMem
  · simpa using hFeed

theorem IsSingle.behind (h : IsSingle (first ++ more)) : IsSingle more :=
  ⟨fun c hMem => h.shown c (List.mem_append_right _ hMem),
    fun hMem => h.noFeed (List.mem_append_right _ hMem), anyPair_behind h.noTrailing,
    anyPair_behind h.noIndented⟩

theorem IsSingle.tail (h : IsSingle (c :: text)) : IsSingle text :=
  IsSingle.behind (show IsSingle ([c] ++ text) from h)

/-- The lines of a text after the first begin with no space. -/
theorem IsSingle.stops_space (h : IsSingle (c :: breaks ++ more))
    (hBreaks : ∀ b ∈ c :: breaks, isBreak b = true) : Stops isSpace more := by
  have hIndented := h.noIndented
  rw [← List.dropLast_concat_getLast (List.cons_ne_nil c breaks), List.append_assoc,
    List.singleton_append] at hIndented
  intro b hHead
  have hPair := stops_of_anyPair hIndented b hHead
  rwa [hBreaks _ (List.getLast_mem _), Bool.true_and] at hPair

/-! ### What is written -/

theorem singleQuotedFrom_char (hBreak : isBreak c = false) :
    singleQuotedFrom indentation false (c :: text) =
      (if c == '\x27' then [c, c] else [c]) ++ singleQuotedFrom indentation false text := by
  rw [singleQuotedFrom, hBreak]
  rfl

theorem singleQuotedFrom_quote (indentation : Nat) (text : List Char) :
    singleQuotedFrom indentation false ('\x27' :: text) =
      '\x27' :: '\x27' :: singleQuotedFrom indentation false text := rfl

theorem singleQuotedFrom_other (hBreak : isBreak c = false) (hQuote : c ≠ '\x27') :
    singleQuotedFrom indentation false (c :: text) =
      c :: singleQuotedFrom indentation false text := by
  rw [singleQuotedFrom_char hBreak, beq_eq_false_iff_ne.mpr hQuote]
  rfl

theorem singleQuotedFrom_spaces (indentation count : Nat) (more : List Char) :
    singleQuotedFrom indentation false (spaces count ++ more) =
      spaces count ++ singleQuotedFrom indentation false more := by
  induction count with
  | zero => rfl
  | succ count ih =>
    have hSpaces : spaces (count + 1) = ' ' :: spaces count := rfl
    rw [hSpaces, List.cons_append, singleQuotedFrom_char rfl, ih]
    rfl

theorem singleQuotedFrom_breaks (hBreaks : ∀ b ∈ breaks, isBreak b = true) :
    singleQuotedFrom indentation true (breaks ++ more) =
      breaks ++ singleQuotedFrom indentation true more := by
  induction breaks with
  | nil => rfl
  | cons b breaks ih =>
    rw [List.cons_append, singleQuotedFrom, hBreaks b (List.mem_cons_self ..),
      ih fun b hMem => hBreaks b (List.mem_cons_of_mem _ hMem)]
    rfl

/-- A line that is not empty begins with the indentation. -/
theorem singleQuotedFrom_lineStart (h : Stops isBreak more) :
    singleQuotedFrom indentation true more =
      spaces indentation ++ singleQuotedFrom indentation false more := by
  cases more with
  | nil => exact (List.append_nil _).symm
  | cons c more =>
    rw [singleQuotedFrom_char (h c rfl), singleQuotedFrom, h c rfl]
    simp only [Bool.false_eq_true, if_false, if_true, List.append_assoc]

theorem singleQuotedFrom_lines (hBreaks : ∀ b ∈ c :: breaks, isBreak b = true)
    (hMore : Stops isBreak more) :
    singleQuotedFrom indentation false (c :: breaks ++ more) =
      c :: breaks ++ (spaces indentation ++ singleQuotedFrom indentation false more) := by
  rw [List.cons_append, singleQuotedFrom, hBreaks c (List.mem_cons_self ..), if_pos rfl,
    singleQuotedFrom_breaks fun b hMem => hBreaks b (List.mem_cons_of_mem _ hMem),
    singleQuotedFrom_lineStart hMore, List.cons_append]

/-! ### What is read -/

theorem IsSingle.stops (h : IsSingle text) (hSpace : Stops isSpace text)
    (hBreak : Stops isBreak text) :
    Stops isWhite (singleQuotedFrom indentation false text ++ '\x27' :: following) := by
  cases text with
  | nil => exact stops_cons rfl
  | cons c text =>
    have hWhite : isWhite c = false := by
      rw [isWhite_of_shown (h.shown c (List.mem_cons_self ..)) (hBreak c rfl)]
      exact hSpace c rfl
    rw [singleQuotedFrom_char (hBreak c rfl)]
    split
    · exact stops_cons hWhite
    · exact stops_cons hWhite

/-- Breaks other than a line feed are kept when a gap is folded. -/
theorem text_breaks {b : Char} (h : b ≠ '\n') : Gap.text ⟨[], b :: breaks⟩ = b :: breaks := by
  rw [Gap.text, List.isEmpty_cons, Gap.foldBreaks.eq_def]
  simp only [Bool.false_eq_true, if_false]
  split
  case h_1 hBreaks => exact absurd (List.cons_eq_cons.mp hBreaks).1 h
  case h_2 hBreaks => exact absurd (List.cons_eq_cons.mp hBreaks).1 h
  case h_3 => rfl

theorem readFrom_breaks {b : Char} {count : Nat}
    (hBreaks : ∀ d ∈ b :: breaks, isBreak d = true ∧ isPrintable d = true) (hFeed : b ≠ '\n')
    (hRest : cursor.rest = b :: breaks ++ (spaces count ++ following))
    (hStop : Stops isWhite following) (hColumn : 0 < cursor.column) :
    ∃ next, readFrom '\x27' done (fuel + 1) cursor =
        readFrom '\x27' ((b :: breaks).reverse ++ done) fuel next ∧
      next.rest = following ∧ cursor.line < next.line ∧ next.column = count := by
  have hRead : ∃ next, Gap.read 0 cursor = some (⟨[], b :: breaks⟩, next) ∧ next.rest = following ∧
      cursor.line < next.line ∧ next.column = count := Gap.read_lines hBreaks hRest hStop
  obtain ⟨next, hGap, hNext⟩ := hRead
  refine ⟨next, ?_, hNext⟩
  have hMark := Cursor.atDocumentMark_of_column hColumn
  have hWhite : isGapOrEnd (some b) = true := by
    rw [isGapOrEnd_some, isWhite, (hBreaks b (List.mem_cons_self ..)).1, Bool.or_true]
  rw [readFrom, hMark, hRest]
  simp only [Bool.false_eq_true, if_false, List.cons_append, hWhite, if_true, hGap,
    Option.bind_eq_bind, Option.bind_some, text_breaks hFeed]

theorem readFrom_quote (hRest : cursor.rest = '\x27' :: '\x27' :: following)
    (hColumn : 0 < cursor.column) :
    readFrom '\x27' done (fuel + 1) cursor =
      readFrom '\x27' ('\x27' :: done) fuel (cursor.advance 2) := by
  have hMark := Cursor.atDocumentMark_of_column hColumn
  have hWhite : isGapOrEnd (some '\x27') = false := rfl
  rw [readFrom, hMark, hRest]
  simp only [Bool.false_eq_true, if_false, hWhite, beq_self_eq_true, if_true, List.head?_cons,
    Bool.and_self]

theorem readFrom_other (hRest : cursor.rest = c :: following) (hWhite : isWhite c = false)
    (hQuote : c ≠ '\x27') (hColumn : 0 < cursor.column) :
    readFrom '\x27' done (fuel + 1) cursor =
      readFrom '\x27' (c :: done) fuel (cursor.advance 1) := by
  have hMark := Cursor.atDocumentMark_of_column hColumn
  have hGap : isGapOrEnd (some c) = false := hWhite
  have hDouble : ('\x27' == '\x22') = false := rfl
  rw [readFrom, hMark, hRest]
  simp only [Bool.false_eq_true, if_false, hGap, beq_eq_false_iff_ne.mpr hQuote, hDouble,
    Bool.false_and]

/-! ### Runs of characters -/

/-- A text as runs of spaces, runs of breaks, and other characters one by one. -/
inductive Runs : List Char → Prop
  | nil : Runs []
  | spaces (count : Nat) {more : List Char} (hMore : Stops isSpace more) (h : Runs more) :
      Runs (ScalarText.spaces (count + 1) ++ more)
  | breaks {c : Char} {breaks more : List Char} (hBreaks : ∀ b ∈ c :: breaks, isBreak b = true)
      (hMore : Stops isBreak more) (h : Runs more) : Runs (c :: breaks ++ more)
  | char {c : Char} {text : List Char} (hSpace : isSpace c = false) (hBreak : isBreak c = false)
      (h : Runs text) : Runs (c :: text)

theorem runs (text : List Char) : Runs text := by
  induction hLength : text.length using Nat.strong_induction_on generalizing text with
  | _ length ih =>
    cases text with
    | nil => exact .nil
    | cons c text =>
      by_cases hSpace : isSpace c = true
      · obtain rfl : c = ' ' := beq_iff_eq.mp hSpace
        obtain ⟨count, more, hSplit, hMore⟩ := exists_spaces text
        have hSpaces : (spaces (count + 1)).length = count + 1 := List.length_replicate
        rw [hSplit] at hLength ⊢
        rw [List.length_append, hSpaces] at hLength
        exact .spaces count hMore (ih more.length (by omega) more rfl)
      by_cases hBreak : isBreak c = true
      · obtain ⟨breaks, more, hSplit, hBreaks, hMore⟩ := exists_breaks text hBreak
        rw [hSplit] at hLength ⊢
        rw [List.length_append, List.length_cons] at hLength
        exact .breaks hBreaks hMore (ih more.length (by omega) more rfl)
      rw [List.length_cons] at hLength
      exact .char (Bool.eq_false_iff.mpr hSpace) (Bool.eq_false_iff.mpr hBreak)
        (ih text.length (by omega) text rfl)

/-! ### Whole texts -/

/-- A text was read up to its closing quote, with `length` characters written for it. -/
def IsRead (text following : List Char) (length fuel : Nat) (done : List Char) (cursor : Cursor) :
    Prop :=
  ∃ next, readFrom '\x27' done fuel cursor = some (done.reverse ++ text, next) ∧
    next.rest = following ∧ cursor.line ≤ next.line ∧
    (isMultiline text = false → next = cursor.advance length)

/-- Reading in front of a text goes on with the text. -/
theorem IsRead.of_step {count length less : Nat}
    (h : IsRead more following length fuel (first.reverse ++ done) (cursor.advance count))
    (hStep : readFrom '\x27' done less cursor =
      readFrom '\x27' (first.reverse ++ done) fuel (cursor.advance count)) :
    IsRead (first ++ more) following (count + length) less done cursor := by
  obtain ⟨next, hRead, hNext, hLine, hPlace⟩ := h
  refine ⟨next, ?_, hNext, hLine, fun hMore => ?_⟩
  · rw [hStep, hRead, List.reverse_append, List.reverse_reverse, List.append_assoc]
  · rw [isMultiline, List.any_append, Bool.or_eq_false_iff] at hMore
    rw [hPlace hMore.2, Cursor.advance_advance]

/-- The same where the text goes on in another line. -/
theorem IsRead.of_lines {length total less : Nat} {next : Cursor}
    (h : IsRead more following length fuel ((c :: breaks).reverse ++ done) next)
    (hBreak : isBreak c = true) (hLine : cursor.line < next.line)
    (hStep : readFrom '\x27' done less cursor =
      readFrom '\x27' ((c :: breaks).reverse ++ done) fuel next) :
    IsRead (c :: breaks ++ more) following total less done cursor := by
  obtain ⟨last, hRead, hLast, hLines, -⟩ := h
  refine ⟨last, ?_, hLast, by omega, fun hOneLine => ?_⟩
  · rw [hStep, hRead, List.reverse_append, List.reverse_reverse, List.append_assoc]
  · rw [isMultiline, List.cons_append, List.any_cons, hBreak] at hOneLine
    cases hOneLine

/-- Where a text is written inside single quotes, it is read up to the closing one. -/
def ReadsBack (indentation : Nat) (following text : List Char) : Prop :=
  IsSingle text → ∀ {fuel : Nat} {done : List Char} {cursor : Cursor},
    cursor.rest = singleQuotedFrom indentation false text ++ '\x27' :: following →
    0 < cursor.column → (singleQuotedFrom indentation false text).length < fuel →
    IsRead text following ((singleQuotedFrom indentation false text).length + 1) fuel done cursor

theorem readsBack_nil (hFollowing : following.head? ≠ some '\x27') :
    ReadsBack indentation following [] := by
  intro _ fuel done cursor hRest hColumn hFuel
  obtain ⟨less, rfl⟩ : ∃ less, fuel = less + 1 := ⟨fuel - 1, by omega⟩
  have hRead : readFrom '\x27' done (less + 1) cursor =
      some (done.reverse ++ [], cursor.advance 1) := by
    rw [List.append_nil]
    exact readFrom_closing hRest rfl (fun _ => hFollowing) hColumn
  exact ⟨cursor.advance 1, hRead, Cursor.rest_advance_one hRest, Nat.le_refl _, fun _ => rfl⟩

theorem readsBack_spaces (count : Nat) (hMore : Stops isSpace more)
    (h : ReadsBack indentation following more) :
    ReadsBack indentation following (spaces (count + 1) ++ more) := by
  intro hText fuel done cursor hRest hColumn hFuel
  obtain ⟨fuel, rfl⟩ : ∃ less, fuel = less + 1 := ⟨fuel - 1, by omega⟩
  have hSpaces : (spaces (count + 1)).length = count + 1 := List.length_replicate
  rw [singleQuotedFrom_spaces, List.append_assoc] at hRest
  rw [singleQuotedFrom_spaces, List.length_append, hSpaces] at hFuel
  rw [singleQuotedFrom_spaces, List.length_append, hSpaces, Nat.add_assoc]
  have hNoBreak : Stops isBreak more := by
    have hTrailing := hText.noTrailing
    rw [spaces_succ, List.append_assoc, List.singleton_append] at hTrailing
    exact stops_of_anyPair hTrailing
  have hStep : readFrom '\x27' done (fuel + 1) cursor =
      readFrom '\x27' ((spaces (count + 1)).reverse ++ done) fuel (cursor.advance (count + 1)) := by
    rw [readFrom_spaces hRest (hText.behind.stops hMore hNoBreak) hColumn '\x27', spaces,
      List.reverse_replicate]
  exact (h hText.behind (Cursor.rest_advance_spaces hRest) (Nat.add_pos_left hColumn _)
    (by omega)).of_step hStep

theorem readsBack_breaks (hIndentation : 0 < indentation)
    (hBreaks : ∀ b ∈ c :: breaks, isBreak b = true) (hMore : Stops isBreak more)
    (h : ReadsBack indentation following more) :
    ReadsBack indentation following (c :: breaks ++ more) := by
  intro hText fuel done cursor hRest hColumn hFuel
  obtain ⟨fuel, rfl⟩ : ∃ less, fuel = less + 1 := ⟨fuel - 1, by omega⟩
  have hShown : ∀ b ∈ c :: breaks, isBreak b = true ∧ isPrintable b = true := fun b hMem =>
    ⟨hBreaks b hMem, hText.shown b (List.mem_append_left _ hMem)⟩
  have hFeed : c ≠ '\n' := by
    rintro rfl
    exact hText.noFeed (List.mem_cons_self ..)
  have hStop : Stops isWhite (singleQuotedFrom indentation false more ++ '\x27' :: following) :=
    hText.behind.stops (hText.stops_space hBreaks) hMore
  rw [singleQuotedFrom_lines hBreaks hMore, List.append_assoc, List.append_assoc] at hRest
  rw [singleQuotedFrom_lines hBreaks hMore, List.length_append, List.length_append,
    List.length_cons] at hFuel
  have hLines : ∃ next, readFrom '\x27' done (fuel + 1) cursor =
      readFrom '\x27' ((c :: breaks).reverse ++ done) fuel next ∧ next.rest = _ ∧
      cursor.line < next.line ∧ next.column = indentation :=
    readFrom_breaks hShown hFeed hRest hStop hColumn
  obtain ⟨next, hStep, hNext, hLine, hPlace⟩ := hLines
  exact (h hText.behind hNext (hPlace ▸ hIndentation) (by omega)).of_lines
    (hBreaks c (List.mem_cons_self ..)) hLine hStep

theorem readsBack_char (hSpace : isSpace c = false) (hBreak : isBreak c = false)
    (h : ReadsBack indentation following text) : ReadsBack indentation following (c :: text) := by
  intro hText fuel done cursor hRest hColumn hFuel
  obtain ⟨fuel, rfl⟩ : ∃ less, fuel = less + 1 := ⟨fuel - 1, by omega⟩
  by_cases hQuote : c = '\x27'
  · subst hQuote
    rw [singleQuotedFrom_quote] at hRest hFuel ⊢
    have hTwo : cursor.rest = ['\x27', '\x27'] ++
        (singleQuotedFrom indentation false text ++ '\x27' :: following) := hRest
    have hLeft : (singleQuotedFrom indentation false text).length < fuel := by
      simp only [List.length_cons] at hFuel
      omega
    have hStep : readFrom '\x27' done (fuel + 1) cursor =
        readFrom '\x27' (['\x27'].reverse ++ done) fuel (cursor.advance 2) :=
      readFrom_quote hTwo hColumn
    have hRead : IsRead ('\x27' :: text) following
        (2 + ((singleQuotedFrom indentation false text).length + 1)) (fuel + 1) done cursor :=
      (h hText.tail (Cursor.rest_advance hTwo) (Nat.add_pos_left hColumn 2) hLeft).of_step hStep
    rwa [Nat.add_comm 2] at hRead
  · have hWhite : isWhite c = false := by
      rw [isWhite_of_shown (hText.shown c (List.mem_cons_self ..)) hBreak, hSpace]
    rw [singleQuotedFrom_other hBreak hQuote] at hRest hFuel ⊢
    have hStep : readFrom '\x27' done (fuel + 1) cursor =
        readFrom '\x27' ([c].reverse ++ done) fuel (cursor.advance 1) :=
      readFrom_other hRest hWhite hQuote hColumn
    have hRead := (h hText.tail (Cursor.rest_advance_one hRest) (Nat.add_pos_left hColumn 1)
      (Nat.lt_of_succ_lt_succ hFuel)).of_step hStep
    rwa [Nat.add_comm 1] at hRead

theorem readsBack (hFollowing : following.head? ≠ some '\x27') (hIndentation : 0 < indentation)
    (text : List Char) : ReadsBack indentation following text := by
  induction runs text with
  | nil => exact readsBack_nil hFollowing
  | spaces count hMore _ ih => exact readsBack_spaces count hMore ih
  | breaks hBreaks hMore _ ih => exact readsBack_breaks hIndentation hBreaks hMore ih
  | char hSpace hBreak _ ih => exact readsBack_char hSpace hBreak ih

/-- A text between single quotes is read back, and the place after it follows the quotes. -/
theorem read?_singleQuoted (hText : IsSingle text) (hFollowing : following.head? ≠ some '\x27')
    (hIndentation : 0 < indentation)
    (hRest : cursor.rest = singleQuoted indentation text ++ following) :
    ∃ next, read? '\x27' cursor = some (text, next) ∧ next.rest = following ∧
      cursor.line ≤ next.line ∧ (isMultiline text = false →
        next = cursor.advance (singleQuoted indentation text).length) := by
  have hOpening : cursor.rest =
      '\x27' :: (singleQuotedFrom indentation false text ++ '\x27' :: following) := by
    rw [hRest]
    simp only [singleQuoted, List.cons_append, List.append_assoc, List.nil_append]
  have hLength : (singleQuoted indentation text).length =
      1 + ((singleQuotedFrom indentation false text).length + 1) := by
    rw [singleQuoted, List.length_append, List.length_cons, List.length_singleton]
    omega
  have hFuel : (singleQuotedFrom indentation false text).length < cursor.rest.length := by
    rw [hRest, List.length_append, hLength]
    omega
  have hRead : IsRead text following _ cursor.rest.length [] (cursor.advance 1) :=
    readsBack hFollowing hIndentation text hText (Cursor.rest_advance_one hOpening)
      (Nat.succ_pos _) hFuel
  obtain ⟨next, hRead, hNext, hLine, hPlace⟩ := hRead
  refine ⟨next, hRead, hNext, hLine, fun hOneLine => ?_⟩
  rw [hPlace hOneLine, Cursor.advance_advance, hLength]

end ProvideIndex.Yaml.QuotedScalar
