import ProvideIndex.Proofs.Yaml.Gap
import ProvideIndex.Yaml.BlockScalar
import Mathlib.Data.List.Basic

/-!
# Texts as literals

A literal keeps the lines of a text below a header, which says whether the text begins with a blank
and what becomes of its breaks at the end. A text is its body and the breaks behind it.

* `literalFrom_breaks`, `literalFrom_line`: what is written for the parts of a text.
* `readBreaks_eq`: empty lines and the indentation of the next one.
* `IsBodyRead`, `isBodyRead`: the lines of a body with the breaks behind it.
* `read?_literal`: a whole text.
-/

namespace ProvideIndex.Yaml.BlockScalar

open Text ScalarText

variable {b c : Char} {breaks line more rest text content : List Char} {cursor : Cursor}
  {indentation count fuel : Nat} {lineStart : Bool}

/-! ### What is written -/

theorem literalFrom_breaks (hBreaks : ∀ b ∈ breaks, isBreak b = true) :
    literalFrom indentation true (breaks ++ more) =
      breaks ++ literalFrom indentation true more := by
  induction breaks with
  | nil => rfl
  | cons b breaks ih =>
    rw [List.cons_append, literalFrom, hBreaks b (List.mem_cons_self ..), if_pos rfl,
      ih fun b hMem => hBreaks b (List.mem_cons_of_mem _ hMem), List.cons_append]

theorem literalFrom_break (hBreak : isBreak b = true) :
    literalFrom indentation lineStart (b :: more) = b :: literalFrom indentation true more := by
  rw [literalFrom, hBreak, if_pos rfl]

theorem literalFrom_line (hLine : ∀ c ∈ line, isBreak c = false) :
    literalFrom indentation false (line ++ more) =
      line ++ literalFrom indentation false more := by
  induction line with
  | nil => rfl
  | cons c line ih =>
    rw [List.cons_append, literalFrom, hLine c (List.mem_cons_self ..),
      ih fun c hMem => hLine c (List.mem_cons_of_mem _ hMem)]
    rfl

/-- A line that is not empty begins with the indentation. -/
theorem literalFrom_lineStart (hMore : more ≠ []) (h : Stops isBreak more) :
    literalFrom indentation true more =
      spaces indentation ++ literalFrom indentation false more := by
  cases more with
  | nil => exact absurd rfl hMore
  | cons c more =>
    rw [literalFrom, literalFrom, h c rfl]
    rfl

theorem literalFrom_oneLine (hLine : ∀ c ∈ line, isBreak c = false) :
    literalFrom indentation false line = line := by
  have hWhole : literalFrom indentation false (line ++ []) = line ++ [] := literalFrom_line hLine
  rwa [List.append_nil] at hWhole

/-- A line, the breaks after it, and the next line. -/
theorem literalFrom_lines (hLine : ∀ c ∈ line, isBreak c = false)
    (hBreaks : ∀ d ∈ b :: breaks, isBreak d = true) (hMore : more ≠ [])
    (hHead : Stops isBreak more) :
    literalFrom indentation false (line ++ (b :: breaks ++ more)) =
      line ++ b :: (breaks ++ (spaces indentation ++ literalFrom indentation false more)) := by
  rw [literalFrom_line hLine, List.cons_append,
    literalFrom_break (hBreaks b (List.mem_cons_self ..)),
    literalFrom_breaks fun d hMem => hBreaks d (List.mem_cons_of_mem _ hMem),
    literalFrom_lineStart hMore hHead]

/-! ### Empty lines and indentation -/

/-- Whether just these spaces in front of a line are its indentation. -/
def IsIndented (indentation count : Nat) (rest : List Char) : Prop :=
  (0 < indentation ∧ count = indentation) ∨
    ((indentation = 0 ∨ count < indentation) ∧ Stops isSpace rest)

theorem takeWhile_spaces (count : Nat) (rest : List Char) :
    ((spaces count ++ rest).takeWhile (· == ' ')).length =
      count + (rest.takeWhile (· == ' ')).length := by
  rw [List.takeWhile_append_of_pos fun c hMem => by rw [List.eq_of_mem_replicate hMem]; rfl,
    List.length_append, spaces, List.length_replicate]

/-- All of the indentation is passed over, and no more. -/
theorem skipped_eq (h : IsIndented indentation count rest) :
    (if indentation = 0 then ((spaces count ++ rest).takeWhile (· == ' ')).length
      else min ((spaces count ++ rest).takeWhile (· == ' ')).length (indentation - 0)) = count := by
  rw [takeWhile_spaces]
  rcases h with ⟨hPositive, rfl⟩ | ⟨hLess, hStop⟩
  · rw [if_neg (by omega)]
    omega
  · have hNone : (rest.takeWhile (· == ' ')).length = 0 := by
      exact congrArg List.length (takeWhile_of_stops hStop)
    rw [hNone]
    split <;> omega

theorem breaksFrom_indentation {done : Breaks} (h : IsIndented indentation count rest)
    (hRest : done.cursor.rest = spaces count ++ rest) (hColumn : done.cursor.column = 0)
    (hBreak : Stops isBreak rest) (hTab : rest.head? ≠ some '\t') :
    breaksFrom indentation done (fuel + 1) =
      some ⟨done.breaks, max done.deepest count, done.cursor.advance count⟩ := by
  have hNext : (done.cursor.advance count).rest = rest := Cursor.rest_advance_spaces hRest
  have hReached : (done.cursor.advance count).column = count := by
    rw [Cursor.column_advance, hColumn, Nat.zero_add]
  have hPeek : (done.cursor.advance count).peek 0 ≠ some '\t' := by
    rwa [Cursor.peek_zero, hNext]
  have hNoBreak : (done.cursor.advance count).readBreak? = none :=
    Cursor.readBreak?_eq_none (hNext ▸ hBreak)
  rw [breaksFrom, hRest, hColumn]
  simp only [skipped_eq h, hReached, hPeek, and_false, if_false, hNoBreak]

theorem breaksFrom_break {done : Breaks} (hRest : done.cursor.rest = b :: rest)
    (hColumn : done.cursor.column = 0) (hBreak : isBreak b = true) (hShown : isPrintable b = true) :
    ∃ next, breaksFrom indentation done (fuel + 1) =
        breaksFrom indentation ⟨done.breaks ++ [b], max done.deepest 0, next⟩ fuel ∧
      next.rest = rest ∧ next.line = done.cursor.line + 1 ∧ next.column = 0 := by
  obtain ⟨next, hRead, hNext⟩ := Cursor.readBreak?_of_break hRest hBreak hShown
  refine ⟨next, ?_, hNext⟩
  have hNoSpace : ((b :: rest).takeWhile (· == ' ')).length = 0 := by
    rw [takeWhile_of_stops]
    · rfl
    · refine stops_cons (beq_eq_false_iff_ne.mpr ?_)
      rintro rfl
      cases hBreak
  have hPeek : done.cursor.peek 0 ≠ some '\t' := by
    rw [Cursor.peek_zero, hRest]
    rintro hTab
    rw [Option.some.inj hTab] at hBreak
    cases hBreak
  rw [breaksFrom, hRest]
  simp only [hNoSpace, Nat.zero_min, ite_self, Cursor.advance_zero, hColumn, hPeek, and_false,
    if_false, hRead]

theorem breaksFrom_eq {done : Breaks}
    (hBreaks : ∀ b ∈ breaks, isBreak b = true ∧ isPrintable b = true)
    (h : IsIndented indentation count rest)
    (hRest : done.cursor.rest = breaks ++ (spaces count ++ rest)) (hColumn : done.cursor.column = 0)
    (hStop : Stops isBreak rest) (hTab : rest.head? ≠ some '\t') (hFuel : breaks.length < fuel) :
    ∃ next, breaksFrom indentation done fuel =
        some ⟨done.breaks ++ breaks, max done.deepest count, next⟩ ∧ next.rest = rest ∧
      next.line = done.cursor.line + breaks.length ∧ next.column = count := by
  induction breaks generalizing done fuel with
  | nil =>
    obtain ⟨fuel, rfl⟩ : ∃ less, fuel = less + 1 := ⟨fuel - 1, by omega⟩
    refine ⟨done.cursor.advance count, ?_, Cursor.rest_advance_spaces hRest, rfl, ?_⟩
    · rw [breaksFrom_indentation h hRest hColumn hStop hTab, List.append_nil]
    · rw [Cursor.column_advance, hColumn, Nat.zero_add]
  | cons b breaks ih =>
    obtain ⟨fuel, rfl⟩ : ∃ less, fuel = less + 1 := ⟨fuel - 1, by omega⟩
    obtain ⟨hBreak, hShown⟩ := hBreaks b (List.mem_cons_self ..)
    have hStep : ∃ next, breaksFrom indentation done (fuel + 1) =
        breaksFrom indentation ⟨done.breaks ++ [b], max done.deepest 0, next⟩ fuel ∧
        next.rest = breaks ++ (spaces count ++ rest) ∧ next.line = done.cursor.line + 1 ∧
        next.column = 0 := breaksFrom_break hRest hColumn hBreak hShown
    obtain ⟨next, hRead, hNext, hLine, hStart⟩ := hStep
    have hMore : ∃ last,
        breaksFrom indentation ⟨done.breaks ++ [b], max done.deepest 0, next⟩ fuel =
        some ⟨done.breaks ++ [b] ++ breaks, max (max done.deepest 0) count, last⟩ ∧
        last.rest = rest ∧ last.line = next.line + breaks.length ∧ last.column = count :=
      ih (fun b hMem => hBreaks b (List.mem_cons_of_mem _ hMem)) hNext hStart
        (Nat.lt_of_succ_lt_succ hFuel)
    obtain ⟨last, hLast, hRest, hLines, hReached⟩ := hMore
    refine ⟨last, ?_, hRest, ?_, hReached⟩
    · rw [hRead, hLast, List.append_assoc, List.singleton_append, Nat.max_zero]
    · rw [hLines, hLine, List.length_cons]
      omega

/-- Empty lines are read as their breaks, up to the indentation of the next line. -/
theorem readBreaks_eq (hBreaks : ∀ b ∈ breaks, isBreak b = true ∧ isPrintable b = true)
    (h : IsIndented indentation count rest) (hRest : cursor.rest = breaks ++ (spaces count ++ rest))
    (hColumn : cursor.column = 0) (hStop : Stops isBreak rest) (hTab : rest.head? ≠ some '\t') :
    ∃ next, readBreaks indentation cursor = some ⟨breaks, count, next⟩ ∧ next.rest = rest ∧
      next.line = cursor.line + breaks.length ∧ next.column = count := by
  have hFuel : breaks.length < cursor.rest.length + 1 := by
    rw [hRest, List.length_append]
    omega
  have hRead : ∃ next, readBreaks indentation cursor = some ⟨[] ++ breaks, max 0 count, next⟩ ∧
      next.rest = rest ∧ next.line = cursor.line + breaks.length ∧ next.column = count :=
    breaksFrom_eq hBreaks h hRest hColumn hStop hTab hFuel
  rwa [Nat.zero_max] at hRead

/-- A line that is indented less than those of the literal. -/
theorem isIndented_of_white (hContent : Stops isWhite content) (hCount : count < indentation) :
    IsIndented indentation count content ∧ content.head? ≠ some '\t' :=
  ⟨.inr ⟨.inr hCount, stops_of_imp hContent fun c hSpace => by rw [beq_iff_eq.mp hSpace]; rfl⟩,
    fun hHead => by cases hContent '\t' hHead⟩

/-! ### Lines -/

/-- At another column than that of its lines a literal ends. -/
theorem linesFrom_stop {done : Lines} (h : done.cursor.column ≠ indentation) :
    linesFrom false indentation done fuel = some done := by
  cases fuel with
  | zero => rfl
  | succ fuel =>
    rw [linesFrom]
    split
    · rfl
    · rw [if_neg h]

/-- One line that is not empty, with the breaks after it. -/
theorem linesFrom_line {done : Lines} (hLine : ∀ c ∈ line, isBreak c = false) (hSome : line ≠ [])
    (hBreaks : ∀ d ∈ b :: breaks, isBreak d = true ∧ isPrintable d = true)
    (hColumn : done.cursor.column = indentation)
    (h : IsIndented indentation count rest) (hStop : Stops isBreak rest)
    (hTab : rest.head? ≠ some '\t')
    (hRest : done.cursor.rest = line ++ b :: (breaks ++ (spaces count ++ rest))) :
    ∃ blank next, linesFrom false indentation done (fuel + 1) =
        linesFrom false indentation
          ⟨line.reverse ++ (done.moreBreaks.reverse ++ (done.lastBreak.reverse ++ done.text)), [b],
            breaks, blank, next⟩ fuel ∧
      next.rest = rest ∧ done.cursor.line < next.line ∧ next.column = count := by
  obtain ⟨c, line, rfl⟩ := List.exists_cons_of_ne_nil hSome
  have hPeek : done.cursor.peek 0 = some c := by
    rw [Cursor.peek_zero, hRest]
    rfl
  obtain ⟨hBreak, hShown⟩ := hBreaks b (List.mem_cons_self ..)
  have hRun : done.cursor.takeRun (!isBreak ·) =
      (c :: line, done.cursor.advance (c :: line).length) :=
    Cursor.takeRun_eq hRest (fun d hMem => by rw [hLine d hMem]; rfl)
      (stops_cons (by rw [hBreak]; rfl))
  obtain ⟨start, hRead, hStart, hStartLine, hStartColumn⟩ :=
    Cursor.readBreak?_of_break (Cursor.rest_advance hRest) hBreak hShown
  obtain ⟨next, hMore, hNext, hNextLine, hNextColumn⟩ :=
    readBreaks_eq (fun d hMem => hBreaks d (List.mem_cons_of_mem _ hMem)) h hStart hStartColumn
    hStop hTab
  refine ⟨isGap c, next, ?_, hNext, ?_, hNextColumn⟩
  · rw [linesFrom, hPeek]
    simp only [hColumn, if_true, Bool.false_and, Bool.false_eq_true, if_false, hRun, hRead, hMore,
      Option.bind_eq_bind, Option.bind_some]
  · rw [Cursor.line_advance] at hStartLine
    omega

/-! ### The body of a text -/

theorem literalFrom_append_breaks {ends : List Char} (hEnds : ∀ b ∈ ends, isBreak b = true) :
    literalFrom indentation lineStart (text ++ ends) =
      literalFrom indentation lineStart text ++ ends := by
  induction text generalizing lineStart with
  | nil =>
    cases ends with
    | nil => rfl
    | cons b ends =>
      rw [List.nil_append, literalFrom_break (hEnds b (List.mem_cons_self ..)),
        ← List.append_nil ends,
        literalFrom_breaks fun b hMem => hEnds b (List.mem_cons_of_mem _ hMem)]
      rfl
  | cons c text ih =>
    rw [List.cons_append, literalFrom, literalFrom, ih, ih]
    split
    · rfl
    · rw [List.append_assoc, List.cons_append]

/-- What is left of a body where one of its lines begins. -/
structure IsBody (body : List Char) : Prop where
  nonempty : body ≠ []
  shown : ∀ c ∈ body, isPrintable c = true
  head : Stops isBreak body
  last : body.getLast?.any isBreak = false

/-- A body is one line, or a line with breaks before the next one. -/
theorem IsBody.split (h : IsBody text) :
    (∀ c ∈ text, isBreak c = false) ∨
      ∃ line b breaks more, text = line ++ (b :: breaks ++ more) ∧ line ≠ [] ∧
        (∀ c ∈ line, isBreak c = false) ∧ (∀ d ∈ b :: breaks, isBreak d = true) ∧ IsBody more := by
  obtain ⟨line, rest, rfl, hLine, hRest⟩ := exists_run (!isBreak ·) text
  have hNoBreak : ∀ c ∈ line, isBreak c = false := fun c hMem => by simpa using hLine c hMem
  cases rest with
  | nil => exact .inl fun c hMem => hNoBreak c (by simpa using hMem)
  | cons b rest =>
    have hBreak : isBreak b = true := by simpa using hRest b rfl
    obtain ⟨breaks, more, hSplit, hBreaks, hMore⟩ := exists_breaks rest hBreak
    rw [hSplit] at h
    have hSome : more ≠ [] := by
      rintro rfl
      have hLast := h.last
      rw [List.append_nil, List.getLast?_append_of_ne_nil _ (List.cons_ne_nil _ _),
        List.getLast?_eq_some_getLast (List.cons_ne_nil _ _), Option.any_some,
        hBreaks _ (List.getLast_mem _)] at hLast
      cases hLast
    have hLast := h.last
    rw [List.getLast?_append_of_ne_nil _ (List.append_ne_nil_of_right_ne_nil _ hSome),
      List.getLast?_append_of_ne_nil _ hSome] at hLast
    refine .inr ⟨line, b, breaks, more, by rw [hSplit], ?_, hNoBreak, hBreaks, hSome, fun c hMem =>
      h.shown c (List.mem_append_right _ (List.mem_append_right _ hMem)), hMore, hLast⟩
    rintro rfl
    have hHead := h.head b rfl
    rw [hBreak] at hHead
    cases hHead

theorem IsBody.stops (h : IsBody text) (indentation : Nat) (rest : List Char) :
    Stops isBreak (literalFrom indentation false text ++ rest) ∧
      (literalFrom indentation false text ++ rest).head? ≠ some '\t' := by
  obtain ⟨c, more, rfl⟩ := List.exists_cons_of_ne_nil h.nonempty
  have hBreak : isBreak c = false := h.head c rfl
  rw [literalFrom, hBreak]
  refine ⟨stops_cons hBreak, ?_⟩
  rintro hTab
  have hShown := h.shown c (List.mem_cons_self ..)
  rw [Option.some.inj hTab] at hShown
  cases hShown

theorem IsBody.stops_space (h : IsBody text) (indentation : Nat) (rest : List Char)
    (hSpace : Stops isSpace text) : Stops isSpace (literalFrom indentation false text ++ rest) := by
  obtain ⟨c, more, rfl⟩ := List.exists_cons_of_ne_nil h.nonempty
  rw [literalFrom, h.head c rfl]
  exact stops_cons (hSpace c rfl)

theorem length_literalFrom (indentation : Nat) (lineStart : Bool) (text : List Char) :
    text.length ≤ (literalFrom indentation lineStart text).length := by
  induction text generalizing lineStart with
  | nil => exact Nat.zero_le _
  | cons c text ih =>
    have hTrue := ih true
    have hFalse := ih false
    rw [literalFrom]
    split
    · rw [List.length_cons, List.length_cons]
      omega
    · rw [List.length_append, List.length_cons, List.length_cons]
      omega

/-- The lines of a body and the breaks behind it are read after what was read before. -/
def IsBodyRead (indentation count : Nat) (content text : List Char) (b : Char)
    (breaks : List Char) (fuel : Nat) (done : Lines) : Prop :=
  ∃ last, linesFrom false indentation done fuel = some last ∧
    last.text.reverse = done.text.reverse ++ (done.lastBreak ++ (done.moreBreaks ++ text)) ∧
    last.lastBreak = [b] ∧ last.moreBreaks = breaks ∧ last.cursor.rest = content ∧
    done.cursor.line < last.cursor.line ∧ last.cursor.column = count

/-- The last line of a body. -/
theorem isBodyRead_oneLine {done : Lines} (h : IsBody text) (hLine : ∀ c ∈ text, isBreak c = false)
    (hEnds : ∀ d ∈ b :: breaks, isBreak d = true ∧ isPrintable d = true)
    (hColumn : done.cursor.column = indentation)
    (hRest : done.cursor.rest =
      literalFrom indentation false text ++ b :: (breaks ++ (spaces count ++ content)))
    (hCount : count < indentation) (hContent : Stops isWhite content) :
    IsBodyRead indentation count content text b breaks (fuel + 1) done := by
  obtain ⟨hIndented, hTab⟩ := isIndented_of_white hContent hCount
  rw [literalFrom_oneLine hLine] at hRest
  have hRead : ∃ blank next, linesFrom false indentation done (fuel + 1) =
      linesFrom false indentation
        ⟨text.reverse ++ (done.moreBreaks.reverse ++ (done.lastBreak.reverse ++ done.text)),
          [b], breaks, blank, next⟩ fuel ∧
      next.rest = content ∧ done.cursor.line < next.line ∧ next.column = count :=
    linesFrom_line hLine h.nonempty hEnds hColumn hIndented (stops_break_of_white hContent) hTab
      hRest
  obtain ⟨blank, next, hRead, hNext, hNextLine, hNextColumn⟩ := hRead
  refine ⟨_, hRead.trans (linesFrom_stop ?_), ?_, rfl, rfl, hNext, hNextLine, hNextColumn⟩
  · exact fun hSame => by rw [hNextColumn] at hSame; omega
  · simp only [List.reverse_append, List.reverse_reverse, List.append_assoc]

/-- A line of a body in front of others. -/
theorem IsBodyRead.of_line {done : Lines} {line inner more : List Char} {e : Char} {blank : Bool}
    {next : Cursor}
    (h : IsBodyRead indentation count content more b breaks fuel
      ⟨line.reverse ++ (done.moreBreaks.reverse ++ (done.lastBreak.reverse ++ done.text)),
        [e], inner, blank, next⟩)
    (hStep : linesFrom false indentation done (fuel + 1) = linesFrom false indentation
      ⟨line.reverse ++ (done.moreBreaks.reverse ++ (done.lastBreak.reverse ++ done.text)),
        [e], inner, blank, next⟩ fuel) (hLine : done.cursor.line < next.line) :
    IsBodyRead indentation count content (line ++ (e :: inner ++ more)) b breaks (fuel + 1)
      done := by
  obtain ⟨last, hLast, hText, hLastBreak, hMoreBreaks, hRest, hLines, hReached⟩ := h
  refine ⟨last, hStep.trans hLast, hText.trans ?_, hLastBreak, hMoreBreaks, hRest,
    Nat.lt_trans hLine hLines, hReached⟩
  simp only [List.reverse_append, List.reverse_reverse, List.append_assoc, List.cons_append,
    List.nil_append]

theorem isBodyRead {done : Lines} (h : IsBody text)
    (hEnds : ∀ d ∈ b :: breaks, isBreak d = true ∧ isPrintable d = true)
    (hColumn : done.cursor.column = indentation) (hPositive : 0 < indentation)
    (hRest : done.cursor.rest =
      literalFrom indentation false text ++ b :: (breaks ++ (spaces count ++ content)))
    (hCount : count < indentation) (hContent : Stops isWhite content)
    (hFuel : text.length ≤ fuel) :
    IsBodyRead indentation count content text b breaks fuel done := by
  induction fuel generalizing text done with
  | zero => exact absurd (List.eq_nil_of_length_eq_zero (Nat.le_zero.mp hFuel)) h.nonempty
  | succ fuel ih =>
    rcases h.split with hLine | ⟨line, e, inner, more, rfl, hSome, hLine, hInner, hMore⟩
    · exact isBodyRead_oneLine h hLine hEnds hColumn hRest hCount hContent
    · have hShown : ∀ d ∈ e :: inner, isBreak d = true ∧ isPrintable d = true := fun d hMem =>
        ⟨hInner d hMem, h.shown d (List.mem_append_right _ (List.mem_append_left _ hMem))⟩
      rw [literalFrom_lines hLine hInner hMore.nonempty hMore.head] at hRest
      simp only [List.append_assoc, List.cons_append] at hRest
      obtain ⟨hStop, hTab⟩ := hMore.stops indentation (b :: (breaks ++ (spaces count ++ content)))
      have hRead : ∃ blank next, linesFrom false indentation done (fuel + 1) =
          linesFrom false indentation
            ⟨line.reverse ++ (done.moreBreaks.reverse ++ (done.lastBreak.reverse ++ done.text)),
              [e], inner, blank, next⟩ fuel ∧
          next.rest = _ ∧ done.cursor.line < next.line ∧ next.column = indentation :=
        linesFrom_line hLine hSome hShown hColumn (.inl ⟨hPositive, rfl⟩) hStop hTab hRest
      obtain ⟨blank, next, hStep, hNext, hNextLine, hNextColumn⟩ := hRead
      have hLeft : more.length ≤ fuel := by
        simp only [List.length_append, List.length_cons] at hFuel
        omega
      exact (ih hMore hNextColumn hNext hLeft).of_line hStep hNextLine

/-! ### Headers -/

/-- The mark of a header for what becomes of the breaks at the end. -/
def Chomping.mark : Chomping → List Char
  | .strip => ['-']
  | .clip => []
  | .keep => ['+']

/-- What becomes of the breaks behind a body. -/
def chompingOf (body ends : List Char) : Chomping :=
  match ends with
  | [] => .strip
  | [_] => if body.isEmpty then .keep else .clip
  | _ :: _ :: _ => .keep

/-- Every text is a body and the breaks behind it. -/
theorem exists_ends (text : List Char) :
    ∃ body ends, text = body ++ ends ∧ (∀ b ∈ ends, isBreak b = true) ∧
      body.getLast?.any isBreak = false := by
  obtain ⟨run, rest, hText, hRun, hRest⟩ := exists_run isBreak text.reverse
  refine ⟨rest.reverse, run.reverse, ?_, fun b hMem => hRun b (List.mem_reverse.mp hMem), ?_⟩
  · rw [← List.reverse_append, ← hText, List.reverse_reverse]
  · rw [List.getLast?_reverse]
    cases hHead : rest.head? with
    | none => rfl
    | some c => exact hRest c hHead

theorem chompingMark_eq {body ends : List Char} (hEnds : ∀ b ∈ ends, isBreak b = true)
    (hBody : body.getLast?.any isBreak = false) :
    chompingMark (body ++ ends) = (chompingOf body ends).mark := by
  rw [← List.head?_reverse] at hBody
  rw [chompingMark, List.reverse_append]
  match ends with
  | [] =>
    rw [List.reverse_nil, List.nil_append]
    cases hReverse : body.reverse with
    | nil => rfl
    | cons c more =>
      have hLast : isBreak c = false := by rwa [hReverse] at hBody
      cases more <;> simp only [hLast, Bool.false_eq_true, if_false] <;> rfl
  | [b] =>
    have hBreak : isBreak b = true := hEnds b (List.mem_cons_self ..)
    rw [List.reverse_singleton, List.singleton_append]
    cases hReverse : body.reverse with
    | nil =>
      rw [List.reverse_eq_nil_iff.mp hReverse]
      simp only [hBreak, if_true]
      rfl
    | cons c more =>
      have hLast : isBreak c = false := by rwa [hReverse] at hBody
      have hSome : body.isEmpty = false := by
        rw [List.isEmpty_eq_false_iff]
        rintro rfl
        cases hReverse
      simp only [hBreak, hLast, chompingOf, hSome, if_true, Bool.false_eq_true, if_false]
      rfl
  | b :: d :: ends =>
    obtain ⟨x, y, more, hReverse⟩ : ∃ x y more, (b :: d :: ends).reverse = x :: y :: more := by
      match hReverse : (b :: d :: ends).reverse with
      | x :: y :: more => exact ⟨x, y, more, rfl⟩
      | [] => simp at hReverse
      | [x] =>
        have hLength := congrArg List.length hReverse
        simp at hLength
    have hMem : ∀ z ∈ x :: y :: more, isBreak z = true := fun z hMem =>
      hEnds z (List.mem_reverse.mp (hReverse ▸ hMem))
    rw [hReverse]
    simp only [List.cons_append, hMem x (List.mem_cons_self ..),
      hMem y (List.mem_cons_of_mem _ (List.mem_cons_self ..)), if_true]
    rfl

/-- The marks of a header are read up to the end of its line. -/
theorem header?_eq {begins : Bool} {chomping : Chomping}
    (hRest : cursor.rest = (if begins then ['2'] else []) ++ (chomping.mark ++ '\n' :: rest)) :
    ∃ next, header? cursor = some (⟨chomping, if begins then 2 else 0⟩, next) ∧
      next.rest = '\n' :: rest ∧ next.line = cursor.line := by
  refine ⟨cursor.advance ((if begins then 1 else 0) + chomping.mark.length), ?_, ?_, rfl⟩
  · cases begins <;> cases chomping <;> rw [header?, Cursor.peek, Cursor.peek, hRest] <;> rfl
  · rw [Cursor.advance, hRest]
    cases begins <;> cases chomping <;> rfl

theorem skipHeaderEnd?_eq (hRest : cursor.rest = '\n' :: rest) :
    ∃ next, skipHeaderEnd? cursor = some next ∧ next.rest = rest ∧ next.line = cursor.line + 1 ∧
      next.column = 0 := by
  obtain ⟨next, hRead, hNext⟩ := Cursor.readBreak?_of_break hRest rfl rfl
  refine ⟨next, ?_, hNext⟩
  have hBlanks : cursor.skipRun isGap = cursor := by
    rw [Cursor.skipRun, Cursor.takeRun, hRest]
    exact Cursor.advance_zero cursor
  have hPeek : cursor.peek 0 = some '\n' := by
    rw [Cursor.peek_zero, hRest]
    rfl
  have hEnd : isBreakOrEnd (some '\n') = true := rfl
  have hNoComment : (some '\n' == some '#') = false := rfl
  rw [skipHeaderEnd?]
  simp only [hBlanks, hPeek, hNoComment, Bool.false_eq_true, if_false, hEnd, if_true,
    Cursor.skipBreak, hRead]

/-! ### Whole texts -/

/-- The breaks behind a body in the lines of its literal: the last line ends, too. -/
def lineEnds (ends : List Char) : List Char := if ends.isEmpty then ['\n'] else ends

theorem mem_lineEnds {ends : List Char}
    (hEnds : ∀ d ∈ ends, isBreak d = true ∧ isPrintable d = true) :
    ∀ d ∈ lineEnds ends, isBreak d = true ∧ isPrintable d = true := by
  rw [lineEnds]
  split
  · exact forall_of_all rfl
  · exact hEnds

/-- What is left of the breaks behind the last line. -/
def chomped (chomping : Chomping) (lastBreak moreBreaks : List Char) : List Char :=
  match chomping with
  | .strip => []
  | .clip => lastBreak
  | .keep => lastBreak ++ moreBreaks

/-- Of the breaks in the lines of a literal those of the text are left. -/
theorem chomped_eq {body ends : List Char} (hBody : body ≠ []) (h : lineEnds ends = b :: breaks) :
    chomped (chompingOf body ends) [b] breaks = ends := by
  have hSome : body.isEmpty = false := List.isEmpty_eq_false_iff.mpr hBody
  match ends with
  | [] => rfl
  | [d] =>
    obtain ⟨rfl, rfl⟩ := List.cons_eq_cons.mp h
    rw [chompingOf, hSome]
    rfl
  | d :: e :: ends =>
    obtain ⟨rfl, rfl⟩ := List.cons_eq_cons.mp h
    rfl

/-- What `read?` does after the header. -/
theorem read?_eq {chomping : Chomping} {begins : Bool} {column : Nat} {afterMarks start : Cursor}
    {first : Breaks} {last : Lines}
    (hHeader : header? cursor = some (⟨chomping, if begins then 2 else 0⟩, afterMarks))
    (hStart : skipHeaderEnd? afterMarks = some start)
    (hFirst : readBreaks (if begins then column + 2 else 0) start = some first)
    (hDeep : begins = false → first.deepest = column + 2)
    (hLast : linesFrom false (column + 2) ⟨[], [], first.breaks, false, first.cursor⟩
      (first.cursor.rest.length + 1) = some last) :
    read? false column cursor =
      some (last.text.reverse ++ chomped chomping last.lastBreak last.moreBreaks, last.cursor) := by
  have hFixed : (if (if begins then 2 else 0) = 0 then 0
      else (max (column : Int) 0).toNat + (if begins then 2 else 0)) =
      if begins then column + 2 else 0 := by
    cases begins <;> simp
  have hLines : (if (if begins then column + 2 else 0) = 0
      then max first.deepest (max ((column : Int) + 1) 1).toNat
      else if begins then column + 2 else 0) = column + 2 := by
    cases begins with
    | true => simp
    | false =>
      rw [hDeep rfl]
      simp only [Bool.false_eq_true, if_false, if_true]
      omega
  rw [read?, hHeader]
  simp only [Option.bind_eq_bind, Option.bind_some, hStart, hFixed, hFirst, hLines, hLast]
  rfl

section Reading

variable {ends : List Char} {chomping : Chomping} {begins : Bool} {column : Nat}
  {afterMarks start : Cursor} (hContent : Stops isWhite content) (hCount : count ≤ column)
  (hStart : skipHeaderEnd? afterMarks = some start) (hColumn : start.column = 0)

include hContent hCount hStart hColumn

/-- A text of nothing but line breaks. -/
theorem read?_breaks (hHeader : header? cursor = some (⟨.keep, 2⟩, afterMarks))
    (hEnds : ∀ d ∈ ends, isBreak d = true ∧ isPrintable d = true)
    (hRest : start.rest = ends ++ (spaces count ++ content)) :
    ∃ next, read? false column cursor = some (ends, next) ∧ next.rest = content ∧
      start.line ≤ next.line ∧ next.column = count := by
  have hLess : count < column + 2 := by omega
  obtain ⟨hIndented, hTab⟩ := isIndented_of_white hContent hLess
  obtain ⟨next, hFirst, hNext, hLine, hReached⟩ :=
    readBreaks_eq hEnds hIndented hRest hColumn (stops_break_of_white hContent) hTab
  have hOther : next.column ≠ column + 2 := by omega
  have hMarks : header? cursor = some (⟨.keep, if true then 2 else 0⟩, afterMarks) := hHeader
  refine ⟨next, ?_, hNext, by omega, hReached⟩
  exact read?_eq hMarks hStart hFirst (fun hFalse => by cases hFalse) (linesFrom_stop hOther)

/-- A text with a body. -/
theorem read?_body {body : List Char}
    (hHeader : header? cursor =
      some (⟨chompingOf (breaks ++ body) ends, if begins then 2 else 0⟩, afterMarks))
    (hBreaks : ∀ d ∈ breaks, isBreak d = true ∧ isPrintable d = true) (hBody : IsBody body)
    (hEnds : ∀ d ∈ ends, isBreak d = true ∧ isPrintable d = true)
    (hBegins : begins = false → Stops isSpace body)
    (hRest : start.rest = breaks ++ (spaces (column + 2) ++ (literalFrom (column + 2) false body ++
      (lineEnds ends ++ (spaces count ++ content))))) :
    ∃ next, read? false column cursor = some (breaks ++ body ++ ends, next) ∧ next.rest = content ∧
      start.line ≤ next.line ∧ next.column = count := by
  obtain ⟨b, behind, hBehind⟩ : ∃ b behind, lineEnds ends = b :: behind := by
    refine List.exists_cons_of_ne_nil ?_
    rw [lineEnds]
    split
    case isTrue => decide
    case isFalse hSome => exact fun hNone => hSome (List.isEmpty_iff.mpr hNone)
  rw [hBehind] at hRest
  obtain ⟨hStop, hTab⟩ :=
    hBody.stops (column + 2) (b :: behind ++ (spaces count ++ content))
  have hIndented : IsIndented (if begins then column + 2 else 0) (column + 2)
      (literalFrom (column + 2) false body ++ (b :: behind ++ (spaces count ++ content))) := by
    cases begins with
    | true => exact .inl ⟨Nat.succ_pos _, rfl⟩
    | false => exact .inr ⟨.inl rfl, hBody.stops_space _ _ (hBegins rfl)⟩
  obtain ⟨next, hFirst, hNext, hLine, hReached⟩ :=
    readBreaks_eq hBreaks hIndented hRest hColumn hStop hTab
  have hShown : ∀ d ∈ b :: behind, isBreak d = true ∧ isPrintable d = true :=
    hBehind ▸ mem_lineEnds hEnds
  have hFuel : body.length ≤ next.rest.length + 1 := by
    have hWritten := length_literalFrom (column + 2) false body
    rw [hNext, List.length_append]
    omega
  have hLess : count < column + 2 := by omega
  have hRead : IsBodyRead (column + 2) count content body b behind (next.rest.length + 1)
      ⟨[], [], breaks, false, next⟩ :=
    isBodyRead hBody hShown hReached (Nat.succ_pos _) hNext hLess hContent hFuel
  obtain ⟨last, hLast, hText, hLastBreak, hMoreBreaks, hRest, hLines, hLastColumn⟩ := hRead
  have hText : last.text.reverse = breaks ++ body := hText
  have hLines : next.line < last.cursor.line := hLines
  refine ⟨last.cursor, ?_, hRest, by omega, hLastColumn⟩
  have hSome : breaks ++ body ≠ [] := List.append_ne_nil_of_right_ne_nil _ hBody.nonempty
  rw [read?_eq hHeader hStart hFirst (fun _ => rfl) hLast, hText, hLastBreak, hMoreBreaks,
    chomped_eq hSome hBehind]

end Reading

/-- Whether the header of a literal fixes the indentation. -/
def beginsBlank (text : List Char) : Bool := text.head?.any fun c => isSpace c || isBreak c

theorem literal_eq (indentation : Nat) (text : List Char) :
    literal indentation text = '|' :: ((if beginsBlank text then ['2'] else []) ++
      (chompingMark text ++ '\n' :: literalFrom indentation true text)) := by
  rw [literal, List.append_assoc]
  rfl

/-- The last line of a literal ends once. -/
theorem ends_append {front ends : List Char} (hEnds : ∀ d ∈ ends, isBreak d = true)
    (hFront : front.getLast?.any isBreak = false) :
    ends ++ (if (front ++ ends).getLast?.any isBreak then [] else ['\n']) = lineEnds ends := by
  by_cases hNone : ends = []
  · subst hNone
    rw [List.append_nil, hFront]
    rfl
  · rw [List.getLast?_append_of_ne_nil _ hNone, List.getLast?_eq_some_getLast hNone,
      Option.any_some, hEnds _ (List.getLast_mem _), lineEnds, List.isEmpty_eq_false_iff.mpr hNone]
    exact List.append_nil _

/-- A text that does not end with a break has a body, which may follow breaks. -/
theorem exists_body {front : List Char} (hSome : front ≠ [])
    (hLast : front.getLast?.any isBreak = false)
    (hShown : ∀ c ∈ front, isPrintable c = true) :
    ∃ breaks body, front = breaks ++ body ∧
      (∀ d ∈ breaks, isBreak d = true ∧ isPrintable d = true) ∧ IsBody body := by
  obtain ⟨breaks, body, rfl, hBreaks, hBody⟩ := exists_run isBreak front
  have hNonempty : body ≠ [] := by
    rintro rfl
    rw [List.append_nil] at hSome hLast
    rw [List.getLast?_eq_some_getLast hSome, Option.any_some,
      hBreaks _ (List.getLast_mem _)] at hLast
    cases hLast
  rw [List.getLast?_append_of_ne_nil _ hNonempty] at hLast
  exact ⟨breaks, body, rfl, fun d hMem => ⟨hBreaks d hMem, hShown d (List.mem_append_left _ hMem)⟩,
    hNonempty, fun c hMem => hShown c (List.mem_append_right _ hMem), hBody, hLast⟩

/-- A text whose header does not fix the indentation begins with no space. -/
theorem stops_of_beginsBlank {body : List Char} (hBreaks : ∀ d ∈ breaks, isBreak d = true)
    (hBody : IsBody body) (ends : List Char) (h : beginsBlank (breaks ++ body ++ ends) = false) :
    Stops isSpace body := by
  cases breaks with
  | nil =>
    intro c hHead
    rw [beginsBlank, List.nil_append, List.head?_append_of_ne_nil _ hBody.nonempty, hHead,
      Option.any_some, Bool.or_eq_false_iff] at h
    exact h.1
  | cons b breaks =>
    rw [beginsBlank, List.cons_append, List.cons_append, List.head?_cons, Option.any_some,
      hBreaks b (List.mem_cons_self ..), Bool.or_true] at h
    cases h

/-- A literal is read back, and the place after it is the next content. -/
theorem read?_literal {column : Nat} (hText : text ≠ []) (hShown : ∀ c ∈ text, isPrintable c = true)
    (hRest : '|' :: cursor.rest = literal (column + 2) text ++
      ((if text.getLast?.any isBreak then [] else ['\n']) ++ (spaces count ++ content)))
    (hCount : count ≤ column) (hContent : Stops isWhite content) :
    ∃ next, read? false column cursor = some (text, next) ∧ next.rest = content ∧
      cursor.line < next.line ∧ next.column = count := by
  obtain ⟨front, ends, rfl, hEnds, hFront⟩ := exists_ends text
  have hEndsShown : ∀ d ∈ ends, isBreak d = true ∧ isPrintable d = true := fun d hMem =>
    ⟨hEnds d hMem, hShown d (List.mem_append_right _ hMem)⟩
  have hWritten : cursor.rest = (if beginsBlank (front ++ ends) then ['2'] else []) ++
      ((chompingOf front ends).mark ++ '\n' ::
        (literalFrom (column + 2) true front ++ (lineEnds ends ++ (spaces count ++ content)))) := by
    rw [literal_eq, chompingMark_eq hEnds hFront, literalFrom_append_breaks hEnds,
      List.cons_append] at hRest
    rw [← ends_append hEnds hFront]
    refine (List.cons_eq_cons.mp hRest).2.trans ?_
    simp only [List.append_assoc, List.cons_append]
  obtain ⟨afterMarks, hHeader, hMarks, hMarksLine⟩ := header?_eq hWritten
  obtain ⟨start, hStart, hStartRest, hStartLine, hColumn⟩ := skipHeaderEnd?_eq hMarks
  by_cases hNone : front = []
  · subst hNone
    obtain ⟨b, breaks, rfl⟩ := List.exists_cons_of_ne_nil hText
    have hBegins : beginsBlank ([] ++ b :: breaks) = true := by
      rw [List.nil_append, beginsBlank, List.head?_cons, Option.any_some,
        hEnds b (List.mem_cons_self ..), Bool.or_true]
    have hKeep : chompingOf [] (b :: breaks) = .keep := by
      cases breaks <;> rfl
    rw [hBegins, hKeep] at hHeader
    obtain ⟨next, hRead, hNext, hLine, hReached⟩ :=
      read?_breaks hContent hCount hStart hColumn hHeader hEndsShown hStartRest
    exact ⟨next, hRead, hNext, by omega, hReached⟩
  · obtain ⟨breaks, body, rfl, hBreaks, hBody⟩ := exists_body hNone hFront fun c hMem =>
      hShown c (List.mem_append_left _ hMem)
    have hBegins := stops_of_beginsBlank (fun d hMem => (hBreaks d hMem).1) hBody ends
    rw [literalFrom_breaks fun d hMem => (hBreaks d hMem).1,
      literalFrom_lineStart hBody.nonempty hBody.head] at hStartRest
    simp only [List.append_assoc] at hStartRest
    obtain ⟨next, hRead, hNext, hLine, hReached⟩ := read?_body hContent hCount hStart hColumn
      hHeader
      hBreaks hBody hEndsShown hBegins hStartRest
    exact ⟨next, hRead, hNext, by omega, hReached⟩

end ProvideIndex.Yaml.BlockScalar
