import ProvideIndex.Proofs.Yaml.Gap
import ProvideIndex.Yaml.Scanner

/-!
# From one line to the next

A scanner of block lines comes from one place to another, token by token. Between two parts of a
value it keeps no place of a key; at the beginning of a line it ends the blocks that the line is not
in.

* `Reaches`: one state comes to another, whatever fuel is left after it.
* `between`, `Comes`: a state in which no key is kept.
* `Lands`, `Arrives`: the content of the next line, and the beginning of that line.
* `arrives_of_break`, `lands_of_content`: how a line ends.
-/

namespace ProvideIndex.Yaml.Scanner

open Text ScalarText

variable {s t u : Scanner} {cursor : Cursor} {tokens : List Token} {columns : List Nat}
  {allowed : Bool} {rest content text : List Char} {column count : Nat}

/-! ### Runs of the scanner -/

/-- One state comes to another: a few tokens further on, each of which takes a character. -/
def Reaches (s t : Scanner) : Prop :=
  ∃ count, count + t.cursor.rest.length ≤ s.cursor.rest.length ∧
    ∀ fuel, tokensFrom (fuel + count) s = tokensFrom fuel t

theorem Reaches.trans (h : Reaches s t) (h' : Reaches t u) : Reaches s u := by
  obtain ⟨first, hFirst, hRun⟩ := h
  obtain ⟨second, hSecond, hMore⟩ := h'
  refine ⟨second + first, by omega, fun fuel => ?_⟩
  rw [← Nat.add_assoc, hRun, hMore]

/-- One token. -/
theorem Reaches.of_next {c : Char} (hReady : s.toNextToken? = some t)
    (hRest : t.cursor.rest = c :: rest) (hNext : t.next? c = some u)
    (hShorter : u.cursor.rest.length < s.cursor.rest.length) : Reaches s u := by
  refine ⟨1, by omega, fun fuel => ?_⟩
  rw [tokensFrom, hReady]
  simp only [Option.bind_eq_bind, Option.bind_some, hRest, hNext]

/-- What stands between two tokens is passed over without one. -/
theorem Reaches.of_ready (hReady : s.toNextToken? = t.toNextToken?)
    (hShorter : t.cursor.rest.length ≤ s.cursor.rest.length) : Reaches s t := by
  refine ⟨0, by omega, fun fuel => ?_⟩
  cases fuel with
  | zero => rfl
  | succ fuel => rw [tokensFrom, tokensFrom, hReady]

/-! ### Between tokens -/

/-- A scanner outside flow collections that keeps no place of a key. -/
def between (cursor : Cursor) (tokens : List Token) (columns : List Nat) (allowed : Bool) :
    Scanner := ⟨cursor, tokens, columns, none, [], allowed⟩

/-- What is passed over between tokens. -/
def isSkipped (c : Char) : Bool := isWhite c || c == '#' || c == byteOrderMark

/-- Whether a token begins here, or the end of the stream. -/
def Begins (content : List Char) : Prop := Stops isSkipped content

theorem Begins.stops_white (h : Begins content) : Stops isWhite content :=
  stops_of_imp h fun c hWhite => by rw [isSkipped, hWhite, Bool.true_or, Bool.true_or]

theorem begins_cons {c : Char} (h : isSkipped c = false) : Begins (c :: rest) := stops_cons h

theorem skipByteOrderMark_eq (h : cursor.rest.head? ≠ some byteOrderMark) :
    skipByteOrderMark cursor = cursor := by
  rw [skipByteOrderMark, Cursor.peek_zero, beq_eq_false_iff_ne.mpr h, Bool.and_false]
  rfl

/-- Spaces before a token are passed over. -/
theorem skipFrom_spaces {flow : Bool} {fuel : Nat} (hRest : cursor.rest = spaces count ++ content)
    (h : Begins content) :
    skipFrom flow (fuel + 1) allowed cursor = (allowed, cursor.advance count) := by
  have hNext : (cursor.advance count).rest = content := Cursor.rest_advance_spaces hRest
  have hMark : cursor.rest.head? ≠ some byteOrderMark := by
    rw [hRest]
    cases count with
    | zero => exact fun hHead => by cases h byteOrderMark hHead
    | succ count =>
      intro hHead
      cases hHead
  have hBlanks : cursor.skipRun (fun c => c == ' ' || ((flow || !allowed) && c == '\t')) =
      cursor.advance count := by
    have hStop : Stops (fun c => c == ' ' || ((flow || !allowed) && c == '\t')) content :=
      stops_of_imp h fun c hBlank => by
        simp only [Bool.or_eq_true, Bool.and_eq_true, beq_iff_eq] at hBlank
        rcases hBlank with rfl | ⟨-, rfl⟩ <;> rfl
    rw [Cursor.skipRun, Cursor.takeRun_eq hRest _ hStop, spaces, List.length_replicate]
    intro c hMem
    rw [List.eq_of_mem_replicate hMem]
    exact Bool.true_or _
  have hComment : ((cursor.advance count).peek 0 == some '#') = false := by
    rw [beq_eq_false_iff_ne, Cursor.peek_zero, hNext]
    intro hHead
    cases h '#' hHead
  have hBreak : (cursor.advance count).readBreak? = none :=
    Cursor.readBreak?_eq_none (hNext ▸ stops_break_of_white h.stops_white)
  rw [skipFrom, skipByteOrderMark_eq hMark]
  simp only [hBlanks, hComment, Bool.false_eq_true, if_false, hBreak]

/-- The end of a line and the indentation of the next one are passed over; then a key may begin. -/
theorem skipFrom_break {fuel : Nat} (hRest : cursor.rest = '\n' :: (spaces count ++ content))
    (h : Begins content) :
    ∃ next, skipFrom false (fuel + 2) allowed cursor = (true, next) ∧ next.rest = content ∧
      next.line = cursor.line + 1 ∧ next.column = count := by
  obtain ⟨start, hRead, hStart, hLine, hColumn⟩ := Cursor.readBreak?_of_break hRest rfl rfl
  refine ⟨start.advance count, ?_, Cursor.rest_advance_spaces hStart, hLine, ?_⟩
  · have hMark : cursor.rest.head? ≠ some byteOrderMark := by
      rw [hRest]
      intro hHead
      cases hHead
    have hBlanks :
        cursor.skipRun (fun c => c == ' ' || ((false || !allowed) && c == '\t')) = cursor := by
      have hStop : Stops (fun c => c == ' ' || ((false || !allowed) && c == '\t')) cursor.rest := by
        rw [hRest]
        exact stops_cons (Bool.and_false _)
      rw [Cursor.skipRun, Cursor.takeRun, takeWhile_of_stops hStop]
      rfl
    have hComment : (cursor.peek 0 == some '#') = false := by
      rw [Cursor.peek_zero, hRest]
      rfl
    have hFree : (allowed || !false) = true := Bool.or_true _
    rw [skipFrom, skipByteOrderMark_eq hMark]
    simp only [hBlanks, hComment, Bool.false_eq_true, if_false, hRead, hFree]
    exact skipFrom_spaces hStart h
  · rw [Cursor.column_advance, hColumn, Nat.zero_add]

/-- The next token is found after spaces. -/
theorem toNextToken?_between (hRest : cursor.rest = spaces count ++ content) (h : Begins content) :
    (between cursor tokens columns allowed).toNextToken? =
      some ((between (cursor.advance count) tokens columns allowed).closeBlocks
        (cursor.advance count).column) := by
  have hSkip : skipFrom (between cursor tokens columns allowed).inFlow
      ((between cursor tokens columns allowed).cursor.rest.length + 1)
      (between cursor tokens columns allowed).keyAllowed
      (between cursor tokens columns allowed).cursor = (allowed, cursor.advance count) :=
    skipFrom_spaces hRest h
  rw [toNextToken?, hSkip]
  rfl

theorem toNextToken?_content (hRest : cursor.rest = content) (h : Begins content) :
    (between cursor tokens columns allowed).toNextToken? =
      some ((between cursor tokens columns allowed).closeBlocks cursor.column) := by
  have hNone : cursor.rest = spaces 0 ++ content := hRest
  exact toNextToken?_between hNone h

/-! ### Ends of blocks -/

def isRightOf (column inner : Nat) : Bool := decide (column < inner)

/-- The tokens after the blocks right of a column were ended, the last one first. -/
def closedTokens (column : Nat) (tokens : List Token) (columns : List Nat) : List Token :=
  List.replicate (columns.takeWhile (isRightOf column)).length .blockEnd ++ tokens

def closedColumns (column : Nat) (columns : List Nat) : List Nat :=
  columns.dropWhile (isRightOf column)

theorem closeBlocks_between (cursor : Cursor) (tokens : List Token) (columns : List Nat)
    (allowed : Bool) (column : Nat) :
    (between cursor tokens columns allowed).closeBlocks column =
      between cursor (closedTokens column tokens columns) (closedColumns column columns)
        allowed := by
  have hClosed : (columns.takeWhile fun (inner : Nat) => decide ((column : Int) < inner)) =
      columns.takeWhile (isRightOf column) :=
    congrArg (columns.takeWhile ·) (funext fun inner => by simp only [Int.ofNat_lt, isRightOf])
  have hTokens : ((columns.takeWhile (isRightOf column)).map fun _ => Token.blockEnd) =
      List.replicate (columns.takeWhile (isRightOf column)).length .blockEnd := List.map_const ..
  have hColumns : columns.drop (columns.takeWhile (isRightOf column)).length =
      columns.dropWhile (isRightOf column) := by
    have hDrop : (columns.takeWhile (isRightOf column) ++ columns.dropWhile (isRightOf column)).drop
        (columns.takeWhile (isRightOf column)).length = columns.dropWhile (isRightOf column) :=
        List.drop_left
    rwa [List.takeWhile_append_dropWhile] at hDrop
  calc (between cursor tokens columns allowed).closeBlocks column
      = between cursor
          ((columns.takeWhile fun (inner : Nat) => decide ((column : Int) < inner)).map
            (fun _ => Token.blockEnd) ++ tokens)
          (columns.drop (columns.takeWhile fun (inner : Nat) =>
            decide ((column : Int) < inner)).length) allowed := rfl
    _ = _ := by rw [hClosed, hTokens, hColumns]; rfl

/-- Whether a token in this column belongs to the innermost block or begins one in it. -/
def Within (columns : List Nat) (column : Nat) : Prop :=
  ∀ inner, columns.head? = some inner → inner ≤ column

theorem within_cons (column : Nat) (columns : List Nat) : Within (column :: columns) column := by
  intro inner hHead
  cases hHead
  exact Nat.le_refl _

theorem Within.mono {more : Nat} (h : Within columns column) (hMore : column ≤ more) :
    Within columns more := fun inner hHead => (h inner hHead).trans hMore

/-- Inside the innermost block no block is ended. -/
theorem closed_within (tokens : List Token) (h : Within columns column) :
    closedTokens column tokens columns = tokens ∧ closedColumns column columns = columns := by
  cases columns with
  | nil => exact ⟨rfl, rfl⟩
  | cons inner columns =>
    have hStop : ¬(isRightOf column inner = true) := by
      have hLess := h inner rfl
      rw [isRightOf, decide_eq_true_eq]
      omega
    rw [closedTokens, closedColumns, List.takeWhile_cons_of_neg hStop,
      List.dropWhile_cons_of_neg hStop]
    exact ⟨rfl, rfl⟩

/-- A block right of the column is ended before those around it. -/
theorem closed_cons {inner : Nat} (tokens : List Token) (columns : List Nat) (h : column < inner) :
    closedTokens column tokens (inner :: columns) =
        closedTokens column (.blockEnd :: tokens) columns ∧
      closedColumns column (inner :: columns) = closedColumns column columns := by
  have hGo : isRightOf column inner = true := decide_eq_true h
  rw [closedTokens, closedTokens, closedColumns, closedColumns, List.takeWhile_cons_of_pos hGo,
    List.dropWhile_cons_of_pos hGo, List.length_cons, List.replicate_succ', List.append_assoc]
  exact ⟨rfl, rfl⟩

theorem within_closed (column : Nat) (columns : List Nat) :
    Within (closedColumns column columns) column := by
  intro inner hHead
  have hNot := List.head?_dropWhile_not (isRightOf column) columns
  rw [closedColumns] at hHead
  rw [hHead] at hNot
  exact Nat.not_lt.mp (of_decide_eq_false hNot)

/-! ### Places -/

/-- A scanner comes to a place with these tokens before it, the last one first. -/
def Comes (s : Scanner) (rest : List Char) (column : Nat) (tokens : List Token)
    (columns : List Nat) (allowed : Bool) : Prop :=
  ∃ index line, Reaches s (between ⟨rest, index, line, column⟩ tokens columns allowed)

/-- A scanner comes to the content of a line; blocks right of it are ended. -/
def Lands (s : Scanner) (content : List Char) (column : Nat) (tokens : List Token)
    (columns : List Nat) : Prop :=
  Comes s content column (closedTokens column tokens columns) (closedColumns column columns) true

/-- A scanner comes to the beginning of a line. -/
def Arrives (s : Scanner) (text : List Char) (tokens : List Token) (columns : List Nat) : Prop :=
  ∀ count content, text = spaces count ++ content → Begins content →
    Lands s content count tokens columns

theorem Reaches.comes {allowed : Bool} (h : Reaches s t)
    (hComes : Comes t rest column tokens columns allowed) :
    Comes s rest column tokens columns allowed := by
  obtain ⟨index, line, hReaches⟩ := hComes
  exact ⟨index, line, h.trans hReaches⟩

/-- What follows from a place follows from every place that comes to it. -/
theorem Comes.arrives {more : List Char} {behind : List Token} {around : List Nat}
    (h : Comes s rest column tokens columns allowed)
    (hMore : ∀ index line,
      Arrives (between ⟨rest, index, line, column⟩ tokens columns allowed) more behind around) :
    Arrives s more behind around := by
  obtain ⟨index, line, hReaches⟩ := h
  intro count content hText hBegins
  exact hReaches.comes (hMore index line count content hText hBegins)

theorem Comes.comes {more : List Char} {behind : List Token} {around : List Nat} {other : Nat}
    {free : Bool} (h : Comes s rest column tokens columns allowed)
    (hMore : ∀ index line, Comes (between ⟨rest, index, line, column⟩ tokens columns allowed) more
      other behind around free) :
    Comes s more other behind around free := by
  obtain ⟨index, line, hReaches⟩ := h
  exact hReaches.comes (hMore index line)

/-- A line inside the innermost block is reached without the end of a block. -/
theorem Arrives.comes (h : Arrives s (spaces count ++ content) tokens columns)
    (hBegins : Begins content) (hWithin : Within columns count) :
    Comes s content count tokens columns true := by
  have hLands := h count content rfl hBegins
  obtain ⟨hTokens, hColumns⟩ := closed_within tokens hWithin
  rwa [Lands, hTokens, hColumns] at hLands

/-! ### Ends of lines -/

/-- A place of a key on an earlier line is forgotten, unless a key has to be there. -/
theorem refresh?_forget (hOuter : s.outerKeyStarts = [])
    (hStart : ∀ start, s.keyStart = some start →
      start.required = false ∧ start.line < s.cursor.line) :
    s.refresh? = some (between s.cursor s.tokens s.columns s.keyAllowed) := by
  have hKey : refreshed? s.cursor s.keyStart = some none := by
    cases hKept : s.keyStart with
    | none => rfl
    | some start =>
      obtain ⟨hRequired, hLine⟩ := hStart start hKept
      have hStale : isStale s.cursor start = true := by
        rw [isStale, decide_eq_true hLine, Bool.true_or]
      rw [refreshed?, hStale, hRequired]
      rfl
  rw [refresh?, hKey, hOuter]
  rfl

/-- At the content of a line a scanner lands. -/
theorem lands_of_ready {next : Cursor} (hNext : next.rest = content) (hBegins : Begins content)
    (hReady : s.toNextToken? = some ((between next tokens columns true).closeBlocks next.column))
    (hShorter : content.length ≤ s.cursor.rest.length) :
    Lands s content next.column tokens columns := by
  refine ⟨next.index, next.line, Reaches.of_ready ?_ hShorter⟩
  obtain ⟨hTokens, hColumns⟩ := closed_within (closedTokens next.column tokens columns)
    (within_closed next.column columns)
  subst hNext
  rw [hReady, toNextToken?_content rfl hBegins, closeBlocks_between, closeBlocks_between, hTokens,
    hColumns]

/-- After the end of a line the next line begins. -/
theorem arrives_of_break (hOuter : s.outerKeyStarts = [])
    (hStart : ∀ start, s.keyStart = some start →
      start.required = false ∧ start.line ≤ s.cursor.line)
    (hRest : s.cursor.rest = '\n' :: text) : Arrives s text s.tokens s.columns := by
  intro count content hText hBegins
  subst hText
  have hBlock : s.inFlow = false := by
    rw [inFlow, hOuter]
    rfl
  have hSkipped : ∃ next,
      skipFrom false ((spaces count ++ content).length + 2) s.keyAllowed s.cursor =
      (true, next) ∧ next.rest = content ∧ next.line = s.cursor.line + 1 ∧ next.column = count :=
    skipFrom_break hRest hBegins
  obtain ⟨next, hSkip, hNext, hLine, rfl⟩ := hSkipped
  have hRefresh : refresh? { s with keyAllowed := true, cursor := next } =
      some (between next s.tokens s.columns true) := by
    refine refresh?_forget hOuter fun start hKept => ?_
    obtain ⟨hRequired, hBefore⟩ := hStart start hKept
    exact ⟨hRequired, by simp only; omega⟩
  refine lands_of_ready hNext hBegins ?_ ?_
  · rw [toNextToken?, hBlock, hRest, List.length_cons, hSkip]
    simp only [hRefresh, Option.bind_eq_bind, Option.bind_some]
    rfl
  · rw [hRest, List.length_cons, List.length_append]
    omega

/-- At the content of a line that was reached with a token, the blocks right of it are ended. -/
theorem lands_of_content (hOuter : s.outerKeyStarts = []) (hAllowed : s.keyAllowed = true)
    (hStart : ∀ start, s.keyStart = some start →
      start.required = false ∧ start.line < s.cursor.line)
    (hRest : s.cursor.rest = content) (hBegins : Begins content) :
    Lands s content s.cursor.column s.tokens s.columns := by
  have hBlock : s.inFlow = false := by
    rw [inFlow, hOuter]
    rfl
  have hSkip :
      skipFrom false (s.cursor.rest.length + 1) true s.cursor = (true, s.cursor.advance 0) :=
    skipFrom_spaces hRest hBegins
  rw [Cursor.advance_zero] at hSkip
  have hRefresh : refresh? { s with keyAllowed := true, cursor := s.cursor } =
      some (between s.cursor s.tokens s.columns true) := refresh?_forget hOuter hStart
  refine lands_of_ready hRest hBegins ?_ (hRest ▸ Nat.le_refl _)
  rw [toNextToken?, hBlock, hAllowed, hSkip]
  simp only [hRefresh, Option.bind_eq_bind, Option.bind_some]
  rfl

end ProvideIndex.Yaml.Scanner
