import ProvideIndex.Proofs.Yaml.Lines
import ProvideIndex.Proofs.Yaml.Literal
import ProvideIndex.Proofs.Yaml.WrittenText

/-!
# Scalars as tokens

A scalar that takes no lines of its own is read as one token, whatever its style, and so is an empty
collection as two; then the next line begins.

* `next?_plain`: how a scalar without quotes is told from a mark.
* `arrives_plain`, `arrives_singleQuoted`, `arrives_doubleQuoted`, `arrives_literal`: one lemma for
  each style, of which `arrives_quoted` is what the two with quotes share.
* `arrives_scalar`: a scalar in any style that holds it.
* `arrives_emptyFlow`: an empty collection.
-/

namespace ProvideIndex.Yaml.Scanner

open Text ScalarText

variable {s t : Scanner} {cursor next : Cursor} {tokens : List Token} {columns : List Nat}
  {allowed : Bool} {c : Char} {text rest content following : List Char} {index line column : Nat}

/-! ### Which token begins here -/

theorem next?_doubleQuote (h : s.cursor.atDocumentMark = false) :
    s.next? '\x22' = s.quotedScalar? '\x22' .doubleQuoted := by
  rw [next?, h]
  rfl

theorem next?_singleQuote (h : s.cursor.atDocumentMark = false) :
    s.next? '\x27' = s.quotedScalar? '\x27' .singleQuoted := by
  rw [next?, h]
  rfl

theorem next?_bar (h : s.cursor.atDocumentMark = false) (hFlow : s.inFlow = false) :
    s.next? '|' = s.blockScalar? false := by
  rw [next?, h, hFlow]
  rfl

theorem not_and_of_imp {a b : Bool} (h : a = true → b = false) : (a && b) = false := by
  cases a with
  | true => exact h rfl
  | false => rfl

theorem mem_reserved {mark : Char} (h : mark ∈ reserved) :
    (mark = '-' ∨ mark = '?' ∨ mark = ':') ∨ mark ∈ openingMarks := by
  have hAll : ∀ mark ∈ reserved, (mark = '-' ∨ mark = '?' ∨ mark = ':') ∨ mark ∈ openingMarks :=
    forall_of_all (by decide +kernel)
  exact hAll mark h

/-- A character that begins a scalar without quotes is no mark of the format. -/
theorem beginsPlain_eq {next : Option Char} (hOpening : c ∉ openingMarks)
    (hWhite : isWhite c = false)
    (hMark : c = '-' ∨ c = '?' ∨ c = ':' → isGapOrEnd next = false) :
    beginsPlain false c next = true := by
  have hGap : isGapOrEnd (some c) = false := hWhite
  by_cases hChar : c = '-' ∨ c = '?' ∨ c = ':'
  · have hNext := hMark hChar
    rcases hChar with rfl | hChar
    · have hAny : next.any isGap = false := by
        cases next with
        | none => rfl
        | some d => exact (Bool.or_eq_false_iff.mp hNext).1
      rw [beginsPlain, hAny]
      simp
    · have hEither : (c == '?' || c == ':') = true := by
        rcases hChar with rfl | rfl <;> rfl
      rw [beginsPlain, hEither, hNext]
      simp
  · have hReserved : reserved.contains c = false := by
      rw [List.contains_eq_mem, decide_eq_false_iff_not]
      exact fun hMem => (mem_reserved hMem).elim hChar hOpening
    rw [beginsPlain, hGap, hReserved]
    rfl

/-- What a scalar without quotes begins with is no mark. -/
theorem next?_plain (h : s.cursor.atDocumentMark = false) (hFlow : s.inFlow = false)
    (hOpening : c ∉ openingMarks) (hWhite : isWhite c = false)
    (hMark : c = '-' ∨ c = '?' ∨ c = ':' → isGapOrEnd (s.cursor.peek 1) = false) :
    s.next? c = s.plainScalar? := by
  have hNone : ∀ mark ∈ openingMarks, (c == mark) = false := by
    intro mark hMem
    rw [beq_eq_false_iff_ne]
    rintro rfl
    exact hOpening hMem
  have hDash := not_and_of_imp fun hChar => hMark (.inl (beq_iff_eq.mp hChar))
  have hQuestion := not_and_of_imp fun hChar => hMark (.inr (.inl (beq_iff_eq.mp hChar)))
  have hColon := not_and_of_imp fun hChar => hMark (.inr (.inr (beq_iff_eq.mp hChar)))
  have hBegins := beginsPlain_eq hOpening hWhite hMark
  rw [next?, h, hFlow, hBegins]
  simp only [Bool.false_or, hDash, hQuestion, hColon, hNone '%' (by decide), hNone '[' (by decide),
    hNone ']' (by decide), hNone '\x7b' (by decide), hNone '\x7d' (by decide),
    hNone ',' (by decide), hNone '*' (by decide), hNone '&' (by decide), hNone '!' (by decide),
    hNone '|' (by decide), hNone '>' (by decide), hNone '\x27' (by decide),
    hNone '\x22' (by decide), Bool.false_and, Bool.false_eq_true, if_false, if_true]

/-- The first character of a text without quotes. -/
theorem exists_head_plain (hText : text ≠ []) (hPlain : plainAllowed text = true) :
    ∃ c more, text = c :: more ∧ c ∉ openingMarks ∧ isSkipped c = false ∧
      (c = '-' ∨ c = '?' ∨ c = ':' → isGapOrEnd more.head? = false) := by
  obtain ⟨c, more, rfl⟩ := List.exists_cons_of_ne_nil hText
  have hIs := PlainScalar.isPlain_of_allowed hText hPlain
  simp only [plainAllowed, Bool.and_eq_true, Bool.not_eq_true'] at hPlain
  obtain ⟨⟨⟨⟨-, hBegin⟩, hMarks⟩, -⟩, -⟩ := hPlain
  have hOpening : c ∉ openingMarks ∧ ((c == '-' || c == '?') && isGapOrEnd more.head?) = false := by
    rw [beginsWithMark.eq_def] at hBegin
    split at hBegin
    case h_1 => cases hBegin
    case h_2 => cases hBegin
    case h_3 hCons =>
      obtain ⟨rfl, rfl⟩ := List.cons_eq_cons.mp hCons
      rw [Bool.or_eq_false_iff, List.contains_eq_mem, decide_eq_false_iff_not] at hBegin
      exact hBegin
    case h_4 hCons => cases hCons
  have hWhite : isWhite c = false := (hIs.isWhite_eq (List.mem_cons_self ..)).trans (hIs.head c rfl)
  have hNumber : c ≠ '#' := by
    rintro rfl
    exact hOpening.1 (by decide)
  have hMark : c ≠ byteOrderMark := by
    rintro rfl
    cases hIs.shown _ (List.mem_cons_self ..)
  refine ⟨c, more, rfl, hOpening.1, ?_, ?_⟩
  · rw [isSkipped, hWhite, beq_eq_false_iff_ne.mpr hNumber, beq_eq_false_iff_ne.mpr hMark]
    rfl
  · rw [hasInnerMark, Bool.or_eq_false_iff, Bool.or_eq_false_iff] at hMarks
    rintro (rfl | rfl | rfl)
    · exact hOpening.2
    · exact hOpening.2
    · exact hMarks.1.1

theorem isWhite_of_skipped (h : isSkipped c = false) : isWhite c = false :=
  (Bool.or_eq_false_iff.mp (Bool.or_eq_false_iff.mp h).1).1

/-- A text without quotes is read as a scalar. -/
theorem next?_plainText (hText : text ≠ []) (hPlain : plainAllowed text = true)
    (hMark : s.cursor.atDocumentMark = false) (hFlow : s.inFlow = false)
    (hRest : s.cursor.rest = text ++ following) :
    ∃ c more, text = c :: more ∧ isSkipped c = false ∧ s.next? c = s.plainScalar? := by
  obtain ⟨c, more, rfl, hOpening, hSkipped, hChar⟩ := exists_head_plain hText hPlain
  refine ⟨c, more, rfl, hSkipped,
    next?_plain hMark hFlow hOpening (isWhite_of_skipped hSkipped) fun hDash => ?_⟩
  cases more with
  | nil => cases hChar hDash
  | cons d more =>
    have hPeek : s.cursor.peek 1 = some d := by
      rw [Cursor.peek, hRest]
      rfl
    exact hPeek ▸ hChar hDash

/-! ### Places of keys -/

/-- Whether a column lies inside the innermost block, right of where it begins. -/
def Inside (columns : List Nat) (column : Nat) : Prop :=
  ∀ inner, columns.head? = some inner → inner < column

theorem inside_cons (h : index < column) : Inside (index :: columns) column := by
  intro inner hHead
  cases hHead
  exact h

theorem Inside.within (h : Inside columns column) : Within columns column := fun inner hHead =>
  (h inner hHead).le

/-- The place that is kept of a key that may begin here; in the column of the block one has to. -/
def placeOfKey (cursor : Cursor) (tokens : List Token) (columns : List Nat) (allowed : Bool) :
    Option KeyStart :=
  if allowed then
    some ⟨columns.head? == some cursor.column, tokens.length, cursor.index, cursor.line,
      cursor.column⟩
  else none

theorem markKeyStart?_between (cursor : Cursor) (tokens : List Token) (columns : List Nat)
    (allowed : Bool) :
    (between cursor tokens columns allowed).markKeyStart? =
      some ⟨cursor, tokens, columns, placeOfKey cursor tokens columns allowed, [], allowed⟩ := by
  cases allowed with
  | false => rfl
  | true =>
    have hRequired : ((between cursor tokens columns true).indentation == (cursor.column : Int)) =
        (columns.head? == some cursor.column) := by
      rw [Bool.eq_iff_iff, beq_iff_eq, beq_iff_eq]
      cases columns with
      | nil => simp [between, indentation]
      | cons inner columns => simp [between, indentation]
    simp only [placeOfKey, ← hRequired]
    rfl

/-- Inside the innermost block a key may begin, but need not. -/
theorem placeOfKey_inside (h : Inside columns cursor.column) {start : KeyStart}
    (hStart : placeOfKey cursor tokens columns allowed = some start) :
    start.required = false ∧ start.line = cursor.line := by
  cases allowed with
  | false => cases hStart
  | true =>
    cases hStart
    refine ⟨beq_eq_false_iff_ne.mpr fun hHead => ?_, rfl⟩
    have hLess := h _ hHead
    omega

/-- A place on the line of the cursor and not far back is kept. -/
theorem refreshed?_near {kept : Option KeyStart}
    (h : ∀ start, kept = some start →
      start.line = cursor.line ∧ cursor.index ≤ start.index + 1024) :
    refreshed? cursor kept = some kept := by
  cases kept with
  | none => rfl
  | some start =>
    obtain ⟨hLine, hIndex⟩ := h start rfl
    have hFresh : isStale cursor start = false := by
      rw [isStale, decide_eq_false (by omega), decide_eq_false (by omega)]
      rfl
    rw [refreshed?, hFresh]
    rfl

theorem placeOfKey_near (hLine : next.line = cursor.line)
    (hIndex : next.index ≤ cursor.index + 1024) :
    refreshed? next (placeOfKey cursor tokens columns allowed) =
      some (placeOfKey cursor tokens columns allowed) := by
  refine refreshed?_near fun start hStart => ?_
  cases allowed with
  | false => cases hStart
  | true =>
    cases hStart
    exact ⟨hLine.symm, hIndex⟩

/-- Where a token begins and no place of a key is too far back, nothing is left to do before it. -/
theorem toNextToken?_near (hBegins : Begins s.cursor.rest)
    (hKey : refreshed? s.cursor s.keyStart = some s.keyStart)
    (hOuter : s.outerKeyStarts.mapM (refreshed? s.cursor) = some s.outerKeyStarts)
    (hBlocks : s.closeBlocks s.cursor.column = s) : s.toNextToken? = some s := by
  have hNone : s.cursor.rest = spaces 0 ++ s.cursor.rest := rfl
  have hSkip : skipFrom s.inFlow (s.cursor.rest.length + 1) s.keyAllowed s.cursor =
      (s.keyAllowed, s.cursor.advance 0) := skipFrom_spaces hNone hBegins
  rw [Cursor.advance_zero] at hSkip
  rw [toNextToken?, hSkip]
  simp only [refresh?, hKey, hOuter, Option.bind_eq_bind, Option.bind_some, Option.pure_def,
    hBlocks]

/-! ### Scalars -/

/-- The least column that a line of a scalar inside the innermost block can have. -/
def leastInside : List Nat → Nat
  | [] => 0
  | inner :: _ => inner + 1

theorem Within.leastInside_le (h : Within columns column) : leastInside columns ≤ column + 1 := by
  cases columns with
  | nil => exact Nat.zero_le _
  | cons inner columns => exact Nat.succ_le_succ (h inner rfl)

theorem plainScalar?_between {broken : Bool}
    (hRead : PlainScalar.read? false (leastInside columns) cursor = some (text, broken, next)) :
    (between cursor tokens columns allowed).plainScalar? =
      some ⟨next, .scalar text .plain :: tokens, columns, placeOfKey cursor tokens columns allowed,
        [], broken⟩ := by
  have hLeast :
      leastInside columns = ((between cursor tokens columns allowed).indentation + 1).toNat := by
    cases columns <;> rfl
  rw [hLeast] at hRead
  rw [plainScalar?, markKeyStart?_between]
  simp only [Option.bind_eq_bind, Option.bind_some]
  exact congrArg (Option.bind · _) hRead

theorem quotedScalar?_between {quote : Char} {style : Style}
    (hRead : QuotedScalar.read? quote cursor = some (text, next)) :
    (between cursor tokens columns allowed).quotedScalar? quote style =
      some ⟨next, .scalar text style :: tokens, columns, placeOfKey cursor tokens columns allowed,
        [], false⟩ := by
  rw [quotedScalar?, markKeyStart?_between]
  simp only [Option.bind_eq_bind, Option.bind_some, hRead]
  rfl

theorem blockScalar?_between
    (hRead : BlockScalar.read? false column (cursor.advance 1) = some (text, next)) :
    (between cursor tokens (column :: columns) allowed).blockScalar? false =
      some ⟨next, .scalar text .literal :: tokens, column :: columns, none, [], true⟩ := by
  have hFree : (between cursor tokens (column :: columns) allowed).dropKeyStart? =
      some (between cursor tokens (column :: columns) allowed) := rfl
  rw [blockScalar?, hFree]
  exact congrArg (Option.bind · _) hRead

/-! ### Lines that end with a scalar -/

/-- Whether a line is indented no deeper than a block. -/
def Shallow (text : List Char) (inner : Nat) : Prop :=
  ∀ count content, text = spaces count ++ content → Begins content → count ≤ inner

theorem ready_content (hRest : cursor.rest = content) (hBegins : Begins content)
    (hWithin : Within columns cursor.column) :
    (between cursor tokens columns allowed).toNextToken? =
      some (between cursor tokens columns allowed) := by
  obtain ⟨hTokens, hColumns⟩ := closed_within tokens hWithin
  rw [toNextToken?_content hRest hBegins, closeBlocks_between, hTokens, hColumns]

/-- A space before a token is passed over. -/
theorem comes_content (hBegins : Begins content) (hWithin : Within columns (column + 1)) :
    Comes (between ⟨' ' :: content, index, line, column⟩ tokens columns allowed) content
      (column + 1) tokens columns allowed := by
  have hRest : (⟨' ' :: content, index, line, column⟩ : Cursor).rest = spaces 1 ++ content := rfl
  obtain ⟨hTokens, hColumns⟩ := closed_within tokens hWithin
  refine ⟨(Cursor.advance ⟨' ' :: content, index, line, column⟩ 1).index, line,
    Reaches.of_ready ?_ (Nat.le_succ _)⟩
  rw [toNextToken?_between hRest hBegins, closeBlocks_between, ready_content rfl hBegins hWithin]
  simp only [Cursor.column_advance, hTokens, hColumns]
  rfl

theorem Reaches.arrives (h : Reaches s t) (hArrives : Arrives t rest tokens columns) :
    Arrives s rest tokens columns := fun count content hText hBegins =>
  h.comes (hArrives count content hText hBegins)

/-- One token, where a token begins. -/
theorem reaches_token (hRest : cursor.rest = c :: rest) (hSkipped : isSkipped c = false)
    (hWithin : Within columns cursor.column)
    (hNext : (between cursor tokens columns allowed).next? c = some t)
    (hShorter : t.cursor.rest.length < cursor.rest.length) :
    Reaches (between cursor tokens columns allowed) t :=
  Reaches.of_next (ready_content hRest (begins_cons hSkipped) hWithin) hRest hNext hShorter

section Leaves

variable {inner : Nat} {around : List Nat} (hInside : inner < cursor.column)

include hInside

theorem arrives_plain (hText : text ≠ []) (hPlain : plainAllowed text = true)
    (hRest : cursor.rest = text ++ '\n' :: rest) (hShallow : Shallow rest inner) :
    Arrives (between cursor tokens (inner :: around) allowed) rest (.scalar text .plain :: tokens)
      (inner :: around) := by
  intro count content hContent hBegins
  have hLess := hShallow count content hContent hBegins
  subst hContent
  have hIn : Inside (inner :: around) cursor.column := inside_cons hInside
  have hRead : ∃ next, PlainScalar.read? false (leastInside (inner :: around)) cursor =
      some (text, true, next) ∧ next.rest = content ∧ cursor.line < next.line ∧
      next.column = count :=
    PlainScalar.read?_line hText hPlain hIn.within.leastInside_le hRest hBegins.stops_white
      (Nat.lt_succ_of_le hLess)
  obtain ⟨next, hRead, hNext, hLine, rfl⟩ := hRead
  have hMark : (between cursor tokens (inner :: around) allowed).cursor.atDocumentMark = false :=
    Cursor.atDocumentMark_of_column (Nat.zero_lt_of_lt hInside)
  obtain ⟨c, more, rfl, hSkipped, hToken⟩ := next?_plainText hText hPlain hMark rfl hRest
  rw [plainScalar?_between hRead] at hToken
  refine (reaches_token hRest hSkipped hIn.within hToken ?_).comes ?_
  · rw [hRest, hNext]
    simp only [List.length_cons, List.length_append]
    omega
  · refine lands_of_content rfl rfl (fun start hStart => ?_) hNext hBegins
    obtain ⟨hRequired, hSame⟩ := placeOfKey_inside hIn hStart
    exact ⟨hRequired, hSame ▸ hLine⟩

/-- A text between quotes, up to the end of its last line. -/
theorem arrives_quoted {quote : Char} {style : Style} (hQuote : isSkipped quote = false)
    (hToken : (between cursor tokens (inner :: around) allowed).next? quote =
      (between cursor tokens (inner :: around) allowed).quotedScalar? quote style)
    (hRead : QuotedScalar.read? quote cursor = some (text, next))
    (hRest : cursor.rest = quote :: content)
    (hNext : next.rest = '\n' :: rest) (hLine : cursor.line ≤ next.line)
    (hShorter : next.rest.length < cursor.rest.length) :
    Arrives (between cursor tokens (inner :: around) allowed) rest (.scalar text style :: tokens)
      (inner :: around) := by
  have hIn : Inside (inner :: around) cursor.column := inside_cons hInside
  rw [quotedScalar?_between hRead] at hToken
  refine (reaches_token hRest hQuote hIn.within hToken hShorter).arrives ?_
  refine arrives_of_break rfl (fun start hStart => ?_) hNext
  obtain ⟨hRequired, hSame⟩ := placeOfKey_inside hIn hStart
  exact ⟨hRequired, hSame ▸ hLine⟩

theorem arrives_singleQuoted {indentation : Nat} (hText : QuotedScalar.IsSingle text)
    (hIndentation : 0 < indentation)
    (hRest : cursor.rest = singleQuoted indentation text ++ '\n' :: rest) :
    Arrives (between cursor tokens (inner :: around) allowed) rest
      (.scalar text .singleQuoted :: tokens) (inner :: around) := by
  have hMark : (between cursor tokens (inner :: around) allowed).cursor.atDocumentMark = false :=
    Cursor.atDocumentMark_of_column (Nat.zero_lt_of_lt hInside)
  obtain ⟨next, hRead, hNext, hLine, -⟩ :=
    QuotedScalar.read?_singleQuoted hText (fun hHead => by cases hHead) hIndentation hRest
  refine arrives_quoted hInside rfl (next?_singleQuote hMark) hRead hRest hNext hLine ?_
  rw [hNext, hRest, singleQuoted]
  simp only [List.length_cons, List.length_append, List.length_nil]
  omega

theorem arrives_doubleQuoted (hRest : cursor.rest = doubleQuoted text ++ '\n' :: rest) :
    Arrives (between cursor tokens (inner :: around) allowed) rest
      (.scalar text .doubleQuoted :: tokens) (inner :: around) := by
  have hMark : (between cursor tokens (inner :: around) allowed).cursor.atDocumentMark = false :=
    Cursor.atDocumentMark_of_column (Nat.zero_lt_of_lt hInside)
  have hNext : (cursor.advance (doubleQuoted text).length).rest = '\n' :: rest :=
    Cursor.rest_advance hRest
  refine arrives_quoted hInside rfl (next?_doubleQuote hMark)
    (QuotedScalar.read?_doubleQuoted hRest) hRest hNext (Nat.le_refl _) ?_
  rw [hNext, hRest, doubleQuoted]
  simp only [List.length_cons, List.length_append, List.length_nil]
  omega

theorem arrives_literal (hText : text ≠ []) (hShown : ∀ c ∈ text, isPrintable c = true)
    (hRest : cursor.rest = literal (inner + 2) text ++
      ((if text.getLast?.any isBreak then [] else ['\n']) ++ rest))
    (hShallow : Shallow rest inner) :
    Arrives (between cursor tokens (inner :: around) allowed) rest (.scalar text .literal :: tokens)
      (inner :: around) := by
  intro count content hContent hBegins
  have hLess := hShallow count content hContent hBegins
  subst hContent
  have hIn : Inside (inner :: around) cursor.column := inside_cons hInside
  have hMark : (between cursor tokens (inner :: around) allowed).cursor.atDocumentMark = false :=
    Cursor.atDocumentMark_of_column (Nat.zero_lt_of_lt hInside)
  have hToken := next?_bar (s := between cursor tokens (inner :: around) allowed) hMark rfl
  obtain ⟨more, hBar⟩ : ∃ more, cursor.rest = '|' :: more := ⟨_, hRest⟩
  have hAfter : (cursor.advance 1).rest = more := Cursor.rest_advance_one hBar
  have hWritten : '|' :: (cursor.advance 1).rest = literal (inner + 2) text ++
      ((if text.getLast?.any isBreak then [] else ['\n']) ++ (spaces count ++ content)) := by
    rw [hAfter, ← hBar, hRest]
  have hRead : ∃ next, BlockScalar.read? false inner (cursor.advance 1) = some (text, next) ∧
      next.rest = content ∧ cursor.line < next.line ∧ next.column = count :=
    BlockScalar.read?_literal hText hShown hWritten hLess hBegins.stops_white
  obtain ⟨next, hRead, hNext, hLine, rfl⟩ := hRead
  rw [blockScalar?_between hRead] at hToken
  refine (reaches_token hBar rfl hIn.within hToken ?_).comes ?_
  · rw [hRest, hNext, literal]
    simp only [List.length_cons, List.length_append]
    omega
  · exact lands_of_content rfl rfl (fun start hStart => by cases hStart) hNext hBegins

/-- An empty collection, up to the end of its line. -/
theorem arrives_emptyFlow {opening closing : Char} {first last : Token}
    (hOpening : isSkipped opening = false) (hClosing : isSkipped closing = false)
    (hWidth : opening.utf8Size = 1)
    (hFirst : ∀ s : Scanner, s.cursor.atDocumentMark = false → s.next? opening = s.openFlow? first)
    (hLast : ∀ s : Scanner, s.cursor.atDocumentMark = false → s.next? closing = s.closeFlow? last)
    (hRest : cursor.rest = opening :: closing :: '\n' :: rest) :
    Arrives (between cursor tokens (inner :: around) allowed) rest (last :: first :: tokens)
      (inner :: around) := by
  have hIn : Inside (inner :: around) cursor.column := inside_cons hInside
  have hMark : ∀ count, (cursor.advance count).atDocumentMark = false := fun count =>
    Cursor.atDocumentMark_of_column (Nat.zero_lt_of_lt (hInside.trans_le (Nat.le_add_right _ _)))
  have hRestOne : (cursor.advance 1).rest = closing :: '\n' :: rest := Cursor.rest_advance_one hRest
  have hRestTwo : ((cursor.advance 1).advance 1).rest = '\n' :: rest :=
    Cursor.rest_advance_one hRestOne
  have hBegin : (between cursor tokens (inner :: around) allowed).next? opening =
      some ⟨cursor.advance 1, first :: tokens, inner :: around, none,
        [placeOfKey cursor tokens (inner :: around) allowed], true⟩ := by
    rw [hFirst _ (hMark 0), openFlow?, markKeyStart?_between]
    rfl
  have hEnd : next? closing ⟨cursor.advance 1, first :: tokens, inner :: around, none,
      [placeOfKey cursor tokens (inner :: around) allowed], true⟩ =
      some ⟨(cursor.advance 1).advance 1, last :: first :: tokens, inner :: around,
        placeOfKey cursor tokens (inner :: around) allowed, [], false⟩ := by
    rw [hLast _ (hMark 1)]
    rfl
  have hNear : refreshed? (cursor.advance 1) (placeOfKey cursor tokens (inner :: around) allowed) =
      some (placeOfKey cursor tokens (inner :: around) allowed) := by
    refine placeOfKey_near rfl ?_
    have hOne : cursor.width 1 = 1 := by
      rw [Cursor.width, hRest, List.take_succ_cons, List.take_zero, List.foldl_cons, hWidth]
      rfl
    rw [Cursor.advance, hOne]
    exact Nat.add_le_add_left (by decide) _
  have hReady : toNextToken? ⟨cursor.advance 1, first :: tokens, inner :: around, none,
      [placeOfKey cursor tokens (inner :: around) allowed], true⟩ =
      some ⟨cursor.advance 1, first :: tokens, inner :: around, none,
        [placeOfKey cursor tokens (inner :: around) allowed], true⟩ := by
    refine toNextToken?_near (hRestOne ▸ begins_cons hClosing) rfl ?_ rfl
    simp only [List.mapM_cons, List.mapM_nil, hNear]
    rfl
  refine (reaches_token hRest hOpening hIn.within hBegin ?_).arrives
    ((Reaches.of_next hReady hRestOne hEnd ?_).arrives ?_)
  · rw [hRest, hRestOne]
    exact Nat.lt_succ_self _
  · rw [hRestOne, hRestTwo]
    exact Nat.lt_succ_self _
  · refine arrives_of_break rfl (fun start hStart => ?_) hRestTwo
    obtain ⟨hRequired, hSame⟩ := placeOfKey_inside hIn hStart
    exact ⟨hRequired, hSame.le⟩

/-- A scalar, up to the end of its last line. -/
theorem arrives_scalar {style : Style} (hHeld : Held text style)
    (hRest : cursor.rest = lineOf style inner text ++ rest) (hShallow : Shallow rest inner) :
    Arrives (between cursor tokens (inner :: around) allowed) rest (.scalar text style :: tokens)
      (inner :: around) := by
  rw [lineOf, List.append_assoc] at hRest
  cases hHeld with
  | plain hText hPlain => exact arrives_plain hInside hText hPlain hRest hShallow
  | singleQuoted hSingle => exact arrives_singleQuoted hInside hSingle (Nat.succ_pos _) hRest
  | doubleQuoted => exact arrives_doubleQuoted hInside hRest
  | literal hText hShown =>
    refine arrives_literal hInside hText hShown (hRest.trans ?_) hShallow
    simp only [written, true_and]

end Leaves

end ProvideIndex.Yaml.Scanner
