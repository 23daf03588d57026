import ProvideIndex.Proofs.Yaml.ScalarTokens

/-!
# Marks and keys

A dash, a question mark and a colon begin an item, a key and a value. The first mark in a column
begins a block there. A key that stands on one line with its value has no mark of its own: its place
is kept until the colon comes, which is near enough.

* `Opens`: what a mark in a column does to the blocks.
* `comes_dash`, `comes_question`, `comes_colon`: the marks of items, keys and values.
* `comes_key`: a key on the line of its value.
-/

namespace ProvideIndex.Yaml

open Text ScalarText

namespace Scanner

variable {s : Scanner} {cursor : Cursor} {tokens opened : List Token} {columns inside : List Nat}
  {token : Token} {allowed : Bool} {style : Style} {c : Char} {text rest more following : List Char}
  {index line column : Nat}

/-! ### Beginnings of blocks -/

/-- A block is open in a column, or a token begins one there. -/
inductive Opens (token : Token) (column : Nat) :
    List Token → List Nat → List Token → List Nat → Prop
  | already (tokens : List Token) (around : List Nat) :
      Opens token column tokens (column :: around) tokens (column :: around)
  | anew {columns : List Nat} (tokens : List Token) (h : Inside columns column) :
      Opens token column tokens columns (token :: tokens) (column :: columns)

theorem Opens.within (h : Opens token column tokens columns opened inside) :
    Within columns column := by
  cases h with
  | already => exact within_cons _ _
  | anew _ hInside => exact hInside.within

theorem opensBlock_already {around : List Nat} (hColumns : s.columns = column :: around) :
    s.opensBlock column = false := by
  rw [opensBlock, indentation, hColumns]
  simp

theorem opensBlock_anew (hOuter : s.outerKeyStarts = []) (hInside : Inside s.columns column) :
    s.opensBlock column = true := by
  have hLess : s.indentation < column := by
    rw [indentation]
    split
    case h_1 hColumns =>
      have hInner := hInside _ (by rw [hColumns]; rfl)
      omega
    case h_2 => omega
  rw [opensBlock, inFlow, hOuter, decide_eq_true hLess]
  rfl

theorem enterBlock?_between (h : Opens token cursor.column tokens columns opened inside) :
    (between cursor tokens columns true).enterBlock? token =
      some (between cursor opened inside true) := by
  have hEnter : (between cursor tokens columns true).enterBlock? token =
      some ((between cursor tokens columns true).openBlock token cursor.column) := rfl
  rw [hEnter, openBlock]
  cases h with
  | already => rw [opensBlock_already rfl]; rfl
  | anew _ hInside => rw [opensBlock_anew rfl hInside]; rfl

/-! ### Marks -/

theorem atDocumentMark_of_gap (hRest : cursor.rest = c :: rest) (hWhite : isWhite c = false)
    (hGap : isGapOrEnd rest.head? = true) : cursor.atDocumentMark = false := by
  rw [← Bool.not_eq_true]
  intro hMark
  obtain ⟨d, more, hSame, -⟩ := Cursor.exists_of_atDocumentMark hMark
  rw [hRest] at hSame
  obtain ⟨rfl, rfl⟩ := List.cons_eq_cons.mp hSame
  cases hWhite.symm.trans hGap

section Marks

variable (hOpens : Opens token column tokens columns opened inside)
  (hGap : isGapOrEnd rest.head? = true)

include hOpens hGap

/-- After a mark in a block, a mark or a key may come next. -/
theorem comes_mark {mark : Token} (hSkipped : isSkipped c = false)
    (hNext : ∀ cursor : Cursor, cursor.column = column → cursor.atDocumentMark = false →
      isGapOrEnd (cursor.peek 1) = true → (between cursor tokens columns true).next? c =
        some (between (cursor.advance 1) (mark :: opened) inside true)) :
    Comes (between ⟨c :: rest, index, line, column⟩ tokens columns true) rest (column + 1)
      (mark :: opened) inside true := by
  have hHead : isGapOrEnd ((⟨c :: rest, index, line, column⟩ : Cursor).peek 1) = true := by
    rw [Cursor.peek, ← hGap, List.head?_eq_getElem?]
    rfl
  have hMark : (⟨c :: rest, index, line, column⟩ : Cursor).atDocumentMark = false :=
    atDocumentMark_of_gap rfl (isWhite_of_skipped hSkipped) hGap
  exact ⟨(Cursor.advance ⟨c :: rest, index, line, column⟩ 1).index, line,
    reaches_token rfl hSkipped hOpens.within (hNext _ rfl hMark hHead) (Nat.lt_succ_self _)⟩

end Marks

theorem comes_dash (hOpens : Opens .blockSequenceStart column tokens columns opened inside)
    (hGap : isGapOrEnd rest.head? = true) :
    Comes (between ⟨'-' :: rest, index, line, column⟩ tokens columns true) rest (column + 1)
      (.blockEntry :: opened) inside true := by
  refine comes_mark hOpens hGap rfl fun cursor hColumn hMark hPeek => ?_
  subst hColumn
  have hDash : (between cursor tokens columns true).next? '-' =
      ((between cursor tokens columns true).enterBlock? .blockSequenceStart).bind fun s =>
        s.dropKeyStart?.bind fun s => some (s.allowKey true |>.pushMark .blockEntry 1) := by
    have hCursor : (between cursor tokens columns true).cursor = cursor := rfl
    rw [next?]
    simp only [hCursor, hMark, hPeek]
    rfl
  rw [hDash, enterBlock?_between hOpens]
  rfl

theorem comes_question (hOpens : Opens .blockMappingStart column tokens columns opened inside)
    (hGap : isGapOrEnd rest.head? = true) :
    Comes (between ⟨'?' :: rest, index, line, column⟩ tokens columns true) rest (column + 1)
      (.key :: opened) inside true := by
  refine comes_mark hOpens hGap rfl fun cursor hColumn hMark hPeek => ?_
  subst hColumn
  have hQuestion : (between cursor tokens columns true).next? '?' =
      ((between cursor tokens columns true).enterBlock? .blockMappingStart).bind fun s =>
        s.dropKeyStart?.bind fun s => some (s.allowKey (!s.inFlow) |>.pushMark .key 1) := by
    have hCursor : (between cursor tokens columns true).cursor = cursor := rfl
    rw [next?]
    simp only [hCursor, hMark, hPeek, Bool.or_true]
    rfl
  rw [hQuestion, enterBlock?_between hOpens]
  rfl

theorem comes_colon (hOpens : Opens .blockMappingStart column tokens columns opened inside)
    (hGap : isGapOrEnd rest.head? = true) :
    Comes (between ⟨':' :: rest, index, line, column⟩ tokens columns true) rest (column + 1)
      (.value :: opened) inside true := by
  refine comes_mark hOpens hGap rfl fun cursor hColumn hMark hPeek => ?_
  subst hColumn
  have hColon : (between cursor tokens columns true).next? ':' =
      ((between cursor tokens columns true).enterBlock? .blockMappingStart).bind fun s =>
        some (s.allowKey (!s.inFlow) |>.pushMark .value 1) := by
    have hCursor : (between cursor tokens columns true).cursor = cursor := rfl
    rw [next?]
    simp only [hCursor, hMark, hPeek, Bool.or_true]
    rfl
  rw [hColon, enterBlock?_between hOpens]
  rfl

/-! ### Keys on the line of their value -/

/-- A text begins with a character that no gap holds, in every style. -/
theorem exists_head_written (hHeld : Held text style) (column : Nat) :
    ∃ c more, written style column text = c :: more ∧ isSkipped c = false := by
  cases hHeld with
  | plain hText hPlain =>
    obtain ⟨c, more, rfl, -, hSkipped, -⟩ := exists_head_plain hText hPlain
    exact ⟨c, more, rfl, hSkipped⟩
  | singleQuoted => exact ⟨_, _, rfl, rfl⟩
  | doubleQuoted => exact ⟨_, _, rfl, rfl⟩
  | literal => exact ⟨_, _, rfl, rfl⟩

theorem atDocumentMark_of_quote (hRest : cursor.rest = c :: rest) (hDash : c ≠ '-')
    (hDot : c ≠ '.') : cursor.atDocumentMark = false := by
  rw [← Bool.not_eq_true]
  intro hMark
  obtain ⟨d, more, hSame, hChar⟩ := Cursor.exists_of_atDocumentMark hMark
  rw [hRest] at hSame
  obtain ⟨rfl, -⟩ := List.cons_eq_cons.mp hSame
  exact hChar.elim hDash hDot

/-- A text on one line is read as a scalar in front of a colon. -/
theorem next?_key (hHeld : Held text style) (hStyle : style ≠ .literal)
    (hLine : isMultiline text = false) (hWithin : Within columns cursor.column)
    (hGap : isGapOrEnd following.head? = true)
    (hRest : cursor.rest = written style column text ++ ':' :: following)
    (hHead : written style column text = c :: more) :
    (between cursor tokens columns allowed).next? c =
      some ⟨cursor.advance (written style column text).length, .scalar text style :: tokens,
        columns, placeOfKey cursor tokens columns allowed, [], false⟩ := by
  cases hHeld with
  | plain hText hPlain =>
    have hBegin : beginsWithMark text = false := by
      simp only [plainAllowed, Bool.and_eq_true, Bool.not_eq_true'] at hPlain
      exact hPlain.1.1.1.2
    have hMark : (between cursor tokens columns allowed).cursor.atDocumentMark = false :=
      PlainScalar.atDocumentMark_of_plain hBegin hRest fun c hHead => by cases hHead; decide
    obtain ⟨d, rest, hText', -, hNext⟩ := next?_plainText hText hPlain hMark rfl hRest
    obtain ⟨rfl, -⟩ := List.cons_eq_cons.mp (hText'.symm.trans hHead)
    rw [hNext]
    exact plainScalar?_between
      (PlainScalar.read?_key hText hPlain hWithin.leastInside_le hRest hGap)
  | singleQuoted hSingle =>
    obtain ⟨rfl, -⟩ := List.cons_eq_cons.mp hHead
    have hMark : (between cursor tokens columns allowed).cursor.atDocumentMark = false :=
      atDocumentMark_of_quote hRest (by decide) (by decide)
    obtain ⟨next, hRead, -, -, hPlace⟩ := QuotedScalar.read?_singleQuoted hSingle
      (fun hQuote => by cases hQuote) (Nat.succ_pos _) hRest
    rw [next?_singleQuote hMark, quotedScalar?_between hRead, hPlace hLine]
    rfl
  | doubleQuoted =>
    obtain ⟨rfl, -⟩ := List.cons_eq_cons.mp hHead
    have hMark : (between cursor tokens columns allowed).cursor.atDocumentMark = false :=
      atDocumentMark_of_quote hRest (by decide) (by decide)
    rw [next?_doubleQuote hMark, quotedScalar?_between (QuotedScalar.read?_doubleQuoted hRest)]
    rfl
  | literal => exact absurd rfl hStyle

theorem closeBlocks_within (h : Within s.columns column) : s.closeBlocks column = s := by
  have hNone : (s.columns.takeWhile fun (inner : Nat) => decide ((column : Int) < inner)) = [] := by
    cases hColumns : s.columns with
    | nil => rfl
    | cons inner columns =>
      have hInner : inner ≤ column := h inner (by rw [hColumns]; rfl)
      rw [List.takeWhile_cons_of_neg]
      rw [decide_eq_true_eq]
      omega
  rw [closeBlocks, hNone]
  split
  · rfl
  · rfl

theorem width_eq {run : List Char} (h : cursor.rest = run ++ rest) :
    cursor.width run.length = String.utf8Len run := by
  have hSum : ∀ run : List Char,
      run.foldl (fun bytes c => bytes + c.utf8Size) 0 = String.utf8Len run := by
    intro run
    induction run with
    | nil => rfl
    | cons c run ih => rw [List.foldl_cons, Cursor.foldl_width, ih, String.utf8Len_cons]; omega
  rw [Cursor.width, h, List.take_left, hSum]

/-- The colon after a key on its line puts the marks in front of the key. -/
theorem next?_colon {place next : Cursor}
    (hOpens : Opens .blockMappingStart place.column tokens columns opened inside)
    (hMark : next.atDocumentMark = false) (hGap : isGapOrEnd (next.peek 1) = true) :
    next? ':' ⟨next, token :: tokens, columns, placeOfKey place tokens columns true, [], false⟩ =
      some (between (next.advance 1) (.value :: token :: .key :: opened) inside false) := by
  have hColon :
      next? ':' ⟨next, token :: tokens, columns, placeOfKey place tokens columns true, [], false⟩ =
      value? ⟨next, token :: tokens, columns, placeOfKey place tokens columns true, [], false⟩ := by
    rw [next?]
    simp only [hMark, hGap, Bool.or_true]
    rfl
  have hAfter : (token :: tokens).length - tokens.length = 1 := by
    rw [List.length_cons, Nat.add_sub_cancel_left]
  rw [hColon, value?, placeOfKey]
  simp only [if_true, insertKey, hAfter]
  cases hOpens with
  | already => rw [opensBlock_already rfl]; rfl
  | anew _ hInside => rw [opensBlock_anew rfl hInside]; rfl

/-- Behind a short text on one line the place where it began is still kept. -/
theorem refreshed?_key {key : String} (hLine : isMultiline key.toList = false)
    (hSize : key.utf8ByteSize ≤ 128) (hRest : cursor.rest = write column key.toList ++ following) :
    refreshed? (cursor.advance (write column key.toList).length)
      (placeOfKey cursor tokens columns true) = some (placeOfKey cursor tokens columns true) := by
  have hBytes : String.utf8Len (write column key.toList) ≤ 4 * String.utf8Len key.toList + 2 :=
    utf8Len_written_le (held_style key.toList) (style_ne_literal hLine) hLine
  have hBound : String.utf8Len key.toList ≤ 128 := by
    rwa [← String.utf8ByteSize_ofList, String.ofList_toList]
  refine placeOfKey_near rfl (Nat.add_le_add_left ?_ _)
  rw [width_eq hRest]
  omega

/-- A short text on one line is read as a key when its colon comes. -/
theorem reaches_key {key : String} (hKey : isSimpleKey key = true)
    (hOpens : Opens .blockMappingStart cursor.column tokens columns opened inside)
    (hGap : isGapOrEnd following.head? = true)
    (hRest : cursor.rest = write column key.toList ++ ':' :: following) :
    ∃ next, Reaches (between cursor tokens columns true)
        (between next (.value :: .scalar key.toList (ScalarText.style key.toList) :: .key :: opened)
          inside false) ∧
      next.rest = following ∧ cursor.column < next.column := by
  rw [isSimpleKey, Bool.and_eq_true, Bool.not_eq_true', decide_eq_true_eq] at hKey
  obtain ⟨hLine, hSize⟩ := hKey
  have hHeld := held_style key.toList
  have hStyle := style_ne_literal hLine
  obtain ⟨c, more, hHead, hSkipped⟩ := exists_head_written hHeld column
  have hWritten : write column key.toList = c :: more := hHead
  have hFirst : cursor.rest = c :: (more ++ ':' :: following) := by
    rw [hRest, hWritten, List.cons_append]
  have hAfter : (cursor.advance (write column key.toList).length).rest = ':' :: following :=
    Cursor.rest_advance hRest
  have hPos : 0 < (write column key.toList).length := by
    rw [hWritten]
    exact Nat.succ_pos _
  have hPast : cursor.column < cursor.column + (write column key.toList).length :=
    Nat.lt_add_of_pos_right hPos
  have hScalar : (between cursor tokens columns true).next? c =
      some ⟨cursor.advance (write column key.toList).length,
        .scalar key.toList (ScalarText.style key.toList) :: tokens, columns,
        placeOfKey cursor tokens columns true, [], false⟩ :=
    next?_key hHeld hStyle hLine hOpens.within hGap hRest hHead
  have hNear : refreshed? (cursor.advance (write column key.toList).length)
      (placeOfKey cursor tokens columns true) = some (placeOfKey cursor tokens columns true) :=
    refreshed?_key hLine hSize hRest
  have hReady : toNextToken? ⟨cursor.advance (write column key.toList).length,
      .scalar key.toList (ScalarText.style key.toList) :: tokens, columns,
      placeOfKey cursor tokens columns true, [], false⟩ =
      some ⟨cursor.advance (write column key.toList).length,
        .scalar key.toList (ScalarText.style key.toList) :: tokens, columns,
        placeOfKey cursor tokens columns true, [], false⟩ := by
    refine toNextToken?_near (hAfter ▸ begins_cons rfl) hNear rfl (closeBlocks_within ?_)
    exact hOpens.within.mono hPast.le
  have hMark : (cursor.advance (write column key.toList).length).atDocumentMark = false :=
    Cursor.atDocumentMark_of_column (Nat.zero_lt_of_lt hPast)
  have hColon : isGapOrEnd ((cursor.advance (write column key.toList).length).peek 1) = true := by
    rw [Cursor.peek, hAfter, ← hGap, List.head?_eq_getElem?]
    rfl
  refine ⟨(cursor.advance (write column key.toList).length).advance 1,
    (reaches_token hFirst hSkipped hOpens.within hScalar ?_).trans
      (Reaches.of_next hReady hAfter (next?_colon hOpens hMark hColon) ?_),
    Cursor.rest_advance_one hAfter, Nat.lt_succ_of_lt hPast⟩
  · rw [hAfter, hRest, List.length_append]
    omega
  · rw [hAfter]
    exact (congrArg List.length (Cursor.rest_advance_one hAfter)).trans_lt (Nat.lt_succ_self _)

theorem comes_key {key : String} (index line : Nat) (hKey : isSimpleKey key = true)
    (hOpens : Opens .blockMappingStart column tokens columns opened inside)
    (hGap : isGapOrEnd following.head? = true) :
    ∃ after, column < after ∧
      Comes (between ⟨write column key.toList ++ ':' :: following, index, line, column⟩ tokens
          columns true) following after
        (.value :: .scalar key.toList (ScalarText.style key.toList) :: .key :: opened) inside
        false := by
  have hRest : (⟨write column key.toList ++ ':' :: following, index, line, column⟩ : Cursor).rest =
      write column key.toList ++ ':' :: following := rfl
  obtain ⟨⟨rest, place, row, after⟩, hReaches, rfl, hPast⟩ := reaches_key hKey hOpens hGap hRest
  exact ⟨after, hPast, place, row, hReaches⟩

end Scanner

end ProvideIndex.Yaml
