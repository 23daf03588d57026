import ProvideIndex.Proofs.Text.Exchange
import Mathlib.Data.List.Basic

/-!
# Words over the borders of parts

A text is cut into parts at a separator. A word that holds the separator once, `head` before it and
`old` behind it, stands in the text exactly where a part ends in `head` and the next one begins with
`old`. So what happens to the word in the whole text happens to one part after another.

* `split_join`, `split_append_cons`: parts and the text they make.
* `replace_join`: an exchange of the word, part by part.
* `not_infix_join_iff`: where the word does not occur.
-/

namespace ProvideIndex.Text

variable {separator : Char} {head old fresh text rest part : List Char} {parts : List (List Char)}

/-! ### Parts -/

theorem split_append_cons (text rest : List Char) :
    split separator (text ++ separator :: rest) = split separator text ++ split separator rest := by
  induction text with
  | nil => simp [split]
  | cons c text ih =>
    rw [List.cons_append, split, split]
    by_cases hc : c = separator
    · rw [if_pos hc, if_pos hc, ih, List.cons_append]
    · rw [if_neg hc, if_neg hc, ih]
      cases hSplit : split separator text with
      | nil => exact absurd hSplit (split_ne_nil separator text)
      | cons piece pieces => rfl

theorem split_of_not_mem (h : separator ∉ text) : split separator text = [text] := by
  induction text with
  | nil => rfl
  | cons c text ih =>
    rw [List.mem_cons, not_or] at h
    rw [split, if_neg (Ne.symm h.1), ih h.2]

/-- What stands before the first separator and behind it is determined. -/
theorem append_cons_inj {other later : List Char} (hText : separator ∉ text)
    (hOther : separator ∉ other) (h : text ++ separator :: rest = other ++ separator :: later) :
    text = other ∧ rest = later := by
  have hParts := congrArg (split separator) h
  rw [split_append_cons, split_append_cons, split_of_not_mem hText,
    split_of_not_mem hOther] at hParts
  obtain ⟨rfl, -⟩ := List.cons_eq_cons.mp hParts
  exact ⟨rfl, (List.cons_eq_cons.mp (List.append_cancel_left h)).2⟩

theorem join_cons (part : List Char) (h : parts ≠ []) :
    join separator (part :: parts) = part ++ separator :: join separator parts := by
  cases parts with
  | nil => exact absurd rfl h
  | cons next parts => rfl

theorem join_concat (part : List Char) (h : parts ≠ []) :
    join separator (parts ++ [part]) = join separator parts ++ separator :: part := by
  induction parts with
  | nil => exact absurd rfl h
  | cons first parts ih =>
    rw [List.cons_append, join_cons _ (List.append_ne_nil_of_right_ne_nil _ (List.cons_ne_nil _ _))]
    cases parts with
    | nil => rfl
    | cons next parts =>
      rw [ih (List.cons_ne_nil _ _), join_cons _ (List.cons_ne_nil _ _), List.append_assoc,
        List.cons_append]

theorem join_append_cons (text part : List Char) (parts : List (List Char)) :
    join separator ((text ++ part) :: parts) = text ++ join separator (part :: parts) := by
  cases parts with
  | nil => rfl
  | cons next parts => exact List.append_assoc ..

theorem split_join (hNonempty : parts ≠ []) (h : ∀ part ∈ parts, separator ∉ part) :
    split separator (join separator parts) = parts := by
  induction parts with
  | nil => exact absurd rfl hNonempty
  | cons part parts ih =>
    obtain ⟨hPart, hParts⟩ := List.forall_mem_cons.mp h
    cases parts with
    | nil => exact split_of_not_mem hPart
    | cons next parts =>
      rw [join_cons _ (List.cons_ne_nil _ _), split_append_cons, split_of_not_mem hPart,
        ih (List.cons_ne_nil _ _) hParts]
      rfl

theorem join_inj {others : List (List Char)} (hParts : parts ≠ []) (hOthers : others ≠ [])
    (hPart : ∀ part ∈ parts, separator ∉ part) (hOther : ∀ part ∈ others, separator ∉ part) :
    join separator parts = join separator others ↔ parts = others := by
  refine ⟨fun h => ?_, congrArg _⟩
  rw [← split_join hParts hPart, h, split_join hOthers hOther]

theorem splitLast?_append_cons (text : List Char) (h : separator ∉ rest) :
    splitLast? separator (text ++ separator :: rest) = some (text, rest) := by
  induction text with
  | nil => simp [splitLast?, splitLast?_eq_none.mpr h]
  | cons c text ih => rw [List.cons_append, splitLast?, ih]

/-- What stands behind the last separator is determined. -/
theorem eq_of_append_cons_eq {other later : List Char}
    (h : text ++ separator :: rest = other ++ separator :: later) (hRest : separator ∉ rest)
    (hLater : separator ∉ later) : rest = later := by
  have hCut := congrArg (splitLast? separator) h
  rw [splitLast?_append_cons text hRest, splitLast?_append_cons other hLater] at hCut
  exact congrArg Prod.snd (Option.some.inj hCut)

/-! ### A word over two parts -/

/-- Whether two neighbouring parts hold a word over their border. -/
def IsOver (head old first second : List Char) : Prop := head <:+ first ∧ old <+: second

instance (head old first second : List Char) : Decidable (IsOver head old first second) :=
  inferInstanceAs (Decidable (_ ∧ _))

theorem prefix_append_cons_iff (h : separator ∉ old) :
    old <+: text ++ separator :: rest ↔ old <+: text := by
  rw [← startsWith_iff_isPrefix, ← startsWith_iff_isPrefix, startsWith_append_cons h]

theorem prefix_join_iff (h : separator ∉ old) :
    old <+: join separator (part :: parts) ↔ old <+: part := by
  cases parts with
  | nil => rfl
  | cons next parts => exact prefix_append_cons_iff h

theorem isOver_join_iff {first : List Char} (h : separator ∉ old) :
    IsOver head old first (join separator (part :: parts)) ↔ IsOver head old first part :=
  and_congr_right fun _ => prefix_join_iff h

theorem infix_append_cons_iff (h : separator ∉ old) :
    old <:+: text ++ separator :: rest ↔ old <:+: text ∨ old <:+: rest := by
  induction text with
  | nil =>
    have hStart : old <+: [] ++ separator :: rest ↔ old <+: [] := prefix_append_cons_iff h
    rw [List.nil_append] at hStart ⊢
    rw [List.infix_cons_iff, List.infix_nil, hStart, List.prefix_nil]
  | cons c text ih =>
    rw [List.cons_append, List.infix_cons_iff, ← List.cons_append, prefix_append_cons_iff h, ih,
      List.infix_cons_iff, or_assoc]

theorem suffix_append_cons_iff (h : separator ∉ old) :
    old <:+ text ++ separator :: rest ↔ old <:+ rest := by
  have hReverse : separator ∉ old.reverse := by rwa [List.mem_reverse]
  rw [← List.reverse_prefix, ← List.reverse_prefix, List.reverse_append, List.reverse_cons,
    List.append_assoc, List.singleton_append, prefix_append_cons_iff hReverse]

/-- The first separator of the word meets the first one of the text. -/
theorem word_prefix_iff (hHead : separator ∉ head) (hText : separator ∉ text) :
    head ++ separator :: old <+: text ++ separator :: rest ↔ head = text ∧ old <+: rest := by
  constructor
  · rintro ⟨tail, hTail⟩
    rw [List.append_assoc, List.cons_append] at hTail
    obtain ⟨hSame, rfl⟩ := append_cons_inj hHead hText hTail
    exact ⟨hSame, tail, rfl⟩
  · rintro ⟨rfl, tail, rfl⟩
    exact ⟨tail, by simp⟩

theorem not_word_prefix_separator (hNonempty : head ≠ []) (hHead : separator ∉ head) :
    ¬ head ++ separator :: old <+: separator :: rest := by
  intro h
  have hSame : head = [] ∧ old <+: rest := (word_prefix_iff hHead List.not_mem_nil).mp h
  exact hNonempty hSame.1

theorem word_infix_iff (hNonempty : head ≠ []) (hHead : separator ∉ head)
    (hText : separator ∉ text) :
    head ++ separator :: old <:+: text ++ separator :: rest ↔
      IsOver head old text rest ∨ head ++ separator :: old <:+: rest := by
  induction text with
  | nil =>
    rw [List.nil_append, List.infix_cons_iff, IsOver, List.suffix_nil,
      or_iff_right (not_word_prefix_separator hNonempty hHead),
      or_iff_right fun h => hNonempty h.1]
  | cons c text ih =>
    have hRest := (not_or.mp (List.mem_cons.not.mp hText)).2
    rw [List.cons_append, List.infix_cons_iff, ← List.cons_append, word_prefix_iff hHead hText,
      ih hRest, IsOver, IsOver, List.suffix_cons_iff, or_and_right, or_assoc]

/-- A word in a text stands over the first separator of the text, or behind it. -/
theorem word_position {before after : List Char} (hHead : separator ∉ head)
    (hText : separator ∉ text)
    (h : text ++ separator :: rest = before ++ (head ++ separator :: old) ++ after) :
    (text = before ++ head ∧ rest = old ++ after) ∨
      ∃ more, before = text ++ separator :: more ∧
        rest = more ++ (head ++ separator :: old) ++ after := by
  by_cases hBefore : separator ∈ before
  · obtain ⟨first, more, rfl, hFirst⟩ := List.eq_append_cons_of_mem hBefore
    rw [List.append_assoc, List.append_assoc, List.cons_append] at h
    obtain ⟨rfl, rfl⟩ := append_cons_inj hText hFirst h
    exact Or.inr ⟨more, rfl, (List.append_assoc ..).symm⟩
  · have hStart : separator ∉ before ++ head := by
      rw [List.mem_append, not_or]
      exact ⟨hBefore, hHead⟩
    rw [← List.append_assoc, List.append_assoc (before ++ head), List.cons_append] at h
    exact Or.inl (append_cons_inj hText hStart h)

theorem replace_append_over {before : List Char} (hHead : separator ∉ head)
    (hBefore : separator ∉ before) (rest : List Char) :
    replace (head ++ separator :: old) (head ++ separator :: fresh)
        (before ++ head ++ separator :: (old ++ rest)) =
      before ++ head ++ separator ::
        (fresh ++ replace (head ++ separator :: old) (head ++ separator :: fresh) rest) := by
  induction before with
  | nil =>
    have hWord : head ++ separator :: old ≠ [] := by simp
    have hText : [] ++ head ++ separator :: (old ++ rest) = head ++ separator :: old ++ rest := by
      simp
    rw [hText, replace_append_word hWord]
    simp
  | cons c before ih =>
    have hRest := (not_or.mp (List.mem_cons.not.mp hBefore)).2
    have hNot : ¬ head ++ separator :: old <+:
        c :: (before ++ head ++ separator :: (old ++ rest)) := by
      have hPart : separator ∉ c :: (before ++ head) := by
        rw [← List.cons_append, List.mem_append, not_or]
        exact ⟨hBefore, hHead⟩
      rw [← List.cons_append, word_prefix_iff hHead hPart]
      rintro ⟨hSame, -⟩
      have hLength := congrArg List.length hSame
      simp only [List.length_cons, List.length_append] at hLength
      omega
    rw [List.cons_append, List.cons_append, replace_cons hNot, ih hRest]
    rfl

theorem replace_append_apart (hNonempty : head ≠ []) (hHead : separator ∉ head)
    (hText : separator ∉ text) (h : ¬ IsOver head old text rest) :
    replace (head ++ separator :: old) fresh (text ++ separator :: rest) =
      text ++ separator :: replace (head ++ separator :: old) fresh rest := by
  induction text with
  | nil => exact replace_cons (not_word_prefix_separator hNonempty hHead)
  | cons c text ih =>
    have hRest := (not_or.mp (List.mem_cons.not.mp hText)).2
    have hNot : ¬ head ++ separator :: old <+: c :: text ++ separator :: rest := by
      rw [word_prefix_iff hHead hText]
      rintro ⟨rfl, hOld⟩
      exact h ⟨List.suffix_rfl, hOld⟩
    have hApart : ¬ IsOver head old text rest := by
      rintro ⟨hEnd, hOld⟩
      exact h ⟨hEnd.trans (List.suffix_cons c text), hOld⟩
    rw [List.cons_append] at hNot ⊢
    rw [replace_cons hNot, ih hRest hApart, List.cons_append]

/-! ### All parts -/

/-- A part that begins with `old` behind one that ends in `head`, with `fresh` instead of `old`. -/
def exchangePart (head old fresh previous part : List Char) : List Char :=
  if IsOver head old previous part then fresh ++ part.drop old.length else part

theorem exchangePart_append {previous : List Char} (h : head <:+ previous) (rest : List Char) :
    exchangePart head old fresh previous (old ++ rest) = fresh ++ rest := by
  rw [exchangePart, if_pos ⟨h, List.prefix_append ..⟩, List.drop_left]

theorem exchangePart_of_apart {previous : List Char} (h : ¬ IsOver head old previous part) :
    exchangePart head old fresh previous part = part := if_neg h

/-- Whether `head` stands at the end of a part does not depend on an `old` at its beginning. -/
theorem suffix_append_iff (hApart : ∀ c ∈ head.head?, c ∉ old) :
    head <:+ old ++ rest ↔ head <:+ rest := by
  constructor
  · intro h
    rcases List.suffix_or_suffix_of_suffix h (List.suffix_append old rest) with hRest | ⟨front, rfl⟩
    · exact hRest
    · obtain ⟨before, hBefore⟩ := h
      have hOld : before ++ front = old :=
        List.append_cancel_right ((List.append_assoc ..).trans hBefore)
      cases front with
      | nil => exact List.suffix_rfl
      | cons c front => exact absurd (hOld ▸ by simp) (hApart c rfl)
  · exact fun h => h.trans (List.suffix_append old rest)

theorem exchangePart_behind (hApart : ∀ c ∈ head.head?, c ∉ old) :
    exchangePart head old fresh (old ++ rest) part = exchangePart head old fresh rest part :=
  if_congr (and_congr_left fun _ => suffix_append_iff hApart) rfl rfl

theorem replace_join_cons {first : List Char} (hNonempty : head ≠ []) (hHead : separator ∉ head)
    (hOld : separator ∉ old) (hApart : ∀ c ∈ head.head?, c ∉ old) (hFirst : separator ∉ first)
    (hParts : ∀ part ∈ parts, separator ∉ part) :
    replace (head ++ separator :: old) (head ++ separator :: fresh)
        (join separator (first :: parts)) =
      join separator
        (first :: List.zipWith (exchangePart head old fresh) (first :: parts) parts) := by
  induction parts generalizing first with
  | nil =>
    refine replace_of_absent fun h => hFirst (h.subset ?_)
    simp
  | cons second parts ih =>
    obtain ⟨hSecond, hOthers⟩ := List.forall_mem_cons.mp hParts
    rw [List.zipWith_cons_cons, join_cons _ (List.cons_ne_nil _ _),
      join_cons _ (List.cons_ne_nil _ _)]
    by_cases hOver : IsOver head old first second
    · -- The rest of the second part follows as a part of its own, behind the same border.
      obtain ⟨⟨before, rfl⟩, rest, rfl⟩ := hOver
      have hBefore := (not_or.mp (List.mem_append.not.mp hFirst)).1
      have hRest := (not_or.mp (List.mem_append.not.mp hSecond)).2
      have hTail : List.zipWith (exchangePart head old fresh) ((old ++ rest) :: parts) parts =
          List.zipWith (exchangePart head old fresh) (rest :: parts) parts := by
        cases parts with
        | nil => rfl
        | cons third parts =>
          rw [List.zipWith_cons_cons, List.zipWith_cons_cons, exchangePart_behind hApart]
      rw [join_append_cons, replace_append_over hHead hBefore, ih hRest hOthers, hTail,
        exchangePart_append (List.suffix_append ..), join_append_cons]
    · have hBorder : ¬ IsOver head old first (join separator (second :: parts)) := by
        rwa [isOver_join_iff hOld]
      rw [replace_append_apart hNonempty hHead hFirst hBorder, ih hSecond hOthers,
        exchangePart_of_apart hOver]

/-- Nothing stands before the first part, so the exchange leaves it as it is. -/
theorem replace_join (hNonempty : head ≠ []) (hHead : separator ∉ head) (hOld : separator ∉ old)
    (hApart : ∀ c ∈ head.head?, c ∉ old) (hParts : ∀ part ∈ parts, separator ∉ part) :
    replace (head ++ separator :: old) (head ++ separator :: fresh) (join separator parts) =
      join separator (List.zipWith (exchangePart head old fresh) ([] :: parts) parts) := by
  cases parts with
  | nil => rfl
  | cons first parts =>
    obtain ⟨hFirst, hOthers⟩ := List.forall_mem_cons.mp hParts
    have hApartFirst : ¬ IsOver head old [] first := fun h => hNonempty (List.suffix_nil.mp h.1)
    rw [List.zipWith_cons_cons, exchangePart_of_apart hApartFirst]
    exact replace_join_cons hNonempty hHead hOld hApart hFirst hOthers

theorem not_infix_join_iff (hNonempty : head ≠ []) (hHead : separator ∉ head)
    (hOld : separator ∉ old) (hParts : ∀ part ∈ parts, separator ∉ part) :
    ¬ head ++ separator :: old <:+: join separator parts ↔
      parts.IsChain fun a b => ¬ IsOver head old a b := by
  induction parts with
  | nil => simp [join]
  | cons first parts ih =>
    obtain ⟨hFirst, hOthers⟩ := List.forall_mem_cons.mp hParts
    cases parts with
    | nil =>
      refine iff_of_true (fun h => hFirst (h.subset ?_)) (List.IsChain.singleton first)
      simp
    | cons second parts =>
      rw [join_cons _ (List.cons_ne_nil _ _), word_infix_iff hNonempty hHead hFirst,
        isOver_join_iff hOld, not_or, ih hOthers, List.isChain_cons_cons]

/-! ### What an exchange of parts keeps -/

theorem suffix_exchangePart_iff {previous : List Char} (hApart : ∀ c ∈ head.head?, c ∉ old)
    (hFresh : ∀ c ∈ head.head?, c ∉ fresh) :
    head <:+ exchangePart head old fresh previous part ↔ head <:+ part := by
  by_cases hOver : IsOver head old previous part
  · obtain ⟨hEnd, rest, rfl⟩ := hOver
    rw [exchangePart_append hEnd, suffix_append_iff hFresh, suffix_append_iff hApart]
  · rw [exchangePart_of_apart hOver]

/-- After the exchange the word stands over no border, if `fresh` does not begin like `old`. -/
theorem isChain_exchange {previous before : List Char} (hApart : ∀ c ∈ head.head?, c ∉ old)
    (hFresh : ∀ c ∈ head.head?, c ∉ fresh) (hNew : ∀ rest, ¬ old <+: fresh ++ rest)
    (hBefore : head <:+ before → head <:+ previous) :
    (before :: List.zipWith (exchangePart head old fresh) (previous :: parts) parts).IsChain
      fun a b => ¬ IsOver head old a b := by
  -- `before` is what the exchange made of `previous`; only whether they end in `head` matters.
  induction parts generalizing previous before with
  | nil => exact List.IsChain.singleton before
  | cons part parts ih =>
    rw [List.zipWith_cons_cons, List.isChain_cons_cons]
    refine ⟨?_, ih (suffix_exchangePart_iff hApart hFresh).mp⟩
    rintro ⟨hEnd, hStart⟩
    by_cases hOver : IsOver head old previous part
    · obtain ⟨hPrevious, rest, rfl⟩ := hOver
      rw [exchangePart_append hPrevious] at hStart
      exact hNew rest hStart
    · rw [exchangePart_of_apart hOver] at hStart
      exact hOver ⟨hBefore hEnd, hStart⟩

theorem exchangePart_injective {previous other : List Char}
    (hPart : ¬ IsOver head fresh previous part) (hOther : ¬ IsOver head fresh previous other)
    (h : exchangePart head old fresh previous part = exchangePart head old fresh previous other) :
    part = other := by
  by_cases hFirst : IsOver head old previous part
  · obtain ⟨hEnd, rest, rfl⟩ := hFirst
    rw [exchangePart_append hEnd] at h
    by_cases hSecond : old <+: other
    · obtain ⟨more, rfl⟩ := hSecond
      rw [exchangePart_append hEnd] at h
      rw [List.append_cancel_left h]
    · rw [exchangePart_of_apart fun hOver => hSecond hOver.2] at h
      exact absurd ⟨hEnd, rest, h⟩ hOther
  · rw [exchangePart_of_apart hFirst] at h
    by_cases hSecond : IsOver head old previous other
    · obtain ⟨hEnd, more, rfl⟩ := hSecond
      rw [exchangePart_append hEnd] at h
      exact absurd ⟨hEnd, more, h.symm⟩ hPart
    · rwa [exchangePart_of_apart hSecond] at h

/-- Where the fresh word stood over no border, the exchange can be undone. -/
theorem exchange_injective {previous : List Char} {others : List (List Char)}
    (hParts : (previous :: parts).IsChain fun a b => ¬ IsOver head fresh a b)
    (hOthers : (previous :: others).IsChain fun a b => ¬ IsOver head fresh a b)
    (h : List.zipWith (exchangePart head old fresh) (previous :: parts) parts =
      List.zipWith (exchangePart head old fresh) (previous :: others) others) :
    parts = others := by
  induction parts generalizing previous others with
  | nil =>
    cases others with
    | nil => rfl
    | cons other others => cases h
  | cons part parts ih =>
    cases others with
    | nil => cases h
    | cons other others =>
      rw [List.zipWith_cons_cons, List.zipWith_cons_cons, List.cons_eq_cons] at h
      rw [List.isChain_cons_cons] at hParts hOthers
      obtain rfl := exchangePart_injective hParts.1 hOthers.1 h.1
      rw [ih hParts.2 hOthers.2 h.2]

end ProvideIndex.Text
