import ProvideIndex.Proofs.Source.Declarations
import ProvideIndex.Text.Split

/-!
# Declarations line by line

A declaration begins on a line, and the binding in front of a call ends on it, but a symbol that no
quote closes goes on over the end of its line, up to the next quote of the text. It then covers the
lines between, and what they declare is not found. As long as no symbol does so, a text can be read
line by line.

* `IsLineLocal`, `isLineLocal_provideAt?`, `isLineLocal_requireAt?`: what is read on a line is read
  from the line alone, or its symbol reaches over the end.
* `sites_eq_flatMap`: the sites of a text are those of its lines as long as no symbol reaches over
  the end of a line.
* `lineByLine_iff`: what a text declares and asks for is what its lines do, just in that case.
* `unclosed_covers_line`: a quote that is not closed takes the declaration of the next line away.
-/

namespace ProvideIndex.Source

open Text

variable {siteAt? : List Char → Option Site} {word line rest : List Char}

/-- What is found at the beginning of a text is what is found on its first line alone, or its symbol
reaches over the end of the line. -/
def Stays (found alone : Option Site) : Prop :=
  found = alone ∨ ∃ site, found = some site ∧ '\n' ∈ site.symbol

/-- What is read at the beginning of a line is read from the line alone, unless the symbol reaches
over the end of the line. -/
def IsLineLocal (siteAt? : List Char → Option Site) : Prop :=
  ∀ line rest : List Char, '\n' ∉ line → Stays (siteAt? (line ++ '\n' :: rest)) (siteAt? line)

namespace Stays

variable {found alone other otherAlone : Option Site}

theorem orElse (h : Stays found alone) (hOther : Stays other otherAlone) :
    Stays (found <|> other) (alone <|> otherAlone) := by
  rcases h with rfl | ⟨site, rfl, hFeed⟩
  · cases found with
    | none => exact hOther
    | some site => exact Or.inl rfl
  · exact Or.inr ⟨site, rfl, hFeed⟩

/-- More characters are read in front. -/
theorem widen (h : Stays found alone) (width : Nat) :
    Stays (found.map fun site => { site with length := site.length + width })
      (alone.map fun site => { site with length := site.length + width }) := by
  rcases h with rfl | ⟨site, rfl, hFeed⟩
  · exact Or.inl rfl
  · exact Or.inr ⟨_, rfl, hFeed⟩

end Stays

/-! ### Reading a line -/

theorem not_mem_cons {c : Char} (hLine : '\n' ∉ c :: line) : (c == '\n') = false ∧ '\n' ∉ line := by
  rw [List.mem_cons, not_or] at hLine
  exact ⟨beq_false_of_ne (Ne.symm hLine.1), hLine.2⟩

theorem not_mem_of_after? (hLine : '\n' ∉ line) (h : after? word line = some rest) :
    '\n' ∉ rest := by
  rw [after?_eq_some.mp h, List.mem_append, not_or] at hLine
  exact hLine.2

theorem quotedSymbol?_append (hLine : '\n' ∉ line) (rest : List Char) :
    quotedSymbol? (line ++ '\n' :: rest) = quotedSymbol? line ∨
      ∃ symbol, quotedSymbol? (line ++ '\n' :: rest) = some symbol ∧ '\n' ∈ symbol := by
  cases line with
  | nil => exact Or.inl rfl
  | cons quote text =>
    rw [List.cons_append, quotedSymbol?, quotedSymbol?, List.takeWhile_append]
    by_cases hOpen : (text.takeWhile fun c => !isQuote c).length = text.length
    · rw [if_pos hOpen]
      by_cases hQuote : isQuote quote = true
      · -- No quote closes the symbol on its line.
        refine Or.inr ⟨text ++ ('\n' :: rest).takeWhile fun c => !isQuote c, ?_, ?_⟩
        · have hFeed : isQuote '\n' = false := rfl
          simp [hQuote, hFeed]
        · simp [isQuote]
      · left
        simp [hQuote]
    · rw [if_neg hOpen]
      exact Or.inl rfl

theorem isLineLocal_callAt? {name : List Char} (hName : '\n' ∉ name) :
    IsLineLocal (callAt? name) := by
  intro line rest hLine
  rw [callAt?, callAt?, after?_append_cons hName]
  cases hAfter : after? name line with
  | none => exact Or.inl rfl
  | some argument =>
    have hArgument : '\n' ∉ argument := not_mem_of_after? hLine hAfter
    rcases quotedSymbol?_append hArgument rest with hSame | ⟨symbol, hSome, hFeed⟩
    · left
      simp only [Option.bind_eq_bind, Option.map_some, Option.bind_some, hSame]
    · right
      refine ⟨⟨symbol, name.length + 1 + symbol.length⟩, ?_, hFeed⟩
      simp only [Option.bind_eq_bind, Option.map_some, Option.bind_some, hSome, Option.pure_def]

namespace IsLineLocal

theorem orElse {other : List Char → Option Site} (h : IsLineLocal siteAt?)
    (hOther : IsLineLocal other) : IsLineLocal fun text => siteAt? text <|> other text := by
  intro line rest hLine
  exact (h line rest hLine).orElse (hOther line rest hLine)

/-- A word in front of what is read. -/
theorem behind (h : IsLineLocal siteAt?) (hWord : '\n' ∉ word) (width : Nat) :
    IsLineLocal fun text => do
      let rest ← after? word text
      let site ← siteAt? rest
      return { site with length := site.length + width } := by
  intro line rest hLine
  simp only [after?_append_cons hWord]
  cases hAfter : after? word line with
  | none => exact Or.inl rfl
  | some tail =>
    have hTail := (h tail rest (not_mem_of_after? hLine hAfter)).widen width
    rw [Option.map_eq_bind, Option.map_eq_bind] at hTail
    exact hTail

end IsLineLocal

theorem isLineLocal_assignedAt? : IsLineLocal assignedAt? :=
  (isLineLocal_callAt? (by decide)).behind (by decide) assignment.length

theorem isLineLocal_lastAssigned? : IsLineLocal lastAssigned? := by
  intro line rest hLine
  induction line with
  | nil => exact Or.inl rfl
  | cons c line ih =>
    obtain ⟨hFeed, hRest⟩ := not_mem_cons hLine
    rw [List.cons_append, lastAssigned?_cons (ne_of_beq_false hFeed),
      lastAssigned?_cons (ne_of_beq_false hFeed)]
    exact ((ih hRest).widen 1).orElse (isLineLocal_assignedAt? (c :: line) rest hLine)

theorem isLineLocal_provideAt? : IsLineLocal provideAt? :=
  (isLineLocal_callAt? (by decide)).orElse (isLineLocal_callAt? (by decide))

theorem isLineLocal_bindingAt? {keyword : List Char} (hKeyword : '\n' ∉ keyword) :
    IsLineLocal (bindingAt? keyword) :=
  isLineLocal_lastAssigned?.behind hKeyword keyword.length

theorem isLineLocal_requireAt? : IsLineLocal requireAt? :=
  (isLineLocal_bindingAt? (by decide)).orElse
    ((isLineLocal_bindingAt? (by decide)).orElse (isLineLocal_callAt? (by decide)))

/-! ### Sites of lines -/

theorem mem_sites_of_first (hReader : IsReader siteAt?) {text : List Char} {site : Site}
    (h : siteAt? text = some site) : site ∈ sites siteAt? text := by
  cases text with
  | nil =>
    rw [hReader.nil] at h
    cases h
  | cons c text =>
    rw [sites, sitesFrom, if_pos rfl, h]
    exact List.mem_cons_self ..

theorem sitesFrom_line (hLine : '\n' ∉ line) (skip : Nat) :
    sitesFrom siteAt? skip false line = [] := by
  induction line generalizing skip with
  | nil => rfl
  | cons c line ih =>
    obtain ⟨hFeed, hRest⟩ := not_mem_cons hLine
    cases skip with
    | zero => rw [sitesFrom, hFeed, if_neg Bool.false_ne_true, ih hRest]
    | succ skip => rw [sitesFrom, hFeed, ih hRest]

/-- Behind its beginning nothing is read on a line, and the next line begins behind its end. -/
theorem sitesFrom_append (hLine : '\n' ∉ line) {skip : Nat} (hSkip : skip ≤ line.length) :
    sitesFrom siteAt? skip false (line ++ '\n' :: rest) = sites siteAt? rest := by
  induction line generalizing skip with
  | nil =>
    obtain rfl := Nat.le_zero.mp hSkip
    rfl
  | cons c line ih =>
    obtain ⟨hFeed, hRest⟩ := not_mem_cons hLine
    rw [List.cons_append]
    cases skip with
    | zero => rw [sitesFrom, hFeed, if_neg Bool.false_ne_true, ih hRest (Nat.zero_le _)]
    | succ skip => rw [sitesFrom, hFeed, ih hRest (Nat.le_of_succ_le_succ hSkip)]

/-- A line has at most one site. -/
theorem sites_line (hReader : IsReader siteAt?) (hLine : '\n' ∉ line) :
    sites siteAt? line = (siteAt? line).toList := by
  cases line with
  | nil =>
    rw [hReader.nil]
    rfl
  | cons c line =>
    obtain ⟨hFeed, hRest⟩ := not_mem_cons hLine
    rw [sites, sitesFrom, if_pos rfl, hFeed]
    cases siteAt? (c :: line) with
    | none => exact sitesFrom_line hRest 0
    | some site => exact congrArg (site :: ·) (sitesFrom_line hRest (site.length - 1))

theorem sites_append (hReader : IsReader siteAt?) (hLine : '\n' ∉ line)
    (hSame : siteAt? (line ++ '\n' :: rest) = siteAt? line) :
    sites siteAt? (line ++ '\n' :: rest) = sites siteAt? line ++ sites siteAt? rest := by
  rw [sites_line hReader hLine]
  cases line with
  | nil =>
    rw [List.nil_append, hReader.nil] at hSame
    rw [List.nil_append, sites, sitesFrom, if_pos rfl, hSame, hReader.nil]
    rfl
  | cons c line =>
    obtain ⟨hFeed, hRest⟩ := not_mem_cons hLine
    rw [List.cons_append] at hSame ⊢
    rw [sites, sitesFrom, if_pos rfl, hSame, hFeed]
    cases hFound : siteAt? (c :: line) with
    | none => exact sitesFrom_append hRest (Nat.zero_le _)
    | some site =>
      have hLength : site.length - 1 ≤ line.length := by
        have hWithin := hReader.length_le hFound
        rw [List.length_cons] at hWithin
        omega
      exact congrArg (site :: ·) (sitesFrom_append hRest hLength)

theorem not_mem_symbol_of_line (hReader : IsReader siteAt?) (hLine : '\n' ∉ line) {site : Site}
    (hSite : site ∈ sites siteAt? line) : '\n' ∉ site.symbol := by
  rw [sites_line hReader hLine, Option.mem_toList] at hSite
  exact fun hMem => hLine (hReader.subset hSite hMem)

theorem sites_join (hReader : IsReader siteAt?) (hLocal : IsLineLocal siteAt?)
    {pieces : List (List Char)} (hPieces : ∀ piece ∈ pieces, '\n' ∉ piece) :
    sites siteAt? (join '\n' pieces) = pieces.flatMap (sites siteAt?) ∨
      ∃ site ∈ sites siteAt? (join '\n' pieces), '\n' ∈ site.symbol := by
  induction pieces with
  | nil => exact Or.inl rfl
  | cons piece pieces ih =>
    obtain ⟨hPiece, hRest⟩ := List.forall_mem_cons.mp hPieces
    cases pieces with
    | nil =>
      left
      rw [join, List.flatMap_singleton]
    | cons next pieces =>
      rw [join, List.flatMap_cons]
      rcases hLocal piece (join '\n' (next :: pieces)) hPiece with hSame | ⟨site, hSome, hFeed⟩
      · rw [sites_append hReader hPiece hSame]
        rcases ih hRest with hLines | ⟨site, hMem, hFeed⟩
        · left
          rw [hLines]
        · exact Or.inr ⟨site, List.mem_append_right _ hMem, hFeed⟩
      · exact Or.inr ⟨site, mem_sites_of_first hReader hSome, hFeed⟩

/-- A text has the sites of its lines as long as no symbol reaches over the end of a line. -/
theorem sites_eq_flatMap (hReader : IsReader siteAt?) (hLocal : IsLineLocal siteAt?)
    {text : List Char} (h : ∀ site ∈ sites siteAt? text, '\n' ∉ site.symbol) :
    sites siteAt? text = (split '\n' text).flatMap (sites siteAt?) := by
  have hPieces : ∀ piece ∈ split '\n' text, '\n' ∉ piece :=
    fun piece hMem => not_mem_of_mem_split hMem
  have hJoin := sites_join hReader hLocal hPieces
  rw [join_split] at hJoin
  rcases hJoin with hSame | ⟨site, hMem, hFeed⟩
  · exact hSame
  · exact absurd hFeed (h site hMem)

/-! ### What lines declare and ask for -/

/-- The lines of a text, without their ends. -/
def lines (content : String) : List String := (split '\n' content.toList).map String.ofList

theorem symbols_eq_flatMap (hReader : IsReader siteAt?) (hLocal : IsLineLocal siteAt?)
    {content : String} (h : ∀ symbol ∈ symbols siteAt? content, '\n' ∉ symbol.toList) :
    symbols siteAt? content = (lines content).flatMap (symbols siteAt?) := by
  have hSites : ∀ site ∈ sites siteAt? content.toList, '\n' ∉ site.symbol := by
    intro site hMem
    rw [← String.toList_ofList (l := site.symbol)]
    exact h _ (List.mem_map_of_mem hMem)
  rw [symbols, sites_eq_flatMap hReader hLocal hSites, lines, List.map_flatMap, List.flatMap_map]
  refine congrArg (List.flatMap · _) (funext fun piece => ?_)
  rw [symbols, String.toList_ofList]

/-- No symbol of a line holds an end of a line. -/
theorem not_mem_of_mem_symbols (hReader : IsReader siteAt?) {content line symbol : String}
    (hLine : line ∈ lines content) (hSymbol : symbol ∈ symbols siteAt? line) :
    '\n' ∉ symbol.toList := by
  obtain ⟨piece, hPiece, rfl⟩ := List.mem_map.mp hLine
  rw [symbols, String.toList_ofList] at hSymbol
  obtain ⟨site, hSite, rfl⟩ := List.mem_map.mp hSymbol
  rw [String.toList_ofList]
  exact not_mem_symbol_of_line hReader (not_mem_of_mem_split hPiece) hSite

/-- A text declares what its lines declare one by one, and asks for what they ask for, if and only
if no symbol reaches over the end of a line. -/
theorem lineByLine_iff (content : String) :
    (provides content = (lines content).flatMap provides ↔
      ∀ symbol ∈ provides content, '\n' ∉ symbol.toList) ∧
    ((∀ symbol, symbol ∈ requires content ↔ ∃ line ∈ lines content, symbol ∈ requires line) ↔
      ∀ symbol ∈ requires content, '\n' ∉ symbol.toList) := by
  refine ⟨⟨?_, ?_⟩, ⟨?_, ?_⟩⟩
  · intro hLines symbol hMem
    rw [hLines, List.mem_flatMap] at hMem
    obtain ⟨line, hLine, hSymbol⟩ := hMem
    exact not_mem_of_mem_symbols isReader_provideAt? hLine hSymbol
  · intro h
    exact symbols_eq_flatMap isReader_provideAt? isLineLocal_provideAt? h
  · intro hLines symbol hMem
    obtain ⟨line, hLine, hSymbol⟩ := (hLines symbol).mp hMem
    exact not_mem_of_mem_symbols isReader_requireAt? hLine (mem_requires.mp hSymbol)
  · intro h symbol
    have hSame := symbols_eq_flatMap isReader_requireAt? isLineLocal_requireAt?
      fun symbol hMem => h symbol (mem_requires.mpr hMem)
    rw [mem_requires, hSame, List.mem_flatMap]
    exact exists_congr fun line => and_congr_right fun _ => mem_requires.symm

/-- A quote that is not closed on its line takes the next declaration into its symbol. -/
theorem unclosed_covers_line :
    provides "goog.provide('a\ngoog.provide('b');\n" = ["a\ngoog.provide("] ∧
      (lines "goog.provide('a\ngoog.provide('b');\n").flatMap provides = ["a", "b"] := by
  decide +kernel

end ProvideIndex.Source
