import ProvideIndex.Proofs.Source.Declarations
import ProvideIndex.Source.Classify
import ProvideIndex.Text.Split

/-!
# Line ends

A text may end its lines with a carriage return in front of each line feed. No word that is searched
for holds either of the two, none of them is a quote, and neither continues the name of a function,
so everything that is read in a text is read in the other one as well. Only a symbol that reaches
over the end of a line is read with the carriage return that the text has there.

* `Carries`, `carries_provideAt?`, `carries_requireAt?`: what is read at the beginning of a text is
  read there with the other line ends too, and covers the same part of the text.
* `map_symbol_sites_withReturns`: the symbols of a text are those of the other text, with its line
  ends.
* `classify_returned`: the kind of a script does not depend on its line ends, as long as no symbol
  reaches over the end of a line.
-/

namespace ProvideIndex

namespace Text

variable {p : List Char → Bool} {word text rest : List Char}

/-- The text with a carriage return in front of each line feed. -/
def withReturns (text : List Char) : List Char := replace ['\n'] ['\r', '\n'] text

theorem withReturns_feed (text : List Char) :
    withReturns ('\n' :: text) = '\r' :: '\n' :: withReturns text := rfl

theorem withReturns_cons {c : Char} (hFeed : c ≠ '\n') (text : List Char) :
    withReturns (c :: text) = c :: withReturns text := by
  have hStart : startsWith ['\n'] (c :: text) = false := by
    rw [startsWith, after?, if_neg (Ne.symm hFeed)]
    rfl
  rw [withReturns, replace, replaceFrom, hStart, if_neg Bool.false_ne_true]
  rfl

theorem withReturns_append (hWord : '\n' ∉ word) (text : List Char) :
    withReturns (word ++ text) = word ++ withReturns text := by
  induction word with
  | nil => rfl
  | cons c word ih =>
    rw [List.mem_cons, not_or] at hWord
    rw [List.cons_append, withReturns_cons (Ne.symm hWord.1), ih hWord.2, List.cons_append]

theorem withReturns_of_not_mem (hText : '\n' ∉ text) : withReturns text = text := by
  have h := withReturns_append hText []
  rwa [List.append_nil, show withReturns [] = [] from rfl, List.append_nil] at h

theorem isEmpty_withReturns (text : List Char) : (withReturns text).isEmpty = text.isEmpty := by
  cases text with
  | nil => rfl
  | cons c text =>
    by_cases hFeed : c = '\n'
    · subst hFeed
      rfl
    · rw [withReturns_cons hFeed]
      rfl

/-- A word that holds no line end is found in front of the same rest. -/
theorem after?_withReturns (hFeed : '\n' ∉ word) (hReturn : '\r' ∉ word) (text : List Char) :
    after? word (withReturns text) = (after? word text).map withReturns := by
  induction word generalizing text with
  | nil => rfl
  | cons w word ih =>
    rw [List.mem_cons, not_or] at hFeed hReturn
    cases text with
    | nil => rfl
    | cons c text =>
      by_cases hc : c = '\n'
      · subst hc
        rw [withReturns_feed, after?, after?, if_neg (Ne.symm hReturn.1),
          if_neg (Ne.symm hFeed.1)]
        rfl
      · rw [withReturns_cons hc, after?, after?]
        by_cases hSame : w = c
        · rw [if_pos hSame, if_pos hSame, ih hFeed.2 hReturn.2]
        · rw [if_neg hSame, if_neg hSame]
          rfl

theorem startsWith_withReturns (hFeed : '\n' ∉ word) (hReturn : '\r' ∉ word) (text : List Char) :
    startsWith word (withReturns text) = startsWith word text := by
  rw [startsWith, startsWith, after?_withReturns hFeed hReturn, Option.isSome_map]

theorem takeWhile_withReturns {p : Char → Bool} (hReturn : p '\r' = true) (hFeed : p '\n' = true)
    (text : List Char) : (withReturns text).takeWhile p = withReturns (text.takeWhile p) := by
  induction text with
  | nil => rfl
  | cons c text ih =>
    by_cases hc : c = '\n'
    · subst hc
      rw [withReturns_feed, List.takeWhile_cons_of_pos hReturn, List.takeWhile_cons_of_pos hFeed,
        List.takeWhile_cons_of_pos hFeed, withReturns_feed, ih]
    · rw [withReturns_cons hc]
      cases hp : p c with
      | true =>
        rw [List.takeWhile_cons_of_pos hp, List.takeWhile_cons_of_pos hp, withReturns_cons hc, ih]
      | false =>
        have hNot : ¬ p c = true := Bool.eq_false_iff.mp hp
        rw [List.takeWhile_cons_of_neg hNot, List.takeWhile_cons_of_neg hNot]
        rfl

/-- The carriage return belongs to the line that it ends, so the lines begin alike. -/
theorem anyLine_withReturns (h : ∀ text, p (withReturns text) = p text) (lineStart : Bool)
    (text : List Char) : anyLine p lineStart (withReturns text) = anyLine p lineStart text := by
  induction text generalizing lineStart with
  | nil => rfl
  | cons c text ih =>
    have hHead := h (c :: text)
    by_cases hc : c = '\n'
    · subst hc
      rw [withReturns_feed] at hHead ⊢
      rw [anyLine, hHead, anyLine, anyLine, ih]
      rfl
    · rw [withReturns_cons hc] at hHead ⊢
      rw [anyLine, hHead, anyLine, ih]

/-- What does not stand at a line feed is found at the same places. -/
theorem anyTail_withReturns (h : ∀ text, p (withReturns text) = p text)
    (hFeed : ∀ text, p ('\n' :: text) = false) (text : List Char) :
    anyTail p (withReturns text) = anyTail p text := by
  induction text with
  | nil => exact h []
  | cons c text ih =>
    have hHead := h (c :: text)
    by_cases hc : c = '\n'
    · subst hc
      rw [withReturns_feed] at hHead ⊢
      rw [anyTail, hHead, anyTail, anyTail, hFeed (withReturns text), Bool.false_or, ih]
    · rw [withReturns_cons hc] at hHead ⊢
      rw [anyTail, hHead, anyTail, ih]

end Text

namespace Source

open Text

variable {siteAt? : List Char → Option Site} {word text : List Char}

/-! ### What is read at the beginning of a text -/

/-- The site with the other line ends, where it stands at the beginning of a text: it covers what the
part of the text becomes that it covered. -/
def Site.withReturns (text : List Char) (site : Site) : Site where
  symbol := Text.withReturns site.symbol
  length := (Text.withReturns (text.take site.length)).length

/-- With the other line ends the same is read at the beginning of a text. -/
def Carries (siteAt? : List Char → Option Site) : Prop :=
  ∀ text, siteAt? (withReturns text) = (siteAt? text).map (Site.withReturns text)

theorem quotedSymbol?_withReturns (text : List Char) :
    quotedSymbol? (withReturns text) = (quotedSymbol? text).map withReturns := by
  cases text with
  | nil => rfl
  | cons quote text =>
    by_cases hFeed : quote = '\n'
    · subst hFeed
      rfl
    · have hRun := takeWhile_withReturns (p := fun x => !isQuote x) rfl rfl text
      rw [withReturns_cons hFeed, quotedSymbol?, quotedSymbol?, hRun, isEmpty_withReturns]
      split <;> rfl

theorem carries_callAt? {name : List Char} (hFeed : '\n' ∉ name) (hReturn : '\r' ∉ name) :
    Carries (callAt? name) := by
  intro text
  rw [callAt?, callAt?, after?_withReturns hFeed hReturn]
  cases hAfter : after? name text with
  | none => rfl
  | some argument =>
    obtain rfl := after?_eq_some.mp hAfter
    simp only [Option.map_some, Option.bind_eq_bind, Option.bind_some, quotedSymbol?_withReturns]
    cases hSymbol : quotedSymbol? argument with
    | none => rfl
    | some symbol =>
      obtain ⟨quote, rest, hQuote, rfl, -⟩ := quotedSymbol?_eq_some.mp hSymbol
      have hPlain : quote ≠ '\n' := by
        rintro rfl
        exact absurd (isQuote_iff.mpr hQuote) (by decide)
      have hCovered : (name ++ quote :: (symbol ++ rest)).take (name.length + 1 + symbol.length) =
          name ++ quote :: symbol := by
        rw [Nat.add_assoc, List.take_length_add_append, Nat.add_comm, List.take_succ_cons,
          List.take_left]
      simp only [Option.map_some, Option.bind_some, Option.pure_def, Site.withReturns, hCovered,
        withReturns_append hFeed, withReturns_cons hPlain, List.length_append, List.length_cons]
      congr 2
      omega

theorem Carries.orElse {other : List Char → Option Site} (h : Carries siteAt?)
    (hOther : Carries other) : Carries fun text => siteAt? text <|> other text := by
  intro text
  show (siteAt? (withReturns text) <|> other (withReturns text)) =
    (siteAt? text <|> other text).map (Site.withReturns text)
  rw [h text, hOther text]
  cases siteAt? text <;> rfl

/-- Behind a word a site covers the word as well. -/
theorem Site.withReturns_behind (hFeed : '\n' ∉ word) (text : List Char) (site : Site) :
    Site.withReturns (word ++ text) { site with length := site.length + word.length } =
      { Site.withReturns text site with
        length := (Site.withReturns text site).length + word.length } := by
  have hCovered : (word ++ text).take (site.length + word.length) =
      word ++ text.take site.length := by
    rw [Nat.add_comm, List.take_length_add_append]
  simp only [Site.withReturns, hCovered, withReturns_append hFeed, List.length_append]
  congr 1
  omega

/-- A word in front of what is read. -/
theorem Carries.behind (h : Carries siteAt?) (hFeed : '\n' ∉ word) (hReturn : '\r' ∉ word) :
    Carries fun text => do
      let rest ← after? word text
      let site ← siteAt? rest
      return { site with length := site.length + word.length } := by
  intro text
  simp only [after?_withReturns hFeed hReturn]
  cases hAfter : after? word text with
  | none => rfl
  | some rest =>
    obtain rfl := after?_eq_some.mp hAfter
    simp only [Option.map_some, Option.bind_eq_bind, Option.bind_some, h rest]
    cases siteAt? rest with
    | none => rfl
    | some site => exact congrArg some (Site.withReturns_behind hFeed rest site).symm

theorem carries_assignedAt? : Carries assignedAt? :=
  (carries_callAt? (by decide) (by decide)).behind (by decide) (by decide)

/-- The line ends at the carriage return already, which begins no assignment. -/
theorem carries_lastAssigned? : Carries lastAssigned? := by
  intro text
  induction text with
  | nil => rfl
  | cons c text ih =>
    by_cases hc : c = '\n'
    · subst hc
      rfl
    · have hHere := carries_assignedAt? (c :: text)
      have hFeed : '\n' ∉ [c] := by simpa using Ne.symm hc
      rw [withReturns_cons hc] at hHere ⊢
      rw [lastAssigned?_cons hc, lastAssigned?_cons hc, hHere, ih]
      cases lastAssigned? text with
      | none => rfl
      | some site => exact congrArg some (Site.withReturns_behind hFeed text site).symm

theorem carries_provideAt? : Carries provideAt? :=
  (carries_callAt? (by decide) (by decide)).orElse (carries_callAt? (by decide) (by decide))

theorem carries_bindingAt? {keyword : List Char} (hFeed : '\n' ∉ keyword)
    (hReturn : '\r' ∉ keyword) : Carries (bindingAt? keyword) :=
  carries_lastAssigned?.behind hFeed hReturn

theorem carries_requireAt? : Carries requireAt? :=
  (carries_bindingAt? (by decide) (by decide)).orElse
    ((carries_bindingAt? (by decide) (by decide)).orElse
      (carries_callAt? (by decide) (by decide)))

/-! ### The sites of a text -/

theorem sitesFrom_of_none {c : Char} {lineStart : Bool}
    (h : lineStart = true → siteAt? (c :: text) = none) :
    sitesFrom siteAt? 0 lineStart (c :: text) = sitesFrom siteAt? 0 (c == '\n') text := by
  cases lineStart with
  | false => rfl
  | true => rw [sitesFrom, if_pos rfl, h rfl]

theorem sitesFrom_of_some {c : Char} {site : Site} (h : siteAt? (c :: text) = some site) :
    sitesFrom siteAt? 0 true (c :: text) =
      site :: sitesFrom siteAt? (site.length - 1) (c == '\n') text := by
  rw [sitesFrom, if_pos rfl, h]

/-- What a character of a text becomes. -/
def ended (c : Char) : List Char := if c = '\n' then ['\r', '\n'] else [c]

theorem withReturns_eq_ended (c : Char) (text : List Char) :
    withReturns (c :: text) = ended c ++ withReturns text := by
  by_cases hc : c = '\n'
  · subst hc
    rfl
  · rw [withReturns_cons hc, ended, if_neg hc, List.singleton_append]

section Search

variable {c : Char} {rest : List Char} {lineStart : Bool} {skip : Nat}

/-- Where nothing is read, the next line begins behind all that a line feed has become. -/
theorem sitesFrom_ended_skip :
    sitesFrom siteAt? ((ended c).length + skip) lineStart (ended c ++ rest) =
      sitesFrom siteAt? skip (c == '\n') rest := by
  rw [Nat.add_comm]
  by_cases hc : c = '\n'
  · subst hc
    rfl
  · rw [ended, if_neg hc]
    rfl

theorem sitesFrom_ended_of_none (h : lineStart = true → siteAt? (ended c ++ rest) = none) :
    sitesFrom siteAt? 0 lineStart (ended c ++ rest) = sitesFrom siteAt? 0 (c == '\n') rest := by
  by_cases hc : c = '\n'
  · subst hc
    exact sitesFrom_of_none h
  · rw [ended, if_neg hc] at h ⊢
    exact sitesFrom_of_none h

theorem sitesFrom_ended_of_some {site : Site} (h : siteAt? (ended c ++ rest) = some site)
    (hLength : site.length = (ended c).length + skip) :
    sitesFrom siteAt? 0 true (ended c ++ rest) =
      site :: sitesFrom siteAt? skip (c == '\n') rest := by
  by_cases hc : c = '\n'
  · subst hc
    have hSkip : site.length - 1 = skip + 1 := by
      rw [hLength, ended, if_pos rfl, List.length_cons, List.length_singleton]
      omega
    refine (sitesFrom_of_some h).trans ?_
    rw [hSkip]
    rfl
  · rw [ended, if_neg hc] at h hLength ⊢
    have hSkip : site.length - 1 = skip := by
      rw [hLength, List.length_singleton]
      omega
    refine (sitesFrom_of_some h).trans ?_
    rw [hSkip]
    rfl

end Search

/-- The search finds the symbols of the other text, with its line ends. -/
theorem symbols_sitesFrom_withReturns (hReader : IsReader siteAt?) (hCarries : Carries siteAt?)
    (skip : Nat) (lineStart : Bool) (text : List Char) :
    (sitesFrom siteAt? (withReturns (text.take skip)).length lineStart (withReturns text)).map
        (·.symbol) =
      ((sitesFrom siteAt? skip lineStart text).map (·.symbol)).map withReturns := by
  induction text generalizing skip lineStart with
  | nil => rfl
  | cons c text ih =>
    have hHere := hCarries (c :: text)
    rw [withReturns_eq_ended] at hHere ⊢
    cases skip with
    | succ skip =>
      rw [List.take_succ_cons, withReturns_eq_ended, List.length_append, sitesFrom_ended_skip]
      exact ih skip (c == '\n')
    | zero =>
      rw [List.take_zero, show (withReturns []).length = 0 from rfl]
      by_cases hNone : lineStart = true → siteAt? (c :: text) = none
      · have hNone' : lineStart = true → siteAt? (ended c ++ withReturns text) = none := by
          intro hStart
          rw [hHere, hNone hStart]
          rfl
        rw [sitesFrom_of_none hNone, sitesFrom_ended_of_none hNone']
        exact ih 0 (c == '\n')
      · obtain ⟨rfl, hSome⟩ := Classical.not_imp.mp hNone
        obtain ⟨site, hFound⟩ := Option.ne_none_iff_exists'.mp hSome
        obtain ⟨less, hLess⟩ := Nat.exists_eq_succ_of_ne_zero (hReader.length_pos hFound).ne'
        have hLength : (Site.withReturns (c :: text) site).length =
            (ended c).length + (withReturns (text.take less)).length := by
          rw [Site.withReturns, hLess, List.take_succ_cons, withReturns_eq_ended,
            List.length_append]
        rw [hFound] at hHere
        rw [sitesFrom_of_some hFound, sitesFrom_ended_of_some hHere hLength, hLess]
        exact congrArg (withReturns site.symbol :: ·) (ih less (c == '\n'))

theorem map_symbol_sites_withReturns (hReader : IsReader siteAt?) (hCarries : Carries siteAt?)
    (text : List Char) :
    (sites siteAt? (withReturns text)).map (·.symbol) =
      ((sites siteAt? text).map (·.symbol)).map withReturns :=
  symbols_sitesFrom_withReturns hReader hCarries 0 true text

/-- The content with a carriage return in front of each line feed. -/
def returned (content : String) : String := String.ofList (withReturns content.toList)

/-- Symbols that do not reach over the end of a line are read unchanged. -/
theorem symbols_returned (hReader : IsReader siteAt?) (hCarries : Carries siteAt?)
    {content : String} (h : ∀ symbol ∈ symbols siteAt? content, '\n' ∉ symbol.toList) :
    symbols siteAt? (returned content) = symbols siteAt? content := by
  have hSites : ∀ symbol ∈ (sites siteAt? content.toList).map (·.symbol),
      withReturns symbol = symbol := by
    intro symbol hMem
    obtain ⟨site, hSite, rfl⟩ := List.mem_map.mp hMem
    refine withReturns_of_not_mem ?_
    rw [← String.toList_ofList (l := site.symbol)]
    exact h _ (List.mem_map_of_mem hSite)
  have hSame := map_symbol_sites_withReturns hReader hCarries content.toList
  rw [List.map_congr_left hSites, List.map_id'] at hSame
  have hTexts := congrArg (List.map String.ofList) hSame
  rw [List.map_map, List.map_map] at hTexts
  rw [symbols, returned, String.toList_ofList]
  exact hTexts

/-! ### Marks of tests -/

theorem isTestOnly_withReturns (path : String) (text : List Char) :
    isTestOnly path (withReturns text) = isTestOnly path text := by
  rw [isTestOnly, isTestOnly,
    anyLine_withReturns (startsWith_withReturns (by decide) (by decide)) true text]

/-- A line feed stands for the quote of a suite no more than a carriage return in front of one. -/
theorem loadsTestSuite_withReturns (text : List Char) :
    loadsTestSuite (withReturns text) = loadsTestSuite text := by
  rw [loadsTestSuite, loadsTestSuite, after?_withReturns (by decide) (by decide)]
  cases after? requireName text with
  | none => rfl
  | some rest =>
    cases rest with
    | nil => rfl
    | cons c rest =>
      by_cases hc : c = '\n'
      · subst hc
        rfl
      · rw [Option.map_some, withReturns_cons hc]
        exact congrArg (c != '\n' && ·) (startsWith_withReturns (by decide) (by decide) rest)

theorem declaresFunction_withReturns {name : String} (hFeed : '\n' ∉ name.toList)
    (hReturn : '\r' ∉ name.toList) (text : List Char) :
    declaresFunction name (withReturns text) = declaresFunction name text := by
  have hWords : ∀ {c : Char}, c ∉ "function ".toList → c ∉ name.toList →
      c ∉ "function ".toList ++ name.toList :=
    fun hWord hName hMem => (List.mem_append.mp hMem).elim hWord hName
  rw [declaresFunction, declaresFunction,
    after?_withReturns (hWords (by decide) hFeed) (hWords (by decide) hReturn)]
  cases after? ("function ".toList ++ name.toList) text with
  | none => rfl
  | some rest =>
    cases rest with
    | nil => rfl
    | cons c rest =>
      by_cases hc : c = '\n'
      · subst hc
        have hNeither : isWordChar '\r' = isWordChar '\n' := by decide
        exact congrArg (!·) hNeither
      · rw [Option.map_some, withReturns_cons hc]

theorem isUnitTest_withReturns (text : List Char) :
    isUnitTest (withReturns text) = isUnitTest text := by
  rw [isUnitTest, isUnitTest, anyTail_withReturns loadsTestSuite_withReturns fun _ => rfl]
  refine congrArg (anyTail loadsTestSuite text || ·) (anyLine_withReturns ?_ true text)
  intro line
  rw [declaresFunction_withReturns (by decide) (by decide),
    declaresFunction_withReturns (by decide) (by decide)]

/-! ### The kind of a script -/

/-- A script whose symbols do not reach over the ends of lines is of the same kind, with the same
symbols, whichever way its lines end. -/
theorem classify_returned (path content : String)
    (h : ∀ symbol ∈ provides content ++ requires content, '\n' ∉ symbol.toList) :
    classify path (returned content) = classify path content := by
  rw [List.forall_mem_append] at h
  have hProvides : provides (returned content) = provides content :=
    symbols_returned isReader_provideAt? carries_provideAt? h.1
  have hSymbols := symbols_returned isReader_requireAt? carries_requireAt?
    fun symbol hMem => h.2 symbol (mem_requires.mpr hMem)
  have hRequires : requires (returned content) = requires content :=
    congrArg ascending hSymbols
  have hTestOnly : isTestOnly path (returned content).toList =
      isTestOnly path content.toList := by
    rw [returned, String.toList_ofList, isTestOnly_withReturns]
  have hUnitTest : isUnitTest (returned content).toList = isUnitTest content.toList := by
    rw [returned, String.toList_ofList, isUnitTest_withReturns]
  rw [classify, classify, hProvides, hRequires, hTestOnly, hUnitTest]

theorem classify_returned_fourLines :
    let content := "goog.module('a');\nvar b = goog.require('b');\ngoog.setTestOnly('a');\n" ++
      "function setUpPage() {}\n"
    (∀ symbol ∈ provides content ++ requires content, '\n' ∉ symbol.toList) ∧
      returned content = "goog.module('a');\r\nvar b = goog.require('b');\r\n" ++
        "goog.setTestOnly('a');\r\nfunction setUpPage() {}\r\n" ∧
      classify "closure/goog/a.js" (returned content) =
        classify "closure/goog/a.js" content := by
  intro content
  have h : ∀ symbol ∈ provides content ++ requires content, '\n' ∉ symbol.toList := by
    decide +kernel
  exact ⟨h, by decide +kernel, classify_returned _ _ h⟩

end Source

end ProvideIndex
