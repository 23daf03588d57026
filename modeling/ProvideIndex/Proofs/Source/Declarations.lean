import ProvideIndex.Proofs.Source.Counted
import ProvideIndex.Proofs.Text.Run

/-!
# Which declarations are found

What a text declares and what it asks for, said by positions. A call is a name with its opening
parenthesis, a quote, and a symbol, which is the longest run of other characters behind the quote
and is not empty; it may reach over the ends of lines and need not be closed. What a text asks for
may also be bound to a name on one line; then the last assignment of a call on that line tells.

* `callAt?_eq_some`, `provideAt?_eq_some`, `requireAt?_eq_some`: what is read at a place.
* `exists_isLastAssigned`, `bindingAt?_eq_some`: the last assignment of a call on a line.
* `provides_counted`: a text declares the symbols of the sites that count, in their order.
* `requires_counted`: a text asks for the symbols of the sites that count, in ascending order.
-/

namespace ProvideIndex.Source

open Text

/-! ### Calls -/

def IsQuote (c : Char) : Prop := c = '\x27' ∨ c = '\x22'

/-- A text begins with a call for a symbol; what stands behind the symbol is a quote or nothing. -/
def IsCall (name : String) (symbol text : List Char) : Prop :=
  ∃ quote rest, IsQuote quote ∧ text = name.toList ++ quote :: (symbol ++ rest) ∧ symbol ≠ [] ∧
    (∀ c ∈ symbol, ¬ IsQuote c) ∧ ∀ c, rest.head? = some c → IsQuote c

theorem isQuote_iff {c : Char} : isQuote c = true ↔ IsQuote c := by
  rw [isQuote, Bool.or_eq_true, beq_iff_eq, beq_iff_eq, IsQuote]

theorem not_isQuote_iff {c : Char} : (!isQuote c) = true ↔ ¬ IsQuote c := by
  rw [Bool.not_eq_true', ← Bool.not_eq_true, isQuote_iff]

theorem quotedSymbol?_eq_some {argument symbol : List Char} :
    quotedSymbol? argument = some symbol ↔ ∃ quote rest, IsQuote quote ∧
      argument = quote :: (symbol ++ rest) ∧ symbol ≠ [] ∧ (∀ c ∈ symbol, ¬ IsQuote c) ∧
        ∀ c, rest.head? = some c → IsQuote c := by
  constructor
  · intro h
    cases argument with
    | nil => cases h
    | cons quote text =>
      simp only [quotedSymbol?, Bool.and_eq_true, Bool.not_eq_true', Option.ite_none_right_eq_some,
        Option.some.injEq, isQuote_iff, List.isEmpty_eq_false_iff] at h
      obtain ⟨⟨hQuote, hNonempty⟩, rfl⟩ := h
      refine ⟨quote, text.dropWhile fun c => !isQuote c, hQuote, ?_, hNonempty, ?_, ?_⟩
      · rw [List.takeWhile_append_dropWhile]
      · intro c hMem
        exact not_isQuote_iff.mp (List.mem_takeWhile_imp (p := fun c => !isQuote c) hMem)
      · intro c hHead
        have hNot := List.head?_dropWhile_not (fun c => !isQuote c) text
        rw [hHead] at hNot
        simpa [isQuote_iff] using hNot
  · rintro ⟨quote, rest, hQuote, rfl, hNonempty, hSymbol, hRest⟩
    have hStops : Stops (fun c => !isQuote c) rest := by
      intro c hHead
      simpa [isQuote_iff] using hRest c hHead
    have hRun : (symbol ++ rest).takeWhile (fun c => !isQuote c) = symbol :=
      takeWhile_append_stop (fun c hMem => not_isQuote_iff.mpr (hSymbol c hMem)) hStops
    simp [quotedSymbol?, hRun, isQuote_iff, hQuote, hNonempty]

theorem callAt?_eq_some (name : String) {text : List Char} {site : Site} :
    callAt? name.toList text = some site ↔
      IsCall name site.symbol text ∧ site.length = name.length + 1 + site.symbol.length := by
  obtain ⟨symbol, length⟩ := site
  simp only [callAt?, Option.bind_eq_bind, Option.bind_eq_some_iff, after?_eq_some, Option.pure_def,
    Option.some.injEq, Site.mk.injEq, String.length_toList]
  constructor
  · rintro ⟨argument, rfl, found, hFound, rfl, hLength⟩
    obtain ⟨quote, rest, hQuote, rfl, hNonempty, hSymbol, hRest⟩ := quotedSymbol?_eq_some.mp hFound
    exact ⟨⟨quote, rest, hQuote, rfl, hNonempty, hSymbol, hRest⟩, hLength.symm⟩
  · rintro ⟨⟨quote, rest, hQuote, rfl, hNonempty, hSymbol, hRest⟩, hLength⟩
    exact ⟨_, rfl, symbol,
      quotedSymbol?_eq_some.mpr ⟨quote, rest, hQuote, rfl, hNonempty, hSymbol, hRest⟩, rfl,
      hLength.symm⟩

theorem IsCall.callAt? {name : String} {symbol text : List Char} (h : IsCall name symbol text) :
    callAt? name.toList text = some ⟨symbol, name.length + 1 + symbol.length⟩ :=
  (callAt?_eq_some name).mpr ⟨h, rfl⟩

/-- Words of which neither begins with the other do not begin the same text. -/
theorem after?_eq_none {word other text : List Char} (h : ¬ word <+: other)
    (hOther : ¬ other <+: word) (hText : other <+: text) : after? word text = none := by
  cases hAfter : after? word text with
  | none => rfl
  | some rest =>
    have hWord : word <+: text := ⟨rest, (after?_eq_some.mp hAfter).symm⟩
    rcases List.prefix_or_prefix_of_prefix hWord hText with hLeft | hRight
    · exact absurd hLeft h
    · exact absurd hRight hOther

theorem IsCall.begins {name : String} {symbol text : List Char} (h : IsCall name symbol text) :
    name.toList <+: text := by
  obtain ⟨quote, rest, -, rfl, -⟩ := h
  exact List.prefix_append ..

theorem IsCall.length_le {name : String} {symbol text : List Char} (h : IsCall name symbol text) :
    name.length + 1 + symbol.length ≤ text.length := by
  obtain ⟨quote, rest, -, rfl, -⟩ := h
  rw [List.length_append, List.length_cons, List.length_append, String.length_toList]
  omega

theorem IsCall.subset {name : String} {symbol text : List Char} (h : IsCall name symbol text) :
    symbol ⊆ text := by
  obtain ⟨quote, rest, -, rfl, -⟩ := h
  intro c hMem
  simp [hMem]

/-- The symbol of a call is the whole run behind the quote. -/
theorem IsCall.unique {name : String} {symbol other text : List Char} (h : IsCall name symbol text)
    (hOther : IsCall name other text) : symbol = other :=
  congrArg Site.symbol (Option.some.inj (h.callAt?.symm.trans hOther.callAt?))

/-! ### What a text declares -/

/-- A site of a text at which it declares a symbol. -/
structure IsProvideSite (text : List Char) (place : Place) : Prop where
  lineStart : IsLineStart text place.start
  call : ∃ name ∈ ["goog.provide(", "goog.module("],
    IsCall name place.symbol (text.drop place.start) ∧
      place.stop = place.start + name.length + 1 + place.symbol.length

theorem provideAt?_eq_some {text : List Char} {site : Site} :
    provideAt? text = some site ↔ ∃ name ∈ ["goog.provide(", "goog.module("],
      IsCall name site.symbol text ∧ site.length = name.length + 1 + site.symbol.length := by
  have hProvide : callAt? provideName text = some site ↔ _ :=
    callAt?_eq_some "goog.provide("
  have hModule : callAt? moduleName text = some site ↔ _ :=
    callAt?_eq_some "goog.module("
  rw [provideAt?, Option.orElse_eq_some, hProvide, hModule]
  simp only [List.mem_cons, List.not_mem_nil, or_false, exists_eq_or_imp, exists_eq_left]
  refine or_congr_right (and_iff_right_of_imp ?_)
  rintro ⟨hCall, -⟩
  rw [callAt?, after?_eq_none (by decide) (by decide) hCall.begins]
  rfl

theorem isSiteAt_provideAt?_iff {text : List Char} {place : Place} :
    IsSiteAt provideAt? text place ↔ IsProvideSite text place := by
  simp only [IsSiteAt, provideAt?_eq_some]
  constructor
  · rintro ⟨hLine, length, ⟨name, hName, hCall, hLength⟩, hStop⟩
    exact ⟨hLine, name, hName, hCall, by omega⟩
  · rintro ⟨hLine, name, hName, hCall, hStop⟩
    exact ⟨hLine, name.length + 1 + place.symbol.length, ⟨name, hName, hCall, rfl⟩, by omega⟩

theorem isReader_provideAt? : IsReader provideAt? where
  length_pos h := by
    obtain ⟨name, -, -, hLength⟩ := provideAt?_eq_some.mp h
    omega
  length_le h := by
    obtain ⟨name, -, hCall, hLength⟩ := provideAt?_eq_some.mp h
    exact hLength.trans_le hCall.length_le
  subset h := by
    obtain ⟨name, -, hCall, -⟩ := provideAt?_eq_some.mp h
    exact hCall.subset

/-! ### What a text asks for -/

/-- A position behind an assignment on the first line of a text. -/
def IsAssigned (line : List Char) (position : Nat) : Prop :=
  ∃ before rest, line = before ++ " = ".toList ++ rest ∧ '\n' ∉ before ∧
    position = before.length + " = ".length

/-- The last position behind an assignment on the first line at which a call is assigned. -/
structure IsLastAssigned (line : List Char) (position : Nat) : Prop where
  assigned : IsAssigned line position
  last (later : Nat) (symbol : List Char) : IsAssigned line later →
    IsCall "goog.require(" symbol (line.drop later) → later ≤ position

/-- Where the call of a binding stands in a text that begins with one: behind the keyword and the
last assignment of a call on the line. -/
def IsBound (keyword : String) (text : List Char) (position : Nat) : Prop :=
  ∃ line behind, text = keyword.toList ++ line ∧ IsLastAssigned line behind ∧
    position = keyword.length + behind

/-- Where the call stands in a text that begins with a line: at once, or in a binding. -/
def IsCallPosition (text : List Char) (position : Nat) : Prop :=
  position = 0 ∨ ∃ keyword ∈ ["const ", "var "], IsBound keyword text position

/-- A site of a text at which it asks for a symbol. -/
structure IsRequireSite (text : List Char) (place : Place) : Prop where
  lineStart : IsLineStart text place.start
  call : ∃ position, IsCallPosition (text.drop place.start) position ∧
    IsCall "goog.require(" place.symbol (text.drop (place.start + position)) ∧
      place.stop = place.start + position + "goog.require(".length + 1 + place.symbol.length

theorem isAssigned_cons {c : Char} {line : List Char} {position : Nat} :
    IsAssigned (c :: line) position ↔
      (position = " = ".length ∧ " = ".toList <+: c :: line) ∨
        (c ≠ '\n' ∧ ∃ less, position = less + 1 ∧ IsAssigned line less) := by
  constructor
  · rintro ⟨before, rest, hLine, hBefore, rfl⟩
    cases before with
    | nil => exact Or.inl ⟨rfl, rest, hLine.symm⟩
    | cons b before =>
      obtain ⟨rfl, rfl⟩ := List.cons_eq_cons.mp hLine
      rw [List.mem_cons, not_or] at hBefore
      refine Or.inr ⟨Ne.symm hBefore.1, before.length + " = ".length, ?_, before, rest, ?_, ?_, rfl⟩
      · rw [List.length_cons]
        omega
      · rfl
      · exact hBefore.2
  · rintro (⟨rfl, rest, hLine⟩ | ⟨hFeed, less, rfl, before, rest, rfl, hBefore, rfl⟩)
    · exact ⟨[], rest, hLine.symm, by simp, rfl⟩
    · refine ⟨c :: before, rest, rfl, ?_, ?_⟩
      · rw [List.mem_cons, not_or]
        exact ⟨Ne.symm hFeed, hBefore⟩
      · rw [List.length_cons]
        omega

theorem requireCall_eq_some {text : List Char} {site : Site} :
    callAt? requireName text = some site ↔ IsCall "goog.require(" site.symbol text ∧
      site.length = "goog.require(".length + 1 + site.symbol.length :=
  callAt?_eq_some "goog.require("

/-- An assignment of a call at the beginning of a text. -/
def assignedAt? (text : List Char) : Option Site := do
  let call ← after? assignment text
  let site ← callAt? requireName call
  return { site with length := site.length + assignment.length }

theorem assignedAt?_eq_some {text : List Char} {site : Site} :
    assignedAt? text = some site ↔ " = ".toList <+: text ∧
      IsCall "goog.require(" site.symbol (text.drop " = ".length) ∧
        site.length = " = ".length + "goog.require(".length + 1 + site.symbol.length := by
  obtain ⟨symbol, length⟩ := site
  simp only [assignedAt?, Option.bind_eq_bind, Option.bind_eq_some_iff, after?_eq_some,
    requireCall_eq_some, Option.pure_def, Option.some.injEq, Site.mk.injEq]
  constructor
  · rintro ⟨call, rfl, found, ⟨hCall, hLength⟩, rfl, rfl⟩
    refine ⟨List.prefix_append .., hCall, ?_⟩
    show found.length + " = ".length = _
    omega
  · rintro ⟨⟨call, rfl⟩, hCall, rfl⟩
    refine ⟨call, rfl, ⟨symbol, "goog.require(".length + 1 + symbol.length⟩, ⟨hCall, rfl⟩, rfl, ?_⟩
    show "goog.require(".length + 1 + symbol.length + " = ".length =
      " = ".length + "goog.require(".length + 1 + symbol.length
    omega

/-- A later assignment on the line goes before one at its beginning. -/
theorem lastAssigned?_cons {c : Char} (hFeed : c ≠ '\n') (line : List Char) :
    lastAssigned? (c :: line) =
      (((lastAssigned? line).map fun site => { site with length := site.length + 1 }) <|>
        assignedAt? (c :: line)) := by
  rw [lastAssigned?, if_neg (by simpa using hFeed)]
  cases lastAssigned? line <;> rfl

/-- Where no assignment of a call is found, there is none on the line. -/
theorem not_isCall_of_lastAssigned? {line : List Char} (h : lastAssigned? line = none)
    {position : Nat} (hAssigned : IsAssigned line position) (symbol : List Char) :
    ¬ IsCall "goog.require(" symbol (line.drop position) := by
  induction line generalizing position with
  | nil =>
    intro hCall
    have hLength := hCall.length_le
    rw [List.drop_nil, List.length_nil] at hLength
    omega
  | cons c line ih =>
    rcases isAssigned_cons.mp hAssigned with ⟨rfl, hStart⟩ | ⟨hFeed, less, rfl, hLess⟩
    · intro hCall
      have hFeed : c ≠ '\n' := by
        rintro rfl
        simp at hStart
      rw [lastAssigned?_cons hFeed, Option.orElse_eq_none] at h
      have hHere : assignedAt? (c :: line) =
          some ⟨symbol, " = ".length + "goog.require(".length + 1 + symbol.length⟩ :=
        assignedAt?_eq_some.mpr ⟨hStart, hCall, rfl⟩
      rw [h.2] at hHere
      cases hHere
    · rw [lastAssigned?_cons hFeed, Option.orElse_eq_none, Option.map_eq_none_iff] at h
      exact ih h.1 hLess

/-- Where an assignment of a call is found, it is the last one on the line. -/
theorem exists_isLastAssigned {line : List Char} {site : Site}
    (h : lastAssigned? line = some site) :
    ∃ position, IsLastAssigned line position ∧
      IsCall "goog.require(" site.symbol (line.drop position) ∧
        site.length = position + "goog.require(".length + 1 + site.symbol.length := by
  induction line generalizing site with
  | nil => cases h
  | cons c line ih =>
    have hFeed : c ≠ '\n' := by
      rintro rfl
      cases h
    rw [lastAssigned?_cons hFeed, Option.orElse_eq_some, Option.map_eq_some_iff,
      Option.map_eq_none_iff] at h
    rcases h with ⟨found, hFound, rfl⟩ | ⟨hNone, hHere⟩
    · obtain ⟨position, ⟨hAssigned, hLast⟩, hCall, hLength⟩ := ih hFound
      refine ⟨position + 1, ⟨?_, ?_⟩, hCall, ?_⟩
      · exact isAssigned_cons.mpr (Or.inr ⟨hFeed, position, rfl, hAssigned⟩)
      · intro later symbol hLater hOther
        rcases isAssigned_cons.mp hLater with ⟨rfl, -⟩ | ⟨-, less, rfl, hLess⟩
        · obtain ⟨before, rest, -, -, rfl⟩ := hAssigned
          omega
        · exact Nat.succ_le_succ (hLast less symbol hLess hOther)
      · show found.length + 1 = position + 1 + "goog.require(".length + 1 + found.symbol.length
        omega
    · obtain ⟨hStart, hCall, hLength⟩ := assignedAt?_eq_some.mp hHere
      refine ⟨" = ".length, ⟨isAssigned_cons.mpr (Or.inl ⟨rfl, hStart⟩), ?_⟩, hCall, hLength⟩
      intro later symbol hLater hOther
      rcases isAssigned_cons.mp hLater with ⟨rfl, -⟩ | ⟨-, less, rfl, hLess⟩
      · exact Nat.le_refl _
      · exact absurd hOther (not_isCall_of_lastAssigned? hNone hLess symbol)

theorem drop_keyword (keyword : String) (line : List Char) (behind : Nat) :
    (keyword.toList ++ line).drop (keyword.length + behind) = line.drop behind := by
  rw [← String.length_toList, ← List.drop_drop, List.drop_left]

/-- The call of a binding is the last one that is assigned on the line. -/
theorem bindingAt?_eq_some {keyword : String} {text : List Char} {site : Site} :
    bindingAt? keyword.toList text = some site ↔ ∃ position, IsBound keyword text position ∧
      IsCall "goog.require(" site.symbol (text.drop position) ∧
        site.length = position + "goog.require(".length + 1 + site.symbol.length := by
  obtain ⟨symbol, length⟩ := site
  simp only [bindingAt?, Option.bind_eq_bind, Option.bind_eq_some_iff, after?_eq_some,
    Option.pure_def, Option.some.injEq, Site.mk.injEq, String.length_toList]
  constructor
  · rintro ⟨line, rfl, found, hFound, rfl, rfl⟩
    obtain ⟨behind, hLast, hCall, hLength⟩ := exists_isLastAssigned hFound
    refine ⟨keyword.length + behind, ⟨line, behind, rfl, hLast, rfl⟩, ?_, by omega⟩
    rw [drop_keyword]
    exact hCall
  · rintro ⟨position, ⟨line, behind, rfl, hLast, rfl⟩, hCall, rfl⟩
    rw [drop_keyword] at hCall
    refine ⟨line, rfl, ?_⟩
    cases hFound : lastAssigned? line with
    | none => exact absurd hCall (not_isCall_of_lastAssigned? hFound hLast.assigned symbol)
    | some found =>
      obtain ⟨other, hOther, hOtherCall, hLength⟩ := exists_isLastAssigned hFound
      -- Each of the two last positions is at most the other one.
      have hSame : other = behind := Nat.le_antisymm
        (hLast.last other found.symbol hOther.assigned hOtherCall)
        (hOther.last behind symbol hLast.assigned hCall)
      subst hSame
      have hSymbol : found.symbol = symbol := hOtherCall.unique hCall
      exact ⟨found, rfl, hSymbol, by rw [hLength, hSymbol]; omega⟩

theorem bindingAt?_eq_none {keyword other text : List Char} (h : ¬ keyword <+: other)
    (hOther : ¬ other <+: keyword) (hText : other <+: text) : bindingAt? keyword text = none := by
  rw [bindingAt?, after?_eq_none h hOther hText]
  rfl

theorem requireAt?_eq_some {text : List Char} {site : Site} :
    requireAt? text = some site ↔ ∃ position, IsCallPosition text position ∧
      IsCall "goog.require(" site.symbol (text.drop position) ∧
        site.length = position + "goog.require(".length + 1 + site.symbol.length := by
  rw [requireAt?, Option.orElse_eq_some, Option.orElse_eq_some, bindingAt?_eq_some,
    bindingAt?_eq_some, requireCall_eq_some]
  constructor
  · rintro (⟨position, hBound, h⟩ | ⟨-, ⟨position, hBound, h⟩ | ⟨-, hCall, hLength⟩⟩)
    · exact ⟨position, Or.inr ⟨"const ", by simp, hBound⟩, h⟩
    · exact ⟨position, Or.inr ⟨"var ", by simp, hBound⟩, h⟩
    · exact ⟨0, Or.inl rfl, hCall, by omega⟩
  · rintro ⟨position, rfl | ⟨keyword, hKeyword, hBound⟩, h⟩
    · have hStart : "goog.require(".toList <+: text := h.1.begins
      refine Or.inr ⟨bindingAt?_eq_none (by decide) (by decide) hStart, Or.inr ⟨?_, h.1, ?_⟩⟩
      · exact bindingAt?_eq_none (by decide) (by decide) hStart
      · omega
    · simp only [List.mem_cons, List.not_mem_nil, or_false] at hKeyword
      rcases hKeyword with rfl | rfl
      · exact Or.inl ⟨position, hBound, h⟩
      · refine Or.inr ⟨?_, Or.inl ⟨position, hBound, h⟩⟩
        obtain ⟨line, behind, rfl, -⟩ := hBound
        exact bindingAt?_eq_none (by decide) (by decide) (List.prefix_append "var ".toList line)

theorem isSiteAt_requireAt?_iff {text : List Char} {place : Place} :
    IsSiteAt requireAt? text place ↔ IsRequireSite text place := by
  simp only [IsSiteAt, requireAt?_eq_some, List.drop_drop]
  constructor
  · rintro ⟨hLine, length, ⟨position, hPosition, hCall, hLength⟩, hStop⟩
    exact ⟨hLine, position, hPosition, hCall, by omega⟩
  · rintro ⟨hLine, position, hPosition, hCall, hStop⟩
    exact ⟨hLine, position + "goog.require(".length + 1 + place.symbol.length,
      ⟨position, hPosition, hCall, rfl⟩, by omega⟩

theorem isReader_requireAt? : IsReader requireAt? where
  length_pos h := by
    obtain ⟨position, -, -, hLength⟩ := requireAt?_eq_some.mp h
    omega
  length_le h := by
    obtain ⟨position, -, hCall, hLength⟩ := requireAt?_eq_some.mp h
    have hCovered := hCall.length_le
    rw [List.length_drop] at hCovered
    omega
  subset h := by
    obtain ⟨position, -, hCall, -⟩ := requireAt?_eq_some.mp h
    exact fun c hMem => List.mem_of_mem_drop (hCall.subset hMem)

/-! ### The sites that count -/

/-- The symbols of the sites of a text. -/
def symbols (siteAt? : List Char → Option Site) (content : String) : List String :=
  (sites siteAt? content.toList).map fun site => String.ofList site.symbol

theorem symbols_eq (siteAt? : List Char → Option Site) (content : String) :
    symbols siteAt? content =
      (places siteAt? content.toList).map fun place => String.ofList place.symbol := by
  have h := congrArg (List.map String.ofList) (symbols_places siteAt? content.toList)
  rw [List.map_map, List.map_map] at h
  exact h.symm

theorem provides_eq (content : String) : provides content = symbols provideAt? content := rfl

theorem mem_requires {content symbol : String} :
    symbol ∈ requires content ↔ symbol ∈ symbols requireAt? content :=
  mem_ascending

theorem areCounted_provides (text : List Char) :
    AreCounted (IsProvideSite text) (places provideAt? text) :=
  (areCounted_places isReader_provideAt? text).congr fun _ => isSiteAt_provideAt?_iff.symm

theorem areCounted_requires (text : List Char) :
    AreCounted (IsRequireSite text) (places requireAt? text) :=
  (areCounted_places isReader_requireAt? text).congr fun _ => isSiteAt_requireAt?_iff.symm

theorem IsCall.unquoted {name : String} {symbol text : List Char} (h : IsCall name symbol text) :
    String.ofList symbol ≠ "" ∧ ∀ c ∈ (String.ofList symbol).toList, ¬ IsQuote c := by
  obtain ⟨quote, rest, -, -, hNonempty, hSymbol, -⟩ := h
  rw [String.toList_ofList]
  refine ⟨fun hEmpty => hNonempty ?_, hSymbol⟩
  rw [← String.toList_ofList (l := symbol), hEmpty]
  rfl

theorem unquoted_of_mem_provides {content symbol : String} (h : symbol ∈ provides content) :
    symbol ≠ "" ∧ ∀ c ∈ symbol.toList, ¬ IsQuote c := by
  rw [provides_eq, symbols_eq] at h
  obtain ⟨place, hPlace, rfl⟩ := List.mem_map.mp h
  obtain ⟨-, name, -, hCall, -⟩ :=
    (((areCounted_provides content.toList).mem_iff place).mp hPlace).1
  exact hCall.unquoted

theorem unquoted_of_mem_requires {content symbol : String} (h : symbol ∈ requires content) :
    symbol ≠ "" ∧ ∀ c ∈ symbol.toList, ¬ IsQuote c := by
  rw [mem_requires, symbols_eq] at h
  obtain ⟨place, hPlace, rfl⟩ := List.mem_map.mp h
  obtain ⟨position, -, hCall, -⟩ :=
    (((areCounted_requires content.toList).mem_iff place).mp hPlace).1.call
  exact hCall.unquoted

/-- A text declares the symbols of its sites, in their order and with repetitions, without those
that an earlier one covers. There is always one such list of sites. So a text declares nothing if
and only if it has no site, and what it declares is never empty and holds no quotes. -/
theorem provides_counted (content : String) :
    ∃ places, (∀ others, AreCounted (IsProvideSite content.toList) others ↔ others = places) ∧
      provides content = places.map (fun place => String.ofList place.symbol) ∧
      (provides content = [] ↔ ∀ place, ¬ IsProvideSite content.toList place) ∧
      ∀ symbol ∈ provides content, symbol ≠ "" ∧ ∀ c ∈ symbol.toList, ¬ IsQuote c := by
  have hCounted := areCounted_provides content.toList
  have hProvides : provides content =
      (places provideAt? content.toList).map fun place => String.ofList place.symbol :=
    (provides_eq content).trans (symbols_eq provideAt? content)
  refine ⟨places provideAt? content.toList, fun others => ?_, hProvides, ?_, ?_⟩
  · exact ⟨fun hOthers => hOthers.unique hCounted, fun hSame => hSame ▸ hCounted⟩
  · rw [hProvides, List.map_eq_nil_iff]
    exact hCounted.eq_nil_iff
  · exact fun symbol => unquoted_of_mem_provides

/-- Either quote ends a symbol, and a symbol may end on a later line. -/
example : provides "goog.provide('a\x22);\ngoog.module(\x22b\n\x22);\ngoog.provide('a');" =
    ["a", "b\n", "a"] := by
  decide +kernel

/-- A text asks for the symbols of its sites, without those that an earlier one covers, each once
and in ascending order. There is always one such list of sites. -/
theorem requires_counted (content : String) :
    ∃ places, (∀ others, AreCounted (IsRequireSite content.toList) others ↔ others = places) ∧
      (requires content).Pairwise (· < ·) ∧
      ∀ symbol, symbol ∈ requires content ↔
        ∃ place ∈ places, symbol = String.ofList place.symbol := by
  have hCounted := areCounted_requires content.toList
  refine ⟨places requireAt? content.toList, fun others => ?_, pairwise_ascending _, ?_⟩
  · exact ⟨fun hOthers => hOthers.unique hCounted, fun hSame => hSame ▸ hCounted⟩
  · intro symbol
    rw [mem_requires, symbols_eq, List.mem_map]
    exact exists_congr fun place => and_congr_right fun _ => eq_comm

/-- The last assignment counts whose call has a symbol. -/
example : requires "var b = goog.require('c') = goog.require('b') = goog.require('');" = ["b"] := by
  decide +kernel

end ProvideIndex.Source
