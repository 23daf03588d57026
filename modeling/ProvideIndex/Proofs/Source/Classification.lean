import ProvideIndex.Proofs.Source.Declarations
import ProvideIndex.Source.Classify

/-!
# What makes a script what it is

The kind of a script follows from a few things that stand in its path and in its text: whether the
text declares a symbol, whether the path or the text marks it as one for tests, and whether it is
the body of a test. Each of these is said here by what stands where, and the searches for it find it
exactly then.

* `anyLine_iff`: a search of the lines of a text looks at each position that begins a line.
* `provides_eq_nil_iff`, `isTestOnly_iff`, `isUnitTest_iff`: what the searches find.
* `classify_iff`: the kind of a script, from what stands in it.
-/

namespace ProvideIndex.Source

open Text

variable {p : List Char → Bool} {word text : List Char} {lineStart : Bool}

/-! ### Searches -/

/-- A search of the lines of a text looks at the text itself if it begins a line, and at what stands
behind each line feed. -/
theorem anyLine_iff_or :
    anyLine p lineStart text = true ↔
      (lineStart = true ∧ p text = true) ∨
        ∃ before, text[before]? = some '\n' ∧ p (text.drop (before + 1)) = true := by
  induction text generalizing lineStart with
  | nil => simp [anyLine]
  | cons c text ih =>
    rw [anyLine, Bool.or_eq_true, Bool.and_eq_true, ih, beq_iff_eq]
    apply or_congr_right
    constructor
    · rintro (⟨rfl, h⟩ | ⟨before, hFeed, h⟩)
      · exact ⟨0, rfl, h⟩
      · exact ⟨before + 1, hFeed, h⟩
    · rintro ⟨before, hFeed, h⟩
      cases before with
      | zero => exact Or.inl ⟨Option.some.inj hFeed, h⟩
      | succ before => exact Or.inr ⟨before, hFeed, h⟩

theorem anyLine_iff :
    anyLine p true text = true ↔
      ∃ position, IsLineStart text position ∧ p (text.drop position) = true := by
  rw [anyLine_iff_or]
  constructor
  · rintro (⟨-, h⟩ | ⟨before, hFeed, h⟩)
    · exact ⟨0, trivial, h⟩
    · exact ⟨before + 1, hFeed, h⟩
  · rintro ⟨position, hLine, h⟩
    cases position with
    | zero => exact Or.inl ⟨rfl, h⟩
    | succ before => exact Or.inr ⟨before, hLine, h⟩

/-! ### Declared symbols -/

/-- At this line start stand the name of a declaration, a quote, and a character that is none. -/
def DeclaresAt (text : List Char) (position : Nat) : Prop :=
  IsLineStart text position ∧ ∃ name ∈ ["goog.provide(", "goog.module("], ∃ quote c,
    IsQuote quote ∧ ¬ IsQuote c ∧ name.toList ++ [quote, c] <+: text.drop position

/-- A call has a symbol as soon as one character of it stands behind the quote. -/
theorem exists_isCall_iff {name : String} :
    (∃ symbol, IsCall name symbol text) ↔ ∃ quote c, IsQuote quote ∧ ¬ IsQuote c ∧
      name.toList ++ [quote, c] <+: text := by
  constructor
  · rintro ⟨symbol, quote, rest, hQuote, rfl, hNonempty, hSymbol, -⟩
    cases symbol with
    | nil => exact absurd rfl hNonempty
    | cons c symbol =>
      refine ⟨quote, c, hQuote, hSymbol c (List.mem_cons_self ..), symbol ++ rest, ?_⟩
      rw [List.append_assoc]
      rfl
  · rintro ⟨quote, c, hQuote, hPlain, rest, rfl⟩
    have hRun : (c :: rest).takeWhile (fun x => !isQuote x) =
        c :: rest.takeWhile fun x => !isQuote x :=
      List.takeWhile_cons_of_pos (p := fun x => !isQuote x) (not_isQuote_iff.mpr hPlain)
    have hSymbol : quotedSymbol? (quote :: c :: rest) =
        some (c :: rest.takeWhile fun x => !isQuote x) := by
      rw [quotedSymbol?, hRun, isQuote_iff.mpr hQuote]
      rfl
    obtain ⟨other, behind, hOther, hText, hRest⟩ := quotedSymbol?_eq_some.mp hSymbol
    refine ⟨c :: rest.takeWhile fun x => !isQuote x, other, behind, hOther, ?_, hRest⟩
    rw [← hText, List.append_assoc]
    rfl

theorem exists_isProvideSite_iff :
    (∃ place, IsProvideSite text place) ↔ ∃ position, DeclaresAt text position := by
  constructor
  · rintro ⟨place, hLine, name, hName, hCall, -⟩
    exact ⟨place.start, hLine, name, hName, exists_isCall_iff.mp ⟨place.symbol, hCall⟩⟩
  · rintro ⟨position, hLine, name, hName, hFirst⟩
    obtain ⟨symbol, hCall⟩ := exists_isCall_iff.mpr hFirst
    exact ⟨⟨position, position + name.length + 1 + symbol.length, symbol⟩, hLine, name, hName,
      hCall, rfl⟩

theorem provides_eq_nil_iff {content : String} :
    provides content = [] ↔ ¬ ∃ position, DeclaresAt content.toList position := by
  rw [provides_eq, symbols_eq, List.map_eq_nil_iff, (areCounted_provides _).eq_nil_iff,
    ← exists_isProvideSite_iff, not_exists]

/-! ### Marks of tests -/

/-- A script is for tests by its path, or because a line of its text begins with a call that says
so. -/
def IsForTests (path : String) (text : List Char) : Prop :=
  "closure/goog/labs/testing/".toList <+: path.toList ∨
    path = "closure/goog/testing/net/mockiframeio.js" ∨
      ∃ position, IsLineStart text position ∧ "goog.setTestOnly(".toList <+: text.drop position

theorem isTestOnly_iff {path : String} : isTestOnly path text = true ↔ IsForTests path text := by
  rw [isTestOnly, isTestOnlyPath, Bool.or_eq_true, Bool.or_eq_true, startsWith_iff_isPrefix,
    beq_iff_eq, anyLine_iff, IsForTests, or_assoc]
  simp only [startsWith_iff_isPrefix]

/-- A text loads the test suite: between the opening parenthesis and the name of the suite stands any
one character, except the end of a line. -/
def LoadsTestSuite (text : List Char) : Prop :=
  ∃ c, c ≠ '\n' ∧ "goog.require(".toList ++ c :: "goog.testing.testSuite".toList <:+: text

theorem loadsTestSuite_iff :
    loadsTestSuite text = true ↔
      ∃ c, c ≠ '\n' ∧ "goog.require(".toList ++ c :: "goog.testing.testSuite".toList <+: text := by
  constructor
  · intro h
    rw [loadsTestSuite] at h
    split at h
    · rename_i c rest hAfter
      rw [Bool.and_eq_true, bne_iff_ne, startsWith_iff] at h
      obtain ⟨hFeed, behind, rfl⟩ := h
      refine ⟨c, hFeed, behind, ?_⟩
      rw [after?_eq_some.mp hAfter, List.append_assoc]
      rfl
    · cases h
  · rintro ⟨c, hFeed, behind, rfl⟩
    have hAfter : after? requireName
        ("goog.require(".toList ++ c :: "goog.testing.testSuite".toList ++ behind) =
          some (c :: ("goog.testing.testSuite".toList ++ behind)) := by
      rw [after?_eq_some, List.append_assoc]
      rfl
    rw [loadsTestSuite, hAfter]
    show (c != '\n' && startsWith "goog.testing.testSuite".toList _) = true
    rw [Bool.and_eq_true, bne_iff_ne, startsWith_iff]
    exact ⟨hFeed, behind, rfl⟩

theorem anyTail_loadsTestSuite_iff :
    anyTail loadsTestSuite text = true ↔ LoadsTestSuite text := by
  rw [anyTail_iff]
  simp only [loadsTestSuite_iff]
  constructor
  · rintro ⟨before, rest, rfl, c, hFeed, behind, rfl⟩
    exact ⟨c, hFeed, before, behind, List.append_assoc ..⟩
  · rintro ⟨c, hFeed, before, behind, rfl⟩
    exact ⟨before, _, List.append_assoc .., c, hFeed, behind, rfl⟩

/-- A text begins with these words, and the last of them ends there. -/
def BeginsWithWords (words text : List Char) : Prop :=
  ∃ rest, text = words ++ rest ∧ ∀ c, rest.head? = some c → isWordChar c = false

theorem declaresFunction_iff {name : String} :
    declaresFunction name text = true ↔
      BeginsWithWords ("function ".toList ++ name.toList) text := by
  rw [declaresFunction, BeginsWithWords]
  cases hAfter : after? ("function ".toList ++ name.toList) text with
  | none =>
    refine iff_of_false Bool.false_ne_true ?_
    rintro ⟨rest, hText, -⟩
    rw [after?_eq_some.mpr hText] at hAfter
    cases hAfter
  | some rest =>
    have hText : text = "function ".toList ++ name.toList ++ rest := after?_eq_some.mp hAfter
    subst hText
    simp only [List.append_cancel_left_eq, exists_eq_left']
    cases rest with
    | nil => simp
    | cons c rest => simp

/-- A line of the text declares a function that sets a test up or takes it down. -/
def DeclaresTestFunction (text : List Char) : Prop :=
  ∃ position, IsLineStart text position ∧ ∃ words ∈ ["function setUp", "function tearDown"],
    BeginsWithWords words.toList (text.drop position)

/-- A text is the body of a test. -/
def IsTestBody (text : List Char) : Prop := LoadsTestSuite text ∨ DeclaresTestFunction text

theorem isUnitTest_iff : isUnitTest text = true ↔ IsTestBody text := by
  rw [isUnitTest, Bool.or_eq_true, anyTail_loadsTestSuite_iff, anyLine_iff, IsTestBody,
    DeclaresTestFunction]
  simp only [Bool.or_eq_true, declaresFunction_iff, List.mem_cons, List.not_mem_nil, or_false,
    exists_eq_or_imp, exists_eq_left]
  rfl

/-! ### The kind of a script -/

section Kinds

variable {path content : String}

theorem classify_of_none (h : provides content = []) : classify path content = .raw := by
  rw [classify, h]
  rfl

theorem classify_of_test (hDeclares : provides content ≠ [])
    (h : IsForTests path content.toList ∧ IsTestBody content.toList) :
    classify path content = .unitTest := by
  have hNonempty : (provides content).isEmpty = false := List.isEmpty_eq_false_iff.mpr hDeclares
  simp only [classify, hNonempty, isTestOnly_iff.mpr h.1, isUnitTest_iff.mpr h.2]
  rfl

theorem classify_of_library (hDeclares : provides content ≠ [])
    (h : ¬ (IsForTests path content.toList ∧ IsTestBody content.toList)) :
    classify path content =
      .library (provides content) (requires content) (isTestOnly path content.toList) := by
  have hNonempty : (provides content).isEmpty = false := List.isEmpty_eq_false_iff.mpr hDeclares
  have hOther : ¬ (isTestOnly path content.toList && isUnitTest content.toList) = true := by
    rw [Bool.and_eq_true, isTestOnly_iff, isUnitTest_iff]
    exact h
  simp only [classify, hNonempty, hOther, Bool.false_eq_true, if_false]

end Kinds

/-- A script without declarations is raw. A script for tests that is the body of a test is a unit
test. Every other script is a library, with what it declares, which is not nothing, and what it asks
for; so no library is both. -/
theorem classify_iff (path content : String) :
    (classify path content = .raw ↔ ¬ ∃ position, DeclaresAt content.toList position) ∧
    (classify path content = .unitTest ↔ (∃ position, DeclaresAt content.toList position) ∧
      IsForTests path content.toList ∧ IsTestBody content.toList) ∧
    (∀ declared required testOnly, classify path content = .library declared required testOnly ↔
      (∃ position, DeclaresAt content.toList position) ∧
        ¬ (IsForTests path content.toList ∧ IsTestBody content.toList) ∧
        declared = provides content ∧ declared ≠ [] ∧ required = requires content ∧
        (testOnly = true ↔ IsForTests path content.toList)) ∧
    ¬ ∃ declared required, classify path content = .library declared required true ∧
      IsTestBody content.toList := by
  by_cases hDeclares : ∃ position, DeclaresAt content.toList position
  · have hNonempty : provides content ≠ [] := mt provides_eq_nil_iff.mp (not_not.mpr hDeclares)
    by_cases hTest : IsForTests path content.toList ∧ IsTestBody content.toList
    · rw [classify_of_test hNonempty hTest]
      simp [hDeclares, hTest]
    · rw [classify_of_library hNonempty hTest]
      refine ⟨by simp [hDeclares], by simp [hTest], ?_, ?_⟩
      · intro declared required testOnly
        have hMark : (testOnly = true ↔ IsForTests path content.toList) ↔
            testOnly = isTestOnly path content.toList := by
          rw [← isTestOnly_iff, ← Bool.eq_iff_iff]
        rw [Kind.library.injEq, hMark]
        constructor
        · rintro ⟨rfl, rfl, rfl⟩
          exact ⟨hDeclares, hTest, rfl, hNonempty, rfl, rfl⟩
        · rintro ⟨-, -, rfl, -, rfl, rfl⟩
          exact ⟨rfl, rfl, rfl⟩
      · rintro ⟨declared, required, hKind, hBody⟩
        obtain ⟨-, -, hMark⟩ := Kind.library.inj hKind
        exact hTest ⟨isTestOnly_iff.mp hMark, hBody⟩
  · rw [classify_of_none (provides_eq_nil_iff.mpr hDeclares)]
    simp [hDeclares]

/-- The name of a function goes on with a digit, so this is not the body of a test. -/
example : classify "closure/goog/a.js"
    "goog.module('a');\ngoog.setTestOnly();\nfunction setUp2() {}\n" = .library ["a"] [] true := by
  decide +kernel

end ProvideIndex.Source
