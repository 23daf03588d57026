import ProvideIndex.Proofs.Source.Classification

/-!
# Well-formed files

What holds of every file of an index. It stands below a scan root, its path alone decides whether it
is left out or an asset, and what a library declares and asks for are symbols, which are not empty
and hold no quotes.

* `isIgnoredPath_iff`: which paths are left out.
* `File.IsWellFormed`: the invariant, and what it says of a library.
* `isWellFormed_ignored`, `isWellFormed_asset`, `isWellFormed_raw`, `isWellFormed_classify`: it
  holds of files of every kind.
-/

namespace ProvideIndex.Source

open Text

/-! ### Paths -/

/-- Whether a file is left out because of its path. -/
def IsLeftOut (path : String) : Prop :=
  (∃ part ∈ ["_perf", "_test", "/demos/", "/testdata/"], part.toList <:+: path.toList) ∨
    path ∈ ["closure/goog/base.js", "closure/goog/deps.js",
      "closure/goog/transitionalforwarddeclarations.js", "closure/goog/transpile.js"] ∨
    ∃ start ∈ ["closure/goog/debug_loader_integration_tests/", "third_party/closure/goog/osapi"],
      start.toList <+: path.toList

theorem isIgnoredPath_iff {path : String} : isIgnoredPath path = true ↔ IsLeftOut path := by
  rw [isIgnoredPath, Bool.or_eq_true, Bool.or_eq_true, List.any_eq_true, List.any_eq_true,
    List.contains_iff_mem, or_assoc]
  simp only [contains_iff_isInfix, startsWith_iff_isPrefix]
  rfl

theorem isScriptPath_iff {path : String} :
    isScriptPath path = true ↔ ".js".toList <:+ path.toList :=
  endsWith_iff_isSuffix

/-- Whether a path stands below a scan root. -/
def IsBelowRoot (path : String) : Prop :=
  "closure/goog/".toList <+: path.toList ∨ "third_party/closure/goog/".toList <+: path.toList

theorem IsBelowRoot.slash_mem {path : String} (h : IsBelowRoot path) : '/' ∈ path.toList := by
  rcases h with h | h
  · exact h.subset (by decide)
  · exact h.subset (by decide)

theorem IsBelowRoot.head?_ne {path : String} (h : IsBelowRoot path) :
    path.toList.head? ≠ some '/' := by
  rcases h with ⟨rest, h⟩ | ⟨rest, h⟩
  · rw [← h]
    exact fun hHead => absurd (Option.some.inj hHead) (by decide)
  · rw [← h]
    exact fun hHead => absurd (Option.some.inj hHead) (by decide)

/-! ### Files -/

/-- Whether a text can be declared: it is not empty and holds no quotes. -/
def IsSymbol (symbol : String) : Prop := symbol ≠ "" ∧ ∀ c ∈ symbol.toList, ¬ IsQuote c

/-- What holds of all that a library declares and of all that it asks for. -/
structure AreSymbols (provides requires : List String) : Prop where
  nonempty : provides ≠ []
  provided : ∀ symbol ∈ provides, IsSymbol symbol
  ascending : requires.Pairwise (· < ·)
  required : ∀ symbol ∈ requires, IsSymbol symbol

theorem areSymbols {content : String} (h : provides content ≠ []) :
    AreSymbols (provides content) (requires content) where
  nonempty := h
  provided := fun _ => unquoted_of_mem_provides
  ascending := pairwise_ascending _
  required := fun _ => unquoted_of_mem_requires

namespace File

/-- The path of a file alone decides whether it is left out or an asset, and a library declares and
asks for symbols. -/
structure IsWellFormed (file : File) : Prop where
  below : IsBelowRoot file.path
  ignored_iff : file.kind = .ignored ↔ IsLeftOut file.path
  asset_iff : file.kind = .asset ↔ ¬ IsLeftOut file.path ∧ ¬ ".js".toList <:+ file.path.toList
  library : ∀ provides requires testOnly, file.kind = .library provides requires testOnly →
    AreSymbols provides requires

variable {file : File}

theorem plain_of_isRaw (h : file.isRaw = true) : file.requires = [] ∧ file.isTestOnly = false := by
  obtain ⟨path, kind⟩ := file
  cases kind with
  | raw => exact ⟨rfl, rfl⟩
  | ignored | unitTest | asset | library => cases h

namespace IsWellFormed

/-- Of the libraries, those that are raw declare nothing. -/
theorem isRaw_iff (h : file.IsWellFormed) (hLibrary : file.isLibrary = true) :
    file.isRaw = true ↔ file.provides = [] := by
  obtain ⟨path, kind⟩ := file
  cases kind with
  | ignored | unitTest | asset => cases hLibrary
  | raw => exact iff_of_true rfl rfl
  | library provides requires testOnly =>
    exact iff_of_false Bool.false_ne_true (h.library provides requires testOnly rfl).nonempty

theorem isScriptPath (h : file.IsWellFormed) (hLibrary : file.isLibrary = true) :
    isScriptPath file.path = true := by
  have hKept : ¬ IsLeftOut file.path := by
    intro hLeft
    rw [isLibrary, h.ignored_iff.mpr hLeft] at hLibrary
    cases hLibrary
  rw [isScriptPath_iff]
  by_contra hScript
  rw [isLibrary, h.asset_iff.mpr ⟨hKept, hScript⟩] at hLibrary
  cases hLibrary

end IsWellFormed

end File

section

variable {path : String} {kind : Kind}

theorem isWellFormed_ignored (hBelow : IsBelowRoot path) (h : IsLeftOut path) :
    (File.mk path .ignored).IsWellFormed where
  below := hBelow
  ignored_iff := iff_of_true rfl h
  asset_iff := iff_of_false (fun hKind => by cases hKind) fun hAsset => hAsset.1 h
  library := fun _ _ _ hKind => by cases hKind

theorem isWellFormed_asset (hBelow : IsBelowRoot path) (hKept : ¬ IsLeftOut path)
    (hScript : ¬ ".js".toList <:+ path.toList) : (File.mk path .asset).IsWellFormed where
  below := hBelow
  ignored_iff := iff_of_false (fun hKind => by cases hKind) hKept
  asset_iff := iff_of_true rfl ⟨hKept, hScript⟩
  library := fun _ _ _ hKind => by cases hKind

/-- A script that is kept is well formed unless its path was misread or its symbols are none. -/
theorem isWellFormed_script (hBelow : IsBelowRoot path) (hKept : ¬ IsLeftOut path)
    (hScript : ".js".toList <:+ path.toList) (hIgnored : kind ≠ .ignored) (hAsset : kind ≠ .asset)
    (hLibrary : ∀ provides requires testOnly, kind = .library provides requires testOnly →
      AreSymbols provides requires) : (File.mk path kind).IsWellFormed where
  below := hBelow
  ignored_iff := iff_of_false hIgnored hKept
  asset_iff := iff_of_false hAsset fun h => h.2 hScript
  library := hLibrary

theorem isWellFormed_raw (hBelow : IsBelowRoot path) (hKept : ¬ IsLeftOut path)
    (hScript : ".js".toList <:+ path.toList) : (File.mk path .raw).IsWellFormed :=
  isWellFormed_script hBelow hKept hScript (fun h => by cases h) (fun h => by cases h)
    fun _ _ _ h => by cases h

theorem isWellFormed_classify (hBelow : IsBelowRoot path) (hKept : ¬ IsLeftOut path)
    (hScript : ".js".toList <:+ path.toList) (content : String) :
    (File.mk path (classify path content)).IsWellFormed := by
  by_cases hNone : provides content = []
  · rw [classify_of_none hNone]
    exact isWellFormed_raw hBelow hKept hScript
  · by_cases hTest : IsForTests path content.toList ∧ IsTestBody content.toList
    · rw [classify_of_test hNone hTest]
      exact isWellFormed_script hBelow hKept hScript (fun h => by cases h) (fun h => by cases h)
        fun _ _ _ h => by cases h
    · rw [classify_of_library hNone hTest]
      refine isWellFormed_script hBelow hKept hScript (fun h => by cases h) (fun h => by cases h) ?_
      intro declared required testOnly hKind
      obtain ⟨rfl, rfl, -⟩ := Kind.library.inj hKind
      exact areSymbols hNone

end

end ProvideIndex.Source
