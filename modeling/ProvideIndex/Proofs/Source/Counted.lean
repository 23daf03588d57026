import Mathlib.Data.List.Sort
import ProvideIndex.Source.Declaration

/-!
# Sites that count

A text is searched for sites from left to right. A site stands at the beginning of a line and covers
what is read with it, up to the end of its symbol; a site that an earlier one covers does not count.
This says of every text which of its sites count, without saying how they are searched for.

* `AreCounted`: which places count, for any notion of a site.
* `AreCounted.unique`: they are determined by what a site is.
* `areCounted_places`, `symbols_places`: the search finds the places that count.
-/

namespace ProvideIndex.Source

/-- Where a site begins, where its symbol ends, and the symbol. -/
@[ext] structure Place where
  start : Nat
  stop : Nat
  symbol : List Char
  deriving DecidableEq, Repr

/-- Whether a position lies behind the beginning of a place, and before its end. -/
def Place.Covers (place : Place) (position : Nat) : Prop :=
  place.start < position ∧ position < place.stop

/-- A line begins where the text begins and behind each line feed. -/
def IsLineStart (text : List Char) : Nat → Prop
  | 0 => True
  | before + 1 => text[before]? = some '\n'

/-- The sites that count, in the order of the text: all those that no site that counts covers. -/
structure AreCounted (isSite : Place → Prop) (places : List Place) : Prop where
  ascending : places.Pairwise fun first second => first.start < second.start
  mem_iff (place : Place) :
    place ∈ places ↔ isSite place ∧ ∀ earlier ∈ places, ¬ earlier.Covers place.start

namespace AreCounted

variable {isSite : Place → Prop} {places others : List Place}

theorem same_members (h : AreCounted isSite places) (hOthers : AreCounted isSite others)
    (place : Place) : place ∈ places ↔ place ∈ others := by
  induction hStart : place.start using Nat.strong_induction_on generalizing place with
  | _ start ih =>
    rw [h.mem_iff, hOthers.mem_iff]
    apply and_congr_right
    intro _
    -- What covers the place begins earlier, so it is in both lists or in neither.
    constructor
    · intro hFree earlier hMem hCovers
      exact hFree earlier ((ih earlier.start (hStart ▸ hCovers.1) earlier rfl).mpr hMem) hCovers
    · intro hFree earlier hMem hCovers
      exact hFree earlier ((ih earlier.start (hStart ▸ hCovers.1) earlier rfl).mp hMem) hCovers

theorem unique (h : AreCounted isSite places) (hOthers : AreCounted isSite others) :
    places = others := by
  have : Std.Irrefl fun first second : Place => first.start < second.start :=
    ⟨fun place => Nat.lt_irrefl place.start⟩
  have : Std.Antisymm fun first second : Place => first.start < second.start :=
    ⟨fun _ _ hLess hMore => absurd hLess (Nat.lt_asymm hMore)⟩
  exact h.ascending.eq_of_mem_iff hOthers.ascending (h.same_members hOthers)

theorem congr {isSame : Place → Prop} (h : AreCounted isSite places)
    (hSame : ∀ place, isSame place ↔ isSite place) : AreCounted isSame places where
  ascending := h.ascending
  mem_iff place := by rw [h.mem_iff, hSame]

theorem eq_nil_iff (h : AreCounted isSite places) :
    places = [] ↔ ∀ place, ¬ isSite place := by
  constructor
  · rintro rfl place hSite
    have hMem := (h.mem_iff place).mpr ⟨hSite, fun _ hNone => by cases hNone⟩
    cases hMem
  · intro hNone
    refine List.eq_nil_iff_forall_not_mem.mpr ?_
    intro place hMem
    exact hNone place ((h.mem_iff place).mp hMem).1

theorem nil (hNone : ∀ place, ¬ isSite place) : AreCounted isSite [] where
  ascending := List.Pairwise.nil
  mem_iff place := by
    constructor
    · intro hMem
      cases hMem
    · intro h
      exact absurd h.1 (hNone place)

/-- Where no site begins, those that count begin further on. -/
theorem later {bound : Nat}
    (h : AreCounted (fun place => isSite place ∧ bound + 1 ≤ place.start) places)
    (hNone : ∀ place, isSite place → place.start ≠ bound) :
    AreCounted (fun place => isSite place ∧ bound ≤ place.start) places := by
  refine h.congr fun place => and_congr_right ?_
  intro hSite
  have hOther := hNone place hSite
  omega

/-- A first site counts, and covers the others up to its end. -/
theorem cons {first : Place} (hFirst : isSite first) (hStop : first.start < first.stop)
    (hOnly : ∀ place, isSite place → place.start = first.start → place = first)
    (h : AreCounted (fun place => isSite place ∧ first.stop ≤ place.start) places) :
    AreCounted (fun place => isSite place ∧ first.start ≤ place.start) (first :: places) := by
  have hBehind : ∀ place ∈ places, first.stop ≤ place.start :=
    fun place hMem => ((h.mem_iff place).mp hMem).1.2
  refine ⟨?_, ?_⟩
  · refine List.pairwise_cons.mpr ⟨?_, h.ascending⟩
    intro place hMem
    exact hStop.trans_le (hBehind place hMem)
  · intro place
    rw [List.mem_cons, h.mem_iff]
    simp only [List.forall_mem_cons]
    constructor
    · rintro (rfl | ⟨⟨hSite, hStart⟩, hFree⟩)
      · refine ⟨⟨hFirst, Nat.le_refl _⟩, fun hCovers => Nat.lt_irrefl _ hCovers.1, ?_⟩
        intro later hMem hCovers
        have hLater := hBehind later hMem
        have hEarlier := hCovers.1
        omega
      · exact ⟨⟨hSite, by omega⟩, fun hCovers => absurd hCovers.2 (by omega), hFree⟩
    · rintro ⟨⟨hSite, hStart⟩, hFree, hMore⟩
      by_cases hSame : place.start = first.start
      · exact Or.inl (hOnly place hSite hSame)
      · refine Or.inr ⟨⟨hSite, ?_⟩, hMore⟩
        by_contra hInside
        exact hFree ⟨by omega, by omega⟩

end AreCounted

/-! ### The search -/

/-- What is read at the beginning of a text: some of its characters, with a symbol among them. -/
structure IsReader (siteAt? : List Char → Option Site) : Prop where
  length_pos {text : List Char} {site : Site} (h : siteAt? text = some site) : 0 < site.length
  length_le {text : List Char} {site : Site} (h : siteAt? text = some site) :
    site.length ≤ text.length
  subset {text : List Char} {site : Site} (h : siteAt? text = some site) : site.symbol ⊆ text

theorem IsReader.nil {siteAt? : List Char → Option Site} (hReader : IsReader siteAt?) :
    siteAt? [] = none := by
  cases h : siteAt? [] with
  | none => rfl
  | some site => exact absurd (hReader.length_le h) (Nat.not_le.mpr (hReader.length_pos h))

/-- A site that is read at a place of the text. -/
def IsSiteAt (siteAt? : List Char → Option Site) (text : List Char) (place : Place) : Prop :=
  IsLineStart text place.start ∧ ∃ length,
    siteAt? (text.drop place.start) = some ⟨place.symbol, length⟩ ∧
      place.stop = place.start + length

theorem IsSiteAt.unique {siteAt? : List Char → Option Site} {text : List Char} {place other : Place}
    (h : IsSiteAt siteAt? text place) (hOther : IsSiteAt siteAt? text other)
    (hSame : place.start = other.start) : place = other := by
  obtain ⟨-, length, hSite, hStop⟩ := h
  obtain ⟨-, otherLength, hOtherSite, hOtherStop⟩ := hOther
  rw [hSame, hOtherSite, Option.some.injEq, Site.mk.injEq] at hSite
  have hStops : place.stop = other.stop := by
    rw [hStop, hOtherStop, hSame, hSite.2]
  exact Place.ext hSame hStops hSite.1.symm

/-- The sites that `sitesFrom` finds in a text, which stands at `start` in a longer one. -/
def placesFrom (siteAt? : List Char → Option Site) (start skip : Nat) (lineStart : Bool) :
    List Char → List Place
  | [] => []
  | c :: text =>
    match skip with
    | skip + 1 => placesFrom siteAt? (start + 1) skip (c == '\n') text
    | 0 =>
      if lineStart then
        match siteAt? (c :: text) with
        | some site =>
          ⟨start, start + site.length, site.symbol⟩ ::
            placesFrom siteAt? (start + 1) (site.length - 1) (c == '\n') text
        | none => placesFrom siteAt? (start + 1) 0 (c == '\n') text
      else placesFrom siteAt? (start + 1) 0 (c == '\n') text

def places (siteAt? : List Char → Option Site) (text : List Char) : List Place :=
  placesFrom siteAt? 0 0 true text

variable {siteAt? : List Char → Option Site} {whole text : List Char} {start skip : Nat}
  {lineStart : Bool}

theorem symbols_placesFrom (siteAt? : List Char → Option Site) (start skip : Nat)
    (lineStart : Bool) (text : List Char) :
    (placesFrom siteAt? start skip lineStart text).map (·.symbol) =
      (sitesFrom siteAt? skip lineStart text).map (·.symbol) := by
  induction text generalizing start skip lineStart with
  | nil => rfl
  | cons c text ih =>
    cases skip with
    | succ skip => exact ih (start + 1) skip (c == '\n')
    | zero =>
      rw [placesFrom, sitesFrom]
      cases lineStart with
      | false => exact ih (start + 1) 0 (c == '\n')
      | true =>
        cases siteAt? (c :: text) with
        | none => exact ih (start + 1) 0 (c == '\n')
        | some site =>
          exact congrArg (site.symbol :: ·) (ih (start + 1) (site.length - 1) (c == '\n'))

theorem symbols_places (siteAt? : List Char → Option Site) (text : List Char) :
    (places siteAt? text).map (·.symbol) = (sites siteAt? text).map (·.symbol) :=
  symbols_placesFrom siteAt? 0 0 true text

/-- The rest of a text and its position, one character further. -/
theorem drop_succ_of_drop {c : Char} (hText : whole.drop start = c :: text) :
    whole.drop (start + 1) = text ∧
      ((c == '\n') = true ↔ IsLineStart whole (start + 1)) := by
  have hHead : whole[start]? = some c := by
    rw [← Nat.add_zero start, ← List.getElem?_drop, hText, List.getElem?_cons_zero]
  refine ⟨?_, ?_⟩
  · rw [← List.drop_drop, hText, List.drop_succ_cons, List.drop_zero]
  · rw [IsLineStart, hHead, beq_iff_eq, Option.some.injEq]

theorem areCounted_placesFrom (hReader : IsReader siteAt?) (skip : Nat)
    (hText : whole.drop start = text) (hLine : lineStart = true ↔ IsLineStart whole start) :
    AreCounted (fun place => IsSiteAt siteAt? whole place ∧ start + skip ≤ place.start)
      (placesFrom siteAt? start skip lineStart text) := by
  induction text generalizing start skip lineStart with
  | nil =>
    apply AreCounted.nil
    rintro place ⟨⟨-, length, hSite, -⟩, hStart⟩
    have hEnd : whole.drop place.start = [] :=
      List.drop_eq_nil_of_le ((List.drop_eq_nil_iff.mp hText).trans (by omega))
    rw [hEnd, hReader.nil] at hSite
    cases hSite
  | cons c text ih =>
    obtain ⟨hRest, hNext⟩ := drop_succ_of_drop hText
    cases skip with
    | succ skip =>
      have h := ih skip hRest hNext
      exact h.congr fun place => and_congr_right fun _ => by omega
    | zero =>
      rw [placesFrom]
      by_cases hStart : lineStart = true
      · rw [if_pos hStart]
        cases hFound : siteAt? (c :: text) with
        | none =>
          apply (ih 0 hRest hNext).later
          rintro place ⟨-, length, hSite, -⟩ hHere
          rw [hHere, hText, hFound] at hSite
          cases hSite
        | some site =>
          have hPositive := hReader.length_pos hFound
          have hFirst : IsSiteAt siteAt? whole ⟨start, start + site.length, site.symbol⟩ :=
            ⟨hLine.mp hStart, site.length, hText ▸ hFound, rfl⟩
          have hLater := ih (site.length - 1) hRest hNext
          refine AreCounted.cons hFirst (by simpa using hPositive) ?_ (hLater.congr ?_)
          · intro place hSite hSame
            exact hSite.unique hFirst hSame
          · intro place
            apply and_congr_right
            intro _
            show start + site.length ≤ place.start ↔ _
            omega
      · rw [if_neg hStart]
        apply (ih 0 hRest hNext).later
        intro place hSite hHere
        exact hStart (hLine.mpr (hHere ▸ hSite.1))

/-- What the search finds are the sites that count. -/
theorem areCounted_places (hReader : IsReader siteAt?) (text : List Char) :
    AreCounted (IsSiteAt siteAt? text) (places siteAt? text) := by
  have hText : text.drop 0 = text := rfl
  have hLine : true = true ↔ IsLineStart text 0 := iff_of_true rfl trivial
  have hCounted := areCounted_placesFrom hReader 0 hText hLine
  exact hCounted.congr fun place => (and_iff_left (Nat.zero_le _)).symm

end ProvideIndex.Source
