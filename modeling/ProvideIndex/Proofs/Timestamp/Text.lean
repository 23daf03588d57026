import ProvideIndex.Proofs.Text.Numerals
import ProvideIndex.Proofs.Text.Run
import ProvideIndex.Proofs.Timestamp.Calendar

/-!
# Points in time as texts

The strict form that is written for a point in time is read back as that point.

* `IsValid`: the points in time that there are.
* `number?_padded`, `field?_padded`, `fraction?_fractionText`: the parts of a text, read back.
* `ofText?_text`: the whole text, read back.
-/

namespace ProvideIndex.Timestamp

open Text

/-- Whether a point in time is one: its second belongs to a day, and its nanoseconds go past a
second only in a leap second, which ends a minute. -/
structure IsValid (t : Timestamp) : Prop where
  second : t.second < 86400
  nanosecond : t.nanosecond < 2000000000
  leap : 1000000000 ≤ t.nanosecond → t.second % 60 = 59
  year : isYearInRange (civilOfDay t.day).year = true

variable {width n : Nat} {rest : List Char}

/-! ### Digits of a fixed width -/

theorem isDigit_of_mem_padded {c : Char} (h : c ∈ padded width n) : c.isDigit = true := by
  rcases List.mem_append.mp h with h | h
  · exact isDigit_of_mem_zeros h
  · exact isDigit_of_mem_toDigits h

theorem natural_padded (width n : Nat) : natural (padded width n) = n := by
  rw [padded, natural_zeros_append, natural_toDigits]

theorem length_padded (hWidth : 0 < width) (h : n < 10 ^ width) :
    (padded width n).length = width := by
  have hLength := (Nat.length_toDigits_le_iff (b := 10) (by decide) hWidth).mpr h
  rw [padded, List.length_append, List.length_replicate]
  omega

theorem padded_ne_nil (width n : Nat) : padded width n ≠ [] :=
  List.append_ne_nil_of_right_ne_nil _ Nat.toDigits_ne_nil

theorem number?_padded {most : Nat} (hRest : Stops Char.isDigit rest) (hFits : n < 1 <<< 63)
    (hMost : (padded width n).length ≤ most) :
    number? most (padded width n ++ rest) = some (n, rest) := by
  have hTaken : ((padded width n ++ rest).takeWhile Char.isDigit).take most = padded width n := by
    rw [takeWhile_append_stop (fun c hMem => isDigit_of_mem_padded hMem) hRest,
      List.take_of_length_le hMost]
  have hEmpty : (padded width n).isEmpty = false :=
    List.isEmpty_eq_false_iff.mpr (padded_ne_nil width n)
  have hNotBig : decide (1 <<< 63 ≤ n) = false := decide_eq_false (Nat.not_le.mpr hFits)
  simp only [number?, hTaken, natural_padded, hEmpty, hNotBig, Bool.or_false, List.drop_left]
  rfl

/-- A text that begins with a digit or a mark has no blanks to leave out. -/
theorem trimStart_of_head {c : Char} (h : isBlank c = false) (rest : List Char) :
    trimStart (c :: rest) = c :: rest :=
  dropWhile_of_stops (stops_cons h)

theorem isBlank_of_isDigit {c : Char} (h : c.isDigit = true) : isBlank c = false := by
  have hRange : 48 ≤ c.toNat ∧ c.toNat ≤ 57 := Char.isDigit_iff_toNat.mp h
  obtain ⟨hLow, hHigh⟩ := hRange
  rw [isBlank]
  simp only [Bool.or_eq_false_iff, Bool.and_eq_false_iff, beq_eq_false_iff_ne,
    decide_eq_false_iff_not]
  omega

theorem trimStart_padded (width n : Nat) (rest : List Char) :
    trimStart (padded width n ++ rest) = padded width n ++ rest := by
  obtain ⟨c, more, hHead⟩ := List.exists_cons_of_ne_nil (padded_ne_nil width n)
  have hDigit : c.isDigit = true :=
    isDigit_of_mem_padded (hHead ▸ List.mem_cons_self ..)
  rw [hHead, List.cons_append, trimStart_of_head (isBlank_of_isDigit hDigit)]

theorem field?_padded {least most : Nat} (hRest : Stops Char.isDigit rest) (hLeast : least ≤ n)
    (hMost : n ≤ most) (hSmall : n < 100) :
    field? least most (padded 2 n ++ rest) = some (n, rest) := by
  have hLength : (padded 2 n).length ≤ 2 := (length_padded (by decide) hSmall).le
  have hFits : n < 1 <<< 63 := hSmall.trans (by decide)
  rw [field?, trimStart_padded, number?_padded hRest hFits hLength]
  simp [hLeast, hMost]

theorem mark?_cons {c : Char} (h : isBlank c = false) (rest : List Char) :
    mark? c (c :: rest) = some rest := by
  rw [mark?, trimStart_of_head h]
  exact after?_eq_some.mpr rfl

/-! ### The parts of a text -/

/-- What follows a part of a text does not begin with a digit. -/
theorem stops_mark {c : Char} (h : c.isDigit = false) : Stops Char.isDigit (c :: rest) :=
  stops_cons h

theorem year?_yearText {year : Int} (h : isYearInRange year = true)
    (hRest : Stops Char.isDigit rest) : year? (yearText year ++ rest) = some (year, rest) := by
  have hRange : -262143 ≤ year ∧ year ≤ 262142 := by
    simpa only [isYearInRange, Bool.and_eq_true, decide_eq_true_eq] using h
  have hNumber : number? (padded 4 year.natAbs ++ rest).length (padded 4 year.natAbs ++ rest) =
      some (year.natAbs, rest) := by
    refine number?_padded hRest (by omega) ?_
    rw [List.length_append]
    exact Nat.le_add_right ..
  rw [yearText]
  split
  case isTrue hPlain =>
    obtain ⟨c, more, hHead⟩ := List.exists_cons_of_ne_nil (padded_ne_nil 4 year.toNat)
    have hDigit : c.isDigit = true := isDigit_of_mem_padded (hHead ▸ List.mem_cons_self ..)
    have hMinus : c ≠ '-' := by
      rintro rfl
      cases hDigit
    have hPlus : c ≠ '+' := by
      rintro rfl
      cases hDigit
    have hLength : (padded 4 year.toNat).length ≤ 4 := (length_padded (by decide) (by omega)).le
    have hShort : number? 4 (padded 4 year.toNat ++ rest) = some (year.toNat, rest) :=
      number?_padded hRest (by omega) hLength
    have hYear : (year.toNat : Int) = year := by omega
    rw [year?, trimStart_padded]
    rw [hHead] at hShort ⊢
    split
    case h_1 hText => exact absurd (List.cons_eq_cons.mp hText).1 hMinus
    case h_2 hText => exact absurd (List.cons_eq_cons.mp hText).1 hPlus
    case h_3 => simp only [hShort, Option.map_some, hYear]
  case isFalse hSigned =>
    by_cases hNegative : year < 0
    · have hYear : -(year.natAbs : Int) = year := by omega
      rw [if_pos hNegative, List.cons_append, year?, trimStart_of_head (by decide)]
      simp only [hNumber, Option.map_some, hYear]
    · have hYear : (year.natAbs : Int) = year := by omega
      rw [if_neg hNegative, List.cons_append, year?, trimStart_of_head (by decide)]
      simp only [hNumber, Option.map_some, hYear]

/-- A fraction of a few digits is the digits with the zeros that were left out. -/
theorem fraction?_padded (hWidth : 0 < width) (hMost : width ≤ 9) (h : n < 10 ^ width)
    (hRest : Stops Char.isDigit rest) :
    fraction? ('.' :: (padded width n ++ rest)) = some (n * 10 ^ (9 - width), rest) := by
  have hLength := length_padded hWidth h
  have hTaken : (padded width n ++ rest).takeWhile Char.isDigit = padded width n :=
    takeWhile_append_stop (fun c hMem => isDigit_of_mem_padded hMem) hRest
  have hKept : (padded width n).take 9 = padded width n := List.take_of_length_le (by omega)
  have hEmpty : (padded width n).isEmpty = false :=
    List.isEmpty_eq_false_iff.mpr (padded_ne_nil width n)
  have hDrop : (padded width n ++ rest).drop width = rest := List.drop_left' hLength
  simp only [fraction?, hTaken, hKept, hEmpty, hLength, natural_append_zeros, natural_padded,
    Bool.false_eq_true, if_false, hDrop]

theorem fraction?_fractionText (h : n < 1000000000) (hRest : Stops Char.isDigit rest)
    (hPoint : rest.head? ≠ some '.') : fraction? (fractionText n ++ rest) = some (n, rest) := by
  rw [fractionText]
  split
  case isTrue hZero =>
    subst hZero
    rw [List.nil_append, fraction?]
    rintro more rfl
    exact hPoint rfl
  case isFalse =>
    split
    case isTrue hMilli =>
      have hRead : fraction? ('.' :: (padded 3 (n / 1000000) ++ rest)) = _ :=
        fraction?_padded (by decide) (by decide) (by omega) hRest
      have hBack : n / 1000000 * 10 ^ (9 - 3) = n := by omega
      rwa [hBack] at hRead
    case isFalse =>
      split
      case isTrue hMicro =>
        have hRead : fraction? ('.' :: (padded 6 (n / 1000) ++ rest)) = _ :=
          fraction?_padded (by decide) (by decide) (by omega) hRest
        have hBack : n / 1000 * 10 ^ (9 - 6) = n := by omega
        rwa [hBack] at hRead
      case isFalse =>
        have hRead : fraction? ('.' :: (padded 9 n ++ rest)) = _ :=
          fraction?_padded (by decide) (by decide) (by omega) hRest
        have hBack : n * 10 ^ (9 - 9) = n := by omega
        rwa [hBack] at hRead

/-! ### The whole text -/

theorem bind_of_eq {α β : Type} {option : Option α} {a : α} (h : option = some a)
    (f : α → Option β) : (option >>= f) = f a := by
  rw [h]
  rfl

theorem toList_text (t : Timestamp) :
    t.text.toList = yearText (civilOfDay t.day).year ++ '-' ::
      (padded 2 (civilOfDay t.day).month ++ '-' :: (padded 2 (civilOfDay t.day).day ++ 'T' ::
        (padded 2 (t.second / 3600) ++ ':' :: (padded 2 (t.second / 60 % 60) ++ ':' ::
          (padded 2 (t.second % 60 + t.nanosecond / 1000000000) ++
            (fractionText (t.nanosecond % 1000000000) ++ ['Z'])))))) := by
  rw [text, String.toList_ofList]
  simp only [List.append_assoc, List.cons_append]

/-- In a leap second the sixtieth second stands for the nanoseconds past a whole one. -/
theorem leap_second {t : Timestamp} (h : t.IsValid) :
    (if t.second % 60 + t.nanosecond / 1000000000 = 60 then
        (59, t.nanosecond % 1000000000 + 1000000000)
      else (t.second % 60 + t.nanosecond / 1000000000, t.nanosecond % 1000000000)) =
      (t.second % 60, t.nanosecond) := by
  have hNanosecond := h.nanosecond
  have hLeap := h.leap
  split
  case isTrue hSixty => exact Prod.ext (by simp only; omega) (by simp only; omega)
  case isFalse hLess => exact Prod.ext (by simp only; omega) (by simp only; omega)

/-- The fields of a point in time give the day and the second back. -/
theorem ofSeconds_fields {t : Timestamp} (h : t.second < 86400) :
    ofSeconds (dayOfCivil ⟨(civilOfDay t.day).year, (civilOfDay t.day).month,
      (civilOfDay t.day).day⟩) (↑(t.second / 3600) * 3600 + ↑(t.second / 60 % 60) * 60 +
        ↑(t.second % 60) - 0) t.nanosecond = t := by
  have hSum :
      (↑(t.second / 3600) * 3600 + ↑(t.second / 60 % 60) * 60 + ↑(t.second % 60) - 0 : Int) =
      t.second := by omega
  have hDay : dayOfCivil (civilOfDay t.day) = t.day := dayOfCivil_civilOfDay t.day
  rw [hSum, hDay, ofSeconds]
  have hWhole : (t.second : Int) / 86400 = 0 := by omega
  have hPart : ((t.second : Int) % 86400).toNat = t.second := by omega
  simp only [hWhole, hPart, Int.add_zero]

/-- The text of a valid point in time is read back as that point. -/
theorem ofText?_text {t : Timestamp} (h : t.IsValid) : ofText? t.text = some t := by
  obtain ⟨hMonthLow, hMonthHigh, hDayLow, hDayHigh⟩ := civilOfDay_inRange t.day
  have hDayMost : (civilOfDay t.day).day ≤ 31 := hDayHigh.trans (daysInMonth_le ..)
  have hSecond := h.second
  have hNanosecond := h.nanosecond
  have hLeap := h.leap
  have hStop : Stops Char.isDigit (fractionText (t.nanosecond % 1000000000) ++ ['Z']) := by
    rw [fractionText]
    split
    case isTrue => exact stops_mark rfl
    case isFalse =>
      split
      case isTrue => exact stops_mark rfl
      case isFalse => split <;> exact stops_mark rfl
  have hMark : ('T' == 'T' || 'T' == 't' || 'T' == ' ') = true := by decide
  rw [ofText?, toList_text]
  refine (bind_of_eq (year?_yearText h.year (stops_mark rfl)) _).trans ?_
  refine (bind_of_eq (mark?_cons (by decide) _) _).trans ?_
  refine (bind_of_eq (field?_padded (stops_mark rfl) hMonthLow hMonthHigh (by omega)) _).trans ?_
  refine (bind_of_eq (mark?_cons (by decide) _) _).trans ?_
  refine (bind_of_eq (field?_padded (stops_mark rfl) hDayLow hDayMost (by omega)) _).trans ?_
  refine (if_pos hMark).trans ?_
  refine (bind_of_eq rfl _).trans ?_
  refine (bind_of_eq (field?_padded (stops_mark rfl) (Nat.zero_le _) (by omega) (by omega))
    _).trans ?_
  refine (bind_of_eq (mark?_cons (by decide) _) _).trans ?_
  refine (bind_of_eq (field?_padded (stops_mark rfl) (Nat.zero_le _) (by omega) (by omega))
    _).trans ?_
  refine (bind_of_eq (mark?_cons (by decide) _) _).trans ?_
  refine (bind_of_eq (field?_padded hStop (Nat.zero_le _) (by omega) (by omega)) _).trans ?_
  refine (bind_of_eq (fraction?_fractionText (by omega) (stops_mark rfl) (by decide)) _).trans ?_
  refine (bind_of_eq rfl _).trans ?_
  dsimp only
  rw [leap_second h, ofSeconds_fields hSecond]
  have hInMonth : decide ((civilOfDay t.day).day ≤
      daysInMonth (civilOfDay t.day).year (civilOfDay t.day).month) = true :=
      decide_eq_true hDayHigh
  simp only [hInMonth, h.year, Bool.and_true]
  rfl

end ProvideIndex.Timestamp
