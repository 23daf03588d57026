import ProvideIndex.Timestamp
import Mathlib.Order.Basic

/-!
# The civil calendar

A day is found again from its date, and its date is one that the calendar has. Years begin in March
here, in eras of four hundred years; the year of a day is a quotient that grows with the day, so it
is enough to look at the first and the last day of each year of an era.

* `yearStart_le`, `lt_yearStart_succ`: the day of an era lies in the year that is computed for it.
* `dayOfCivil_civilOfDay`: the date of a day gives the day.
* `civilOfDay_inRange`: the date is one that the calendar has.
-/

namespace ProvideIndex.Timestamp

/-! ### The year of an era -/

def yearOfEra (day : Nat) : Nat := (day - day / 1460 + day / 36524 - day / 146096) / 365

/-- The day of an era on which a year begins. -/
def yearStart (year : Nat) : Nat := 365 * year + year / 4 - year / 100

theorem yearOfEra_mono {first second : Nat} (h : first ≤ second) :
    yearOfEra first ≤ yearOfEra second := by
  have hEra : ∀ day : Nat, day / 146096 = day / 36524 / 4 := fun day => by
    rw [Nat.div_div_eq_div_mul]
  have hCentury : first / 36524 ≤ second / 36524 := Nat.div_le_div_right h
  have hDays : first - first / 1460 ≤ second - second / 1460 := by omega
  refine Nat.div_le_div_right ?_
  rw [hEra, hEra]
  generalize first / 36524 = firstCentury at *
  generalize second / 36524 = secondCentury at *
  omega

theorem yearOfEra_yearStart : ∀ year < 400, yearOfEra (yearStart year) = year := by decide +kernel

theorem yearOfEra_yearStart_sub_one :
    ∀ year < 400, yearOfEra (yearStart (year + 1) - 1) = year := by decide +kernel

/-- A year has 365 days, and one more if it ends before March of a leap year. -/
theorem yearStart_succ_le : ∀ year < 400, yearStart (year + 1) ≤ yearStart year +
    if year % 4 = 3 ∧ (year % 100 = 99 → year = 399) then 366 else 365 := by
  decide +kernel

theorem yearOfEra_lt {day : Nat} (h : day < 146097) : yearOfEra day < 400 := by
  have hLast : yearOfEra 146096 = 399 := by decide
  have hMono : yearOfEra day ≤ yearOfEra 146096 := yearOfEra_mono (by omega)
  omega

theorem yearStart_le {day : Nat} (h : day < 146097) : yearStart (yearOfEra day) ≤ day := by
  by_contra hLess
  have hYear := yearOfEra_lt h
  obtain ⟨year, hSucc⟩ : ∃ year, yearOfEra day = year + 1 := by
    refine Nat.exists_eq_succ_of_ne_zero fun hZero => hLess ?_
    rw [hZero]
    exact Nat.zero_le _
  have hMono : yearOfEra day ≤ yearOfEra (yearStart (year + 1) - 1) := by
    refine yearOfEra_mono ?_
    rw [hSucc] at hLess
    omega
  rw [yearOfEra_yearStart_sub_one year (by omega)] at hMono
  omega

theorem lt_yearStart_succ {day : Nat} (h : day < 146096) :
    day < yearStart (yearOfEra day + 1) := by
  by_contra hLess
  have hYear := yearOfEra_lt (Nat.lt_succ_of_lt h)
  by_cases hLast : yearOfEra day = 399
  · rw [hLast] at hLess
    have hEnd : yearStart (399 + 1) = 146096 := by decide
    omega
  · have hMono := yearOfEra_mono (Nat.not_lt.mp hLess)
    rw [yearOfEra_yearStart _ (by omega)] at hMono
    omega

/-! ### The day of a year -/

def monthIndex (dayOfYear : Nat) : Nat := (5 * dayOfYear + 2) / 153

/-- The months of a year that begins in March have the days that they have in the calendar. -/
theorem monthIndex_bounds : ∀ dayOfYear < 366, monthIndex dayOfYear < 12 ∧
    daysBeforeMonth (monthIndex dayOfYear) ≤ dayOfYear ∧
    dayOfYear - daysBeforeMonth (monthIndex dayOfYear) <
      (if monthIndex dayOfYear = 11 then (if dayOfYear = 365 then 29 else 28)
        else if monthIndex dayOfYear = 1 ∨ monthIndex dayOfYear = 3 ∨ monthIndex dayOfYear = 6 ∨
          monthIndex dayOfYear = 8 then 30 else 31) := by
  decide +kernel

/-! ### Positions in an era -/

/-- A day as an era, a year of it and a day of that year. A leap day ends its year. -/
structure Position where
  era : Int
  year : Nat
  dayOfYear : Nat
  year_lt : year < 400
  dayOfYear_lt : dayOfYear < 365 ∨
    dayOfYear = 365 ∧ year % 4 = 3 ∧ (year % 100 = 99 → year = 399)

namespace Position

def day (position : Position) : Int :=
  position.era * 146097 + yearStart position.year + position.dayOfYear

def date (position : Position) : Civil :=
  let index := monthIndex position.dayOfYear
  let month := if index < 10 then index + 3 else index - 9
  ⟨position.era * 400 + position.year + if month ≤ 2 then 1 else 0, month,
    position.dayOfYear - daysBeforeMonth index + 1⟩

variable (position : Position)

theorem dayOfYear_lt_366 : position.dayOfYear < 366 := by
  have := position.dayOfYear_lt
  omega

theorem dayOfCivil_date : dayOfCivil position.date = position.day := by
  obtain ⟨hIndex, hBefore, -⟩ := monthIndex_bounds _ position.dayOfYear_lt_366
  have hYear := position.year_lt
  rw [dayOfCivil, date, day, yearStart]
  generalize monthIndex position.dayOfYear = index at *
  by_cases hLate : index < 10
  · have hMonth : ¬index + 3 ≤ 2 := by omega
    have hBack : (index + 3 + 9) % 12 = index := by omega
    simp only [if_pos hLate, if_neg hMonth, hBack]
    omega
  · have hMonth : index - 9 ≤ 2 := by omega
    have hBack : (index - 9 + 9) % 12 = index := by omega
    simp only [if_neg hLate, if_pos hMonth, hBack]
    omega

/-- The month is one of twelve, and the day is one of its days. -/
theorem date_inRange :
    1 ≤ position.date.month ∧ position.date.month ≤ 12 ∧ 1 ≤ position.date.day ∧
      position.date.day ≤ daysInMonth position.date.year position.date.month := by
  obtain ⟨hIndex, -, hDays⟩ := monthIndex_bounds _ position.dayOfYear_lt_366
  have hLeap := position.dayOfYear_lt
  have hYear := position.year_lt
  rw [date, daysInMonth]
  generalize monthIndex position.dayOfYear = index at *
  generalize position.dayOfYear - daysBeforeMonth index = before at *
  by_cases hLate : index < 10
  · have hMonth : ¬index + 3 ≤ 2 := by omega
    have hFebruary : ¬index + 3 = 2 := by omega
    simp only [if_pos hLate, if_neg hMonth, if_neg hFebruary]
    rw [if_neg (show index ≠ 11 by omega)] at hDays
    refine ⟨by omega, by omega, Nat.le_add_left .., ?_⟩
    split at hDays
    case isTrue hShort => rw [if_pos (show _ by omega)]; exact hDays
    case isFalse hLong => rw [if_neg (show ¬_ by omega)]; exact hDays
  · by_cases hJanuary : index = 10
    · subst hJanuary
      exact ⟨Nat.le_refl 1, (by decide : 1 ≤ 12), Nat.le_add_left .., hDays⟩
    · obtain rfl : index = 11 := by omega
      refine ⟨(by decide : 1 ≤ 2), (by decide : 2 ≤ 12), Nat.le_add_left .., ?_⟩
      have hLimit : before < if position.dayOfYear = 365 then 29 else 28 := hDays
      change before + 1 ≤ if isLeap (position.era * 400 + position.year + 1) then 29 else 28
      rcases hLeap with hShort | ⟨hLong, hFourth, hCentury⟩
      · rw [if_neg (show position.dayOfYear ≠ 365 by omega)] at hLimit
        split <;> omega
      · have hIsLeap : isLeap (position.era * 400 + position.year + 1) = true := by
          simp only [isLeap, Bool.and_eq_true, Bool.or_eq_true, beq_iff_eq, bne_iff_ne]
          omega
        rw [if_pos hLong] at hLimit
        rw [if_pos hIsLeap]
        exact hLimit

end Position

/-- The position of a day. -/
def positionOf (day : Int) : Position where
  era := day / 146097
  year := yearOfEra (day % 146097).toNat
  dayOfYear := (day % 146097).toNat - yearStart (yearOfEra (day % 146097).toNat)
  year_lt := yearOfEra_lt (by omega)
  dayOfYear_lt := by
    have hRange : (day % 146097).toNat < 146097 := by omega
    generalize (day % 146097).toNat = day at *
    have hStart := yearStart_le hRange
    by_cases hLast : day = 146096
    · subst hLast
      decide +kernel
    · have hNext := lt_yearStart_succ (show day < 146096 by omega)
      have hLength := yearStart_succ_le _ (yearOfEra_lt hRange)
      generalize yearOfEra day = year at *
      split at hLength
      case isTrue hLeap => omega
      case isFalse => omega

theorem day_positionOf (day : Int) : (positionOf day).day = day := by
  have hRange : (day % 146097).toNat < 146097 := by omega
  have hStart := yearStart_le hRange
  simp only [Position.day, positionOf]
  omega

theorem date_positionOf (day : Int) : (positionOf day).date = civilOfDay day := rfl

theorem dayOfCivil_civilOfDay (day : Int) : dayOfCivil (civilOfDay day) = day := by
  rw [← date_positionOf, Position.dayOfCivil_date, day_positionOf]

/-- The date of a day is one that the calendar has. -/
theorem civilOfDay_inRange (day : Int) :
    1 ≤ (civilOfDay day).month ∧ (civilOfDay day).month ≤ 12 ∧ 1 ≤ (civilOfDay day).day ∧
      (civilOfDay day).day ≤ daysInMonth (civilOfDay day).year (civilOfDay day).month := by
  rw [← date_positionOf]
  exact (positionOf day).date_inRange

theorem daysInMonth_le (year : Int) (month : Nat) : daysInMonth year month ≤ 31 := by
  rw [daysInMonth]
  split
  · split <;> decide
  · split <;> decide

end ProvideIndex.Timestamp
