import ProvideIndex.Text.Blank
import ProvideIndex.Text.Digits
import ProvideIndex.Text.Match

/-!
# Points in time

A point in time is a day of the civil calendar, a second of that day in universal time, and a count
of nanoseconds. In a leap second the count goes on past a thousand million. `ofText?` reads the date
and time form of RFC 3339 in which blanks may stand between the parts; `text` writes its strict
form.
-/

namespace ProvideIndex

/-- `day` counts from the first of March of the year 0. -/
structure Timestamp where
  day : Int
  second : Nat
  nanosecond : Nat
  deriving DecidableEq, Repr

namespace Timestamp

structure Civil where
  year : Int
  month : Nat
  day : Nat
  deriving DecidableEq, Repr

def isLeap (year : Int) : Bool := year % 4 == 0 && (year % 100 != 0 || year % 400 == 0)

def daysInMonth (year : Int) (month : Nat) : Nat :=
  if month = 2 then if isLeap year then 29 else 28
  else if month = 4 ∨ month = 6 ∨ month = 9 ∨ month = 11 then 30
  else 31

/-- Days before the month in a year that starts in March; `index` counts from March. -/
def daysBeforeMonth (index : Nat) : Nat := (153 * index + 2) / 5

def dayOfCivil (date : Civil) : Int :=
  let year := if date.month ≤ 2 then date.year - 1 else date.year
  let index := (date.month + 9) % 12
  365 * year + year / 4 - year / 100 + year / 400 + daysBeforeMonth index + (date.day - 1 : Nat)

def civilOfDay (day : Int) : Civil :=
  let era := day / 146097
  let dayOfEra := (day % 146097).toNat
  let yearOfEra := (dayOfEra - dayOfEra / 1460 + dayOfEra / 36524 - dayOfEra / 146096) / 365
  let dayOfYear := dayOfEra - (365 * yearOfEra + yearOfEra / 4 - yearOfEra / 100)
  let index := (5 * dayOfYear + 2) / 153
  let month := if index < 10 then index + 3 else index - 9
  let year := era * 400 + yearOfEra + if month ≤ 2 then 1 else 0
  ⟨year, month, dayOfYear - daysBeforeMonth index + 1⟩

/-- The years that can be written. -/
def isYearInRange (year : Int) : Bool := -262143 ≤ year && year ≤ 262142

/-! ## Writing -/

/-- A number with zeros in front up to a width. -/
def padded (width n : Nat) : List Char :=
  let written := Nat.toDigits 10 n
  List.replicate (width - written.length) '0' ++ written

/-- Years outside 0 to 9999 have a sign. -/
def yearText (year : Int) : List Char :=
  if 0 ≤ year ∧ year ≤ 9999 then padded 4 year.toNat
  else (if year < 0 then '-' else '+') :: padded 4 year.natAbs

/-- No fraction, or one of three, six or nine digits, the fewest that lose nothing. -/
def fractionText (nanosecond : Nat) : List Char :=
  if nanosecond = 0 then []
  else if nanosecond % 1000000 = 0 then '.' :: padded 3 (nanosecond / 1000000)
  else if nanosecond % 1000 = 0 then '.' :: padded 6 (nanosecond / 1000)
  else '.' :: padded 9 nanosecond

def text (t : Timestamp) : String :=
  let date := civilOfDay t.day
  let leap := t.nanosecond / 1000000000
  String.ofList <|
    yearText date.year ++ '-' :: padded 2 date.month ++ '-' :: padded 2 date.day ++
    'T' :: padded 2 (t.second / 3600) ++ ':' :: padded 2 (t.second / 60 % 60) ++
    ':' :: padded 2 (t.second % 60 + leap) ++ fractionText (t.nanosecond % 1000000000) ++ ['Z']

/-! ## Reading -/

/--
At least one digit and at most `most`, after blanks; a number of more than 63 bits is refused.
-/
def number? (most : Nat) (text : List Char) : Option (Nat × List Char) :=
  let digits := (text.takeWhile Char.isDigit).take most
  if digits.isEmpty || 1 <<< 63 ≤ Text.natural digits then none
  else some (Text.natural digits, text.drop digits.length)

/-- A year has four digits at most, or any number of them after a sign. -/
def year? (text : List Char) : Option (Int × List Char) :=
  match Text.trimStart text with
  | '-' :: rest => (number? rest.length rest).map fun (n, rest) => (-n, rest)
  | '+' :: rest => (number? rest.length rest).map fun (n, rest) => (n, rest)
  | rest => (number? 4 rest).map fun (n, rest) => (n, rest)

/-- A field of up to two digits whose value lies between two bounds. -/
def field? (least most : Nat) (text : List Char) : Option (Nat × List Char) := do
  let (n, rest) ← number? 2 (Text.trimStart text)
  if least ≤ n ∧ n ≤ most then some (n, rest) else none

/-- A mark between fields, with blanks before it. -/
def mark? (c : Char) (text : List Char) : Option (List Char) :=
  Text.after? [c] (Text.trimStart text)

/-- A fraction of a second in nanoseconds; digits after the ninth are dropped. -/
def fraction? (text : List Char) : Option (Nat × List Char) :=
  match text with
  | '.' :: rest =>
    let digits := rest.takeWhile Char.isDigit
    let kept := digits.take 9
    if digits.isEmpty then none
    else some (Text.natural (kept ++ List.replicate (9 - kept.length) '0'), rest.drop digits.length)
  | _ => some (0, text)

/-- The offset from universal time in seconds. -/
def offset? (text : List Char) : Option (Int × List Char) :=
  match text with
  | 'Z' :: rest | 'z' :: rest => some (0, rest)
  | u :: t :: c :: rest =>
    if (u == 'U' || u == 'u') && (t == 'T' || t == 't') && (c == 'C' || c == 'c') then
      some (0, rest)
    else signed? text
  | _ => signed? text
where
  signed? : List Char → Option (Int × List Char)
    | sign :: h₁ :: h₂ :: rest => do
      let negative ←
        if sign == '+' then some false
        else if sign == '-' || sign == '\u2212' then some true
        else none
      let minutes := rest.dropWhile fun c => c == ':' || Text.isBlank c
      match minutes with
      | m₁ :: m₂ :: rest =>
        if h₁.isDigit && h₂.isDigit && m₁.isDigit && m₁ ≤ '5' && m₂.isDigit then
          let seconds : Nat := Text.natural [h₁, h₂] * 3600 + Text.natural [m₁, m₂] * 60
          some (if negative then -seconds else seconds, rest)
        else none
      | _ => none
    | _ => none

/-- A day and the seconds from its start, which may lie outside the day. -/
def ofSeconds (day seconds : Int) (nanosecond : Nat) : Timestamp :=
  ⟨day + seconds / 86400, (seconds % 86400).toNat, nanosecond⟩

def ofText? (source : String) : Option Timestamp := do
  let (year, rest) ← year? source.toList
  let (month, rest) ← field? 1 12 (← mark? '-' rest)
  let (day, rest) ← field? 1 31 (← mark? '-' rest)
  let rest ← match rest with
    | c :: rest => if c == 'T' || c == 't' || c == ' ' then some rest else none
    | [] => none
  let (hour, rest) ← field? 0 23 rest
  let (minute, rest) ← field? 0 59 (← mark? ':' rest)
  let (second, rest) ← field? 0 60 (← mark? ':' rest)
  let (fraction, rest) ← fraction? rest
  let (offset, rest) ← offset? (Text.trimStart rest)
  let (second, nanosecond) :=
    if second = 60 then (59, fraction + 1000000000) else (second, fraction)
  let sinceMidnight : Int := hour * 3600 + minute * 60 + second
  let t := ofSeconds (dayOfCivil ⟨year, month, day⟩) (sinceMidnight - offset) nanosecond
  if (Text.trimStart rest).isEmpty && day ≤ daysInMonth year month && isYearInRange year &&
      isYearInRange (civilOfDay t.day).year && offset.natAbs < 86400 then
    some t
  else none

end Timestamp

end ProvideIndex
