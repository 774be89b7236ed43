/-!
# Dates of the proleptic Gregorian calendar

A date is a year, a month and a day; days are counted from the first of January 1970.
-/

namespace PostStore

/-- A calendar date. -/
structure Date where
  year : Int
  month : Nat
  day : Nat
  deriving DecidableEq, Repr

namespace Date

/-! ## Years and months -/

/-- Every fourth year is a leap year, save centuries that are no multiple of four hundred. -/
def isLeap (year : Int) : Bool := year % 4 = 0 && (year % 100 ≠ 0 || year % 400 = 0)

/-- The lengths of the twelve months. -/
def monthLengths (leap : Bool) : List Nat :=
  [31, if leap then 29 else 28, 31, 30, 31, 30, 31, 31, 30, 31, 30, 31]

/-- The length of a month, zero for a month that does not exist. -/
def daysInMonth (year : Int) (month : Nat) : Nat :=
  if month = 0 then 0 else (monthLengths (isLeap year)).getD (month - 1) 0

/-- Whether the month exists and has that day. -/
def Valid (date : Date) : Prop := 1 ≤ date.day ∧ date.day ≤ daysInMonth date.year date.month

instance (date : Date) : Decidable date.Valid := by unfold Valid; infer_instance

/-! ## Counting days -/

/-- The days from the first of January of year one to that of `year`. -/
def daysBeforeYear (year : Int) : Int :=
  365 * (year - 1) + (year - 1) / 4 - (year - 1) / 100 + (year - 1) / 400

/-- The days of a year before the first of `month`. -/
def daysBeforeMonth (leap : Bool) (month : Nat) : Nat :=
  ((monthLengths leap).take (month - 1)).foldr (· + ·) 0

/-- The day number of the first of January 1970, counted from year one. -/
def epochDay : Int := 719162

/-- The day number of a date, counted from the first of January 1970. -/
def toDays (date : Date) : Int :=
  daysBeforeYear date.year + daysBeforeMonth (isLeap date.year) date.month + (date.day - 1) -
    epochDay

/-- Walks the months until the day, counted from zero, falls into one. -/
def monthOfDay (month : Nat) : List Nat → Nat → Nat × Nat
  | [], day => (month, day + 1)
  | length :: rest, day =>
    if day < length then (month, day + 1) else monthOfDay (month + 1) rest (day - length)

/-- The year, counted from the start of a cycle of four hundred years, that holds a day of the
cycle, and the day within that year. -/
def yearOfCycle (day : Nat) : Nat × Nat :=
  let century := min 3 (day / 36524)
  let inCentury := day - 36524 * century
  let inQuad := inCentury % 1461
  let year := min 3 (inQuad / 365)
  (100 * century + 4 * (inCentury / 1461) + year, inQuad - 365 * year)

/-- The date with a day number. -/
def ofDays (days : Int) : Date :=
  let fromYearOne := days + epochDay
  let inYear := yearOfCycle (fromYearOne % 146097).toNat
  let year := 400 * (fromYearOne / 146097) + inYear.1 + 1
  let inMonth := monthOfDay 1 (monthLengths (isLeap year)) inYear.2
  ⟨year, inMonth.1, inMonth.2⟩

end Date

end PostStore
