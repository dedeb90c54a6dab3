/-!
# Calendar dates

Dates of the proleptic Gregorian calendar, as year, month and day.  The type
holds only days that exist; the day after and the day before are total and stay
in the type.
-/

namespace SwarmManager

set_option autoImplicit false

namespace Calendar

/-- The years that can be dated. -/
def yearInRange (year : Int) : Bool := -262143 ≤ year && year ≤ 262142

/-- Whether a year has a 29th of February. -/
def isLeapYear (year : Int) : Bool :=
  year % 4 == 0 && (year % 100 != 0 || year % 400 == 0)

/-- The number of days of a month, zero for a number that is no month. -/
def daysInMonth (year : Int) (month : Nat) : Nat :=
  if month = 2 then if isLeapYear year then 29 else 28
  else if month = 4 ∨ month = 6 ∨ month = 9 ∨ month = 11 then 30
  else if 1 ≤ month ∧ month ≤ 12 then 31
  else 0

/-- Every month has at least one day. -/
theorem one_le_daysInMonth {year : Int} {month : Nat} (first : 1 ≤ month) (last : month ≤ 12) :
    1 ≤ daysInMonth year month := by
  simp only [daysInMonth]
  split
  · split <;> omega
  · split
    · omega
    · simp [first, last]

end Calendar

/-- A day that exists. -/
structure Date where
  year : Int
  month : Nat
  day : Nat
  exists_month : 1 ≤ month ∧ month ≤ 12
  exists_day : 1 ≤ day ∧ day ≤ Calendar.daysInMonth year month
  deriving DecidableEq

namespace Date

/-- The date with the given numbers, if the day exists. -/
def ofNumbers? (year : Int) (month day : Nat) : Option Date :=
  if inYear : 1 ≤ month ∧ month ≤ 12 then
    if inMonth : 1 ≤ day ∧ day ≤ Calendar.daysInMonth year month then
      some ⟨year, month, day, inYear, inMonth⟩
    else none
  else none

/-- The day after. -/
def next (date : Date) : Date :=
  if within : date.day < Calendar.daysInMonth date.year date.month then
    { date with day := date.day + 1, exists_day := ⟨by omega, within⟩ }
  else if inYear : date.month < 12 then
    { date with
      month := date.month + 1
      day := 1
      exists_month := ⟨by omega, by omega⟩
      exists_day := ⟨by omega, Calendar.one_le_daysInMonth (by omega) (by omega)⟩ }
  else ⟨date.year + 1, 1, 1, by omega, by decide, Calendar.one_le_daysInMonth (by omega) (by omega)⟩

/-- The day before. -/
def previous (date : Date) : Date :=
  if within : 1 < date.day then
    { date with
      day := date.day - 1
      exists_day := ⟨by omega, by have := date.exists_day; omega⟩ }
  else if inYear : 1 < date.month then
    { date with
      month := date.month - 1
      day := Calendar.daysInMonth date.year (date.month - 1)
      exists_month := ⟨by omega, by have := date.exists_month; omega⟩
      exists_day :=
        ⟨Calendar.one_le_daysInMonth (by omega) (by have := date.exists_month; omega),
          Nat.le_refl _⟩ }
  else ⟨date.year - 1, 12, 31, by omega, by omega, by simp [Calendar.daysInMonth]⟩

end Date

end SwarmManager
