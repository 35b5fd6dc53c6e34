import Mathlib.Algebra.Order.Ring.Int

/-!
# The Gregorian calendar

Dates as years, months and days, and as numbers of days since the first of January 1970.
-/

namespace Calendar

/-- A date. -/
structure Date where
  year : ℤ
  month : ℕ
  day : ℕ
  deriving DecidableEq, Repr

/-- The date of a day since the epoch. -/
def civil (day : ℤ) : Date :=
  let z := day + 719468
  let era := z / 146097
  let doe := (z % 146097).toNat
  let yoe := (doe - doe / 1460 + doe / 36524 - doe / 146096) / 365
  let doy := doe - (365 * yoe + yoe / 4 - yoe / 100)
  let mp := (5 * doy + 2) / 153
  let month := if mp < 10 then mp + 3 else mp - 9
  { year := yoe + era * 400 + (if month ≤ 2 then 1 else 0)
    month
    day := doy - (153 * mp + 2) / 5 + 1 }

/-- The days since the epoch at a date. -/
def daysOf (date : Date) : ℤ :=
  let y := date.year - (if date.month ≤ 2 then 1 else 0)
  let mp := (date.month + 9) % 12
  let doy := (153 * mp + 2) / 5 + date.day - 1
  let yoe := (y % 400).toNat
  (y / 400) * 146097 + ((yoe * 365 + yoe / 4 - yoe / 100 + doy : ℕ) : ℤ) - 719468

/-- The days of a month. -/
def daysInMonth (year : ℤ) (month : ℕ) : ℕ :=
  if month = 2 then
    if year % 4 = 0 ∧ (year % 100 ≠ 0 ∨ year % 400 = 0) then 29 else 28
  else if month ∈ [4, 6, 9, 11] then 30 else 31

end Calendar
