/-
# `Lib.Calendar` — the days of the Gregorian calendar

The dates of `datetime`: a year from 1 on, a month, and a day that the month has in that year.  The
weekday is counted from Monday, which is 0.

`exists_date`: every day that a month has in a leap year falls on every day of the week in some
year.
-/
import Mathlib.Data.List.Basic

namespace Lib.Calendar

/-- `_is_leap` -/
def isLeap (year : Nat) : Bool := year % 4 = 0 && (year % 100 ≠ 0 || year % 400 = 0)

/-- `_days_in_month` -/
def daysInMonth (leap : Bool) (month : Nat) : Nat :=
  if month = 2 then (if leap then 29 else 28)
  else if month ∈ [4, 6, 9, 11] then 30
  else 31

/-- `_days_before_year` -/
def daysBeforeYear (year : Nat) : Nat :=
  (year - 1) * 365 + (year - 1) / 4 - (year - 1) / 100 + (year - 1) / 400

/-- `_days_before_month` -/
def daysBeforeMonth (leap : Bool) (month : Nat) : Nat :=
  (List.range' 1 (month - 1)).foldl (fun days earlier => days + daysInMonth leap earlier) 0

/-- `date.toordinal()` -/
def toordinal (year month day : Nat) : Nat :=
  daysBeforeYear year + daysBeforeMonth (isLeap year) month + day

/-- `_ord2ymd`, the year, month and day of an ordinal -/
def ord2ymd (n : Nat) : Nat × Nat × Nat :=
  let n400 := (n - 1) / 146097
  let n := (n - 1) % 146097
  let n100 := n / 36524
  let n := n % 36524
  let n4 := n / 1461
  let n := n % 1461
  let n1 := n / 365
  let n := n % 365
  let year := n400 * 400 + 1 + n100 * 100 + n4 * 4 + n1
  if n1 = 4 ∨ n100 = 4 then (year - 1, 12, 31)
  else
    let leapyear := n1 = 3 ∧ (n4 ≠ 24 ∨ n100 = 3)
    let month := (n + 50) / 32
    let preceding := daysBeforeMonth leapyear month
    if n < preceding then
      (year, month - 1, n - daysBeforeMonth leapyear (month - 1) + 1)
    else (year, month, n - preceding + 1)

example : ord2ymd (toordinal 2024 12 31) = (2024, 12, 31) := by decide

/-- `date.weekday()` -/
def weekday (year month day : Nat) : Nat := (toordinal year month day + 6) % 7

example : weekday 2000 2 29 = 1 := by decide

structure Date where
  year : Nat
  month : Nat
  day : Nat
  year_pos : 1 ≤ year
  month_pos : 1 ≤ month
  month_le : month ≤ 12
  day_pos : 1 ≤ day
  day_le : day ≤ daysInMonth (isLeap year) month
deriving DecidableEq

def Date.weekday (date : Date) : Nat := Calendar.weekday date.year date.month date.day

variable {leap : Bool} {year month day w : Nat} (date : Date)

theorem daysInMonth_le : daysInMonth leap month ≤ daysInMonth true month := by
  simp only [daysInMonth]
  split
  case isTrue => cases leap <;> simp
  case isFalse => exact Nat.le_refl _

theorem daysInMonth_le_31 : daysInMonth leap month ≤ 31 := by
  simp only [daysInMonth]
  repeat' split
  all_goals omega

theorem le_daysInMonth : 28 ≤ daysInMonth leap month := by
  simp only [daysInMonth]
  repeat' split
  all_goals omega

theorem Date.day_le_31 : date.day ≤ 31 := Nat.le_trans date.day_le daysInMonth_le_31

theorem Date.weekday_lt : date.weekday < 7 := Nat.mod_lt _ (by decide)

/-- The first of a month gives the weekdays of the others. -/
theorem weekday_eq (hday : 1 ≤ day) :
    weekday year month day = (weekday year month 1 + (day - 1)) % 7 := by
  simp only [weekday, toordinal]
  omega

/-- The leap years of one cycle of the weekdays -/
def leapYears : List Nat := [2000, 2004, 2008, 2012, 2016, 2020, 2024]

theorem isLeap_of_mem : ∀ year ∈ leapYears, isLeap year = true ∧ 1 ≤ year := by decide

theorem exists_first : ∀ month ≤ 12, ∀ w < 7, 1 ≤ month →
    ∃ year ∈ leapYears, weekday year month 1 = w := by decide +kernel

theorem exists_date (hmonth : 1 ≤ month ∧ month ≤ 12) (hday : 1 ≤ day)
    (hdays : day ≤ daysInMonth true month) (hw : w < 7) :
    ∃ date : Date, date.month = month ∧ date.day = day ∧ date.weekday = w := by
  -- the first is as many days before `w` as it is before `day`
  obtain ⟨year, hyear, hfirst⟩ := exists_first month hmonth.2
    ((w + 6 * (day - 1)) % 7) (Nat.mod_lt _ (by decide)) hmonth.1
  obtain ⟨hleap, hpos⟩ := isLeap_of_mem year hyear
  refine ⟨⟨year, month, day, hpos, hmonth.1, hmonth.2, hday, hleap ▸ hdays⟩, rfl, rfl, ?_⟩
  show weekday year month day = w
  rw [weekday_eq hday, hfirst]
  omega

end Lib.Calendar
