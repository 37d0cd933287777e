/-! Dates of the proleptic Gregorian calendar, counted in days from 1970-01-01. -/
namespace BackupAdmin

/-- A date; whether it exists is decided by `Date.valid`. -/
structure Date where
  year : Int
  month : Nat
  day : Nat
deriving DecidableEq

namespace Date

def isLeap (y : Int) : Bool := y % 4 = 0 && (y % 100 ≠ 0 || y % 400 = 0)

def monthLength (y : Int) (m : Nat) : Nat :=
  if m = 2 then (if isLeap y then 29 else 28)
  else if m = 4 || m = 6 || m = 9 || m = 11 then 30
  else 31

def minYear : Int := -262143
def maxYear : Int := 262142

/-- The date exists and its year is in range. -/
def valid (d : Date) : Bool :=
  minYear ≤ d.year && d.year ≤ maxYear && 1 ≤ d.month && d.month ≤ 12 && 1 ≤ d.day &&
    d.day ≤ monthLength d.year d.month

/-- Days from 1970-01-01. Years start in March, so that a leap day ends a year of 400 years' era. -/
def toDays (d : Date) : Int :=
  let y := if d.month ≤ 2 then d.year - 1 else d.year
  let era := Int.fdiv y 400
  let yoe := y - era * 400
  let mp : Int := if d.month ≤ 2 then (d.month : Int) + 9 else (d.month : Int) - 3
  let doy := (153 * mp + 2) / 5 + (d.day - 1)
  let doe := yoe * 365 + yoe / 4 - yoe / 100 + doy
  era * 146097 + doe - 719468

def ofDays (n : Int) : Date :=
  let z := n + 719468
  let era := Int.fdiv z 146097
  let doe := z - era * 146097
  let yoe := (doe - doe / 1460 + doe / 36524 - doe / 146096) / 365
  let doy := doe - (365 * yoe + yoe / 4 - yoe / 100)
  let mp := (5 * doy + 2) / 153
  let day := doy - (153 * mp + 2) / 5 + 1
  let month := if mp < 10 then mp + 3 else mp - 9
  { year := if month ≤ 2 then yoe + era * 400 + 1 else yoe + era * 400
    month := month.toNat
    day := day.toNat }

example : toDays ⟨1970, 1, 1⟩ = 0 ∧ toDays ⟨2024, 2, 29⟩ = 19782 := by decide
example : ofDays 19782 = ⟨2024, 2, 29⟩ ∧ ofDays (-1) = ⟨1969, 12, 31⟩ := by decide

end Date
end BackupAdmin
