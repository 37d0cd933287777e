import BackupAdmin.Time.Calendar
import Mathlib.Tactic.IntervalCases

/-! The date of a day, counted back. Main statements: the date of every day exists, and its day is
that day again. -/
namespace BackupAdmin.Date

/-- A day of an era of 400 years, by its century, its four years in it, its year in them, and its
day in a year that starts in March. A last day of 366 ends the fourth year of four, but not of the
last four years of a century unless it is the last century. -/
structure Cycles (doe c q a d : Int) : Prop where
  century : 0 ≤ c ∧ c ≤ 3
  four : 0 ≤ q ∧ q ≤ 24
  year : 0 ≤ a ∧ a ≤ 3
  day : 0 ≤ d ∧ d ≤ 365
  leap : d = 365 → a = 3 ∧ (q = 24 → c = 3)
  eq : doe = 36524 * c + 1461 * q + 365 * a + d

theorem exists_cycles {doe : Int} (nonneg : 0 ≤ doe) (lt : doe < 146097) :
    ∃ c q a d, Cycles doe c q a d := by
  obtain ⟨c, hc⟩ : ∃ c, c = min (doe / 36524) 3 := ⟨_, rfl⟩
  obtain ⟨r, hr⟩ : ∃ r, r = doe - 36524 * c := ⟨_, rfl⟩
  obtain ⟨t, ht⟩ : ∃ t, t = r - 1461 * (r / 1461) := ⟨_, rfl⟩
  refine ⟨c, r / 1461, min (t / 365) 3, t - 365 * min (t / 365) 3, ?_, ?_, ?_, ?_, ?_, ?_⟩ <;>
    omega

section
variable {doe c q a d : Int}

/-- The year of a day, from the days that leap years have moved it by. -/
theorem Cycles.year_eq (h : Cycles doe c q a d) :
    (doe - doe / 1460 + doe / 36524 - doe / 146096) / 365 = 100 * c + 4 * q + a := by
  obtain ⟨hc, hq, ha, hd, hl, eq⟩ := h
  have centuries : doe / 36524 - doe / 146096 = c := by
    by_cases last : d = 365 ∧ q = 24
    · obtain ⟨rfl, rfl⟩ := last
      obtain ⟨rfl, all⟩ := hl rfl
      obtain rfl := all rfl
      rw [eq]
      rfl
    · have low : 36524 * c ≤ doe := by omega
      have high : doe < 36524 * c + 36524 := by omega
      have century : doe / 36524 = c := by omega
      have era : doe / 146096 = 0 := by omega
      omega
  -- a day of four years is moved over their end only when it is late in the last of them
  have fours : doe / 1460 = 25 * c + q ∨ doe / 1460 = 25 * c + q + 1 ∧ 1 ≤ d := by omega
  have full : d = 365 → doe / 1460 = 25 * c + q + 1 := by omega
  omega

theorem Cycles.day_eq (h : Cycles doe c q a d) :
    doe - (365 * (100 * c + 4 * q + a) + (100 * c + 4 * q + a) / 4 - (100 * c + 4 * q + a) / 100) =
      d := by
  obtain ⟨hc, hq, ha, hd, hl, eq⟩ := h
  omega

/-- A year that is 366 days long, from one March to the next, ends in a leap year. -/
theorem Cycles.isLeap (h : Cycles doe c q a d) (last : d = 365) (era : Int) :
    isLeap (100 * c + 4 * q + a + era * 400 + 1) = true := by
  obtain ⟨hc, hq, ha, hd, hl, eq⟩ := h
  obtain ⟨rfl, all⟩ := hl last
  have four : (100 * c + 4 * q + 3 + era * 400 + 1) % 4 = 0 := by omega
  by_cases end_of_century : q = 24
  · have century : (100 * c + 4 * q + 3 + era * 400 + 1) % 400 = 0 := by
      rw [all end_of_century, end_of_century]
      omega
    simp [Date.isLeap, four, century]
  · have century : (100 * c + 4 * q + 3 + era * 400 + 1) % 100 ≠ 0 := by omega
    simp [Date.isLeap, four, century]

end

/-- The month of a day in a year that starts in March, counted from zero. -/
def marchMonth (d : Int) : Int := (5 * d + 2) / 153

theorem marchMonth_bounds {d : Int} (h : 0 ≤ d ∧ d ≤ 365) :
    0 ≤ marchMonth d ∧ marchMonth d ≤ 11 := by
  unfold marchMonth
  omega

/-- The days of the months before a month of a year that starts in March. -/
def daysBefore (m : Int) : Int := (153 * m + 2) / 5

theorem daysBefore_marchMonth (d : Int) :
    daysBefore (marchMonth d) ≤ d ∧ d ≤ daysBefore (marchMonth d) + 30 := by
  unfold daysBefore marchMonth
  omega

/-- The date of a day by the parts that it is put together from. -/
theorem exists_ofDays (n : Int) : ∃ era c q a d, Cycles (n + 719468 - era * 146097) c q a d ∧
    ofDays n =
      if marchMonth d < 10 then
        ⟨100 * c + 4 * q + a + era * 400, (marchMonth d + 3).toNat,
          (d - daysBefore (marchMonth d) + 1).toNat⟩
      else
        ⟨100 * c + 4 * q + a + era * 400 + 1, (marchMonth d - 9).toNat,
          (d - daysBefore (marchMonth d) + 1).toNat⟩ := by
  have era : Int.fdiv (n + 719468) 146097 = (n + 719468) / 146097 :=
    Int.fdiv_eq_ediv_of_nonneg _ (by decide)
  have nonneg : 0 ≤ n + 719468 - (n + 719468) / 146097 * 146097 := by omega
  obtain ⟨c, q, a, d, h⟩ := exists_cycles nonneg (by omega)
  refine ⟨_, c, q, a, d, h, ?_⟩
  have bounds := marchMonth_bounds h.day
  simp only [ofDays, era, h.year_eq, h.day_eq, ← marchMonth.eq_1, ← daysBefore.eq_1]
  split
  · rw [if_neg (by omega)]
  · rw [if_pos (by omega)]

/-- A date from its year counted from March, with the month counted so too. -/
theorem toDays_eq (era : Int) {y m d year : Int} {month : Nat} (in_era : 0 ≤ y ∧ y < 400)
    (starts : year = if month ≤ 2 then y + era * 400 + 1 else y + era * 400)
    (march : m = if month ≤ 2 then (month : Int) + 9 else (month : Int) - 3) (day : 0 ≤ d) :
    toDays ⟨year, month, (d + 1).toNat⟩ =
      era * 146097 + (y * 365 + y / 4 - y / 100 + (daysBefore m + d)) - 719468 := by
  have counted : ((d + 1).toNat : Int) - 1 = d := by omega
  have begins : (if month ≤ 2 then year - 1 else year) = y + era * 400 := by
    rw [starts]
    split <;> omega
  have from_era : Int.fdiv (y + era * 400) 400 = era := by
    rw [Int.fdiv_eq_ediv_of_nonneg _ (by decide)]
    omega
  have rest : y + era * 400 - era * 400 = y := by omega
  simp only [toDays, begins, from_era, rest, ← march, ← daysBefore.eq_1, counted]

theorem toDays_ofDays (n : Int) : (ofDays n).toDays = n := by
  obtain ⟨era, c, q, a, d, h, eq⟩ := exists_ofDays n
  have bounds := marchMonth_bounds h.day
  have before := daysBefore_marchMonth d
  obtain ⟨hc, hq, ha, -, -, number⟩ := h
  have in_era : 0 ≤ 100 * c + 4 * q + a ∧ 100 * c + 4 * q + a < 400 := by omega
  have fours : (100 * c + 4 * q + a) / 4 = 25 * c + q := by omega
  have centuries : (100 * c + 4 * q + a) / 100 = c := by omega
  rw [eq]
  split
  case isTrue early =>
    have month : ¬ (marchMonth d + 3).toNat ≤ 2 := by omega
    have march : marchMonth d = if (marchMonth d + 3).toNat ≤ 2 then
        ((marchMonth d + 3).toNat : Int) + 9 else ((marchMonth d + 3).toNat : Int) - 3 := by
      rw [if_neg month]
      omega
    rw [toDays_eq era in_era (if_neg month).symm march (by omega)]
    omega
  case isFalse late =>
    have month : (marchMonth d - 9).toNat ≤ 2 := by omega
    have march : marchMonth d = if (marchMonth d - 9).toNat ≤ 2 then
        ((marchMonth d - 9).toNat : Int) + 9 else ((marchMonth d - 9).toNat : Int) - 3 := by
      rw [if_pos month]
      omega
    rw [toDays_eq era in_era (if_pos month).symm march (by omega)]
    omega

/-- Each month up to January is as long as it takes to the next one. -/
theorem monthLength_march {m : Int} (h : 0 ≤ m ∧ m ≤ 10) (year : Int) :
    (monthLength year (if m < 10 then m + 3 else m - 9).toNat : Int) =
      daysBefore (m + 1) - daysBefore m := by
  obtain ⟨low, high⟩ := h
  interval_cases m <;> rfl

theorem day_le_monthLength {d : Int} (year : Int) (day : 0 ≤ d ∧ d ≤ 365)
    (leap : d = 365 → isLeap year = true) :
    d - daysBefore (marchMonth d) + 1 ≤ monthLength year
      (if marchMonth d < 10 then marchMonth d + 3 else marchMonth d - 9).toNat := by
  have bounds := marchMonth_bounds day
  by_cases inside : marchMonth d < 11
  · rw [monthLength_march ⟨bounds.1, by omega⟩]
    unfold daysBefore marchMonth
    omega
  · -- February, which is what is left of the year
    have eleven : marchMonth d = 11 := by omega
    have left : (if isLeap year then 29 else 28 : Nat) = monthLength year 2 := rfl
    rw [eleven]
    change d - 337 + 1 ≤ (monthLength year 2 : Int)
    rw [← left]
    by_cases full : d = 365
    · rw [if_pos (leap full)]
      omega
    · split <;> omega

/-- The date of every day in range exists. -/
theorem valid_ofDays {n : Int} (low : minYear ≤ (ofDays n).year)
    (high : (ofDays n).year ≤ maxYear) :
    (ofDays n).valid = true := by
  obtain ⟨era, c, q, a, d, h, eq⟩ := exists_ofDays n
  have bounds := marchMonth_bounds h.day
  have before := daysBefore_marchMonth d
  have exists_of {year : Int} {month day : Nat} (in_year : 1 ≤ month ∧ month ≤ 12)
      (in_month : 1 ≤ day ∧ day ≤ monthLength year month) (date : ofDays n = ⟨year, month, day⟩) :
      (ofDays n).valid = true := by
    rw [date] at low high ⊢
    simp [valid, low, high, in_year, in_month]
  split at eq
  case isTrue early =>
    have length := day_le_monthLength (100 * c + 4 * q + a + era * 400) h.day
      fun last => by rw [last] at early; exact absurd early (by decide)
    rw [if_pos early] at length
    exact exists_of (by omega) (by omega) eq
  case isFalse late =>
    have length := day_le_monthLength (100 * c + 4 * q + a + era * 400 + 1) h.day
      fun last => h.isLeap last era
    rw [if_neg late] at length
    exact exists_of (by omega) (by omega) eq

/-- Months and days of dates that exist take two digits. -/
theorem lt_hundred_of_valid {d : Date} (h : d.valid = true) : d.month < 100 ∧ d.day < 100 := by
  have short : monthLength d.year d.month ≤ 31 := by
    unfold monthLength
    split
    · split <;> decide
    · split <;> decide
  simp only [valid, Bool.and_eq_true, decide_eq_true_eq] at h
  omega

end BackupAdmin.Date
