import MintFlow.Lib.Calendar

set_option relaxedAutoImplicit false
set_option autoImplicit false

/-!
# Months, counted

The months of the calendar are numbered one after the other, so that the month after a December is
the next one like any other. A date is a day of the month with its number.

## Main definitions

* `Transact.Date.monthNumber` — the number of the month of a date.
* `Transact.daysBefore`, `Transact.monthLength` — the days before a month, and its own.

## Main results

* `Transact.Date.ordinal_eq` — a date is a day of its month.
* `Transact.Date.monthNumber_eq` — the month of a date is the one whose days it is among.
* `Transact.daysBefore_year` — twelve months are at least 365 days.
-/

namespace Transact

open Date

/-- The days before the month with a number. -/
def daysBefore (number : ℕ) : ℕ :=
  daysBeforeYear (number / 12) + daysBeforeMonth (number / 12) (number % 12 + 1)

/-- The days of the month with a number. -/
def monthLength (number : ℕ) : ℕ := daysInMonth (number / 12) (number % 12 + 1)

/-- The number of the month of a date: the months before it, from the first one of year 0 on. -/
def Date.monthNumber (d : Date) : ℕ := d.year * 12 + (d.month - 1)

/-! ## Months follow each other -/

/-- A month ends where the next one begins. -/
lemma daysBefore_succ {number : ℕ} (h : 12 ≤ number) :
    daysBefore (number + 1) = daysBefore number + monthLength number := by
  unfold daysBefore monthLength
  by_cases hlast : number % 12 = 11
  · -- After a December comes the first month of the next year.
    have hyear : daysBeforeMonth (number / 12) 12 + daysInMonth (number / 12) 12 =
        daysInYear (number / 12) := by
      unfold daysBeforeMonth daysInMonth daysInYear
      cases isLeap (number / 12) <;> rfl
    have hfirst : daysBeforeMonth (number / 12 + 1) (0 + 1) = 0 := by
      unfold daysBeforeMonth
      cases isLeap (number / 12 + 1) <;> rfl
    rw [show (number + 1) / 12 = number / 12 + 1 by omega, show (number + 1) % 12 = 0 by omega,
      hlast, daysBeforeYear_succ (by omega), hfirst, ← hyear]
    rfl
  · rw [show (number + 1) / 12 = number / 12 by omega,
      show (number + 1) % 12 = number % 12 + 1 by omega,
      daysBeforeMonth_succ (by omega) (by omega)]
    omega

/-- A month ends before a later one begins. -/
lemma daysBefore_mono {m n : ℕ} (h : 12 ≤ m) (hlt : m < n) :
    daysBefore m + monthLength m ≤ daysBefore n := by
  induction n, hlt using Nat.le_induction with
  | base => exact (daysBefore_succ h).ge
  | succ n hle ih =>
    rw [daysBefore_succ (by omega)]
    omega

/-- Twelve months are at least 365 days. -/
lemma daysBefore_year {number : ℕ} (h : 12 ≤ number) :
    daysBefore number + 365 ≤ daysBefore (number + 12) := by
  unfold daysBefore
  rw [show (number + 12) / 12 = number / 12 + 1 by omega,
    show (number + 12) % 12 = number % 12 by omega, daysBeforeYear_succ (by omega)]
  -- A leap day is in one of the two years, before the month or after it.
  unfold daysInYear daysBeforeMonth
  cases isLeap (number / 12) <;> cases isLeap (number / 12 + 1) <;>
    by_cases hmonth : 2 < number % 12 + 1 <;> simp [hmonth] <;> omega

/-! ## The month of a date -/

namespace Date

/-- **A date is a day of its month.** -/
lemma ordinal_eq (d : Date) : d.ordinal = daysBefore d.monthNumber + d.day ∧
    1 ≤ d.day ∧ d.day ≤ monthLength d.monthNumber ∧ 12 ≤ d.monthNumber := by
  obtain ⟨⟨hyear, hmonth, hmonth', hday, hday'⟩, hord⟩ := ymdToOrdinal_toYmd d
  have hdiv : d.monthNumber / 12 = d.year := by
    unfold monthNumber
    omega
  have hmod : d.monthNumber % 12 + 1 = d.month := by
    unfold monthNumber
    omega
  unfold daysBefore monthLength
  rw [hdiv, hmod]
  refine ⟨hord.symm, hday, hday', ?_⟩
  unfold monthNumber
  omega

/-- The days of the month of a date. -/
lemma monthLength_monthNumber (d : Date) :
    monthLength d.monthNumber = daysInMonth d.year d.month := by
  have hmonth := (ymdToOrdinal_toYmd d).1.2
  have hdiv : d.monthNumber / 12 = d.year := by
    unfold monthNumber
    omega
  have hmod : d.monthNumber % 12 + 1 = d.month := by
    unfold monthNumber
    omega
  unfold monthLength
  rw [hdiv, hmod]

/-- Two dates are in one month exactly when year and month agree. -/
lemma monthNumber_eq_iff (d e : Date) :
    d.monthNumber = e.monthNumber ↔ d.year = e.year ∧ d.month = e.month := by
  have hd := (ymdToOrdinal_toYmd d).1.2
  have he := (ymdToOrdinal_toYmd e).1.2
  unfold monthNumber
  omega

/-- **The month of a date** is the one whose days it is among. -/
lemma monthNumber_eq {d : Date} {number : ℕ} (h : 12 ≤ number)
    (hlow : daysBefore number < d.ordinal) (hhigh : d.ordinal ≤ daysBefore number + monthLength number) :
    d.monthNumber = number := by
  obtain ⟨hord, hfirst, hday, hpos⟩ := ordinal_eq d
  rcases Nat.lt_trichotomy d.monthNumber number with hlt | heq | hlt
  · have := daysBefore_mono hpos hlt
    omega
  · exact heq
  · have := daysBefore_mono h hlt
    omega

/-- The months of later dates are not earlier. -/
lemma monthNumber_mono {d e : Date} (h : d ≤ e) : d.monthNumber ≤ e.monthNumber := by
  by_contra hlt
  obtain ⟨hd, hday, -, -⟩ := ordinal_eq d
  obtain ⟨he, -, hday', hpos⟩ := ordinal_eq e
  have hord : d.ordinal ≤ e.ordinal := h
  have := daysBefore_mono hpos (Nat.not_le.mp hlt)
  omega

/-- The day before the first of a month is the last one of the month before. -/
lemma monthNumber_before {d e : Date} (hday : d.day = 1) (hbefore : e.ordinal + 1 = d.ordinal) :
    e.monthNumber + 1 = d.monthNumber := by
  obtain ⟨hd, -, -, hpos⟩ := ordinal_eq d
  have hfirst : d.monthNumber ≠ 12 := by
    -- The first month of year 1 has no day before it.
    intro h
    have hnone : daysBefore 12 = 0 := by decide
    have := e.valid
    rw [h, hnone, hday] at hd
    omega
  have hsucc := daysBefore_succ (show 12 ≤ d.monthNumber - 1 by omega)
  rw [show d.monthNumber - 1 + 1 = d.monthNumber by omega] at hsucc
  have hlength : 1 ≤ monthLength (d.monthNumber - 1) := by
    unfold monthLength daysInMonth
    split_ifs <;> split <;> omega
  rw [@monthNumber_eq _ (d.monthNumber - 1) (by omega) (by omega) (by omega)]
  omega

/-- The day after the last one of a month is in the next month. -/
lemma monthNumber_after {d e : Date} (hday : d.day = monthLength d.monthNumber)
    (hafter : e.ordinal = d.ordinal + 1) : e.monthNumber = d.monthNumber + 1 := by
  obtain ⟨hd, -, -, hpos⟩ := ordinal_eq d
  have hsucc := daysBefore_succ hpos
  have hlength : 1 ≤ monthLength (d.monthNumber + 1) := by
    unfold monthLength daysInMonth
    split_ifs <;> split <;> omega
  exact monthNumber_eq (by omega) (by omega) (by omega)

/-- Dates in months a year and a month apart are at least 366 days apart. -/
lemma ordinal_le_of_months {d e : Date} (h : d.monthNumber + 13 ≤ e.monthNumber) :
    d.ordinal + 366 ≤ e.ordinal := by
  obtain ⟨hd, -, hday, hpos⟩ := ordinal_eq d
  obtain ⟨he, hday', -, -⟩ := ordinal_eq e
  have hsucc := daysBefore_succ hpos
  have hyear := daysBefore_year (show 12 ≤ d.monthNumber + 1 by omega)
  rcases Nat.lt_or_eq_of_le (show d.monthNumber + 1 + 12 ≤ e.monthNumber by omega) with hlt | heq
  · have := daysBefore_mono (by omega) hlt
    omega
  · rw [heq] at hyear
    omega

end Date

end Transact
