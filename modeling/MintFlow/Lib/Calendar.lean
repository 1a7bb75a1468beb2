import Mathlib.Data.Nat.Basic
import Mathlib.Data.Prod.Lex
import Mathlib.Order.Basic
import Mathlib.Tactic.Common
import Mathlib.Tactic.IntervalCases
import Mathlib.Algebra.Order.Group.Nat

set_option relaxedAutoImplicit false
set_option autoImplicit false

/-!
# Calendar dates

A date of the proleptic Gregorian calendar is its ordinal: the number of days from the first of
January of year 1, which is day 1. The order of dates and the distance between them are those of
ordinals; year, month and day are computed from the ordinal and back.

## Main definitions

* `Transact.Date` — a date between the first day of year 1 and the last of year 9999.
* `Transact.Date.toYmd`, `Transact.Date.ofYmd?` — year, month and day, and the date they name.
* `Transact.Date.addDays?` — the date a number of days later or earlier.

## Main results

* `Transact.Date.ordinalToYmd_spec`, `Transact.Date.ofYmd?_eq_some` — reading an ordinal and naming
  a date undo each other.
* `Transact.Date.year_mono` — the year grows with the date.
-/

namespace Transact

/-- The ordinal of the last representable date, 9999-12-31. -/
def maxOrdinal : ℕ := 3652059

/-- A calendar date. -/
structure Date where
  /-- Days from 0001-01-01, which is day 1. -/
  ordinal : ℕ
  /-- The date is representable. -/
  valid : 1 ≤ ordinal ∧ ordinal ≤ maxOrdinal
deriving DecidableEq, Repr

namespace Date

@[ext] lemma ext' {a b : Date} (h : a.ordinal = b.ordinal) : a = b := by
  cases a; cases b; cases h; rfl

instance : LinearOrder Date :=
  LinearOrder.lift' ordinal fun _ _ => ext'

instance : Inhabited Date := ⟨⟨1, by decide⟩⟩

/-- Whether a year has a 29th of February. -/
def isLeap (year : ℕ) : Bool := year % 4 == 0 && (year % 100 != 0 || year % 400 == 0)

/-- What a leap year is. -/
lemma isLeap_iff {year : ℕ} :
    isLeap year = true ↔ year % 4 = 0 ∧ (year % 100 ≠ 0 ∨ year % 400 = 0) := by
  simp [isLeap]

/-- The days of a month, by its number from 1. -/
def daysInMonth (year month : ℕ) : ℕ :=
  match month with
  | 2 => if isLeap year then 29 else 28
  | 4 | 6 | 9 | 11 => 30
  | _ => 31

/-- The days of a common year before a month. -/
def daysBeforeMonthTable : ℕ → ℕ
  | 2 => 31 | 3 => 59 | 4 => 90 | 5 => 120 | 6 => 151 | 7 => 181
  | 8 => 212 | 9 => 243 | 10 => 273 | 11 => 304 | 12 => 334 | _ => 0

/-- The days of a year before a month. -/
def daysBeforeMonth (year month : ℕ) : ℕ :=
  daysBeforeMonthTable month + if 2 < month && isLeap year then 1 else 0

/-- The days before a year. -/
def daysBeforeYear (year : ℕ) : ℕ :=
  let y := year - 1
  y * 365 + y / 4 - y / 100 + y / 400

/-- The ordinal of a year, month and day. -/
def ymdToOrdinal (year month day : ℕ) : ℕ :=
  daysBeforeYear year + daysBeforeMonth year month + day

/-- Year, month and day of an ordinal, by cycles of 400, 100, 4 and 1 years. -/
def ordinalToYmd (ordinal : ℕ) : ℕ × ℕ × ℕ :=
  let n := ordinal - 1
  let n400 := n / 146097
  let n := n % 146097
  let n100 := n / 36524
  let n := n % 36524
  let n4 := n / 1461
  let n := n % 1461
  let n1 := n / 365
  let n := n % 365
  let year := n400 * 400 + 1 + n100 * 100 + n4 * 4 + n1
  -- The last day of a leap cycle belongs to the year before.
  if n1 = 4 ∨ n100 = 4 then (year - 1, 12, 31)
  else
    let month := (n + 50) / 32
    let preceding := daysBeforeMonth year month
    if n < preceding then (year, month - 1, n - daysBeforeMonth year (month - 1) + 1)
    else (year, month, n - preceding + 1)

/-- Year, month and day. -/
def toYmd (d : Date) : ℕ × ℕ × ℕ := ordinalToYmd d.ordinal

/-- The year. -/
def year (d : Date) : ℕ := d.toYmd.1

/-- The month, from 1. -/
def month (d : Date) : ℕ := d.toYmd.2.1

/-- The day of the month, from 1. -/
def day (d : Date) : ℕ := d.toYmd.2.2

/-- The date with an ordinal, if there is one. -/
def ofOrdinal? (n : ℤ) : Option Date :=
  if h : 1 ≤ n.toNat ∧ n.toNat ≤ maxOrdinal then some ⟨n.toNat, h⟩ else none

/-- The date a year, month and day name, if they name one. -/
def ofYmd? (year month day : ℕ) : Option Date :=
  if 1 ≤ year ∧ year ≤ 9999 ∧ 1 ≤ month ∧ month ≤ 12 ∧ 1 ≤ day ∧ day ≤ daysInMonth year month then
    ofOrdinal? (ymdToOrdinal year month day)
  else none

/-- The date `n` days later, if it is representable. -/
def addDays? (d : Date) (n : ℤ) : Option Date := ofOrdinal? (d.ordinal + n)

/-! ## Days of a year -/

/-- The number of days of a year. -/
def daysInYear (year : ℕ) : ℕ := if isLeap year then 366 else 365

/-- The days before the next year.

**Proof sketch.** The quotients by 4, 100 and 400 grow by one where the year is a multiple, so the
days added are those of a leap year or of a common one. -/
lemma daysBeforeYear_succ {year : ℕ} (h : 1 ≤ year) :
    daysBeforeYear (year + 1) = daysBeforeYear year + daysInYear year := by
  obtain ⟨k, rfl⟩ : ∃ k, year = k + 1 := ⟨year - 1, by omega⟩
  have hle : k / 100 ≤ k * 365 := by omega
  have h4 := Nat.succ_div (a := k) (b := 4)
  have h100 := Nat.succ_div (a := k) (b := 100)
  have h400 := Nat.succ_div (a := k) (b := 400)
  have hle' : (k + 1) / 100 ≤ k / 100 + 1 := by split_ifs at h100 <;> omega
  unfold daysBeforeYear daysInYear
  simp only [isLeap_iff, Nat.add_sub_cancel]
  by_cases hd4 : 4 ∣ k + 1
  · rw [if_pos hd4] at h4
    by_cases hd100 : 100 ∣ k + 1
    · rw [if_pos hd100] at h100
      by_cases hd400 : 400 ∣ k + 1
      · rw [if_pos hd400] at h400
        rw [if_pos (by omega)]
        omega
      · rw [if_neg hd400] at h400
        rw [if_neg (by omega)]
        omega
    · rw [if_neg hd100] at h100
      rw [if_neg (by omega)] at h400
      rw [if_pos (by omega)]
      omega
  · rw [if_neg hd4] at h4
    rw [if_neg (by omega)] at h100
    rw [if_neg (by omega)] at h400
    rw [if_neg (by omega)]
    omega

/-- Later years begin later. -/
lemma daysBeforeYear_mono {y y' : ℕ} (h : 1 ≤ y) (hlt : y < y') :
    daysBeforeYear y + daysInYear y ≤ daysBeforeYear y' := by
  induction y', hlt using Nat.le_induction with
  | base => rw [daysBeforeYear_succ h]
  | succ y' hle ih =>
    rw [daysBeforeYear_succ (by omega)]
    omega

/-- A year, month and day that name a date. -/
def ValidYmd (year month day : ℕ) : Prop :=
  1 ≤ year ∧ 1 ≤ month ∧ month ≤ 12 ∧ 1 ≤ day ∧ day ≤ daysInMonth year month

/-- Months follow each other. -/
lemma daysBeforeMonth_succ {year month : ℕ} (h : 1 ≤ month) (h' : month ≤ 11) :
    daysBeforeMonth year (month + 1) = daysBeforeMonth year month + daysInMonth year month := by
  unfold daysBeforeMonth daysInMonth
  cases isLeap year <;> interval_cases month <;> rfl

/-- Later months begin later. -/
lemma daysBeforeMonth_mono {year m m' : ℕ} (h : 1 ≤ m) (hlt : m < m') (h' : m' ≤ 12) :
    daysBeforeMonth year m + daysInMonth year m ≤ daysBeforeMonth year m' := by
  induction m', hlt using Nat.le_induction with
  | base => rw [daysBeforeMonth_succ h (by omega)]
  | succ m' hle ih =>
    rw [daysBeforeMonth_succ (by omega) (by omega)]
    have := ih (by omega)
    omega

/-- A day of a year is one of its days. -/
lemma dayOfYear_le {year month day : ℕ} (h : ValidYmd year month day) :
    daysBeforeMonth year month + day ≤ daysInYear year := by
  obtain ⟨-, h₁, h₂, -, hday⟩ := h
  have hlast : daysBeforeMonth year 12 + daysInMonth year 12 = daysInYear year := by
    unfold daysBeforeMonth daysInMonth daysInYear
    cases isLeap year <;> rfl
  rcases Nat.lt_or_eq_of_le h₂ with hlt | rfl
  · have := @daysBeforeMonth_mono year _ _ h₁ hlt le_rfl
    omega
  · omega

/-! ## Ordinals and dates -/

/-- A later year has later days. -/
lemma ymdToOrdinal_lt {y m d y' m' d' : ℕ} (h : ValidYmd y m d) (h' : ValidYmd y' m' d')
    (hlt : y < y') : ymdToOrdinal y m d < ymdToOrdinal y' m' d' := by
  have hday := dayOfYear_le h
  have hyear := daysBeforeYear_mono h.1 hlt
  have hpos := h'.2.2.2.1
  unfold ymdToOrdinal
  omega

/-- **Ordinals tell dates apart.** -/
lemma ymdToOrdinal_injective {y m d y' m' d' : ℕ} (h : ValidYmd y m d) (h' : ValidYmd y' m' d')
    (heq : ymdToOrdinal y m d = ymdToOrdinal y' m' d') : y = y' ∧ m = m' ∧ d = d' := by
  have hy : y = y' := by
    rcases Nat.lt_trichotomy y y' with hlt | heq' | hlt
    · have := ymdToOrdinal_lt h h' hlt
      omega
    · exact heq'
    · have := ymdToOrdinal_lt h' h hlt
      omega
  subst hy
  unfold ymdToOrdinal at heq
  obtain ⟨-, hm₁, hm₂, hd₁, hd₂⟩ := h
  obtain ⟨-, hm₁', hm₂', hd₁', hd₂'⟩ := h'
  rcases Nat.lt_trichotomy m m' with hlt | rfl | hlt
  · have := @daysBeforeMonth_mono y _ _ hm₁ hlt hm₂'
    omega
  · exact ⟨rfl, rfl, by omega⟩
  · have := @daysBeforeMonth_mono y _ _ hm₁' hlt hm₂
    omega

/-- The month estimate of `ordinalToYmd` for the day of a year, counted from 0. -/
lemma month_estimate : ∀ leap : Bool, ∀ n < 365,
    let before : ℕ → ℕ := fun m => daysBeforeMonthTable m + if 2 < m && leap then 1 else 0
    let days : ℕ → ℕ := fun m => match m with
      | 2 => if leap then 29 else 28
      | 4 | 6 | 9 | 11 => 30
      | _ => 31
    let month := (n + 50) / 32
    if n < before month then
      1 ≤ month - 1 ∧ month - 1 ≤ 12 ∧ before (month - 1) ≤ n ∧ n < before (month - 1) + days (month - 1)
    else 1 ≤ month ∧ month ≤ 12 ∧ n < before month + days month := by
  decide +kernel

/-- The days before a year, counted in cycles. -/
lemma daysBeforeYear_cycles {n400 n100 n4 n1 : ℕ} (h100 : n100 ≤ 3) (h4 : n4 ≤ 24) (h1 : n1 ≤ 3) :
    daysBeforeYear (n400 * 400 + 1 + n100 * 100 + n4 * 4 + n1) =
      146097 * n400 + 36524 * n100 + 1461 * n4 + 365 * n1 := by
  have hy : n400 * 400 + 1 + n100 * 100 + n4 * 4 + n1 - 1 =
      n400 * 400 + n100 * 100 + n4 * 4 + n1 := by omega
  have hd4 : (n400 * 400 + n100 * 100 + n4 * 4 + n1) / 4 = n400 * 100 + n100 * 25 + n4 := by omega
  have hd100 : (n400 * 400 + n100 * 100 + n4 * 4 + n1) / 100 = n400 * 4 + n100 := by omega
  have hd400 : (n400 * 400 + n100 * 100 + n4 * 4 + n1) / 400 = n400 := by omega
  unfold daysBeforeYear
  simp only [hy, hd4, hd100, hd400]
  omega

/-- The 31st of December of a leap year is its 366th day. -/
lemma ymdToOrdinal_lastDay {year : ℕ} (h : isLeap year = true) :
    ymdToOrdinal year 12 31 = daysBeforeYear year + 366 := by
  simp only [ymdToOrdinal, daysBeforeMonth, h, daysBeforeMonthTable]
  rfl

/-- A day before the 366th of a year, counted from 0, is read right. -/
lemma ordinalToYmd_day {year n : ℕ} (hyear : 1 ≤ year) (hn : n < 365) :
    let month := (n + 50) / 32
    let ymd := if n < daysBeforeMonth year month then
        (year, month - 1, n - daysBeforeMonth year (month - 1) + 1)
      else (year, month, n - daysBeforeMonth year month + 1)
    ValidYmd ymd.1 ymd.2.1 ymd.2.2 ∧
      ymdToOrdinal ymd.1 ymd.2.1 ymd.2.2 = daysBeforeYear year + n + 1 := by
  have hmonth := month_estimate (isLeap year) n hn
  unfold ValidYmd ymdToOrdinal daysInMonth daysBeforeMonth
  simp only at hmonth ⊢
  split_ifs at hmonth ⊢ with hlt <;> simp only at hmonth ⊢ <;> omega

/-- **Reading an ordinal.** The year, month and day of an ordinal name it.

**Proof sketch.** The quotients by the lengths of the cycles count the days before the year. The
last day of a cycle that ends with a leap year is a 31st of December; any other day of a year is
before the 366th, where the month estimate was checked day by day. -/
lemma ordinalToYmd_spec {ordinal : ℕ} (h : 1 ≤ ordinal) :
    ValidYmd (ordinalToYmd ordinal).1 (ordinalToYmd ordinal).2.1 (ordinalToYmd ordinal).2.2 ∧
      ymdToOrdinal (ordinalToYmd ordinal).1 (ordinalToYmd ordinal).2.1 (ordinalToYmd ordinal).2.2 =
        ordinal := by
  obtain ⟨k, rfl⟩ : ∃ k, ordinal = k + 1 := ⟨ordinal - 1, by omega⟩
  unfold ordinalToYmd
  simp only [Nat.add_sub_cancel]
  generalize h400 : k / 146097 = n400
  generalize ha : k % 146097 = a
  generalize h100 : a / 36524 = n100
  generalize hb : a % 36524 = b
  generalize h4 : b / 1461 = n4
  generalize hc : b % 1461 = c
  generalize h1 : c / 365 = n1
  generalize hr : c % 365 = r
  by_cases hlast : n1 = 4 ∨ n100 = 4
  · rw [if_pos hlast]
    -- The last day of a cycle of 400 years, or of one of 4 that does not end a century.
    obtain ⟨n100', n4', h100', h4', hcentury, hyear, hk⟩ : ∃ n100' n4', n100' ≤ 3 ∧ n4' ≤ 24 ∧
        (n4' = 24 → n100' = 3) ∧
        n400 * 400 + 1 + n100 * 100 + n4 * 4 + n1 - 1 =
          n400 * 400 + 1 + n100' * 100 + n4' * 4 + 3 ∧
        k = 146097 * n400 + 36524 * n100' + 1461 * n4' + 1460 := by
      by_cases hcentury : n100 = 4
      · exact ⟨3, 24, by omega, by omega, by omega, by omega, by omega⟩
      · exact ⟨n100, n4, by omega, by omega, by omega, by omega, by omega⟩
    rw [hyear]
    have hleap : isLeap (n400 * 400 + 1 + n100' * 100 + n4' * 4 + 3) = true := by
      rw [isLeap_iff]
      omega
    have hvalid : ValidYmd (n400 * 400 + 1 + n100' * 100 + n4' * 4 + 3) 12 31 :=
      ⟨by omega, by omega, by omega, by omega, le_refl 31⟩
    refine ⟨hvalid, ?_⟩
    rw [ymdToOrdinal_lastDay hleap, daysBeforeYear_cycles h100' h4' (by omega)]
    omega
  · rw [if_neg hlast]
    have hyear : daysBeforeYear (n400 * 400 + 1 + n100 * 100 + n4 * 4 + n1) =
        146097 * n400 + 36524 * n100 + 1461 * n4 + 365 * n1 :=
      daysBeforeYear_cycles (by omega) (by omega) (by omega)
    have hday := ordinalToYmd_day
      (show 1 ≤ n400 * 400 + 1 + n100 * 100 + n4 * 4 + n1 by omega) (show r < 365 by omega)
    simp only at hday
    refine ⟨hday.1, ?_⟩
    rw [hday.2, hyear]
    omega

/-- A date names itself. -/
lemma ymdToOrdinal_toYmd (d : Date) :
    ValidYmd d.year d.month d.day ∧ ymdToOrdinal d.year d.month d.day = d.ordinal :=
  ordinalToYmd_spec d.valid.1

/-- Later dates are not in earlier years. -/
lemma year_mono {d d' : Date} (h : d ≤ d') : d.year ≤ d'.year := by
  by_contra hlt
  have hord := ymdToOrdinal_lt (ymdToOrdinal_toYmd d').1 (ymdToOrdinal_toYmd d).1 (Nat.not_le.mp hlt)
  rw [(ymdToOrdinal_toYmd d').2, (ymdToOrdinal_toYmd d).2] at hord
  exact absurd (show d.ordinal ≤ d'.ordinal from h) (Nat.not_le.mpr hord)

/-- No date is after the supported years. -/
lemma year_le (d : Date) : d.year ≤ 9999 := by
  have hlast : (⟨maxOrdinal, by decide⟩ : Date).year = 9999 := by decide
  exact hlast ▸ year_mono (show d.ordinal ≤ maxOrdinal from d.valid.2)

/-- Months and days have two digits. -/
lemma month_day_lt (d : Date) : d.month < 100 ∧ d.day < 100 := by
  have hvalid := (ymdToOrdinal_toYmd d).1
  have hlength : daysInMonth d.year d.month ≤ 31 := by
    unfold daysInMonth
    split_ifs <;> split <;> omega
  have hday := hvalid.2.2.2.2
  exact ⟨lt_of_le_of_lt hvalid.2.2.1 (by decide), by omega⟩

/-- The months of later dates do not begin earlier.

**Proof sketch.** `ordinal - day` is the day before the first of the month. A later year, or a later
month of the same year, begins after every day of the earlier one. -/
lemma monthStart_mono {d d' : Date} (h : d ≤ d') : d.ordinal + d'.day ≤ d'.ordinal + d.day := by
  have hle : d.ordinal ≤ d'.ordinal := h
  have hspec := ymdToOrdinal_toYmd d
  have hspec' := ymdToOrdinal_toYmd d'
  rcases Nat.lt_or_eq_of_le (year_mono h) with hlt | hyear
  · have hyears := daysBeforeYear_mono hspec.1.1 hlt
    have hday := dayOfYear_le hspec.1
    have hpos := hspec.1.2.2.2.1
    rw [← hspec.2, ← hspec'.2]
    unfold ymdToOrdinal
    omega
  · have hord := hspec.2
    have hord' := hspec'.2
    unfold ymdToOrdinal at hord hord'
    rw [← hyear] at hord'
    rcases Nat.lt_trichotomy d.month d'.month with hlt | heq | hlt
    · have hmonths := @daysBeforeMonth_mono d.year _ _ hspec.1.2.1 hlt hspec'.1.2.2.1
      omega
    · rw [← heq] at hord'
      omega
    · have hmonths := @daysBeforeMonth_mono d.year _ _ hspec'.1.2.1 hlt hspec.1.2.2.1
      have hday := hspec'.1.2.2.2.2
      rw [← hyear] at hday
      have hpos := hspec.1.2.2.2.1
      omega

/-- The ordinals of the supported years are representable. -/
lemma ymdToOrdinal_le {year month day : ℕ} (h : ValidYmd year month day) (h' : year ≤ 9999) :
    1 ≤ ymdToOrdinal year month day ∧ ymdToOrdinal year month day ≤ maxOrdinal := by
  have hday := dayOfYear_le h
  have hpos := h.2.2.2.1
  have hlast : daysBeforeYear 9999 + daysInYear 9999 = maxOrdinal := by decide
  unfold ymdToOrdinal
  rcases Nat.lt_or_eq_of_le h' with hlt | rfl
  · have := daysBeforeYear_mono h.1 hlt
    omega
  · omega

/-- **Naming a date.** A valid year, month and day name the date that reads back as them. -/
lemma ofYmd?_eq_some {year month day : ℕ} (h : ValidYmd year month day) (h' : year ≤ 9999) :
    ∃ d, ofYmd? year month day = some d ∧ d.ordinal = ymdToOrdinal year month day ∧
      d.year = year ∧ d.month = month ∧ d.day = day := by
  have hord := ymdToOrdinal_le h h'
  refine ⟨⟨ymdToOrdinal year month day, hord⟩, ?_, rfl, ?_⟩
  · unfold ofYmd? ofOrdinal?
    rw [if_pos ⟨h.1, h', h.2⟩, dif_pos]
    · simp only [Int.toNat_natCast]
    · simpa using hord
  · have hspec := ordinalToYmd_spec hord.1
    exact ymdToOrdinal_injective hspec.1 h hspec.2

/-- The date some days later or earlier, while it is representable. -/
lemma addDays?_eq_some {d : Date} {n : ℤ} (h : 1 ≤ d.ordinal + n) (h' : d.ordinal + n ≤ maxOrdinal) :
    ∃ d', d.addDays? n = some d' ∧ (d'.ordinal : ℤ) = d.ordinal + n := by
  have hvalid : 1 ≤ ((d.ordinal : ℤ) + n).toNat ∧ ((d.ordinal : ℤ) + n).toNat ≤ maxOrdinal := by
    omega
  refine ⟨⟨((d.ordinal : ℤ) + n).toNat, hvalid⟩, ?_, by simp only; omega⟩
  unfold addDays? ofOrdinal?
  rw [dif_pos hvalid]

/-- The date some days later or earlier is the one with that ordinal. -/
lemma addDays?_iff {d d' : Date} {n : ℤ} :
    d.addDays? n = some d' ↔ (d'.ordinal : ℤ) = d.ordinal + n := by
  have hvalid := d'.valid
  constructor
  · intro h
    unfold addDays? ofOrdinal? at h
    split_ifs at h with hn
    obtain rfl := Option.some.inj h
    show (((d.ordinal : ℤ) + n).toNat : ℤ) = d.ordinal + n
    omega
  · intro h
    obtain ⟨last, hlast, hordinal⟩ := addDays?_eq_some (d := d) (n := n) (by omega) (by omega)
    rw [hlast]
    have heq : last.ordinal = d'.ordinal := by omega
    exact congrArg some (ext' heq)

/-- There is no such date exactly when the calendar ends before. -/
lemma addDays?_eq_none {d : Date} {n : ℤ} :
    d.addDays? n = none ↔ ¬ (1 ≤ d.ordinal + n ∧ d.ordinal + n ≤ maxOrdinal) := by
  constructor
  · rintro h ⟨hfirst, hlast⟩
    obtain ⟨d', hd', -⟩ := addDays?_eq_some hfirst hlast
    rw [h] at hd'
    cases hd'
  · intro h
    unfold addDays? ofOrdinal?
    exact dif_neg (by omega)

/-- The last year of the calendar ends with its last date. -/
lemma ordinal_lt_of_year_lt {d : Date} {year : ℕ} (h : d.year < year) :
    d.ordinal ≤ daysBeforeYear year := by
  have hspec := ymdToOrdinal_toYmd d
  have hday := dayOfYear_le hspec.1
  have hyear := daysBeforeYear_mono hspec.1.1 h
  rw [← hspec.2]
  unfold ymdToOrdinal
  omega

/-- A date of a year or a later one comes after the days before that year. -/
lemma lt_ordinal_of_le_year {d : Date} {year : ℕ} (hpos : 1 ≤ year) (h : year ≤ d.year) :
    daysBeforeYear year < d.ordinal := by
  have hspec := ymdToOrdinal_toYmd d
  have hday := hspec.1.2.2.2.1
  rw [← hspec.2]
  unfold ymdToOrdinal
  rcases Nat.lt_or_eq_of_le h with hlt | heq
  · have := daysBeforeYear_mono hpos hlt
    omega
  · rw [heq]
    omega

example : (ofYmd? 2024 2 29).map toYmd = some (2024, 2, 29) := by decide

end Date

end Transact
