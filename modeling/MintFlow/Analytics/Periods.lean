import MintFlow.Domain.User
import MintFlow.Lib.Months

set_option relaxedAutoImplicit false
set_option autoImplicit false

/-!
# Dashboard periods

Pure functions over calendar dates. Expenses are grouped by their stored transaction date; the
user's time zone is used only to find today.

## Main definitions

* `MintFlow.DashboardPeriod` — an inclusive range of dates; its rules are its fields.
* `MintFlow.chartBuckets` — the buckets of the chart over time.
* `MintFlow.comparisonWindows` — the part of a period up to today, and the window before it.
* `MintFlow.ComparedWith` — which window a range of days is compared with.

## Main results

* `MintFlow.chartBuckets_eq_ok` — every period has a chart, whose buckets tile it.
* `MintFlow.comparison_windows_total` — every period can be compared on every day, with the window
  it should be compared with.
-/

namespace MintFlow

open Transact

/-- The longest period. -/
def maxPeriodDays : ℕ := 366

/-- The longest period shown day by day. -/
def maxDailyBucketPeriodDays : ℕ := 31

/-- The days of an inclusive range. -/
def daysBetween (dateFrom dateTo : Date) : ℕ := dateTo.ordinal - dateFrom.ordinal + 1

/-- An inclusive range of calendar dates. -/
structure DashboardPeriod where
  dateFrom : Date
  dateTo : Date
  /-- The range is not empty. -/
  le : dateFrom ≤ dateTo
  /-- The range is not too long. -/
  days_le : daysBetween dateFrom dateTo ≤ maxPeriodDays
  /-- The range is within the supported years. -/
  years : 2000 ≤ dateFrom.year ∧ dateTo.year ≤ 2100
deriving DecidableEq

@[ext] lemma DashboardPeriod.ext' {p q : DashboardPeriod} (hfrom : p.dateFrom = q.dateFrom)
    (hto : p.dateTo = q.dateTo) : p = q := by
  cases p; cases q; cases hfrom; cases hto; rfl

/-- `DashboardPeriod(date_from, date_to)`. -/
def DashboardPeriod.new (dateFrom dateTo : Date) : Checked DashboardPeriod :=
  if h₁ : dateFrom ≤ dateTo then
    if h₂ : daysBetween dateFrom dateTo ≤ maxPeriodDays then
      if h₃ : 2000 ≤ dateFrom.year ∧ dateTo.year ≤ 2100 then .ok ⟨dateFrom, dateTo, h₁, h₂, h₃⟩
      else .error "period years must be between 2000 and 2100"
    else .error "a period may span at most 366 days"
  else .error "date_from must not be after date_to"

/-- The days of a period. -/
def DashboardPeriod.days (p : DashboardPeriod) : ℕ := daysBetween p.dateFrom p.dateTo

/-- Whether a date is in a period. -/
def DashboardPeriod.contains (p : DashboardPeriod) (d : Date) : Bool :=
  decide (p.dateFrom ≤ d) && decide (d ≤ p.dateTo)

/-- `date.replace(day=…)`. -/
def replaceDay (d : Date) (day : ℕ) : Checked Date :=
  match Date.ofYmd? d.year d.month day with
  | some d => .ok d
  | none => .error "day is out of range for month"

/-- `date + timedelta(days=…)`. -/
def addDays (d : Date) (n : ℤ) : Checked Date :=
  match d.addDays? n with
  | some d => .ok d
  | none => .error "date value out of range"

/-- `_last_day_of_month`. -/
def lastDayOfMonth (d : Date) : Checked Date := replaceDay d (Date.daysInMonth d.year d.month)

/-- `_first_day_of_previous_month`. -/
def firstDayOfPreviousMonth (d : Date) : Checked Date := do
  let first ← replaceDay d 1
  let last ← addDays first (-1)
  replaceDay last 1

/-- `default_period`: the current calendar month. -/
def defaultPeriod [PythonRuntime] (now : Instant) (timezone : String) :
    Except Raised DashboardPeriod := do
  let today ← localToday now timezone
  Except.mapError .valueError do
    let dateFrom ← replaceDay today 1
    let dateTo ← lastDayOfMonth today
    DashboardPeriod.new dateFrom dateTo

/-- How fine the chart is. -/
inductive BucketGranularity
  | day
  | month
deriving DecidableEq, Repr

/-- The buckets of a chart. -/
structure ChartBuckets where
  granularity : BucketGranularity
  buckets : List DashboardPeriod
deriving DecidableEq

/-- The calendar months from `start`, clipped to the last date; a month has at least one day, so as
many rounds as days are enough. -/
def monthBuckets (dateTo : Date) : ℕ → Date → Checked (List DashboardPeriod)
  | 0, _ => .ok []
  | rounds + 1, start =>
    if start ≤ dateTo then do
      let last ← lastDayOfMonth start
      let bucket ← DashboardPeriod.new start (min last dateTo)
      let next ← addDays (min last dateTo) 1
      let rest ← monthBuckets dateTo rounds next
      return bucket :: rest
    else .ok []

/-- `chart_buckets`: days up to 31 days, else calendar months clipped to the period. -/
def chartBuckets (period : DashboardPeriod) : Checked ChartBuckets := do
  if period.days ≤ maxDailyBucketPeriodDays then
    let days ← (List.range period.days).mapM fun offset : ℕ => do
      let day ← addDays period.dateFrom offset
      DashboardPeriod.new day day
    return ⟨.day, days⟩
  else
    let months ← monthBuckets period.dateTo period.days period.dateFrom
    return ⟨.month, months⟩

/-- A period clipped to today, and the window it is compared with. -/
structure ComparisonWindows where
  current : DashboardPeriod
  previous : DashboardPeriod
deriving DecidableEq

/-- `comparison_windows`. -/
def comparisonWindows (period : DashboardPeriod) (today : Date) :
    Checked (Option ComparisonWindows) := do
  if today < period.dateFrom then return none
  else
    let current ← DashboardPeriod.new period.dateFrom (min period.dateTo today)
    let staysInOneMonth :=
      current.dateFrom.year = current.dateTo.year ∧ current.dateFrom.month = current.dateTo.month
    let window ←
      if current.dateFrom.day = 1 ∧ staysInOneMonth then do
        let previousFrom ← firstDayOfPreviousMonth current.dateFrom
        let sameOffset ← addDays previousFrom (current.days - 1)
        let last ← lastDayOfMonth previousFrom
        pure (previousFrom, min sameOffset last)
      else do
        let previousTo ← addDays current.dateFrom (-1)
        let previousFrom ← addDays previousTo (-(current.days - 1))
        pure (previousFrom, previousTo)
    if window.1.year < 2000 then return none
    else
      let previous ← DashboardPeriod.new window.1 window.2
      return some ⟨current, previous⟩

/-! ## Dates within the supported years -/

namespace DashboardPeriod

variable (p : DashboardPeriod)

/-- A range within a period is a period. -/
lemma new_within {a b : Date} (ha : p.dateFrom ≤ a) (hab : a ≤ b) (hb : b ≤ p.dateTo) :
    ∃ q, DashboardPeriod.new a b = .ok q ∧ q.dateFrom = a ∧ q.dateTo = b := by
  have hdays : daysBetween a b ≤ maxPeriodDays := by
    have h := p.days_le
    unfold daysBetween at h ⊢
    have ha' : p.dateFrom.ordinal ≤ a.ordinal := ha
    have hb' : b.ordinal ≤ p.dateTo.ordinal := hb
    omega
  have hyears : 2000 ≤ a.year ∧ b.year ≤ 2100 :=
    ⟨p.years.1.trans (Date.year_mono ha), (Date.year_mono hb).trans p.years.2⟩
  exact ⟨⟨a, b, hab, hdays, hyears⟩, by rw [DashboardPeriod.new, dif_pos hab, dif_pos hdays,
    dif_pos hyears], rfl, rfl⟩

/-- A period begins after the year 1999. -/
lemma le_dateFrom : 730119 < p.dateFrom.ordinal :=
  Date.lt_ordinal_of_le_year (by omega) p.years.1

/-- A period ends by the year 2100. -/
lemma dateTo_le : p.dateTo.ordinal ≤ 767009 :=
  Date.ordinal_lt_of_year_lt (Nat.lt_succ_of_le p.years.2)

/-- The days of a period, as ordinals. -/
lemma ordinal_le : p.dateFrom.ordinal ≤ p.dateTo.ordinal := p.le

end DashboardPeriod

/-- What `date + timedelta` gives while it is representable. -/
lemma addDays_eq_ok {d : Date} {n : ℤ} (h : 1 ≤ d.ordinal + n)
    (h' : d.ordinal + n ≤ maxOrdinal) :
    ∃ d', addDays d n = .ok d' ∧ (d'.ordinal : ℤ) = d.ordinal + n := by
  obtain ⟨d', hd', hord⟩ := Date.addDays?_eq_some h h'
  exact ⟨d', by rw [addDays, hd'], hord⟩

/-- Replacing the day of a date by a day of its month. -/
lemma replaceDay_eq_ok {d : Date} {day : ℕ} (hyear : d.year ≤ 9999) (h : 1 ≤ day)
    (h' : day ≤ Date.daysInMonth d.year d.month) :
    ∃ d', replaceDay d day = .ok d' ∧ (d'.ordinal + d.day : ℕ) = d.ordinal + day ∧
      d'.year = d.year ∧ d'.month = d.month ∧ d'.day = day := by
  have hspec := Date.ymdToOrdinal_toYmd d
  obtain ⟨d', hd', hord, hymd⟩ :=
    Date.ofYmd?_eq_some (⟨hspec.1.1, hspec.1.2.1, hspec.1.2.2.1, h, h'⟩ :
      Date.ValidYmd d.year d.month day) hyear
  refine ⟨d', by rw [replaceDay, hd'], ?_, hymd⟩
  have hself := hspec.2
  unfold Date.ymdToOrdinal at hord hself
  omega

/-- A month ends on or after each of its days. -/
lemma lastDayOfMonth_eq_ok {d : Date} (hyear : d.year ≤ 9999) :
    ∃ d', lastDayOfMonth d = .ok d' ∧ d ≤ d' ∧ d'.monthNumber = d.monthNumber ∧
      d'.day = monthLength d.monthNumber := by
  have hday := (Date.ymdToOrdinal_toYmd d).1.2.2.2
  obtain ⟨d', hd', hord, hy, hm, hlast⟩ := replaceDay_eq_ok hyear (hday.1.trans hday.2) le_rfl
  refine ⟨d', hd', ?_, (Date.monthNumber_eq_iff d' d).mpr ⟨hy, hm⟩, ?_⟩
  · show d.ordinal ≤ d'.ordinal
    omega
  · rw [hlast, Date.monthLength_monthNumber]

/-! ## Buckets -/

/-- Periods that follow each other without a gap, from one ordinal up to another. -/
inductive Tiles : ℕ → List DashboardPeriod → ℕ → Prop
  | nil (n : ℕ) : Tiles n [] n
  | cons {n stop : ℕ} {b : DashboardPeriod} {bs : List DashboardPeriod}
    (hb : b.dateFrom.ordinal = n) (hbs : Tiles (b.dateTo.ordinal + 1) bs stop) : Tiles n (b :: bs) stop

/-- Tiles stay within their ends. -/
lemma Tiles.bounds {n stop : ℕ} {bs : List DashboardPeriod} (h : Tiles n bs stop) :
    n ≤ stop ∧ ∀ b ∈ bs, n ≤ b.dateFrom.ordinal ∧ b.dateTo.ordinal < stop := by
  induction h with
  | nil n => exact ⟨le_rfl, by simp⟩
  | @cons n stop b bs hb hbs ih =>
    have hle := b.ordinal_le
    refine ⟨by omega, fun b' hb' => ?_⟩
    rcases List.mem_cons.mp hb' with rfl | hb'
    · omega
    · have := ih.2 b' hb'
      omega

/-- Nothing tiles no days. -/
lemma Tiles.eq_nil {n : ℕ} {bs : List DashboardPeriod} (h : Tiles n bs n) : bs = [] := by
  cases bs with
  | nil => rfl
  | cons b bs =>
    have hb := h.bounds.2 b List.mem_cons_self
    have hle := b.ordinal_le
    omega

/-- The days of a period from some day on, one by one, tile it.

**Proof sketch.** Induction on the number of days: each day lies in the period, so it is a bucket,
and the next one starts where it ends. -/
lemma tiles_days (p : DashboardPeriod) {first n : ℕ} (hn : first + n ≤ p.days) :
    ∃ bs, ((List.range' first n).mapM fun offset : ℕ => do
        let day ← addDays p.dateFrom offset
        DashboardPeriod.new day day) = .ok bs ∧
      Tiles (p.dateFrom.ordinal + first) bs (p.dateFrom.ordinal + first + n) ∧
      ∀ b ∈ bs, b.dateFrom = b.dateTo := by
  induction n generalizing first with
  | zero => exact ⟨[], rfl, .nil _, by simp⟩
  | succ n ih =>
    have hdays : p.dateFrom.ordinal + p.days = p.dateTo.ordinal + 1 := by
      have := p.ordinal_le
      unfold DashboardPeriod.days daysBetween
      omega
    have hlast := p.dateTo_le
    obtain ⟨day, hday, hord⟩ := addDays_eq_ok (d := p.dateFrom) (n := (first : ℤ))
      (by have := p.le_dateFrom; omega) (by unfold maxOrdinal; omega)
    obtain ⟨b, hb, hbfrom, hbto⟩ := p.new_within (a := day) (b := day)
      (show p.dateFrom.ordinal ≤ day.ordinal by omega) le_rfl
      (show day.ordinal ≤ p.dateTo.ordinal by omega)
    obtain ⟨bs, hbs, htiles, hsingle⟩ := ih (show first + 1 + n ≤ p.days by omega)
    refine ⟨b :: bs, ?_, ?_, List.forall_mem_cons.mpr ⟨hbfrom.trans hbto.symm, hsingle⟩⟩
    · rw [List.range'_succ, List.mapM_cons, hday]
      show (DashboardPeriod.new day day >>= fun _ => _) = _
      rw [hb, hbs]
      rfl
    · refine .cons (by rw [hbfrom]; omega) ?_
      rw [hbto, show day.ordinal + 1 = p.dateFrom.ordinal + (first + 1) by omega,
        show p.dateFrom.ordinal + first + (n + 1) = p.dateFrom.ordinal + (first + 1) + n by omega]
      exact htiles

/-- The months of a period from some day on, clipped to it, tile it, and follow each other.

**Proof sketch.** Induction on the rounds left, of which there are as many as days: each bucket ends
on or after the day it starts, so the next one starts with fewer days left. It starts the next
month, unless the bucket was clipped to the period, which then has no days left. -/
lemma tiles_months (p : DashboardPeriod) {rounds : ℕ} {start : Date} (hfrom : p.dateFrom ≤ start)
    (hto : start.ordinal ≤ p.dateTo.ordinal + 1)
    (hrounds : p.dateTo.ordinal + 1 ≤ start.ordinal + rounds) :
    ∃ bs, monthBuckets p.dateTo rounds start = .ok bs ∧
      Tiles start.ordinal bs (p.dateTo.ordinal + 1) ∧
      (∀ b ∈ bs, b.dateFrom.monthNumber = b.dateTo.monthNumber) ∧
      bs.map (fun b => b.dateFrom.monthNumber) = List.range' start.monthNumber bs.length := by
  induction rounds generalizing start with
  | zero =>
    have heq : start.ordinal = p.dateTo.ordinal + 1 := by omega
    exact ⟨[], rfl, heq ▸ .nil _, by simp, rfl⟩
  | succ rounds ih =>
    unfold monthBuckets
    by_cases hle : start ≤ p.dateTo
    · have hyear : start.year ≤ 9999 := by
        have := Date.year_mono hle
        have := p.years.2
        omega
      obtain ⟨last, hlast, hstart, hmonth, hend⟩ := lastDayOfMonth_eq_ok hyear
      obtain ⟨b, hb, hbfrom, hbto⟩ := p.new_within (a := start) (b := min last p.dateTo)
        hfrom (le_min hstart hle) (min_le_right _ _)
      have hmin : start.ordinal ≤ (min last p.dateTo).ordinal := le_min hstart hle
      have hmin' : (min last p.dateTo).ordinal ≤ p.dateTo.ordinal := min_le_right last p.dateTo
      have hstop := p.dateTo_le
      obtain ⟨next, hnext, hord⟩ := addDays_eq_ok (d := min last p.dateTo) (n := 1)
        (by omega) (by unfold maxOrdinal; omega)
      have hfrom' : p.dateFrom.ordinal ≤ start.ordinal := hfrom
      obtain ⟨bs, hbs, htiles, hone, hmonths⟩ := ih
        (show p.dateFrom ≤ next from show p.dateFrom.ordinal ≤ next.ordinal by omega) (by omega)
        (by omega)
      have hbone : b.dateFrom.monthNumber = b.dateTo.monthNumber := by
        rw [hbfrom, hbto]
        refine le_antisymm (Date.monthNumber_mono (le_min hstart hle)) ?_
        rw [← hmonth]
        exact Date.monthNumber_mono (min_le_left _ _)
      have hfollow : bs.map (fun b => b.dateFrom.monthNumber) =
          List.range' (start.monthNumber + 1) bs.length := by
        rcases le_or_gt last p.dateTo with hle' | hlt
        · rw [min_eq_left hle'] at hord
          rw [hmonths, Date.monthNumber_after (hend.trans (congrArg monthLength hmonth.symm))
            (by omega), hmonth]
        · rw [min_eq_right hlt.le] at hord
          have hnone : bs = [] := (show next.ordinal = p.dateTo.ordinal + 1 by omega) ▸
            htiles |>.eq_nil
          rw [hnone]
          rfl
      refine ⟨b :: bs, ?_, .cons (by rw [hbfrom]) ?_, List.forall_mem_cons.mpr ⟨hbone, hone⟩, ?_⟩
      · rw [if_pos hle, hlast]
        show (DashboardPeriod.new start (min last p.dateTo) >>= fun _ => _) = _
        rw [hb]
        show (addDays (min last p.dateTo) 1 >>= fun _ => _) = _
        rw [hnext]
        show (monthBuckets p.dateTo rounds next >>= fun _ => _) = _
        rw [hbs]
        rfl
      · rw [hbto, show (min last p.dateTo).ordinal + 1 = next.ordinal by omega]
        exact htiles
      · rw [List.map_cons, hbfrom, hfollow]
        rfl
    · have heq : start.ordinal = p.dateTo.ordinal + 1 := by
        have : ¬ start.ordinal ≤ p.dateTo.ordinal := hle
        omega
      rw [if_neg hle]
      exact ⟨[], rfl, heq ▸ .nil _, by simp, rfl⟩

/-- The days of a period, counted from its ends. -/
lemma DashboardPeriod.ordinal_add_days (p : DashboardPeriod) :
    p.dateFrom.ordinal + p.days = p.dateTo.ordinal + 1 := by
  have := p.ordinal_le
  unfold DashboardPeriod.days daysBetween
  omega

/-- A short period is shown day by day. -/
lemma chartBuckets_days (p : DashboardPeriod) (h : p.days ≤ maxDailyBucketPeriodDays) :
    ∃ bs, chartBuckets p = .ok ⟨.day, bs⟩ ∧
      Tiles p.dateFrom.ordinal bs (p.dateTo.ordinal + 1) ∧ ∀ b ∈ bs, b.dateFrom = b.dateTo := by
  obtain ⟨bs, hbs, htiles, hsingle⟩ := tiles_days p (show 0 + p.days ≤ p.days by omega)
  refine ⟨bs, ?_, ?_, hsingle⟩
  · unfold chartBuckets
    rw [if_pos h, List.range_eq_range', hbs]
    rfl
  · rw [← p.ordinal_add_days]
    exact htiles

/-- A longer period is shown month by month. -/
lemma chartBuckets_months (p : DashboardPeriod) (h : ¬ p.days ≤ maxDailyBucketPeriodDays) :
    ∃ bs, chartBuckets p = .ok ⟨.month, bs⟩ ∧
      Tiles p.dateFrom.ordinal bs (p.dateTo.ordinal + 1) ∧
      (∀ b ∈ bs, b.dateFrom.monthNumber = b.dateTo.monthNumber) ∧
      bs.map (fun b => b.dateFrom.monthNumber) =
        List.range' p.dateFrom.monthNumber bs.length := by
  have hdays := p.ordinal_add_days
  obtain ⟨bs, hbs, hmonths⟩ := tiles_months p (le_refl p.dateFrom)
    (by have := p.ordinal_le; omega)
    (show p.dateTo.ordinal + 1 ≤ p.dateFrom.ordinal + p.days by omega)
  refine ⟨bs, ?_, hmonths⟩
  unfold chartBuckets
  rw [if_neg h, hbs]
  rfl

/-- **Chart buckets.** Every period has a chart, and its buckets tile the period. -/
theorem chartBuckets_eq_ok (p : DashboardPeriod) :
    ∃ layout, chartBuckets p = .ok layout ∧
      Tiles p.dateFrom.ordinal layout.buckets (p.dateTo.ordinal + 1) := by
  by_cases h : p.days ≤ maxDailyBucketPeriodDays
  · obtain ⟨bs, hbs, htiles, -⟩ := chartBuckets_days p h
    exact ⟨⟨.day, bs⟩, hbs, htiles⟩
  · obtain ⟨bs, hbs, htiles, -⟩ := chartBuckets_months p h
    exact ⟨⟨.month, bs⟩, hbs, htiles⟩

/-! ## Comparison windows -/

/-- The days from `c` to `d` are what those from `a` to `b` are compared with. A range that starts a
month and stays in it is compared with as many first days of the month before, or with all of that
month if it has fewer; any other range with as many days just before it. -/
def ComparedWith (a b c d : Date) : Prop :=
  if a.day = 1 ∧ a.year = b.year ∧ a.month = b.month then
    c.day = 1 ∧ c.monthNumber + 1 = a.monthNumber ∧ c ≤ d ∧ d.year = c.year ∧ d.month = c.month ∧
      daysBetween c d = min (daysBetween a b) (Date.daysInMonth c.year c.month)
  else c ≤ d ∧ d.ordinal + 1 = a.ordinal ∧ daysBetween c d = daysBetween a b

section ComparedWith

variable {a b c d c' d' : Date}

/-- A range is compared with one other range.

**Proof sketch.** Day and month determine where the other range starts, and its number of days where
it ends. The two kinds of comparison exclude each other. -/
lemma ComparedWith.unique (h : ComparedWith a b c d) (h' : ComparedWith a b c' d') :
    c = c' ∧ d = d' := by
  unfold ComparedWith at h h'
  split_ifs at h h' with hmonth
  · obtain ⟨hday, hnumber, hle, -, -, hdays⟩ := h
    obtain ⟨hday', hnumber', hle', -, -, hdays'⟩ := h'
    have hsame : c.monthNumber = c'.monthNumber := by omega
    obtain rfl : c = c' := by
      ext
      rw [(Date.ordinal_eq c).1, (Date.ordinal_eq c').1, hsame, hday, hday']
    refine ⟨rfl, ?_⟩
    have hle₁ : c.ordinal ≤ d.ordinal := hle
    have hle₂ : c.ordinal ≤ d'.ordinal := hle'
    unfold daysBetween at hdays hdays'
    ext
    omega
  · obtain ⟨hle, hbefore, hdays⟩ := h
    obtain ⟨hle', hbefore', hdays'⟩ := h'
    have hle₁ : c.ordinal ≤ d.ordinal := hle
    have hle₂ : c'.ordinal ≤ d'.ordinal := hle'
    unfold daysBetween at hdays hdays'
    constructor
    · ext
      omega
    · ext
      omega

/-- A range is compared with earlier days. -/
lemma ComparedWith.lt (h : ComparedWith a b c d) : d < a := by
  unfold ComparedWith at h
  split_ifs at h with hmonth
  · obtain ⟨-, hnumber, -, hyear, hmonth', -⟩ := h
    have hsame := (Date.monthNumber_eq_iff d c).mpr ⟨hyear, hmonth'⟩
    by_contra hle
    have := Date.monthNumber_mono (not_lt.mp hle)
    omega
  · show d.ordinal < a.ordinal
    omega

/-- A range is compared with some days, and no more than it has. -/
lemma ComparedWith.days (h : ComparedWith a b c d) :
    c ≤ d ∧ daysBetween c d ≤ daysBetween a b := by
  unfold ComparedWith at h
  split_ifs at h with hmonth
  · exact ⟨h.2.2.1, h.2.2.2.2.2.trans_le (min_le_left _ _)⟩
  · exact ⟨h.1, h.2.2.le⟩

end ComparedWith

/-- The first day of the month before one that a period starts.

**Proof sketch.** The day before the first of a month lies in the month before, and that month has a
first. The period does not start before 2000, so the calendar does not run out. -/
lemma firstDayOfPreviousMonth_eq_ok (p : DashboardPeriod) (hday : p.dateFrom.day = 1) :
    ∃ d, firstDayOfPreviousMonth p.dateFrom = .ok d ∧ d.day = 1 ∧
      d.monthNumber + 1 = p.dateFrom.monthNumber := by
  have hfrom := p.le_dateFrom
  have hmonth := (Date.ymdToOrdinal_toYmd p.dateFrom).1.2.2.2
  obtain ⟨first, hfirst, hfirstord, -⟩ :=
    replaceDay_eq_ok p.dateFrom.year_le le_rfl (hmonth.1.trans hmonth.2)
  obtain ⟨before, hbefore, hbeforeord⟩ := addDays_eq_ok (d := first) (n := -1) (by omega)
    (by have := first.valid; omega)
  have hmonth' := (Date.ymdToOrdinal_toYmd before).1.2.2.2
  obtain ⟨d, hd, -, hdy, hdm, hdd⟩ :=
    replaceDay_eq_ok before.year_le le_rfl (hmonth'.1.trans hmonth'.2)
  refine ⟨d, ?_, hdd, ?_⟩
  · unfold firstDayOfPreviousMonth
    rw [hfirst]
    show (addDays first (-1) >>= fun _ => _) = _
    rw [hbefore]
    exact hd
  · rw [(Date.monthNumber_eq_iff d before).mpr ⟨hdy, hdm⟩]
    exact Date.monthNumber_before hday (by omega)

/-- The first days of the month before, clipped to that month.

**Proof sketch.** The window starts on the first and has as many days as the period, unless the
month before ends earlier; both ends lie in that month. -/
lemma comparedWith_month (p : DashboardPeriod) {d offset last : Date}
    (hmonth : p.dateFrom.day = 1 ∧ p.dateFrom.year = p.dateTo.year ∧
      p.dateFrom.month = p.dateTo.month)
    (hday : d.day = 1) (hnumber : d.monthNumber + 1 = p.dateFrom.monthNumber)
    (hoffset : (offset.ordinal : ℤ) = d.ordinal + (p.days - 1 : ℤ))
    (hlast : last.monthNumber = d.monthNumber ∧ last.day = monthLength d.monthNumber) :
    ComparedWith p.dateFrom p.dateTo d (min offset last) := by
  have hpos : 1 ≤ p.days := by
    unfold DashboardPeriod.days daysBetween
    omega
  obtain ⟨hd, -, hdlength, -⟩ := Date.ordinal_eq d
  have hl := (Date.ordinal_eq last).1
  rw [hlast.1, hlast.2] at hl
  have hdlast : d ≤ last := show d.ordinal ≤ last.ordinal by omega
  have hdmin : d ≤ min offset last := le_min (show d.ordinal ≤ offset.ordinal by omega) hdlast
  have hsame : (min offset last).monthNumber = d.monthNumber := by
    refine le_antisymm ?_ (Date.monthNumber_mono hdmin)
    rw [← hlast.1]
    exact Date.monthNumber_mono (min_le_right _ _)
  obtain ⟨hyear, hmonth'⟩ := (Date.monthNumber_eq_iff _ _).mp hsame
  unfold ComparedWith
  rw [if_pos hmonth, ← Date.monthLength_monthNumber]
  refine ⟨hday, hnumber, hdmin, hyear, hmonth', ?_⟩
  unfold DashboardPeriod.days at hoffset hpos
  rcases le_total offset last with hle | hle
  · have hle' : offset.ordinal ≤ last.ordinal := hle
    rw [min_eq_left hle, min_eq_left (by omega)]
    unfold daysBetween at hoffset hpos ⊢
    omega
  · have hle' : last.ordinal ≤ offset.ordinal := hle
    rw [min_eq_right hle, min_eq_right (by omega)]
    unfold daysBetween
    omega

/-- What the window before a period gives: nothing if it begins before 2000.

**Proof sketch.** A window that starts from 2000 on is before the period, so it ends before 2101,
and it has no more days than the period: each check of its construction holds. -/
lemma DashboardPeriod.windows_before (p : DashboardPeriod) {c d : Date}
    (h : ComparedWith p.dateFrom p.dateTo c d) :
    ∃ w : Option ComparisonWindows,
      (if c.year < 2000 then pure none
        else do
          let previous ← DashboardPeriod.new c d
          return some ⟨p, previous⟩ : Checked (Option ComparisonWindows)) = .ok w ∧
        (w = none ↔ c.year < 2000) ∧
        ∀ windows ∈ w, windows.current.dateFrom = p.dateFrom ∧
          windows.current.dateTo = p.dateTo ∧ windows.previous.dateFrom = c ∧
          windows.previous.dateTo = d := by
  by_cases hyear : c.year < 2000
  · exact ⟨none, by rw [if_pos hyear]; rfl, iff_of_true rfl hyear, by simp⟩
  · obtain ⟨hle, hdays⟩ := h.days
    have hmax : daysBetween c d ≤ maxPeriodDays := hdays.trans p.days_le
    have hyears : 2000 ≤ c.year ∧ d.year ≤ 2100 :=
      ⟨Nat.not_lt.mp hyear, (Date.year_mono (h.lt.le.trans p.le)).trans p.years.2⟩
    refine ⟨some ⟨p, ⟨c, d, hle, hmax, hyears⟩⟩, ?_, iff_of_false (by simp) hyear, ?_⟩
    · rw [if_neg hyear, DashboardPeriod.new, dif_pos hle, dif_pos hmax, dif_pos hyears]
      rfl
    · rintro windows ⟨⟩
      exact ⟨rfl, rfl, rfl, rfl⟩

/-- **The windows of a comparison.** From its first day on, a period is compared with the window it
should be, unless that begins before 2000.

**Proof sketch.** The period is clipped to today. If it then lies in one month from the first on,
the window is the month before (`comparedWith_month`); otherwise it is as many days before the
period. -/
theorem comparisonWindows_compared (p : DashboardPeriod) {today : Date}
    (htoday : p.dateFrom ≤ today) :
    ∃ c d, ComparedWith p.dateFrom (min p.dateTo today) c d ∧
      ∃ w, comparisonWindows p today = .ok w ∧ (w = none ↔ c.year < 2000) ∧
        ∀ windows ∈ w, windows.current.dateFrom = p.dateFrom ∧
          windows.current.dateTo = min p.dateTo today ∧ windows.previous.dateFrom = c ∧
          windows.previous.dateTo = d := by
  obtain ⟨current, hcurrent, hfrom, hto⟩ := p.new_within (a := p.dateFrom) (b := min p.dateTo today)
    le_rfl (le_min p.le htoday) (min_le_left _ _)
  unfold comparisonWindows
  rw [if_neg (not_lt.mpr htoday)]
  show ∃ c d, _ ∧ ∃ w, (DashboardPeriod.new p.dateFrom (min p.dateTo today) >>= fun _ => _) =
    .ok w ∧ _
  rw [hcurrent]
  simp only [Checked.bind_ok]
  rw [← hfrom, ← hto]
  have hstart := current.le_dateFrom
  have hdays := current.ordinal_add_days
  have hend := current.dateTo_le
  have hle := current.ordinal_le
  have hpast := current.days_le
  by_cases hmonth : current.dateFrom.day = 1 ∧ current.dateFrom.year = current.dateTo.year ∧
      current.dateFrom.month = current.dateTo.month
  · obtain ⟨c, hc, hcday, hcnumber⟩ := firstDayOfPreviousMonth_eq_ok current hmonth.1
    have hcord : c.ordinal < current.dateFrom.ordinal := by
      by_contra hge
      have := Date.monthNumber_mono (show current.dateFrom ≤ c from Nat.not_lt.mp hge)
      omega
    obtain ⟨offset, hoffset, hoffsetord⟩ := addDays_eq_ok (d := c) (n := (current.days : ℤ) - 1)
      (by have := c.valid; omega) (by unfold maxOrdinal; omega)
    obtain ⟨last, hlast, -, hlast'⟩ := lastDayOfMonth_eq_ok c.year_le
    have hcompared := comparedWith_month current hmonth hcday hcnumber hoffsetord hlast'
    rw [if_pos hmonth, hc]
    simp only [Checked.bind_ok]
    rw [hoffset]
    simp only [Checked.bind_ok]
    rw [hlast]
    exact ⟨c, min offset last, hcompared, current.windows_before hcompared⟩
  · obtain ⟨d, hd, hdord⟩ := addDays_eq_ok (d := current.dateFrom) (n := -1) (by omega)
      (by unfold maxOrdinal; omega)
    obtain ⟨c, hc, hcord⟩ := addDays_eq_ok (d := d) (n := -((current.days : ℤ) - 1))
      (by unfold maxPeriodDays at hpast; unfold DashboardPeriod.days; omega)
      (by unfold maxOrdinal; omega)
    have hcompared : ComparedWith current.dateFrom current.dateTo c d := by
      unfold ComparedWith
      rw [if_neg hmonth]
      refine ⟨show c.ordinal ≤ d.ordinal by omega, by omega, ?_⟩
      unfold DashboardPeriod.days at hcord hdays
      unfold daysBetween at hcord hdays ⊢
      omega
    rw [if_neg hmonth, hd]
    simp only [Checked.bind_ok]
    rw [hc]
    exact ⟨c, d, hcompared, current.windows_before hcompared⟩

/-- **Comparison windows.** Every period can be compared on every day, and where there is something
to compare, the current window is the part of the period up to that day. -/
theorem comparisonWindows_eq_ok (p : DashboardPeriod) (today : Date) :
    ∃ w, comparisonWindows p today = .ok w ∧
      ∀ windows ∈ w, windows.current.dateFrom = p.dateFrom ∧
        windows.current.dateTo = min p.dateTo today := by
  rcases lt_or_ge today p.dateFrom with hfuture | htoday
  · unfold comparisonWindows
    exact ⟨none, by rw [if_pos hfuture]; rfl, by simp⟩
  · obtain ⟨c, d, -, w, hw, -, hsome⟩ := comparisonWindows_compared p htoday
    exact ⟨w, hw, fun windows h => ⟨(hsome windows h).1, (hsome windows h).2.1⟩⟩

/-- **Comparison windows are total and right.** On every day, every period has a comparison, unless
it starts after that day or the window to compare it with begins before 2000. The current window is
the days of the period up to that day, and the previous one is over before it and the one that it
is compared with.

**Proof sketch.** Before the period starts there is no comparison. From then on the window is the
one that is compared with (`comparisonWindows_compared`), of which there is only one
(`ComparedWith.unique`). -/
theorem comparison_windows_total (p : DashboardPeriod) (today : Date) :
    ∃ w, comparisonWindows p today = .ok w ∧
      (w = none ↔ today < p.dateFrom ∨
        ∃ c d, ComparedWith p.dateFrom (min p.dateTo today) c d ∧ c.year < 2000) ∧
      ∀ windows ∈ w,
        (∀ day, windows.current.contains day = (p.contains day && decide (day ≤ today))) ∧
        windows.previous.dateTo < windows.current.dateFrom ∧
        ComparedWith windows.current.dateFrom windows.current.dateTo windows.previous.dateFrom
          windows.previous.dateTo := by
  rcases lt_or_ge today p.dateFrom with hfuture | htoday
  · unfold comparisonWindows
    exact ⟨none, by rw [if_pos hfuture]; rfl, iff_of_true rfl (.inl hfuture), by simp⟩
  · obtain ⟨c, d, hcompared, w, hw, hnone, hsome⟩ := comparisonWindows_compared p htoday
    refine ⟨w, hw, ?_, fun windows h => ?_⟩
    · rw [hnone]
      constructor
      · intro hyear
        exact .inr ⟨c, d, hcompared, hyear⟩
      · rintro (hfuture | ⟨c', d', hcompared', hyear⟩)
        · exact absurd htoday (not_le.mpr hfuture)
        · rwa [(hcompared.unique hcompared').1]
    · obtain ⟨hfrom, hto, hc, hd⟩ := hsome windows h
      rw [hc, hd, hfrom, hto]
      refine ⟨fun day => ?_, hcompared.lt, hcompared⟩
      unfold DashboardPeriod.contains
      rw [hfrom, hto, Bool.and_assoc, ← Bool.decide_and (p := day ≤ p.dateTo)]
      congr 1
      exact decide_eq_decide.mpr le_min_iff

end MintFlow
