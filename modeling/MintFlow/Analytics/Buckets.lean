import MintFlow.Analytics.Reconciliation

set_option relaxedAutoImplicit false
set_option autoImplicit false

/-!
# The buckets of a chart

The buckets are days or months, and each day of the period is in exactly one of them. So a row of
daily totals is counted once, whatever the layout.

## Main definitions

* `MintFlow.ChartBuckets.Partitions` — the buckets follow each other from the first day of a period
  to the last one, day by day or month by month.

## Main results

* `MintFlow.Tiles.countP` — a day is in one tile.
* `MintFlow.length_months_le` — no period has more than 13 months.
* `MintFlow.chart_buckets_partition` — the buckets of every period partition it, and the totals of
  its days with it.
-/

namespace MintFlow

open Transact

/-! ## Tiles -/

/-- A date is in a period when its ordinal is between those of the ends. -/
lemma contains_iff (p : DashboardPeriod) (d : Date) :
    p.contains d = true ↔ p.dateFrom.ordinal ≤ d.ordinal ∧ d.ordinal < p.dateTo.ordinal + 1 := by
  have hto : d ≤ p.dateTo ↔ d.ordinal ≤ p.dateTo.ordinal := Iff.rfl
  unfold DashboardPeriod.contains
  rw [Bool.and_eq_true, decide_eq_true_eq, decide_eq_true_eq, hto, Nat.lt_succ_iff]
  exact Iff.rfl

section Tiles

variable {n stop : ℕ} {bs : List DashboardPeriod}

/-- **A day is in one tile**, if it is among the days that are tiled.

**Proof sketch.** By induction on the tiles: the days of the first end where the others begin. -/
lemma Tiles.countP (h : Tiles n bs stop) (d : Date) :
    bs.countP (fun b => b.contains d) = if n ≤ d.ordinal ∧ d.ordinal < stop then 1 else 0 := by
  induction h with
  | nil n =>
    rw [List.countP_nil, if_neg (by omega)]
  | @cons n stop b bs hb hbs ih =>
    have hle := b.ordinal_le
    have hstop := hbs.bounds.1
    rw [List.countP_cons, ih]
    by_cases hin : b.contains d = true
    · have hd := (contains_iff b d).mp hin
      rw [if_pos hin, if_neg (by omega), if_pos (by omega)]
    · have hd := fun hd => hin ((contains_iff b d).mpr hd)
      rw [if_neg hin, Nat.add_zero]
      congr 1
      rw [eq_iff_iff]
      constructor
      · rintro ⟨hlow, hhigh⟩
        omega
      · rintro ⟨hlow, hhigh⟩
        by_contra hnot
        exact hd (by omega)

/-- Each tile starts the day after the one before it. -/
lemma Tiles.isChain (h : Tiles n bs stop) :
    bs.IsChain fun b c => c.dateFrom.ordinal = b.dateTo.ordinal + 1 := by
  induction h with
  | nil n => exact .nil
  | @cons n stop b bs hb hbs ih =>
    cases hbs with
    | nil => exact .singleton _
    | cons hc hcs => exact List.isChain_cons_cons.mpr ⟨hc, ih⟩

/-- The first tile starts with the first day that is tiled. -/
lemma Tiles.head? (h : Tiles n bs stop) (hlt : n < stop) :
    ∃ b, bs.head? = some b ∧ b.dateFrom.ordinal = n := by
  cases h with
  | nil => omega
  | @cons _ _ b bs hb hbs => exact ⟨b, rfl, hb⟩

/-- The last tile ends with the last day that is tiled. -/
lemma Tiles.getLast? (h : Tiles n bs stop) (hlt : n < stop) :
    ∃ b, bs.getLast? = some b ∧ b.dateTo.ordinal + 1 = stop := by
  induction h with
  | nil n => omega
  | @cons n stop b bs hb hbs ih =>
    rcases Nat.lt_or_eq_of_le hbs.bounds.1 with hmore | hend
    · obtain ⟨c, hc, hstop⟩ := ih hmore
      refine ⟨c, ?_, hstop⟩
      rw [List.getLast?_cons, hc]
      rfl
    · obtain rfl := (hend ▸ hbs : Tiles stop bs stop).eq_nil
      exact ⟨b, rfl, hend⟩

end Tiles

/-! ## Months -/

/-- Numbers in a row are each one more than the one before. -/
lemma isChain_of_map_range' {α : Type} {f : α → ℕ} {xs : List α} {first : ℕ}
    (h : xs.map f = List.range' first xs.length) : xs.IsChain fun x y => f y = f x + 1 := by
  induction xs generalizing first with
  | nil => exact .nil
  | cons x xs ih =>
    rw [List.map_cons, List.length_cons, List.range'_succ, List.cons.injEq] at h
    cases xs with
    | nil => exact .singleton _
    | cons y ys =>
      have hy := h.2
      rw [List.map_cons, List.length_cons, List.range'_succ, List.cons.injEq] at hy
      exact List.isChain_cons_cons.mpr ⟨by rw [hy.1, h.1], ih h.2⟩

/-- **No period has more than 13 months.** The 14th would begin 366 days after the first day. -/
lemma length_months_le (p : DashboardPeriod) {bs : List DashboardPeriod}
    (htiles : Tiles p.dateFrom.ordinal bs (p.dateTo.ordinal + 1))
    (hmonths : bs.map (fun b => b.dateFrom.monthNumber) =
      List.range' p.dateFrom.monthNumber bs.length) : bs.length ≤ 13 := by
  by_contra hlong
  have hlt : 13 < bs.length := Nat.not_le.mp hlong
  have hnumber : bs[13].dateFrom.monthNumber = p.dateFrom.monthNumber + 13 := by
    have hget := congrArg (fun ns => ns[13]?) hmonths
    simp only [List.getElem?_map, List.getElem?_eq_getElem hlt, Option.map_some] at hget
    rw [List.getElem?_range' hlt, Option.some.injEq] at hget
    omega
  have hlater := Date.ordinal_le_of_months hnumber.ge
  have hin := htiles.bounds.2 _ (List.getElem_mem hlt)
  have hle := bs[13].ordinal_le
  have hdays := p.days_le
  unfold daysBetween maxPeriodDays at hdays
  omega

/-! ## The partition -/

/-- The buckets of a chart are days or months that follow each other from the first day of a period
to the last. -/
structure ChartBuckets.Partitions (layout : ChartBuckets) (p : DashboardPeriod) : Prop where
  /-- There is a bucket. -/
  nonempty : layout.buckets ≠ []
  /-- The first bucket starts with the period. -/
  starts : layout.buckets.head?.map DashboardPeriod.dateFrom = some p.dateFrom
  /-- The last bucket ends with the period. -/
  ends : layout.buckets.getLast?.map DashboardPeriod.dateTo = some p.dateTo
  /-- Each bucket starts the day after the one before it. -/
  adjacent : layout.buckets.IsChain fun b c => c.dateFrom.ordinal = b.dateTo.ordinal + 1
  /-- Up to 31 days, the buckets are days. -/
  days : p.days ≤ 31 → layout.granularity = .day ∧ ∀ b ∈ layout.buckets, b.dateFrom = b.dateTo
  /-- Beyond, they are months, one after the other, and 13 at most. -/
  months : 31 < p.days → layout.granularity = .month ∧
    (∀ b ∈ layout.buckets, b.dateFrom.year = b.dateTo.year ∧ b.dateFrom.month = b.dateTo.month) ∧
    (layout.buckets.IsChain fun b c => c.dateFrom.monthNumber = b.dateTo.monthNumber + 1) ∧
    layout.buckets.length ≤ 13
  /-- Each day of the period is in one bucket, and no other day is in any. -/
  once : ∀ d, layout.buckets.countP (fun b => b.contains d) = if p.contains d then 1 else 0

/-- Tiles of a period partition it, as far as that does not depend on days and months.

**Proof sketch.** The first tile starts the period and the last one ends it, neighbours follow each
other, and a day is in exactly one tile (`Tiles.countP`). -/
lemma partitions_of_tiles {p : DashboardPeriod} {layout : ChartBuckets}
    (htiles : Tiles p.dateFrom.ordinal layout.buckets (p.dateTo.ordinal + 1))
    (days : p.days ≤ 31 → layout.granularity = .day ∧ ∀ b ∈ layout.buckets, b.dateFrom = b.dateTo)
    (months : 31 < p.days → layout.granularity = .month ∧
      (∀ b ∈ layout.buckets, b.dateFrom.year = b.dateTo.year ∧ b.dateFrom.month = b.dateTo.month) ∧
      (layout.buckets.IsChain fun b c => c.dateFrom.monthNumber = b.dateTo.monthNumber + 1) ∧
      layout.buckets.length ≤ 13) : layout.Partitions p := by
  have hlt : p.dateFrom.ordinal < p.dateTo.ordinal + 1 := Nat.lt_succ_of_le p.ordinal_le
  obtain ⟨first, hfirst, hstart⟩ := htiles.head? hlt
  obtain ⟨last, hlast, hend⟩ := htiles.getLast? hlt
  constructor
  case nonempty =>
    intro hnone
    rw [hnone] at hfirst
    cases hfirst
  case starts =>
    rw [hfirst]
    exact congrArg some (Date.ext' hstart)
  case ends =>
    rw [hlast]
    exact congrArg some (Date.ext' (Nat.succ.inj hend))
  case adjacent => exact htiles.isChain
  case days => exact days
  case months => exact months
  case once =>
    intro d
    rw [htiles.countP]
    congr 1
    exact propext (contains_iff p d).symm

/-- **The buckets of every period partition it.** -/
theorem chartBuckets_partitions (p : DashboardPeriod) :
    ∃ layout, chartBuckets p = .ok layout ∧ layout.Partitions p := by
  by_cases h : p.days ≤ maxDailyBucketPeriodDays
  · obtain ⟨bs, hbs, htiles, hdays⟩ := chartBuckets_days p h
    refine ⟨⟨.day, bs⟩, hbs, partitions_of_tiles htiles (fun _ => ⟨rfl, hdays⟩) fun hlong => ?_⟩
    exact absurd h (Nat.not_le.mpr hlong)
  · obtain ⟨bs, hbs, htiles, hone, hmonths⟩ := chartBuckets_months p h
    refine ⟨⟨.month, bs⟩, hbs, partitions_of_tiles htiles (fun hshort => absurd hshort h)
      fun _ => ⟨rfl, fun b hb => (Date.monthNumber_eq_iff _ _).mp (hone b hb), ?_,
        length_months_le p htiles hmonths⟩⟩
    refine List.IsChain.imp_of_mem_imp (fun b c hb _ hnext => ?_) (isChain_of_map_range' hmonths)
    rw [← hone b hb]
    exact hnext

/-- **Chart buckets partition the period, and the totals of its days.** Every period has a chart.
Its buckets are days or months that follow each other from the first day to the last. Rows of daily
totals within the period are each counted in one bucket, which has the sums of its rows, and all
buckets together have the sums of all rows.

**Proof sketch.** The layout tiles the period (`chartBuckets_partitions`), and the totals follow its
buckets. A day of the period is in one bucket, so summing by buckets is summing the rows in another
order (`Tiles.sum`). -/
theorem chart_buckets_partition (p : DashboardPeriod) :
    ∃ layout, chartBuckets p = .ok layout ∧ layout.Partitions p ∧
      ∀ daily : List DailyTotal, (∀ day ∈ daily, p.contains day.transactionDate) →
        ∃ s, bucketTotals p daily = .ok s ∧ s.granularity = layout.granularity ∧
          s.buckets.map TimeBucket.period = layout.buckets ∧
          (∀ b ∈ s.buckets, b.totalMinorUnits = sumTotals DailyTotal.totalMinorUnits
              (daily.filter fun day => b.period.contains day.transactionDate) ∧
            b.count = sumCounts DailyTotal.count
              (daily.filter fun day => b.period.contains day.transactionDate)) ∧
          (∀ day ∈ daily,
            s.buckets.countP (fun b => b.period.contains day.transactionDate) = 1) ∧
          sumTotals TimeBucket.totalMinorUnits s.buckets =
            sumTotals DailyTotal.totalMinorUnits daily ∧
          sumCounts TimeBucket.count s.buckets = sumCounts DailyTotal.count daily := by
  obtain ⟨layout, hlayout, hpartitions⟩ := chartBuckets_partitions p
  refine ⟨layout, hlayout, hpartitions, fun daily hdaily => ?_⟩
  obtain ⟨s, hs, htiles, hfigures⟩ := bucketTotals_eq_ok p daily
  have hrows : s.granularity = layout.granularity ∧
      s.buckets.map TimeBucket.period = layout.buckets := by
    unfold bucketTotals at hs
    rw [hlayout] at hs
    obtain rfl := Except.ok.inj hs
    refine ⟨rfl, ?_⟩
    rw [List.map_map]
    exact List.map_id'' (fun _ => rfl) layout.buckets
  obtain ⟨hgranularity, hperiods⟩ := hrows
  have hsum : (sumTotals TimeBucket.totalMinorUnits s.buckets,
        sumCounts TimeBucket.count s.buckets) =
      (sumTotals DailyTotal.totalMinorUnits daily, sumCounts DailyTotal.count daily) := by
    rw [← sum_pairs, ← sum_pairs]
    refine (bucketTotals_sum htiles hfigures).trans ?_
    rw [sumWhere, List.filter_eq_self.mpr]
    · rfl
    · intro day hday
      rw [Bool.and_eq_true, decide_eq_true_eq, decide_eq_true_eq]
      exact (contains_iff p _).mp (hdaily day hday)
  refine ⟨s, hs, hgranularity, hperiods, fun b hb => ?_, fun day hday => ?_,
    (Prod.mk.inj hsum).1, (Prod.mk.inj hsum).2⟩
  · have hb' := (hfigures b hb).trans
      (sum_pairs DailyTotal.totalMinorUnits DailyTotal.count (daily.filter _))
    exact Prod.mk.inj hb'
  · have hone := hpartitions.once day.transactionDate
    rw [if_pos (hdaily day hday), ← hperiods, List.countP_map] at hone
    exact hone

end MintFlow
