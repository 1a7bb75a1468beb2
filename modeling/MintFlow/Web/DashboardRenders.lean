import MintFlow.Analytics.Reconciliation
import MintFlow.Web.DashboardView

set_option relaxedAutoImplicit false
set_option autoImplicit false

/-!
# Which dashboards have a page

The page recomputes axis tops, bar scales and donut slices from the figures of a dashboard. It pairs
the slices with the categories, and a donut without shares has no slices: a dashboard whose
categories all have a share of zero has no page.

## Main definitions

* `MintFlow.DashboardView.Shows` — the page shows the charts of a dashboard, in its order.
* `MintFlow.Dashboard.Drawable` — the charts of a dashboard can be drawn.

## Main results

* `MintFlow.nonnegativeShares_of_mayReturn` — the shares of a dashboard that was built.
* `MintFlow.dashboard_page_renders_iff` — **Rendering**: exactly the drawable dashboards have a page.
-/

namespace MintFlow

open Transact Transact.Prog

/-! ## The dashboards there are -/

/-- No category of a dashboard has a negative share. -/
def Dashboard.NonnegativeShares (d : Dashboard) : Prop :=
  ∀ detail ∈ d.detail, ∀ c ∈ detail.categories, 0 ≤ c.shareBasisPoints

/-- A half-even quotient of numbers that are not negative is not negative. -/
lemma roundHalfEven_nonneg {n d : ℤ} (hn : 0 ≤ n) (hd : 0 < d) : 0 ≤ roundHalfEven n d := by
  have hfloor := Int.ediv_nonneg hn hd.le
  unfold roundHalfEven
  simp only
  split_ifs <;> omega

/-- A part that is not negative has no negative share. -/
lemma shareBasisPoints_nonneg {part : ℤ} (h : 0 ≤ part) (whole : ℤ) :
    0 ≤ shareBasisPoints part whole := by
  unfold shareBasisPoints
  split_ifs with hwhole
  · exact le_refl 0
  · exact roundHalfEven_nonneg (by omega) (by omega)

/-- Totals that are not negative give shares that are not negative. -/
lemma assembleDetail_nonneg {categories : List CategoryTotal}
    (h : ∀ t ∈ categories, 0 ≤ t.totalMinorUnits) (total : ℤ) (count : ℕ)
    (comparison : Option Comparison) (spending : SpendingOverTime) (merchants : List MerchantTotal)
    (largest : Option LargestExpense) :
    ∀ c ∈ (assembleDetail total count comparison spending categories merchants largest).categories,
      0 ≤ c.shareBasisPoints := by
  intro c hc
  obtain ⟨t, ht, rfl⟩ := List.mem_map.mp ((rankCategories_perm _ _).mem_iff.mp hc)
  exact shareBasisPoints_nonneg (h t ht) total

/-- The query's totals are not negative. -/
lemma categoryTotals_nonneg {categories : List Category} {expenses : List Expense} {ownerId : UUID}
    {period : DashboardPeriod} {currency : Option CurrencyCode} :
    ∀ t ∈ categoryTotals categories expenses ownerId period currency, 0 ≤ t.totalMinorUnits := by
  intro t ht
  obtain ⟨g, -, hg⟩ := List.mem_filterMap.mp ((perm_orderBy _ _).mem_iff.mp ht)
  obtain ⟨c, -, rfl⟩ := Option.map_eq_some_iff.mp hg
  refine List.sum_nonneg fun n hn => ?_
  obtain ⟨e, -, rfl⟩ := List.mem_map.mp hn
  exact e.money.nonneg

/-- What is not negative does not convert to less.

**Proof sketch.** A conversion returns the amount itself, or its size with its sign. -/
lemma ConvertTo.convert_nonneg {converter : ConvertTo} {minorUnits : ℤ} (h : 0 ≤ minorUnits)
    {currency : CurrencyCode} {used : UsedCodes} {r : ℤ × UsedCodes}
    (hr : converter.convert minorUnits currency used = .ok r) : 0 ≤ r.1 := by
  unfold ConvertTo.convert at hr
  split at hr
  · cases hr
  · cases hr
  · rename_i v hv
    obtain rfl := Except.ok.inj hr
    show 0 ≤ v
    unfold ExchangeRates.convert at hv
    split_ifs at hv
    · rw [← Option.some.inj (Except.ok.inj hv)]
      exact h
    · split at hv
      · split at hv
        · rw [← Option.some.inj (Except.ok.inj hv)]
          refine mul_nonneg ?_ (Int.natCast_nonneg _)
          rcases h.eq_or_lt with rfl | hpos
          · exact le_refl 0
          · rw [Int.sign_eq_one_of_pos hpos]
            exact zero_le_one
        · cases hv
      · cases hv

/-- Adding totals that are not negative keeps the converted categories so.

**Proof sketch.** Induction on the totals: each is converted to an amount that is not negative and
added to the category it is of. -/
lemma convertedCategories_nonneg {converter : ConvertTo} {totals : List CategoryTotal}
    (h : ∀ t ∈ totals, 0 ≤ t.totalMinorUnits) {used : UsedCodes}
    {r : List CategoryTotal × UsedCodes}
    (hr : convertedCategories totals converter used = .ok r) : ∀ t ∈ r.1, 0 ≤ t.totalMinorUnits := by
  have hloop : ∀ (totals : List CategoryTotal) (combined : Table CategoryTotal.categoryKey)
      (used : UsedCodes) (r : Table CategoryTotal.categoryKey × UsedCodes),
      (∀ t ∈ totals, 0 ≤ t.totalMinorUnits) → (∀ t ∈ combined.rows, 0 ≤ t.totalMinorUnits) →
      totals.foldlM (addCategory converter) combined used = .ok r →
      ∀ t ∈ r.1.rows, 0 ≤ t.totalMinorUnits := by
    intro totals
    induction totals with
    | nil =>
      intro combined used r _ hcombined hr
      obtain rfl := Except.ok.inj hr
      exact hcombined
    | cons total totals ih =>
      intro combined used r htotals hcombined hr
      obtain ⟨htotal, htotals⟩ := List.forall_mem_cons.mp htotals
      rw [List.foldlM_cons] at hr
      obtain ⟨⟨next, used'⟩, hnext, hr⟩ := Checked.bind_eq_ok.mp hr
      obtain ⟨⟨converted, used''⟩, hconverted, hnext⟩ := Checked.bind_eq_ok.mp hnext
      have hconverted := ConvertTo.convert_nonneg htotal hconverted
      obtain ⟨rfl, rfl⟩ := Prod.mk.inj (Except.ok.inj hnext)
      refine ih _ _ _ htotals (fun t ht => ?_) hr
      rcases Table.mem_upsert.mp (show t ∈ Table.upsert _ _ from ht) with rfl | ⟨ht, -⟩
      · refine add_nonneg hconverted ?_
        cases hfind : combined.find total.categoryKey with
        | none => exact le_refl 0
        | some previous => exact hcombined previous (Table.mem_of_find hfind)
      · exact hcombined t ht
  obtain ⟨⟨combined, used'⟩, hcombined, hr⟩ := Checked.bind_eq_ok.mp hr
  obtain rfl := Except.ok.inj hr
  exact hloop totals .empty used _ h (fun t ht => by cases ht) hcombined

section Answers

variable {α β : Type}

/-- Whatever the first part returns, the second may go on. -/
lemma wp_any {p : Program α} {f : α → Program β} {Q : β → Unit → Prop}
    (h : ∀ a, (f a).wp (answerLogic postgres) Q ()) : (p.bind f).wp (answerLogic postgres) Q () :=
  wp_bind_of (wp_answers p) fun a _ _ => h a

/-- Code that converts returns what it computes. -/
lemma wp_converting {x : Converting α} {used : UsedCodes} {Q : α × UsedCodes → Unit → Prop}
    (h : ∀ r, x used = .ok r → Q r ()) : (converting x used).wp (answerLogic postgres) Q () := by
  unfold converting
  rw [show x.run used = x used from rfl]
  cases hx : x used with
  | ok r => exact h r hx
  | error e => trivial

/-- The rows of the categories, on any database. -/
lemma wp_categoryTotals (ownerId : UUID) (period : DashboardPeriod) (currency : Option CurrencyCode) :
    (execute (.categoryTotals ownerId period currency)).wp (answerLogic postgres)
      (fun (rows : List CategoryTotal) _ => ∀ t ∈ rows, 0 ≤ t.totalMinorUnits) () := by
  intro taken s r ws heval
  obtain ⟨rfl, -⟩ := Prod.mk.inj (Except.ok.inj heval)
  exact categoryTotals_nonneg

/-- **Shares.** Whatever others do meanwhile, a dashboard that is built has no negative share.

**Proof sketch.** Whatever the statements answer, the totals of Expenses are not negative: amounts
of money are not, and neither is what they convert to. A share is a part of their sum. -/
lemma nonnegativeShares_of_mayReturn [PythonRuntime] {callerId : UUID}
    {period : Option DashboardPeriod} {currency : Option CurrencyCode} {convertTo : Option ConvertTo}
    {d : Dashboard} (h : MayReturn postgres (buildDashboard callerId period currency convertTo) d) :
    d.NonnegativeShares := by
  refine h.of_wp ?_
  unfold buildDashboard
  split_ifs
  · trivial
  refine wp_any fun user => ?_
  cases user with
  | none => trivial
  | some user =>
    refine wp_any fun now => wp_any fun p => wp_any fun currencies => wp_any fun today => ?_
    unfold dashboardOf
    cases convertTo with
    | some converter =>
      refine wp_bind_of (R := fun r _ => ∀ c ∈ r.1.categories, 0 ≤ c.shareBasisPoints) ?_ ?_
      · refine wp_any fun _ => wp_any fun _ => wp_any fun _ => wp_any fun _ => ?_
        refine wp_bind_of (wp_categoryTotals _ _ _) fun rows _ hrows => ?_
        refine wp_bind_of (wp_converting (Q := fun r _ => ∀ t ∈ r.1, 0 ≤ t.totalMinorUnits)
          fun r hr => convertedCategories_nonneg
            (fun t ht => hrows t (List.mem_of_mem_filter ht)) hr) fun r _ hr => ?_
        refine wp_any fun _ => wp_any fun _ => wp_any fun _ => ?_
        exact assembleDetail_nonneg hr _ _ _ _ _ _
      · rintro ⟨detail, used⟩ - hdetail x ⟨⟩
        exact hdetail
    | none =>
      refine wp_bind_of (R := fun (detail : Option DashboardDetail) _ => ∀ x ∈ detail,
        ∀ c ∈ x.categories, 0 ≤ c.shareBasisPoints) ?_ fun detail _ hdetail => hdetail
      unfold ownDashboard.detailOf
      split_ifs
      · exact fun x hx => by cases hx
      · split
        · cases hspending : bucketTotals p [] with
          | error e =>
            unfold emptyDetail
            rw [hspending]
            trivial
          | ok spending =>
            unfold emptyDetail
            rw [hspending]
            rintro x ⟨⟩ c hc
            cases hc
        · refine wp_bind_of (R := fun x _ => ∀ c ∈ x.categories, 0 ≤ c.shareBasisPoints) ?_ ?_
          · refine wp_any fun _ => wp_any fun _ => wp_any fun _ => wp_any fun _ => ?_
            refine wp_bind_of (wp_categoryTotals _ _ _) fun rows _ hrows => ?_
            exact wp_any fun _ => assembleDetail_nonneg hrows _ _ _ _ _ _
          · rintro x - hx _ ⟨⟩
            exact hx

end Answers

/-! ## Presets -/

/-- A day whose presets are dates: from March of the first year to the last full week. -/
def PresetsFit (today : Date) : Prop := 60 ≤ today.ordinal ∧ today.ordinal < 3652055

/-- What `date + timedelta` gives. -/
lemma ordinal_of_addDays {d d' : Date} {n : ℤ} (h : addDays d n = .ok d') :
    (d'.ordinal : ℤ) = d.ordinal + n := by
  unfold addDays Date.addDays? Date.ofOrdinal? at h
  split at h
  · rename_i x hx
    obtain rfl := Except.ok.inj h
    split_ifs at hx with hvalid
    rw [← Option.some.inj hx]
    show ((((d.ordinal : ℤ) + n).toNat : ℕ) : ℤ) = _
    omega
  · cases h

/-- The first day of a month is a date. -/
lemma replaceDay_one (d : Date) :
    ∃ first, replaceDay d 1 = .ok first ∧ first.ordinal + d.day = d.ordinal + 1 := by
  have hday := (Date.ymdToOrdinal_toYmd d).1.2.2.2
  obtain ⟨first, hfirst, hord, -⟩ :=
    replaceDay_eq_ok (d := d) d.year_le (le_refl 1) (hday.1.trans hday.2)
  exact ⟨first, hfirst, hord⟩

/-- The months of a date from some date on begin on its first day or later. -/
lemma monthStart_ge {n : ℕ} (hn : 1 ≤ n ∧ n ≤ maxOrdinal) (hday : (Date.mk n hn).day = 1)
    {d : Date} (h : n ≤ d.ordinal) : n + d.day ≤ d.ordinal + 1 := by
  have hmono := Date.monthStart_mono (show Date.mk n hn ≤ d from h)
  rw [hday] at hmono
  exact hmono

/-- The months of a date up to some date begin with its month or earlier. -/
lemma monthStart_le {n k : ℕ} (hn : 1 ≤ n ∧ n ≤ maxOrdinal) (hday : (Date.mk n hn).day = k)
    {d : Date} (h : d.ordinal ≤ n) : d.ordinal + k ≤ n + d.day := by
  have hmono := Date.monthStart_mono (show d ≤ Date.mk n hn from h)
  rw [hday] at hmono
  exact hmono

/-- **Presets.** The presets of a day are dates exactly for the days that fit.

**Proof sketch.** Two months before the day's month, and the Sunday of its week, have to be in the
calendar. The months of earlier days do not begin later, so the bounds carry over from the days at
which they are reached. -/
lemma presetRanges_isOk_iff (today : Date) :
    (∃ ranges, presetRanges today = .ok ranges) ↔ PresetsFit today := by
  obtain ⟨firstThis, hfirstThis, hfirstOrd⟩ := replaceDay_one today
  obtain ⟨lastThis, hlastThis, -⟩ := lastDayOfMonth_eq_ok (d := today) today.year_le
  constructor
  · rintro ⟨ranges, h⟩
    unfold presetRanges at h
    rw [hfirstThis, Checked.bind_ok, hlastThis, Checked.bind_ok] at h
    obtain ⟨lastPrevious, hlastPrevious, h⟩ := Checked.bind_eq_ok.mp h
    obtain ⟨firstPrevious, hfirstPrevious, h⟩ := Checked.bind_eq_ok.mp h
    obtain ⟨beforePrevious, hbefore, h⟩ := Checked.bind_eq_ok.mp h
    obtain ⟨firstThree, -, h⟩ := Checked.bind_eq_ok.mp h
    obtain ⟨monday, hmonday, h⟩ := Checked.bind_eq_ok.mp h
    obtain ⟨sunday, hsunday, -⟩ := Checked.bind_eq_ok.mp h
    obtain ⟨first, hfirst, hord⟩ := replaceDay_one lastPrevious
    obtain rfl := Except.ok.inj (hfirstPrevious.symm.trans hfirst)
    have hlastPrevious := ordinal_of_addDays hlastPrevious
    have hbefore := ordinal_of_addDays hbefore
    have hmonday := ordinal_of_addDays hmonday
    have hsunday := ordinal_of_addDays hsunday
    have hvalid := beforePrevious.valid.1
    have hvalid' := sunday.valid.2
    unfold weekday at hmonday
    unfold maxOrdinal at hvalid'
    refine ⟨?_, by omega⟩
    by_contra hlt
    -- In the first two months, the month before the previous one is not in the calendar.
    have hmonth := monthStart_le (n := 59) (k := 28) (by decide) (by decide)
      (show today.ordinal ≤ 59 by omega)
    have hmonth' := monthStart_le (n := 31) (k := 31) (by decide) (by decide)
      (show lastPrevious.ordinal ≤ 31 by omega)
    omega
  · rintro ⟨hge, hlt⟩
    have hmonth := monthStart_ge (n := 60) (by decide) (by decide) hge
    obtain ⟨lastPrevious, hlastPrevious, hlastOrd⟩ := addDays_eq_ok (d := firstThis) (n := -1)
      (by omega) (by have := firstThis.valid.2; omega)
    obtain ⟨firstPrevious, hfirstPrevious, hfirstOrd'⟩ := replaceDay_one lastPrevious
    have hmonth' := monthStart_ge (n := 32) (by decide) (by decide)
      (show 32 ≤ lastPrevious.ordinal by omega)
    obtain ⟨beforePrevious, hbefore, -⟩ := addDays_eq_ok (d := firstPrevious) (n := -1)
      (by omega) (by have := firstPrevious.valid.2; omega)
    obtain ⟨firstThree, hfirstThree, -⟩ := replaceDay_one beforePrevious
    obtain ⟨monday, hmonday, hmondayOrd⟩ := addDays_eq_ok (d := today)
      (n := -(weekday today : ℤ)) (by unfold weekday; omega)
      (by unfold weekday maxOrdinal; omega)
    obtain ⟨sunday, hsunday, -⟩ := addDays_eq_ok (d := monday) (n := 6) (by omega)
      (by rw [hmondayOrd]; unfold weekday maxOrdinal; omega)
    unfold presetRanges
    rw [hfirstThis, Checked.bind_ok, hlastThis, Checked.bind_ok, hlastPrevious, Checked.bind_ok,
      hfirstPrevious, Checked.bind_ok, hbefore, Checked.bind_ok, hfirstThree, Checked.bind_ok,
      hmonday, Checked.bind_ok, hsunday, Checked.bind_ok]
    exact ⟨_, rfl⟩

/-! ## Charts -/

/-- Lists of one length pair. -/
lemma zipStrict_eq_ok {α β : Type} {xs : List α} {ys : List β} (h : ys.length = xs.length) :
    zipStrict xs ys = .ok (xs.zip ys) := by
  unfold zipStrict
  rw [if_neg (by omega), if_neg (by omega)]

/-- Lists that pair have one length. -/
lemma length_of_zipStrict {α β : Type} {xs : List α} {ys : List β} {ps : List (α × β)}
    (h : zipStrict xs ys = .ok ps) : ys.length = xs.length := by
  unfold zipStrict at h
  split_ifs at h
  omega

/-- What is read of the first of each pair is read of the list. -/
lemma map_zip_fst {α β γ : Type} (f : α → γ) {xs : List α} {ys : List β}
    (h : ys.length = xs.length) : (xs.zip ys).map (fun p => f p.1) = xs.map f := by
  rw [show (fun p : α × β => f p.1) = f ∘ Prod.fst from rfl, ← List.map_map,
    List.map_fst_zip (by omega)]

/-- Shares that are not negative have a sum exactly if one of them is positive. -/
lemma sum_shares_pos_iff {categories : List CategorySpending}
    (h : ∀ c ∈ categories, 0 ≤ c.shareBasisPoints) :
    0 < (categories.map CategorySpending.shareBasisPoints).sum ↔
      ∃ c ∈ categories, 0 < c.shareBasisPoints := by
  have hnonneg : ∀ n ∈ categories.map CategorySpending.shareBasisPoints, 0 ≤ n := by
    intro n hn
    obtain ⟨c, hc, rfl⟩ := List.mem_map.mp hn
    exact h c hc
  constructor
  · intro hpos
    by_contra hnone
    refine absurd (List.sum_eq_zero fun n hn => ?_) hpos.ne'
    obtain ⟨c, hc, rfl⟩ := List.mem_map.mp hn
    have hle : ¬ 0 < c.shareBasisPoints := fun hlt => hnone ⟨c, hc, hlt⟩
    have := h c hc
    omega
  · rintro ⟨c, hc, hlt⟩
    exact hlt.trans_le (List.single_le_sum hnonneg _ (List.mem_map_of_mem hc))

section Page

/-- Every label of the axis is the label of a column. -/
lemma tickLabels_eq_ok (views : List ColumnView) :
    ∃ ticks, (tickIndexes views.length).mapM (labelAt views) = .ok ticks := by
  refine Checked.mapM_isOk_iff.mpr fun index hindex => ?_
  have hlt : index < views.length := by
    unfold tickIndexes at hindex
    split_ifs at hindex with hzero
    · cases hindex
    · simp only [List.mem_dedup, List.mem_cons, List.not_mem_nil, or_false] at hindex
      omega
  unfold labelAt
  rw [List.getElem?_eq_getElem hlt]
  exact ⟨_, rfl⟩

variable [Babel]

/-- What a column says. -/
def ColumnView.text (c : ColumnView) : String × String × String := (c.label, c.amount, c.href)

/-- What the column of a bucket has to say. -/
def bucketText (granularity : BucketGranularity) (amounts : Amounts)
    (linkCurrency : Option CurrencyCode) (b : TimeBucket) : String × String × String :=
  (bucketLabel granularity b.period.dateFrom amounts.locale, amounts.amount b.totalMinorUnits,
    expensesHref b.period linkCurrency [])

/-- A chart that is drawn has an axis. -/
lemma axisFits_of_timeChartOf {detail : DashboardDetail} {amounts : Amounts}
    {linkCurrency : Option CurrencyCode} {chart : TimeChart}
    (h : timeChartOf detail amounts linkCurrency = .ok chart) :
    AxisFits (maxDefault 0 (detail.spendingOverTime.buckets.map TimeBucket.totalMinorUnits)) := by
  obtain ⟨top, htop, -⟩ := Checked.bind_eq_ok.mp h
  exact (niceCeiling_isOk_iff _).mp ⟨top, htop⟩

/-- **Time chart.** If the highest bucket fits an axis, the chart is drawn with one column per
bucket.

**Proof sketch.** The axis has a ceiling (`niceCeiling_isOk_iff`), which no bucket exceeds, so each
has its column (`columns_eq_ok`); buckets and columns are paired in order. -/
lemma timeChartOf_eq_ok {detail : DashboardDetail} (amounts : Amounts)
    (linkCurrency : Option CurrencyCode) (h : AxisFits
      (maxDefault 0 (detail.spendingOverTime.buckets.map TimeBucket.totalMinorUnits))) :
    ∃ chart, timeChartOf detail amounts linkCurrency = .ok chart ∧
      chart.columns.map ColumnView.text = detail.spendingOverTime.buckets.map
        (bucketText detail.spendingOverTime.granularity amounts linkCurrency) := by
  let buckets := detail.spendingOverTime.buckets
  let totals := buckets.map TimeBucket.totalMinorUnits
  obtain ⟨top, htop⟩ := (niceCeiling_isOk_iff _).mpr h
  have hmax : ∀ t ∈ (if top = 0 then none else some top), ∀ v ∈ totals, v ≤ t := by
    intro t ht v hv
    split_ifs at ht
    · cases ht
    · obtain rfl := Option.some.inj ht
      exact (le_maxDefault hv).trans (le_niceCeiling htop)
  obtain ⟨geometry, hgeometry, hlength⟩ := columns_eq_ok hmax
  rw [show totals.length = buckets.length from List.length_map _] at hlength
  let views := (buckets.zip geometry).map
    (columnView detail.spendingOverTime.granularity amounts linkCurrency)
  have hviews : views.length = buckets.length := by
    rw [List.length_map, List.length_zip]
    omega
  obtain ⟨ticks, hticks⟩ := tickLabels_eq_ok views
  have hchart : ∃ chart, timeChartOf detail amounts linkCurrency = .ok chart ∧
      chart.columns = views := by
    unfold timeChartOf
    simp only
    rw [htop, Checked.bind_ok, hgeometry, Checked.bind_ok, zipStrict_eq_ok hlength,
      Checked.bind_ok, hticks, Checked.bind_ok, zipStrict_eq_ok hviews, Checked.bind_ok]
    exact ⟨_, rfl, rfl⟩
  obtain ⟨chart, hchart, hcolumns⟩ := hchart
  refine ⟨chart, hchart, ?_⟩
  rw [hcolumns, List.map_map]
  exact map_zip_fst (bucketText detail.spendingOverTime.granularity amounts linkCurrency) hlength

/-- What the bar of a category or merchant says. -/
def BarRow.text (b : BarRow) : String × String × String × String × Option String :=
  (b.label, b.amount, b.share, b.count, b.href)

/-- What the slice of a category says. -/
def DonutSlice.text (s : DonutSlice) : String × String × String × String :=
  (s.label, s.amount, s.share, s.href)

section Texts

variable (period : DashboardPeriod) (amounts : Amounts) (linkCurrency : Option CurrencyCode)

/-- The link of a category. -/
def categoryHref (c : CategorySpending) : String :=
  expensesHref period linkCurrency [("category", c.categoryKey)]

/-- What the bar of a category has to say. -/
def categoryText (c : CategorySpending) : String × String × String × String × Option String :=
  (categoryLabel c.categoryKey c.categoryName, amounts.amount c.totalMinorUnits,
    formatShare c.shareBasisPoints amounts.locale, expenseCount c.count amounts.locale,
    some (categoryHref period linkCurrency c))

/-- What the slice of a category has to say. -/
def sliceText (c : CategorySpending) : String × String × String × String :=
  (categoryLabel c.categoryKey c.categoryName, amounts.amount c.totalMinorUnits,
    formatShare c.shareBasisPoints amounts.locale, categoryHref period linkCurrency c)

/-- What the bar of a merchant has to say. -/
def merchantText (m : MerchantSpending) : String × String × String × String × Option String :=
  (m.merchant.getD (translate "Other"), amounts.amount m.totalMinorUnits,
    formatShare m.shareBasisPoints amounts.locale, expenseCount m.count amounts.locale, none)

/-- The page shows one column per bucket, one bar and one slice per category, and one bar per
merchant entry, in the order of the dashboard. -/
structure Detail.Shows (v : Detail) (detail : DashboardDetail) : Prop where
  columns : v.timeChart.columns.map ColumnView.text = detail.spendingOverTime.buckets.map
    (bucketText detail.spendingOverTime.granularity amounts linkCurrency)
  categories : v.categories.map BarRow.text =
    detail.categories.map (categoryText period amounts linkCurrency)
  donut : v.donut.map DonutSlice.text = detail.categories.map (sliceText period amounts linkCurrency)
  merchants : v.merchants.map BarRow.text = detail.topMerchants.all.map (merchantText amounts)

end Texts

/-- The charts of a detail can be drawn: a category has a share, if there are any, and the highest
bucket fits an axis. -/
def DashboardDetail.Drawable (detail : DashboardDetail) : Prop :=
  (detail.categories = [] ∨ ∃ c ∈ detail.categories, 0 < c.shareBasisPoints) ∧
    AxisFits (maxDefault 0 (detail.spendingOverTime.buckets.map TimeBucket.totalMinorUnits))

omit [Babel] in
/-- **Slices.** A donut has one slice per category exactly if a category has a share, or there is
none.

**Proof sketch.** The donut has a slice for each share, or none at all where the shares sum up to
zero. -/
lemma donut_pairs_iff {categories : List CategorySpending}
    (h : ∀ c ∈ categories, 0 ≤ c.shareBasisPoints) :
    (∃ slices, donut (categories.map CategorySpending.shareBasisPoints) = .ok slices ∧
      slices.length = categories.length) ↔
        (categories = [] ∨ ∃ c ∈ categories, 0 < c.shareBasisPoints) := by
  have hnonneg : ∀ n ∈ categories.map CategorySpending.shareBasisPoints, 0 ≤ n := by
    intro n hn
    obtain ⟨c, hc, rfl⟩ := List.mem_map.mp hn
    exact h c hc
  obtain ⟨slices, hslices, hlength⟩ := donut_eq_ok hnonneg
  rw [List.length_map] at hlength
  rw [← sum_shares_pos_iff h]
  constructor
  · rintro ⟨slices', hslices', hlength'⟩
    obtain rfl := Except.ok.inj (hslices.symm.trans hslices')
    by_cases hsum : (categories.map CategorySpending.shareBasisPoints).sum ≤ 0
    · rw [if_pos hsum] at hlength
      exact .inl (List.length_eq_zero_iff.mp (hlength'.symm.trans hlength))
    · exact .inr (Int.not_le.mp hsum)
  · intro hshares
    refine ⟨slices, hslices, ?_⟩
    rw [hlength]
    rcases hshares with rfl | hpos
    · exact ite_self _
    · rw [if_neg (Int.not_le.mpr hpos)]

/-- A detail that is shown can be drawn. -/
lemma drawable_of_detailView {period : DashboardPeriod} {detail : DashboardDetail}
    {amounts : Amounts} {linkCurrency : Option CurrencyCode} {v : Detail}
    (hshares : ∀ c ∈ detail.categories, 0 ≤ c.shareBasisPoints)
    (h : detailView period detail amounts linkCurrency = .ok v) : detail.Drawable := by
  obtain ⟨_, -, h⟩ := Checked.bind_eq_ok.mp h
  obtain ⟨_, -, h⟩ := Checked.bind_eq_ok.mp h
  obtain ⟨slices, hslices, h⟩ := Checked.bind_eq_ok.mp h
  obtain ⟨_, hpairs, h⟩ := Checked.bind_eq_ok.mp h
  obtain ⟨chart, hchart, -⟩ := Checked.bind_eq_ok.mp h
  exact ⟨(donut_pairs_iff hshares).mp ⟨slices, hslices, length_of_zipStrict hpairs⟩,
    axisFits_of_timeChartOf hchart⟩

/-- **Detail.** What can be drawn is shown, in its order.

**Proof sketch.** Bars, slices and columns can be drawn (`barLengths_eq_ok`, `donut_pairs_iff`,
`timeChartOf_eq_ok`), each in the order of the detail, so pairing them with it drops nothing. -/
lemma detailView_eq_ok {detail : DashboardDetail} (period : DashboardPeriod) (amounts : Amounts)
    (linkCurrency : Option CurrencyCode)
    (hshares : ∀ c ∈ detail.categories, 0 ≤ c.shareBasisPoints) (h : detail.Drawable) :
    ∃ v, detailView period detail amounts linkCurrency = .ok v ∧
      v.Shows period amounts linkCurrency detail := by
  obtain ⟨lengths, hlengths, hcategories⟩ :=
    barLengths_eq_ok (detail.categories.map CategorySpending.totalMinorUnits)
  obtain ⟨lengths', hlengths', hmerchants⟩ :=
    barLengths_eq_ok (detail.topMerchants.all.map MerchantSpending.totalMinorUnits)
  obtain ⟨slices, hslices, hlength⟩ := (donut_pairs_iff hshares).mpr h.1
  obtain ⟨chart, hchart, hcolumns⟩ := timeChartOf_eq_ok amounts linkCurrency h.2
  rw [List.length_map] at hcategories hmerchants
  have hview : ∃ v, detailView period detail amounts linkCurrency = .ok v ∧
      v.timeChart = chart ∧
      v.donut = (detail.categories.zip slices).zipIdx.map
        (donutSlice amounts period linkCurrency) ∧
      v.categories = (detail.categories.zip lengths).map
        (categoryRow amounts period linkCurrency) ∧
      v.merchants = (detail.topMerchants.all.zip lengths').map (merchantRow amounts) := by
    unfold detailView
    simp only
    rw [hlengths, Checked.bind_ok, hlengths', Checked.bind_ok, hslices, Checked.bind_ok,
      zipStrict_eq_ok hlength, Checked.bind_ok, hchart, Checked.bind_ok,
      zipStrict_eq_ok hcategories, Checked.bind_ok, zipStrict_eq_ok hmerchants, Checked.bind_ok]
    exact ⟨_, rfl, rfl, rfl, rfl, rfl⟩
  obtain ⟨v, hv, htimeChart, hdonut, hrows, hrows'⟩ := hview
  refine ⟨v, hv, ?_⟩
  constructor
  case columns =>
    rw [htimeChart]
    exact hcolumns
  case categories =>
    rw [hrows, List.map_map]
    exact map_zip_fst (categoryText period amounts linkCurrency) hcategories
  case donut =>
    rw [hdonut, List.map_map]
    have hindex : (detail.categories.zip slices).zipIdx.map
        (DonutSlice.text ∘ donutSlice amounts period linkCurrency) =
          ((detail.categories.zip slices).zipIdx.map Prod.fst).map
            fun p => sliceText period amounts linkCurrency p.1 := by
      rw [List.map_map]
      rfl
    rw [hindex, List.zipIdx_map_fst]
    exact map_zip_fst (sliceText period amounts linkCurrency) hlength
  case merchants =>
    rw [hrows', List.map_map]
    exact map_zip_fst (merchantText amounts) hmerchants

/-! ## The page -/

/-- The charts of a dashboard can be drawn, where it shows any. -/
def Dashboard.Drawable (d : Dashboard) : Prop :=
  d.currency.isSome → ∀ detail ∈ d.detail, detail.Drawable

/-- The page shows the charts of a dashboard, if the dashboard has a currency and a detail. -/
structure DashboardView.Shows (v : DashboardView) (d : Dashboard) (page : PageChoices) : Prop where
  detail : ∀ currency ∈ d.currency, ∀ detail ∈ d.detail, ∃ x, v.detail = some x ∧
    x.Shows d.period (d.amounts currency page.locale) d.linkCurrency detail
  nothing : d.currency = none ∨ d.detail = none → v.detail = none

/-- The note on the rates is there whenever there are some. -/
lemma shownRatesNote_eq_ok (d : Dashboard) (locale : Babel.Locale) :
    ∃ note, shownRatesNote d locale = .ok note := by
  unfold shownRatesNote
  split
  · rename_i conversion currency _ _
    cases hrates : conversion.rates with
    | nil => exact ⟨none, if_pos rfl⟩
    | cons rate rates => exact ⟨_, rfl⟩
  · exact ⟨none, rfl⟩

/-- The presets are there when today fits. -/
lemma shownPresets_isOk_iff (page : PageChoices) (period : DashboardPeriod) (extra : Params) :
    (∃ presets, shownPresets page period extra = .ok presets) ↔
      ∀ today ∈ page.today, PresetsFit today := by
  unfold shownPresets
  cases page.today with
  | none => exact ⟨fun _ _ h => (by cases h), fun _ => ⟨[], rfl⟩⟩
  | some today =>
    have hpresets : (∃ presets, presetsOf today period extra page.locale = .ok presets) ↔
        ∃ ranges, presetRanges today = .ok ranges := by
      constructor
      · rintro ⟨presets, h⟩
        obtain ⟨ranges, hranges, -⟩ := Checked.bind_eq_ok.mp h
        exact ⟨ranges, hranges⟩
      · rintro ⟨ranges, hranges⟩
        unfold presetsOf
        rw [hranges, Checked.bind_ok]
        exact ⟨_, rfl⟩
    refine hpresets.trans ((presetRanges_isOk_iff today).trans ?_)
    exact ⟨by rintro h _ ⟨⟩; exact h, fun h => h today rfl⟩

/-- A page that is there shows charts that can be drawn, and presets around a fitting today. -/
lemma drawable_of_view {d : Dashboard} (hshares : d.NonnegativeShares) {page : PageChoices}
    {view : DashboardView} (hview : buildDashboardView d page = .ok view) :
    d.Drawable ∧ ∀ today ∈ page.today, PresetsFit today := by
  rw [← shownPresets_isOk_iff page d.period (currencyParam
    (if d.conversion.isNone then d.currency else none) ++ viewParams page.chart page.table)]
  obtain ⟨detail, hdetail, hview⟩ := Checked.bind_eq_ok.mp hview
  obtain ⟨presets, hpresets, -⟩ := Checked.bind_eq_ok.mp hview
  refine ⟨fun hcurrency x hx => ?_, presets, hpresets⟩
  obtain ⟨c, hc⟩ := Option.isSome_iff_exists.mp hcurrency
  unfold shownDetail at hdetail
  rw [hc, Option.mem_def.mp hx] at hdetail
  obtain ⟨v, hv, -⟩ := Checked.bind_eq_ok.mp hdetail
  exact drawable_of_detailView (hshares x hx) hv

/-- **Rendering.** A dashboard that was built, whatever others did meanwhile, has a page that shows
its charts in its order exactly if a category of it has a share, where it has categories, its
highest bucket fits an axis, and the presets around today are dates.

**Proof sketch.** The shares of a dashboard that was built are not negative, so that every share is
a part of their sum. What is left that can fail are the axis top, the presets and the pairing of the
categories with the slices, which a donut without shares does not have. -/
theorem dashboard_page_renders_iff [PythonRuntime] {callerId : UUID}
    {period : Option DashboardPeriod} {currency : Option CurrencyCode} {convertTo : Option ConvertTo}
    {d : Dashboard} (h : MayReturn postgres (buildDashboard callerId period currency convertTo) d)
    (page : PageChoices) :
    (∃ view, buildDashboardView d page = .ok view ∧ view.Shows d page) ↔
      d.Drawable ∧ ∀ today ∈ page.today, PresetsFit today := by
  have hshares := nonnegativeShares_of_mayReturn h
  constructor
  · rintro ⟨view, hview, -⟩
    exact drawable_of_view hshares hview
  · rintro ⟨hdrawable, htoday⟩
    obtain ⟨presets, hpresets⟩ := (shownPresets_isOk_iff page d.period (currencyParam
      (if d.conversion.isNone then d.currency else none) ++ viewParams page.chart page.table)).mpr
        htoday
    obtain ⟨note, hnote⟩ := shownRatesNote_eq_ok d page.locale
    have hdetail : ∃ shown, shownDetail d page.locale = .ok shown ∧
        (∀ currency ∈ d.currency, ∀ detail ∈ d.detail, ∃ x, shown = some x ∧
          x.Shows d.period (d.amounts currency page.locale) d.linkCurrency detail) ∧
        (d.currency = none ∨ d.detail = none → shown = none) := by
      unfold shownDetail
      cases hx : d.detail with
      | none => exact ⟨none, rfl, fun _ _ _ h => (by cases h), fun _ => rfl⟩
      | some x =>
        cases hc : d.currency with
        | none => exact ⟨none, rfl, fun _ h => (by cases h), fun _ => rfl⟩
        | some c =>
          obtain ⟨v, hv, hshows⟩ := detailView_eq_ok d.period (d.amounts c page.locale)
            d.linkCurrency (hshares x hx) (hdrawable (by rw [hc]; rfl) x hx)
          refine ⟨some v, by simp only [hv]; rfl, ?_, by simp⟩
          rintro _ ⟨⟩ _ ⟨⟩
          exact ⟨v, rfl, hshows⟩
    obtain ⟨shown, hshown, hsome, hnone⟩ := hdetail
    have hview : ∃ view, buildDashboardView d page = .ok view ∧ view.detail = shown := by
      unfold buildDashboardView
      simp only
      rw [hshown, Checked.bind_ok, hpresets, Checked.bind_ok, hnote, Checked.bind_ok]
      exact ⟨_, rfl, rfl⟩
    obtain ⟨view, hview, rfl⟩ := hview
    exact ⟨view, hview, hsome, hnone⟩

end Page

/-- Texts as they are in the source, for concrete runs. -/
@[reducible] def Babel.plain : Babel where
  Locale := Unit
  formatDecimal negative d _ _ := (if negative then "-" else "") ++ toString d.coeff ++ "E" ++
    toString d.exp
  parseDecimal _ _ := none
  formatPercent negative d _ _ := (if negative then "-" else "") ++ toString d.coeff ++ "E" ++
    toString d.exp
  formatDate d _ := isoformat d
  formatSkeleton _ d _ := isoformat d
  formatInterval start stop _ _ := isoformat start ++ " - " ++ isoformat stop
  translation _ := none
  pluralForm _ _ := none
  fill text _ := text

/-- The store of one Expense, of 0.01 hryvnias on the 29th of July 2021. -/
def Database.cent : Database :=
  { Database.small with
    expenses := ⟨[⟨9, 7, Money.ofNat 1 hryvnia (by decide), july29, none, "uncategorized", none, .webManual,
      5, none, 0, 0, none⟩], by decide⟩ }

/-- A table with one rate: 48 hryvnias for a euro. -/
def toEuros : ConvertTo where
  currency := euro
  rates := ⟨⟨[⟨hryvnia, ⟨48, 0⟩, july29.value, "NBU", by decide⟩], by decide⟩⟩

/-- A page asked for without presets. -/
def plainPage : @PageChoices Babel.plain :=
  @PageChoices.mk Babel.plain () .columns false none (some euro) true

/-- A cent that converts to nothing has a category without a share, and the page is not built. -/
theorem cent_not_rendered :
    letI := PythonRuntime.ascii
    letI := Babel.plain
    ¬ ∀ d, MayReturn postgres (buildDashboard 7 (some july) none (some toEuros)) d →
      ∃ view, buildDashboardView d plainPage = .ok view ∧ view.Shows d plainPage := by
  intro hall
  have hrun : (match (@buildDashboard PythonRuntime.ascii 7 (some july) none (some toEuros)).exec
      postgres (fun _ => ⟨0, 0, none, 0, none⟩) ⟨.cent, .cent⟩ |>.result with
    | .ok d => (@buildDashboardView Babel.plain d plainPage).toBool
    | .error _ => true) = false := by decide +kernel
  cases hresult : ((@buildDashboard PythonRuntime.ascii 7 (some july) none (some toEuros)).exec
      postgres (fun _ => ⟨0, 0, none, 0, none⟩) ⟨.cent, .cent⟩).result with
  | error e =>
    rw [hresult] at hrun
    cases hrun
  | ok d =>
    rw [hresult] at hrun
    obtain ⟨view, hview, -⟩ := hall d (mayReturn_of_exec _ _ hresult)
    simp only [hview] at hrun
    cases hrun

/-- A page asked for on the last day of July 2021. -/
def julyPage : @PageChoices Babel.plain :=
  @PageChoices.mk Babel.plain () .columns true (some july.dateTo) (some euro) true

/-- A dashboard that was built, its page and what the page shows of it, by evaluation. -/
lemma exists_page [Babel] {ε : Type} {result : Except ε Dashboard} {page : PageChoices}
    {p : Dashboard → Detail → Bool}
    (h : result.toOption.any (fun d => (Except.toOption (buildDashboardView d page)).any fun view =>
      view.detail.any (p d)) = true) :
    ∃ d view shown, result = .ok d ∧ buildDashboardView d page = .ok view ∧
      view.detail = some shown ∧ p d shown = true := by
  obtain ⟨d, hd, h⟩ := (Option.any_eq_true _ _).mp h
  obtain ⟨view, hview, h⟩ := (Option.any_eq_true _ _).mp h
  obtain ⟨shown, hshown, h⟩ := (Option.any_eq_true _ _).mp h
  exact ⟨d, view, shown, Checked.of_toOption hd, Checked.of_toOption hview, hshown, h⟩

/-- The dashboard of July has a page with 31 columns, three slices and six bars. -/
theorem dashboard_page_renders_iff_spent :
    letI := PythonRuntime.ascii
    letI := Babel.plain
    ∃ d view shown, MayReturn postgres (buildDashboard 7 (some july) none none) d ∧
      buildDashboardView d julyPage = .ok view ∧ view.Shows d julyPage ∧
      view.detail = some shown ∧ shown.timeChart.columns.length = 31 ∧ shown.donut.length = 3 ∧
      shown.merchants.length = 6 := by
  have hrun : ((@buildDashboard PythonRuntime.ascii 7 (some july) none none).exec
      postgres endOfJuly ⟨.spent, .spent⟩).result.toOption.any (fun d =>
        (Except.toOption (@buildDashboardView Babel.plain d julyPage)).any
          fun view => view.detail.any fun shown =>
            decide (shown.timeChart.columns.length = 31 ∧ shown.donut.length = 3 ∧
              shown.merchants.length = 6)) = true := by
    decide +kernel
  obtain ⟨d, view, shown, hbuilt, hview, hshown, hrun⟩ := @exists_page Babel.plain _ _ _ _ hrun
  have hreturn := mayReturn_of_exec _ _ hbuilt
  have hdrawable := @drawable_of_view Babel.plain d
    (@nonnegativeShares_of_mayReturn PythonRuntime.ascii _ _ _ _ _ hreturn) julyPage view hview
  obtain ⟨view', hview', hshows⟩ := (@dashboard_page_renders_iff Babel.plain
    PythonRuntime.ascii 7 (some july) none none d hreturn julyPage).mpr hdrawable
  obtain rfl : view = view' := Except.ok.inj (hview.symm.trans hview')
  exact ⟨d, view, shown, hreturn, hview, hshows, hshown, of_decide_eq_true hrun⟩

end MintFlow
