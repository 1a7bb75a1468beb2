import MintFlow.Analytics.Conversion

set_option relaxedAutoImplicit false
set_option autoImplicit false

/-!
# The converted dashboard

A converted dashboard converts, for every group it shows, the exact sum of each currency once, and
adds the results up. Currencies that cannot be converted are left out and listed with their exact
totals.

## Main definitions

* `MintFlow.ConvertTo.Sums` — an amount is the conversion of the exact sums of some Expenses.
* `MintFlow.Converted` — what a converted dashboard shows.

## Main results

* `MintFlow.converted_dashboard_sums` — **Conversion**: every figure of the converted dashboard is the
  conversion of exact group sums.
-/

namespace MintFlow

open Transact Transact.Prog ConvertTo

variable {converter : ConvertTo}

/-! ## What is shown -/

/-- A total is the sum, over the currencies of some Expenses that can be converted, of the
conversion of their exact sum in that currency. A currency without Expenses converts to nothing. -/
def ConvertTo.Sums (converter : ConvertTo) (es : List Expense) (total : ℤ) : Prop :=
  ∃ v : CurrencyCode → ℤ,
    (∀ c, converter.canConvert c = true →
      converter.rates.convert (totalOf (es.filter fun e => decide (e.money.currency = c))) c
        converter.currency = .ok (some (v c))) ∧
    total = (((es.map fun e => e.money.currency).dedup.filter converter.canConvert).map v).sum

/-- Figures are the converted sums of some Expenses, and the count of the convertible ones. -/
def ConvertTo.Shows (converter : ConvertTo) (es : List Expense) (figures : ℤ × ℕ) : Prop :=
  converter.Sums es figures.1 ∧ figures.2 = (converter.among es).length

/-- Converted rows add up to the converted amounts and to the rows' count. -/
lemma sum_converted {ρ : Type} (currency : ρ → CurrencyCode) (figures : ρ → ℤ × ℕ) (rows : List ρ) :
    (rows.map (converter.converted currency figures)).sum =
      ((rows.map fun r => converter.value (figures r).1 (currency r)).sum,
        ((rows.map figures).sum).2) := by
  induction rows with
  | nil => rfl
  | cons r rows ih =>
    rw [List.map_cons, List.sum_cons, ih]
    rfl

/-- **Group sums.** Rows by currency, each converted, show the Expenses they are the groups of.

**Proof sketch.** The currencies of the rows are the convertible currencies of the Expenses, each
once, and a row has the exact sum of its currency. -/
lemma shows_of_rows {ρ : Type} {es : List Expense} {currency : ρ → CurrencyCode}
    {figures : ρ → ℤ × ℕ} {rows : List ρ}
    (h : Groups Expense.figures (fun e => e.money.currency) (converter.among es) currency figures
      rows) (hdefined : ∀ r ∈ rows, converter.Defined (figures r).1 (currency r)) :
    converter.Shows es (rows.map (converter.converted currency figures)).sum := by
  let sumOf : CurrencyCode → ℤ := fun c =>
    totalOf (es.filter fun e => decide (e.money.currency = c))
  -- A row has the exact sum of its currency among all the Expenses.
  have hexact : ∀ r ∈ rows, (figures r).1 = sumOf (currency r) := by
    intro r hr
    obtain ⟨e, he, hcurrency⟩ := h.inhabited r hr
    have hcan : converter.canConvert (currency r) = true := hcurrency ▸ (List.mem_filter.mp he).2
    rw [h.exact r hr, sumWhere_figures, ← among_filter]
    refine congrArg totalOf (List.filter_eq_self.mpr fun e' he' => ?_)
    show converter.canConvert e'.money.currency = true
    rw [of_decide_eq_true (List.mem_filter.mp he').2]
    exact hcan
  rw [sum_converted]
  refine ⟨⟨fun c => converter.value (sumOf c) c, fun c hc => ?_, ?_⟩, ?_⟩
  · by_cases hmem : c ∈ rows.map currency
    · obtain ⟨r, hr, rfl⟩ := List.mem_map.mp hmem
      have hr' := hdefined r hr
      rw [hexact r hr] at hr'
      exact hr'
    · -- No Expense has this currency.
      have hnil : (es.filter fun e => decide (e.money.currency = c)) = [] := by
        rw [List.filter_eq_nil_iff]
        intro e he hcurrency
        have hcurrency := of_decide_eq_true hcurrency
        refine hmem (hcurrency ▸ h.covers e (List.mem_filter.mpr ⟨he, ?_⟩))
        show converter.canConvert e.money.currency = true
        rw [hcurrency]
        exact hc
      have hzero : sumOf c = 0 := congrArg totalOf hnil
      show converter.Defined (sumOf c) c
      rw [hzero]
      exact defined_zero hc
  · show (rows.map fun r => converter.value (figures r).1 (currency r)).sum = _
    have hperm : (rows.map currency).Perm
        ((es.map fun e => e.money.currency).dedup.filter converter.canConvert) := by
      refine (List.perm_ext_iff_of_nodup h.nodup ((List.nodup_dedup _).filter _)).mpr fun c => ?_
      rw [List.mem_filter, List.mem_dedup]
      constructor
      · intro hc
        obtain ⟨r, hr, rfl⟩ := List.mem_map.mp hc
        obtain ⟨e, he, hcurrency⟩ := h.inhabited r hr
        obtain ⟨he, hcan⟩ := List.mem_filter.mp he
        rw [← hcurrency]
        exact ⟨List.mem_map_of_mem he, hcan⟩
      · rintro ⟨hc, hcan⟩
        obtain ⟨e, he, rfl⟩ := List.mem_map.mp hc
        exact h.covers e (List.mem_filter.mpr ⟨he, hcan⟩)
    rw [← (hperm.map _).sum_eq, List.map_map]
    exact congrArg List.sum (List.map_congr_left fun r hr => by rw [hexact r hr]; rfl)
  · exact congrArg Prod.snd (h.sum.trans (sum_figures _))

/-- The rows of one value of the second key are the groups of its Expenses by currency. -/
lemma groups_of_key {κ ρ : Type} [DecidableEq κ] {key : Expense → κ} {es : List Expense}
    {currency : ρ → CurrencyCode} {rowKey : ρ → κ} {figures : ρ → ℤ × ℕ} {rows : List ρ}
    (h : Groups Expense.figures (fun e => (e.money.currency, key e)) es
      (fun r => (currency r, rowKey r)) figures rows) (k : κ) :
    Groups Expense.figures (fun e => e.money.currency) (es.filter fun e => decide (key e = k))
      currency figures (rows.filter fun r => decide (rowKey r = k)) := by
  refine (h.filter fun p => decide (p.2 = k)).rekey Prod.fst fun e he e' he' hcurrency => ?_
  have hk : key e = k := of_decide_eq_true (List.mem_filter.mp he).2
  have hk' : key e' = k := of_decide_eq_true (List.mem_filter.mp he').2
  exact Prod.ext hcurrency (hk.trans hk'.symm)

/-- **Groups.** Rows by currency and key, converted and added up by key, show the Expenses of each
key. -/
lemma shows_of_key {κ ρ σ : Type} [DecidableEq κ] {key : Expense → κ} {es : List Expense}
    {currency : ρ → CurrencyCode} {rowKey : ρ → κ} {figures : ρ → ℤ × ℕ} {rows : List ρ}
    {groupKey : σ → κ} {groupFigures : σ → ℤ × ℕ} {groups : List σ}
    (h : Groups Expense.figures (fun e => (e.money.currency, key e)) (converter.among es)
      (fun r => (currency r, rowKey r)) figures rows)
    (hgroups : Groups (converter.converted currency figures) rowKey rows groupKey groupFigures
      groups)
    (hdefined : ∀ r ∈ rows, converter.Defined (figures r).1 (currency r)) {g : σ} (hg : g ∈ groups) :
    converter.Shows (es.filter fun e => decide (key e = groupKey g)) (groupFigures g) := by
  rw [hgroups.exact g hg]
  have hrows := groups_of_key h (groupKey g)
  rw [← among_filter] at hrows
  exact shows_of_rows hrows fun r hr => hdefined r (List.mem_of_mem_filter hr)

/-- Every key of a convertible Expense is shown. -/
lemma mem_groupKey {κ ρ σ : Type} [DecidableEq κ] {key : Expense → κ} {es : List Expense}
    {currency : ρ → CurrencyCode} {rowKey : ρ → κ} {figures : ρ → ℤ × ℕ} {rows : List ρ}
    {groupKey : σ → κ} {groupFigures : σ → ℤ × ℕ} {groups : List σ}
    (h : Groups Expense.figures (fun e => (e.money.currency, key e)) (converter.among es)
      (fun r => (currency r, rowKey r)) figures rows)
    (hgroups : Groups (converter.converted currency figures) rowKey rows groupKey groupFigures
      groups) (k : κ) :
    k ∈ groups.map groupKey ↔ ∃ e ∈ converter.among es, key e = k := by
  constructor
  · intro hk
    obtain ⟨g, hg, rfl⟩ := List.mem_map.mp hk
    obtain ⟨r, hr, hrow⟩ := hgroups.inhabited g hg
    obtain ⟨e, he, hkey⟩ := h.inhabited r hr
    exact ⟨e, he, (Prod.mk.inj hkey).2.trans hrow⟩
  · rintro ⟨e, he, rfl⟩
    obtain ⟨r, hr, hkey⟩ := List.mem_map.mp (h.covers e he)
    rw [← (Prod.mk.inj hkey).2]
    exact hgroups.covers r hr

/-- The counts of the groups add up to the count of the convertible Expenses. -/
lemma count_of_groups {κ ρ σ : Type} [DecidableEq κ] {key : Expense → κ} {es : List Expense}
    {currency : ρ → CurrencyCode} {rowKey : ρ → κ} {figures : ρ → ℤ × ℕ} {rows : List ρ}
    {groupKey : σ → κ} {groupFigures : σ → ℤ × ℕ} {groups : List σ}
    (h : Groups Expense.figures (fun e => (e.money.currency, key e)) (converter.among es)
      (fun r => (currency r, rowKey r)) figures rows)
    (hgroups : Groups (converter.converted currency figures) rowKey rows groupKey groupFigures
      groups) :
    ((groups.map groupFigures).sum).2 = (converter.among es).length := by
  rw [hgroups.sum, sum_converted]
  exact congrArg Prod.snd (h.sum.trans (sum_figures _))

/-- The converted bucket adds up the currencies that have Expenses in it.

**Proof sketch.** The sum over all currencies is the sum over those with Expenses in the bucket,
since the others add nothing. -/
lemma bucketIn_figures (daily : List DailyTotal) (currencies : List CurrencyCode)
    (bucket : DashboardPeriod)
    (hzero : ∀ c ∈ currencies, (bucketOf (daysOf daily c) bucket).count = 0 →
      (bucketOf (daysOf daily c) bucket).figures = 0) :
    (converter.bucketIn daily currencies bucket).figures =
      ((currencies.filter fun c => decide ((bucketOf (daysOf daily c) bucket).count ≠ 0)).map
        (converter.converted id fun c => (bucketOf (daysOf daily c) bucket).figures)).sum := by
  let add : CurrencyCode → ℤ × ℕ :=
    converter.converted id fun c => (bucketOf (daysOf daily c) bucket).figures
  have hall : (converter.bucketIn daily currencies bucket).figures = (currencies.map add).sum :=
    (sum_pairs _ _ _).symm
  rw [hall, ← sumWhere_add_not add fun c => decide ((bucketOf (daysOf daily c) bucket).count ≠ 0)]
  refine (congrArg (sumWhere add _ currencies + ·) ?_).trans (add_zero _)
  refine List.sum_eq_zero fun x hx => ?_
  obtain ⟨c, hc, rfl⟩ := List.mem_map.mp hx
  obtain ⟨hc, hcount⟩ := List.mem_filter.mp hc
  have hfigures := hzero c hc (by simpa using hcount)
  show (converter.value (bucketOf (daysOf daily c) bucket).figures.1 c,
    (bucketOf (daysOf daily c) bucket).figures.2) = 0
  rw [hfigures]
  exact Prod.ext (value_zero c) rfl

/-- **Buckets.** A converted bucket shows the Expenses of its days.

**Proof sketch.** The figures of a currency in the bucket are those of its Expenses there
(`hfigures`), and each currency with Expenses in it is converted once. -/
lemma shows_bucketIn {expenses : List Expense} {ownerId : UUID} {period bucket : DashboardPeriod}
    {layout : ChartBuckets} (hbucket : bucket ∈ layout.buckets)
    (hdefined : ∀ r ∈ bucketRounds layout (converter.dailyIn expenses ownerId period),
      converter.Defined r.1 r.2) :
    converter.Shows
      ((activeIn expenses ownerId period none).filter fun e =>
        bucket.contains e.transactionDate.value)
      (converter.bucketIn (converter.dailyIn expenses ownerId period)
        (currenciesOf (converter.dailyIn expenses ownerId period)) bucket).figures := by
  let es := activeIn expenses ownerId period none
  let daily := converter.dailyIn expenses ownerId period
  let figures : CurrencyCode → ℤ × ℕ := fun c => (bucketOf (daysOf daily c) bucket).figures
  have hfigures : ∀ c, figures c = figuresOf ((converter.among es).filter fun e =>
      bucket.contains e.transactionDate.value && decide (e.money.currency = c)) :=
    fun c => bucketOf_figures expenses ownerId period c bucket
  have hcount : ∀ c, (bucketOf (daysOf daily c) bucket).count = ((converter.among es).filter fun e =>
      bucket.contains e.transactionDate.value && decide (e.money.currency = c)).length :=
    fun c => congrArg Prod.snd (hfigures c)
  rw [bucketIn_figures]
  case hzero =>
    intro c _ hzero
    rw [hcount, List.length_eq_zero_iff] at hzero
    show figures c = 0
    rw [hfigures, hzero]
    rfl
  refine @shows_of_rows converter CurrencyCode _ id figures _ ?_ fun c hc => ?_
  · rw [among_filter]
    constructor
    case nodup =>
      rw [List.map_id]
      exact (nodup_currenciesOf daily).filter _
    case covers =>
      intro e he
      obtain ⟨he, hin⟩ := List.mem_filter.mp he
      obtain ⟨day, hday, hkey⟩ := List.mem_map.mp
        ((dailyIn_groups converter expenses ownerId period).covers e he)
      rw [List.map_id]
      refine List.mem_filter.mpr ⟨mem_currenciesOf.mpr ⟨day, hday, (Prod.mk.inj hkey).1⟩, ?_⟩
      rw [hcount, decide_eq_true_eq]
      refine (List.length_pos_of_mem (List.mem_filter.mpr ⟨he, ?_⟩)).ne'
      rw [hin, Bool.true_and]
      exact decide_eq_true rfl
    case inhabited =>
      intro c hc
      have hne := of_decide_eq_true (List.mem_filter.mp hc).2
      rw [hcount] at hne
      obtain ⟨e, he⟩ := List.exists_mem_of_length_pos (Nat.pos_of_ne_zero hne)
      obtain ⟨he, hboth⟩ := List.mem_filter.mp he
      obtain ⟨hin, hcurrency⟩ := Bool.and_eq_true_iff.mp hboth
      exact ⟨e, List.mem_filter.mpr ⟨he, hin⟩, of_decide_eq_true hcurrency⟩
    case exact =>
      intro c _
      rw [hfigures, sumWhere_filter, ← sumWhere_figures]
      exact sumWhere_congr fun e _ => Bool.and_comm _ _
  · obtain ⟨hc, hne⟩ := List.mem_filter.mp hc
    have hne : ¬ (bucketOf (daysOf daily c) bucket).count = 0 := of_decide_eq_true hne
    refine hdefined (_, c) (List.mem_flatMap.mpr ⟨c, hc, List.mem_flatMap.mpr ⟨bucket, hbucket, ?_⟩⟩)
    show _ ∈ if (bucketOf (daysOf daily c) bucket).count = 0 then _ else _
    rw [if_neg hne]
    exact List.mem_singleton_self _

/-- The merchants `m` of a converted dashboard: `totals` are those before the cut. -/
structure ConvertedMerchants (converter : ConvertTo) (es : List Expense) (grandTotal : ℤ)
    (m : TopMerchants) (totals : List MerchantTotal) : Prop where
  /-- The merchants before the cut are those of the convertible Expenses, each once. -/
  nodup : (totals.map MerchantTotal.merchant).Nodup
  covers : ∀ k, k ∈ totals.map MerchantTotal.merchant ↔
    ∃ e ∈ converter.among es, e.merchant.map MerchantName.value = k
  total : ∀ t ∈ totals, converter.Shows
    (es.filter fun e => decide (e.merchant.map MerchantName.value = t.merchant)) t.figures
  /-- The cut is made after the conversion. -/
  cut : m = topMerchants totals grandTotal
  listed : ∀ x ∈ m.merchants, converter.Shows
    (es.filter fun e => decide (e.merchant.map MerchantName.value = x.merchant)) x.figures
  ranked : Ranked MerchantSpending.totalMinorUnits MerchantSpending.name m.merchants
  /-- "Other" adds up the merchants that are not listed. -/
  other : m.other.map MerchantSpending.figures =
    let rest := totals.filter fun t => decide (t.merchant ∉ listedMerchants m)
    if rest = [] then none else some (rest.map MerchantTotal.figures).sum
  count : ((m.merchants.map MerchantSpending.figures).sum +
    (m.other.map MerchantSpending.figures).getD 0).2 = (converter.among es).length

/-- What a converted dashboard of a period shows of the Expenses `expensesIn` each window. -/
structure Converted (converter : ConvertTo) (expensesIn : DashboardPeriod → List Expense)
    (period : DashboardPeriod) (detail : DashboardDetail) : Prop where
  summary : converter.Shows (expensesIn period) detail.summary.figures
  /-- The compared windows show their Expenses too. -/
  comparison : ∀ c ∈ detail.summary.comparison,
    converter.Sums (expensesIn c.previousPeriod) c.previousTotalMinorUnits ∧
      converter.Sums (expensesIn c.currentPeriod) c.currentTotalMinorUnits
  /-- The buckets follow each other from the first day of the period to the last. -/
  tiles : Tiles period.dateFrom.ordinal (detail.spendingOverTime.buckets.map TimeBucket.period)
    (period.dateTo.ordinal + 1)
  bucket : ∀ b ∈ detail.spendingOverTime.buckets, converter.Shows
    ((expensesIn period).filter fun e => b.period.contains e.transactionDate.value) b.figures
  buckets_count : (detail.spendingOverTime.buckets.map TimeBucket.count).sum = detail.summary.count
  /-- The categories are those of the convertible Expenses, each once. -/
  categories_covers : ∀ k, k ∈ detail.categories.map CategorySpending.categoryKey ↔
    ∃ e ∈ converter.among (expensesIn period), e.categoryKey = k
  categories_ranked :
    Ranked CategorySpending.totalMinorUnits CategorySpending.categoryKey detail.categories
  category : ∀ c ∈ detail.categories, converter.Shows
    ((expensesIn period).filter fun e => decide (e.categoryKey = c.categoryKey)) c.figures
  categories_count : (detail.categories.map CategorySpending.count).sum = detail.summary.count
  merchants : ∃ totals, ConvertedMerchants converter (expensesIn period)
    detail.summary.totalMinorUnits detail.topMerchants totals
  /-- The largest Expense is a convertible one, shown with its own conversion. -/
  largest : ∀ l ∈ detail.insights.largestExpense, ∃ e ∈ converter.among (expensesIn period), ∃ v,
    l = largestExpenseOf e (some v) ∧
      converter.rates.convert e.money.minorUnits e.money.currency converter.currency = .ok (some v)

section Shown

variable {db : Database} {ownerId : UUID} {period : DashboardPeriod} {layout : ChartBuckets}
  {w : Option ComparisonWindows}

/-- The total of a window shows its Expenses. -/
lemma shows_windowTotal {expenses : List Expense} {window : DashboardPeriod}
    (hdefined : ∀ r ∈ converter.windowRounds expenses ownerId window, converter.Defined r.1 r.2) :
    converter.Shows (activeIn expenses ownerId window none)
      (converter.windowTotal expenses ownerId window) :=
  shows_of_rows (presentIn_groups converter expenses ownerId window) fun t ht =>
    hdefined (t.totalMinorUnits, t.currency)
      (List.mem_map_of_mem (f := fun t : CurrencyTotal => (t.totalMinorUnits, t.currency)) ht)

/-- The largest Expenses of some currencies. -/
def largestAmong (expenses : List Expense) (ownerId : UUID) (period : DashboardPeriod)
    (totals : List CurrencyTotal) : List Expense :=
  totals.filterMap fun t => largestExpense expenses ownerId period t.currency

/-- The candidates are the largest Expenses, each converted. -/
lemma foldl_nextCandidate {expenses : List Expense} (totals : List CurrencyTotal)
    (state : List (ℤ × Expense) × UsedCodes) :
    totals.foldl (nextCandidate converter expenses ownerId period) state =
      (state.1 ++ (largestAmong expenses ownerId period totals).map fun e =>
          (converter.value e.money.minorUnits e.money.currency, e),
        state.2 ++ converter.codesOf ((largestAmong expenses ownerId period totals).map fun e =>
          (e.money.minorUnits, e.money.currency))) := by
  induction totals generalizing state with
  | nil => simp [largestAmong, codesOf]
  | cons t totals ih =>
    rw [List.foldl_cons, ih]
    unfold nextCandidate largestAmong
    cases hlargest : largestExpense expenses ownerId period t.currency with
    | none => simp [hlargest]
    | some e => simp [hlargest, codesOf]

/-- A largest Expense is a convertible one. -/
lemma mem_largestAmong {expenses : List Expense} {e : Expense}
    (h : e ∈ largestAmong expenses ownerId period
      (converter.presentIn expenses ownerId period)) :
    e ∈ converter.among (activeIn expenses ownerId period none) ∧
      ∃ t ∈ converter.presentIn expenses ownerId period,
        largestExpense expenses ownerId period t.currency = some e := by
  obtain ⟨t, ht, hlargest⟩ := List.mem_filterMap.mp h
  obtain ⟨hmem, hcurrency⟩ := mem_of_largestExpense hlargest
  refine ⟨List.mem_filter.mpr ⟨hmem, ?_⟩, t, ht, hlargest⟩
  show converter.canConvert e.money.currency = true
  rw [hcurrency]
  exact (List.mem_filter.mp ht).2

/-- What the comparison shows. -/
lemma comparisonOn_shows {expenses : List Expense} {used : UsedCodes} {c : Comparison}
    (hc : c ∈ (converter.comparisonOn expenses ownerId used w).1)
    (hdefined : ∀ windows ∈ w, (converter.comparisonOn expenses ownerId used w).1.isSome →
      converter.ComparedDefined expenses ownerId windows) :
    converter.Sums (activeIn expenses ownerId c.previousPeriod none) c.previousTotalMinorUnits ∧
      converter.Sums (activeIn expenses ownerId c.currentPeriod none) c.currentTotalMinorUnits := by
  cases w with
  | none => cases hc
  | some windows =>
    have hcompared := hdefined windows rfl (Option.isSome_iff_exists.mpr ⟨c, hc⟩)
    obtain ⟨hprevious, hcurrent⟩ := List.forall_mem_cons.mp hcompared
    unfold ConvertTo.comparisonOn at hc
    simp only at hc
    split_ifs at hc
    · cases hc
    · obtain rfl := Option.some.inj hc
      exact ⟨(shows_windowTotal hprevious).1,
        (shows_windowTotal (List.forall_mem_singleton.mp hcurrent)).1⟩

/-- The merchants of the converted dashboard.

**Proof sketch.** Each row shows the Expenses of its merchant (`shows_of_key`). The rows are ranked
and cut after five, and what is cut off is "Other". -/
lemma convertedMerchants_shown (grandTotal : ℤ)
    (hdefined : ∀ t ∈ converter.merchantsIn db.expenses.rows ownerId period,
      converter.Defined t.totalMinorUnits t.currency) :
    ConvertedMerchants converter (activeIn db.expenses.rows ownerId period none) grandTotal
      (topMerchants (converter.merchantsOf (converter.merchantsIn db.expenses.rows ownerId period))
        grandTotal)
      (converter.merchantsOf (converter.merchantsIn db.expenses.rows ownerId period)) := by
  let rows := converter.merchantsIn db.expenses.rows ownerId period
  have hrows := merchantsIn_groups converter db.expenses.rows ownerId period
  have hgroups := @merchantsOf_groups converter rows
  have hshows : ∀ t ∈ converter.merchantsOf rows, converter.Shows
      ((activeIn db.expenses.rows ownerId period none).filter fun e =>
        decide (e.merchant.map MerchantName.value = t.merchant)) t.figures :=
    fun t ht => shows_of_key hrows hgroups hdefined ht
  have hpos : ∀ t ∈ converter.merchantsOf rows, 0 < t.count := by
    intro t ht
    obtain ⟨e, he, hkey⟩ := (mem_groupKey hrows hgroups t.merchant).mp (List.mem_map_of_mem ht)
    rw [show t.count = _ from (hshows t ht).2, among_filter]
    exact List.length_pos_of_mem (List.mem_filter.mpr ⟨he, decide_eq_true hkey⟩)
  constructor
  case nodup => exact hgroups.nodup
  case covers => exact mem_groupKey hrows hgroups
  case total => exact hshows
  case cut => rfl
  case listed =>
    intro x hx
    obtain ⟨t, ht, -, hname, hfigures⟩ := mem_topMerchants grandTotal hx
    rw [hname, hfigures]
    exact hshows t ht
  case ranked => exact topMerchants_ranked grandTotal hgroups.nodup
  case other =>
    rw [topMerchants_other]
    have hperm := restOf_perm grandTotal hgroups.nodup
    rw [(hperm.map MerchantTotal.figures).sum_eq]
    refine if_congr ?_ rfl rfl
    rw [sumCounts_restOf hpos, ← List.length_eq_zero_iff, hperm.length_eq, List.length_eq_zero_iff]
  case count =>
    rw [topMerchants_sum grandTotal hpos]
    exact count_of_groups hrows hgroups

/-- The counts of the buckets add up to the count of the convertible Expenses.

**Proof sketch.** The counts of the buckets are those of the Expenses in them, and each Expense is
in one bucket of the tiling. -/
lemma buckets_count_eq {bs : List TimeBucket}
    (htiles : Tiles period.dateFrom.ordinal (bs.map TimeBucket.period) (period.dateTo.ordinal + 1))
    {expenses : List Expense}
    (hshows : ∀ b ∈ bs, converter.Shows ((activeIn expenses ownerId period none).filter fun e =>
      b.period.contains e.transactionDate.value) b.figures) :
    (bs.map TimeBucket.count).sum =
      (converter.among (activeIn expenses ownerId period none)).length := by
  let es := converter.among (activeIn expenses ownerId period none)
  have hcount : ∀ p : Expense → Bool, sumWhere (fun _ => 1) p es = (es.filter p).length := by
    intro p
    simp [sumWhere]
  have hbuckets : bs.map TimeBucket.count = (bs.map TimeBucket.period).map fun b =>
      sumWhere (fun _ => 1) (fun e => b.contains e.transactionDate.value) es := by
    rw [List.map_map]
    refine List.map_congr_left fun b hb => ?_
    rw [show b.count = _ from (hshows b hb).2, among_filter]
    exact (hcount _).symm
  rw [hbuckets, htiles.sum (fun _ => 1) (fun e : Expense => e.transactionDate.value) es, hcount]
  refine congrArg List.length (List.filter_eq_self.mpr fun e he => ?_)
  obtain ⟨-, -, -, hfrom, hto, -⟩ := mem_activeIn (List.mem_of_mem_filter he)
  have hto' : e.transactionDate.value.ordinal ≤ period.dateTo.ordinal := hto
  rw [Bool.and_eq_true, decide_eq_true_eq, decide_eq_true_eq]
  exact ⟨hfrom, by omega⟩

/-- **What is shown.** Every figure of the converted detail is the conversion of exact sums.

**Proof sketch.** Part by part: totals, buckets, categories and merchants each show groups of the
Expenses that can be converted, where all that they convert is defined. The comparison and the
largest Expense follow from their own lemmas. -/
lemma detailOn_converted (hstored : db.CategoriesStored) (hlayout : chartBuckets period = .ok layout)
    (h : converter.AllDefined db ownerId period layout w) :
    Converted converter (fun window => activeIn db.expenses.rows ownerId window none) period
      (converter.detailOn db ownerId period layout w) := by
  obtain ⟨hrest, hmerchant⟩ := List.forall_mem_append.mp h.group
  obtain ⟨hbucket, hcategory⟩ := List.forall_mem_append.mp hrest
  have hsummary := shows_windowTotal h.total
  have hrows := categoriesIn_groups converter db ownerId period hstored
  have hgroups := @categoriesOf_groups converter
    (converter.categoriesIn db ownerId period)
  have hdefined : ∀ t ∈ converter.categoriesIn db ownerId period,
      converter.Defined t.totalMinorUnits t.currency :=
    fun t ht => hcategory _ (List.mem_map_of_mem ht)
  have hcategories := rankCategories_perm
    (converter.categoriesOf (converter.categoriesIn db ownerId period))
    (converter.windowTotal db.expenses.rows ownerId period).1
  have htiles : Tiles period.dateFrom.ordinal
      ((converter.detailOn db ownerId period layout w).spendingOverTime.buckets.map
        TimeBucket.period) (period.dateTo.ordinal + 1) := by
    obtain ⟨layout', hlayout', htiles⟩ := chartBuckets_eq_ok period
    obtain rfl := Except.ok.inj (hlayout.symm.trans hlayout')
    show Tiles _ (List.map _ (List.map _ _)) _
    rw [List.map_map]
    exact (List.map_id'' (fun _ => rfl) layout.buckets).symm ▸ htiles
  have hbuckets : ∀ b ∈ (converter.detailOn db ownerId period layout w).spendingOverTime.buckets,
      converter.Shows ((activeIn db.expenses.rows ownerId period none).filter fun e =>
        b.period.contains e.transactionDate.value) b.figures := by
    intro b hb
    obtain ⟨bucket, hmem, rfl⟩ := List.mem_map.mp hb
    exact shows_bucketIn hmem hbucket
  constructor
  case summary => exact hsummary
  case comparison => exact fun c hc => comparisonOn_shows hc h.comparison
  case tiles => exact htiles
  case bucket => exact hbuckets
  case buckets_count => exact (buckets_count_eq htiles hbuckets).trans hsummary.2.symm
  case categories_covers =>
    intro k
    have hkeys : ((converter.detailOn db ownerId period layout w).categories.map
        CategorySpending.categoryKey).Perm
          ((converter.categoriesOf (converter.categoriesIn db ownerId period)).map
            CategoryTotal.categoryKey) := by
      have hmap := hcategories.map CategorySpending.categoryKey
      rw [List.map_map] at hmap
      exact hmap
    rw [hkeys.mem_iff]
    exact mem_groupKey hrows hgroups k
  case categories_ranked => exact rankCategories_ranked _ hgroups.nodup
  case category =>
    intro c hc
    obtain ⟨t, ht, rfl⟩ := List.mem_map.mp (hcategories.mem_iff.mp hc)
    exact shows_of_key hrows hgroups hdefined ht
  case categories_count =>
    have hcount := (sum_pairs CategorySpending.totalMinorUnits CategorySpending.count _).symm.trans
      (rankCategories_sum (converter.categoriesOf (converter.categoriesIn db ownerId period))
        (converter.windowTotal db.expenses.rows ownerId period).1)
    exact (congrArg Prod.snd hcount).trans
      ((count_of_groups hrows hgroups).trans hsummary.2.symm)
  case merchants =>
    exact ⟨_, convertedMerchants_shown _ fun t ht => hmerchant _ (List.mem_map_of_mem ht)⟩
  case largest =>
    intro l hl
    obtain ⟨candidate, hcandidate, rfl⟩ := Option.mem_map.mp hl
    have hmem := (perm_orderBy _ _).mem_iff.mp (List.mem_of_head? hcandidate)
    rw [ConvertTo.candidatesIn, foldl_nextCandidate, List.nil_append] at hmem
    obtain ⟨e, he, rfl⟩ := List.mem_map.mp hmem
    obtain ⟨hamong, t, ht, hlargest⟩ := mem_largestAmong he
    exact ⟨e, hamong, _, rfl, h.largest t ht e hlargest⟩

end Shown

/-! ## The rates that are used -/

section Used

variable {db : Database} {ownerId : UUID} {period : DashboardPeriod} {layout : ChartBuckets}
  {w : Option ComparisonWindows}

/-- What the comparison converts. -/
def ConvertTo.comparedRounds (converter : ConvertTo) (expenses : List Expense) (ownerId : UUID) :
    Option ComparisonWindows → List (ℤ × CurrencyCode)
  | none => []
  | some windows =>
    converter.windowRounds expenses ownerId windows.previous ++
      if (converter.windowTotal expenses ownerId windows.previous).2 = 0 then []
      else converter.windowRounds expenses ownerId windows.current

/-- The comparison uses the codes of what it converts. -/
lemma comparisonOn_codes (expenses : List Expense) (ownerId : UUID) (used : UsedCodes)
    (w : Option ComparisonWindows) :
    (converter.comparisonOn expenses ownerId used w).2 =
      used ++ converter.codesOf (converter.comparedRounds expenses ownerId w) := by
  cases w with
  | none => exact (List.append_nil _).symm
  | some windows =>
    unfold ConvertTo.comparisonOn ConvertTo.comparedRounds
    simp only
    rw [codesOf_append]
    split_ifs
    · rw [codesOf, codesOf, List.flatMap_nil, List.append_nil]
    · rw [List.append_assoc]

/-- Everything a converted dashboard converts. -/
def ConvertTo.roundsOn (converter : ConvertTo) (db : Database) (ownerId : UUID)
    (period : DashboardPeriod) (layout : ChartBuckets) (w : Option ComparisonWindows) :
    List (ℤ × CurrencyCode) :=
  let expenses := db.expenses.rows
  converter.windowRounds expenses ownerId period ++
    converter.comparedRounds expenses ownerId w ++ converter.groupRounds db ownerId period layout ++
    (largestAmong expenses ownerId period (converter.presentIn expenses ownerId period)).map
      fun e => (e.money.minorUnits, e.money.currency)

/-- The codes used in all. -/
lemma candidatesIn_codes :
    (converter.candidatesIn db ownerId period layout w).2 =
      converter.codesOf (converter.roundsOn db ownerId period layout w) := by
  rw [ConvertTo.candidatesIn, foldl_nextCandidate, ConvertTo.comparisonIn, comparisonOn_codes,
    ConvertTo.roundsOn, codesOf_append, codesOf_append, codesOf_append, List.nil_append]
  rfl

/-- A convertible currency that occurs in the period or in the previous window it is compared to. -/
def ConvertTo.Occurs (converter : ConvertTo) (expensesIn : DashboardPeriod → List Expense)
    (period : DashboardPeriod) (w : Option ComparisonWindows) (c : CurrencyCode) : Prop :=
  ∃ window, (window = period ∨ ∃ windows ∈ w, window = windows.previous) ∧
    ∃ e ∈ converter.among (expensesIn window), e.money.currency = c

/-- The currencies that are converted are the convertible ones that occur.

**Proof sketch.** A currency that is converted occurs in a row, and thus in an Expense; and an
Expense that can be converted is counted in the totals of its window. -/
lemma mem_roundsOn (hstored : db.CategoriesStored) {today : Date}
    (hw : comparisonWindows period today = .ok w) (c : CurrencyCode) :
    (∃ r ∈ converter.roundsOn db ownerId period layout w, r.2 = c) ↔
      converter.Occurs (fun window => activeIn db.expenses.rows ownerId window none) period w c := by
  have hwindow : ∀ window, (∃ r ∈ converter.windowRounds db.expenses.rows ownerId window, r.2 = c) ↔
      ∃ e ∈ converter.among (activeIn db.expenses.rows ownerId window none),
        e.money.currency = c := by
    intro window
    have hgroups := presentIn_groups converter db.expenses.rows ownerId window
    constructor
    · rintro ⟨r, hr, rfl⟩
      obtain ⟨t, ht, rfl⟩ := List.mem_map.mp hr
      exact hgroups.inhabited t ht
    · rintro ⟨e, he, rfl⟩
      obtain ⟨t, ht, hcurrency⟩ := List.mem_map.mp (hgroups.covers e he)
      exact ⟨_, List.mem_map_of_mem ht, hcurrency⟩
  have hperiod : (∃ e ∈ converter.among (activeIn db.expenses.rows ownerId period none),
      e.money.currency = c) →
      converter.Occurs (fun window => activeIn db.expenses.rows ownerId window none) period w c :=
    fun h => ⟨period, .inl rfl, h⟩
  constructor
  · rintro ⟨r, hr, hc⟩
    rcases List.mem_append.mp hr with hr | hr
    · rcases List.mem_append.mp hr with hr | hr
      · rcases List.mem_append.mp hr with hr | hr
        · exact hperiod ((hwindow period).mp ⟨r, hr, hc⟩)
        · cases w with
          | none => cases hr
          | some windows =>
            rcases List.mem_append.mp hr with hr | hr
            · exact ⟨windows.previous, .inr ⟨windows, rfl, rfl⟩,
                (hwindow windows.previous).mp ⟨r, hr, hc⟩⟩
            · split_ifs at hr
              · cases hr
              · obtain ⟨e, he, hcurrency⟩ := (hwindow windows.current).mp ⟨r, hr, hc⟩
                exact hperiod ⟨e, ((activeIn_current_sublist hw rfl).filter _).subset he, hcurrency⟩
      · rcases List.mem_append.mp hr with hr | hr
        · rcases List.mem_append.mp hr with hr | hr
          · obtain ⟨c', hc', hr⟩ := List.mem_flatMap.mp hr
            obtain ⟨bucket, -, hr⟩ := List.mem_flatMap.mp hr
            have hr' : r.2 = c' := by
              unfold bucketRound at hr
              simp only at hr
              split_ifs at hr
              · cases hr
              · rw [List.mem_singleton.mp hr]
            obtain ⟨day, hday, hcurrency⟩ := mem_currenciesOf.mp hc'
            obtain ⟨e, he, hkey⟩ :=
              (dailyIn_groups converter db.expenses.rows ownerId period).inhabited day hday
            exact hperiod ⟨e, he, by rw [(Prod.mk.inj hkey).1, hcurrency, ← hr', hc]⟩
          · obtain ⟨t, ht, rfl⟩ := List.mem_map.mp hr
            obtain ⟨e, he, hkey⟩ :=
              (categoriesIn_groups converter db ownerId period hstored).inhabited t ht
            exact hperiod ⟨e, he, (Prod.mk.inj hkey).1.trans hc⟩
        · obtain ⟨t, ht, rfl⟩ := List.mem_map.mp hr
          obtain ⟨e, he, hkey⟩ :=
            (merchantsIn_groups converter db.expenses.rows ownerId period).inhabited t ht
          exact hperiod ⟨e, he, (Prod.mk.inj hkey).1.trans hc⟩
    · obtain ⟨e, he, rfl⟩ := List.mem_map.mp hr
      exact hperiod ⟨e, (mem_largestAmong he).1, hc⟩
  · rintro ⟨window, rfl | ⟨windows, hwindows, rfl⟩, h⟩
    · obtain ⟨r, hr, hc⟩ := (hwindow window).mpr h
      exact ⟨r, List.mem_append_left _ (List.mem_append_left _ (List.mem_append_left _ hr)), hc⟩
    · obtain ⟨r, hr, hc⟩ := (hwindow windows.previous).mpr h
      obtain rfl := Option.mem_def.mp hwindows
      exact ⟨r, List.mem_append_left _ (List.mem_append_left _ (List.mem_append_right _
        (List.mem_append_left _ hr))), hc⟩

end Used

/-- The rates used are the stored ones of the codes used, in the order of their codes. -/
lemma mem_usedRates {used : UsedCodes} {r : ExchangeRate} :
    r ∈ converter.usedRates used ↔ r ∈ converter.rates.rates ∧ r.code ∈ used := by
  unfold usedRates
  rw [List.mem_filterMap]
  constructor
  · rintro ⟨code, hcode, hfind⟩
    obtain rfl := Table.key_of_find hfind
    exact ⟨Table.mem_of_find hfind, List.mem_dedup.mp ((perm_orderBy _ _).mem_iff.mp hcode)⟩
  · rintro ⟨hr, hcode⟩
    exact ⟨r.code, (perm_orderBy _ _).mem_iff.mpr (List.mem_dedup.mpr hcode), Table.find_of_mem hr⟩

/-- The rates that were used are listed in the order of their codes, each once. -/
lemma usedRates_sorted (used : UsedCodes) :
    (converter.usedRates used).Pairwise fun a b => a.code < b.code := by
  have hle : (orderBy (fun a b : String => decide (a ≤ b)) used.dedup).Pairwise (· ≤ ·) :=
    @pairwise_orderBy String String _ _ id (fun _ _ => decide_eq_true_iff) _
  have hne : (orderBy (fun a b : String => decide (a ≤ b)) used.dedup).Nodup :=
    (perm_orderBy _ _).nodup_iff.mpr (List.nodup_dedup _)
  have hlt := (hle.and hne).imp fun h => lt_of_le_of_ne h.1 h.2
  refine List.Pairwise.filterMap _ (fun code code' h r hr r' hr' => ?_) hlt
  rw [Table.key_of_find hr, Table.key_of_find hr']
  exact h

/-! ## Nothing to convert -/

/-- A detail without the converted amount of its largest Expense. -/
def DashboardDetail.unconverted (d : DashboardDetail) : DashboardDetail :=
  { d with insights :=
      ⟨d.insights.largestCategory,
        d.insights.largestExpense.map fun l => { l with convertedMinorUnits := none }⟩ }

section Own

variable {db : Database} {ownerId : UUID} {period : DashboardPeriod} {layout : ChartBuckets}
  {w : Option ComparisonWindows}

/-- Every active Expense of the owner is in the target currency. -/
def ConvertTo.AllInTarget (converter : ConvertTo) (db : Database) (ownerId : UUID) : Prop :=
  ∀ e ∈ db.expenses.rows, e.ownerId = ownerId → e.isActive = true →
    e.money.currency = converter.currency

/-- Amounts of the target currency convert. -/
lemma canConvert_target : converter.canConvert converter.currency = true := by
  unfold ConvertTo.canConvert ExchangeRates.canConvert
  rw [decide_eq_true rfl, Bool.true_or]

/-- Rows in the target currency are all convertible. -/
lemma convertible_eq_self {ρ : Type} {currency : ρ → CurrencyCode} {rows : List ρ}
    (h : ∀ r ∈ rows, currency r = converter.currency) :
    converter.convertible currency rows = rows := by
  refine List.filter_eq_self.mpr fun r hr => ?_
  rw [h r hr]
  exact canConvert_target

variable (hall : converter.AllInTarget db ownerId)
include hall

/-- Where all Expenses are in the target currency, each of those counted is. -/
lemma currency_of_allInTarget {window : DashboardPeriod} {e : Expense}
    (he : e ∈ activeIn db.expenses.rows ownerId window none) :
    e.money.currency = converter.currency := by
  obtain ⟨hmem, howner, hactive, -⟩ := mem_activeIn he
  exact hall e hmem howner hactive

/-- The rows of the Expenses of a window are in the target currency. -/
lemma currency_of_row {κ ρ : Type} [DecidableEq κ] {key : Expense → κ} {rowKey : ρ → κ}
    {figures : ρ → ℤ × ℕ} {rows : List ρ} {window : DashboardPeriod}
    (h : Groups Expense.figures key (activeIn db.expenses.rows ownerId window none) rowKey figures
      rows) {row : ρ} (hrow : row ∈ rows) {c : CurrencyCode}
    (hc : ∀ e, key e = rowKey row → e.money.currency = c) : c = converter.currency := by
  obtain ⟨e, he, hkey⟩ := h.inhabited row hrow
  rw [← hc e hkey]
  exact currency_of_allInTarget hall he

/-- The Expenses of a window are those of the target. -/
lemma activeIn_target (window : DashboardPeriod) :
    activeIn db.expenses.rows ownerId window (some converter.currency) =
      activeIn db.expenses.rows ownerId window none := by
  rw [activeIn_some]
  exact List.filter_eq_self.mpr fun e he => decide_eq_true (currency_of_allInTarget hall he)

/-- A converted total is then the total of the target. -/
lemma windowTotal_eq_totalIn (window : DashboardPeriod) :
    converter.windowTotal db.expenses.rows ownerId window =
      totalIn converter.currency (currencyTotals db.expenses.rows ownerId window) := by
  have hcurrency : ∀ t ∈ currencyTotals db.expenses.rows ownerId window,
      t.currency = converter.currency := fun t ht =>
    currency_of_row hall (currencyTotals_groups db.expenses.rows ownerId window) ht fun e he => he
  rw [totalIn_currencyTotals, activeIn_target hall, ← sum_figures,
    ← (currencyTotals_groups db.expenses.rows ownerId window).sum, ConvertTo.windowTotal,
    ConvertTo.presentIn, convertible_eq_self hcurrency]
  refine congrArg List.sum (List.map_congr_left fun t ht => ?_)
  unfold ConvertTo.converted
  rw [hcurrency t ht, value_target]

/-- The comparison is then the comparison of the target. -/
lemma comparisonOn_eq_own (used : UsedCodes) :
    (converter.comparisonOn db.expenses.rows ownerId used w).1 =
      ownComparison db.expenses.rows ownerId converter.currency w := by
  cases w with
  | none => rfl
  | some windows =>
    unfold ConvertTo.comparisonOn ownComparison
    simp only
    rw [windowTotal_eq_totalIn hall, windowTotal_eq_totalIn hall]
    split_ifs <;> rfl

omit hall in
/-- A converted bucket of rows in the target currency is their bucket.

**Proof sketch.** There is one currency, the target, and converting to it changes nothing. -/
lemma bucketIn_target {daily : List DailyTotal} (h : ∀ day ∈ daily, day.currency = converter.currency)
    (bucket : DashboardPeriod) :
    converter.bucketIn daily (currenciesOf daily) bucket = bucketOf daily bucket := by
  have hself : daysOf daily converter.currency = daily :=
    List.filter_eq_self.mpr fun day hday => decide_eq_true (h day hday)
  cases daily with
  | nil => rfl
  | cons day daily =>
    have hcurrencies : currenciesOf (day :: daily) = [converter.currency] := by
      refine List.perm_singleton.mp ((List.perm_ext_iff_of_nodup (nodup_currenciesOf _)
        (List.nodup_singleton _)).mpr fun c => ?_)
      rw [mem_currenciesOf, List.mem_singleton]
      constructor
      · rintro ⟨day', hday', rfl⟩
        exact h day' hday'
      · rintro rfl
        exact ⟨day, List.mem_cons_self, h day List.mem_cons_self⟩
    rw [hcurrencies, ConvertTo.bucketIn]
    simp only [List.map_cons, List.map_nil, List.sum_singleton, hself, value_target]
    rfl

/-- The categories are then the rows there are.

**Proof sketch.** The rows are all in the target currency, so each category has one row and none is
merged with another; converting a row keeps it. -/
lemma categoriesOf_target (hstored : db.CategoriesStored) :
    converter.categoriesOf (converter.categoriesIn db ownerId period) =
      categoryTotals db.categories.rows db.expenses.rows ownerId period (some converter.currency) := by
  let rows := categoryTotals db.categories.rows db.expenses.rows ownerId period none
  have hgroups := categoryTotals_groups db.expenses.rows ownerId period none hstored
  have hcurrency : ∀ t ∈ rows, t.currency = converter.currency := fun t ht =>
    currency_of_row hall hgroups ht fun e he => (Prod.mk.inj he).1
  have hnodup : (rows.map CategoryTotal.categoryKey).Nodup :=
    (hgroups.rekey Prod.snd fun e he e' he' h => Prod.ext
      ((currency_of_allInTarget hall he).trans (currency_of_allInTarget hall he').symm) h).nodup
  have hown : categoryTotals db.categories.rows db.expenses.rows ownerId period
      (some converter.currency) = rows := by
    unfold rows categoryTotals
    rw [activeIn_target hall]
  rw [hown, ConvertTo.categoriesIn, convertible_eq_self hcurrency, ConvertTo.categoriesOf,
    rows_foldl_upsert converter.mergeCategory (fun _ _ => rfl) hnodup]
  refine (List.map_congr_left fun t ht => ?_).trans (List.map_id rows)
  unfold ConvertTo.mergeCategory
  rw [hcurrency t ht, value_target]
  simp only [Option.map_none, Option.getD_none, add_zero]
  rw [← hcurrency t ht]
  rfl

/-- The merchants are then the rows there are.

**Proof sketch.** The rows are all in the target currency, so each merchant has one row and none is
merged with another; converting a row keeps it. -/
lemma merchantsOf_target :
    converter.merchantsOf (converter.merchantsIn db.expenses.rows ownerId period) =
      merchantTotals db.expenses.rows ownerId period (some converter.currency) := by
  let rows := merchantTotals db.expenses.rows ownerId period none
  have hgroups := merchantTotals_groups db.expenses.rows ownerId period none
  have hcurrency : ∀ t ∈ rows, t.currency = converter.currency := fun t ht =>
    currency_of_row hall hgroups ht fun e he => (Prod.mk.inj he).1
  have hnodup : (rows.map MerchantTotal.merchant).Nodup :=
    (hgroups.rekey Prod.snd fun e he e' he' h => Prod.ext
      ((currency_of_allInTarget hall he).trans (currency_of_allInTarget hall he').symm) h).nodup
  have hown : merchantTotals db.expenses.rows ownerId period (some converter.currency) = rows := by
    unfold rows merchantTotals
    rw [activeIn_target hall]
  rw [hown, ConvertTo.merchantsIn, convertible_eq_self hcurrency, ConvertTo.merchantsOf,
    rows_foldl_upsert converter.mergeMerchant (fun _ _ => rfl) hnodup]
  refine (List.map_congr_left fun t ht => ?_).trans (List.map_id rows)
  unfold ConvertTo.mergeMerchant
  rw [hcurrency t ht, value_target]
  simp only [Option.map_none, Option.getD_none, add_zero]
  rw [← hcurrency t ht]
  rfl

/-- The largest Expense is then the largest of the target.

**Proof sketch.** There is at most one candidate, the largest Expense of the target currency. -/
lemma largest_target :
    ((orderBy largerCandidate (converter.candidatesIn db ownerId period layout w).1).head?.map
        fun c => { largestExpenseOf c.2 (some c.1) with convertedMinorUnits := none }) =
      (largestExpense db.expenses.rows ownerId period converter.currency).map
        fun e => largestExpenseOf e none := by
  let rows := currencyTotals db.expenses.rows ownerId period
  have hgroups := currencyTotals_groups db.expenses.rows ownerId period
  have hcurrency : ∀ t ∈ rows, t.currency = converter.currency := fun t ht =>
    currency_of_row hall hgroups ht fun e he => he
  rw [ConvertTo.candidatesIn, foldl_nextCandidate, List.nil_append, ConvertTo.presentIn,
    convertible_eq_self hcurrency]
  have hlargest : largestAmong db.expenses.rows ownerId period rows =
      (largestExpense db.expenses.rows ownerId period converter.currency).toList := by
    rcases hrows : rows with _ | ⟨t, _ | ⟨t', rest⟩⟩
    · -- Without a total there is no Expense.
      have hnil : activeIn db.expenses.rows ownerId period none = [] := by
        by_contra hne
        obtain ⟨e, he⟩ := List.exists_mem_of_ne_nil _ hne
        have hmem := hgroups.covers e he
        rw [show currencyTotals db.expenses.rows ownerId period = [] from hrows] at hmem
        exact List.not_mem_nil hmem
      unfold largestExpense
      rw [activeIn_target hall, hnil]
      rfl
    · have ht := hcurrency t (hrows ▸ List.mem_cons_self)
      unfold largestAmong
      rw [List.filterMap_cons, ht]
      cases largestExpense db.expenses.rows ownerId period converter.currency <;> rfl
    · -- Two totals would both be of the target.
      have hnodup := hgroups.nodup
      rw [show currencyTotals db.expenses.rows ownerId period = t :: t' :: rest from hrows] at hnodup
      have ht := hcurrency t (hrows ▸ List.mem_cons_self)
      have ht' := hcurrency t' (hrows ▸ List.mem_cons_of_mem _ List.mem_cons_self)
      simp [ht, ht'] at hnodup
  rw [show largestAmong db.expenses.rows ownerId period
    (currencyTotals db.expenses.rows ownerId period) = _ from hlargest]
  cases largestExpense db.expenses.rows ownerId period converter.currency <;> rfl

/-- **Nothing to convert.** The converted detail is then the own one, but for the converted amount of
its largest Expense.

**Proof sketch.** Every part is that of the own dashboard: the totals, the buckets
(`bucketIn_target`), the categories and merchants (`categoriesOf_target`, `merchantsOf_target`) and
the largest Expense (`largest_target`). -/
lemma detailOn_eq_own (hstored : db.CategoriesStored) (hlayout : chartBuckets period = .ok layout)
    {spending : SpendingOverTime}
    (hspending : bucketTotals period (dailyTotals db.expenses.rows ownerId period
      (some converter.currency)) = .ok spending) :
    (converter.detailOn db ownerId period layout w).unconverted =
      ownDetailOn db ownerId period converter.currency spending w := by
  have hdaily : ∀ day ∈ dailyTotals db.expenses.rows ownerId period none,
      day.currency = converter.currency := fun day hday =>
    currency_of_row hall (dailyTotals_groups db.expenses.rows ownerId period none) hday
      fun e he => (Prod.mk.inj he).1
  have hown : dailyTotals db.expenses.rows ownerId period (some converter.currency) =
      dailyTotals db.expenses.rows ownerId period none := by
    unfold dailyTotals
    rw [activeIn_target hall]
  rw [hown, bucketTotals_of_layout hlayout] at hspending
  obtain rfl := Except.ok.inj hspending
  have hlargest := @largest_target converter db ownerId period layout w hall
  unfold DashboardDetail.unconverted ConvertTo.detailOn ownDetailOn assembleDetail
  simp only [windowTotal_eq_totalIn hall, categoriesOf_target hall hstored,
    merchantsOf_target hall, ConvertTo.comparisonIn, comparisonOn_eq_own hall, Option.map_map]
  rw [ConvertTo.dailyIn, convertible_eq_self hdaily,
    List.map_congr_left fun bucket _ => bucketIn_target hdaily bucket]
  exact congrArg _ (congrArg _ hlargest)

end Own

/-! ## The converted dashboard -/

/-- The amounts a converted dashboard may convert: sums of Expenses of one currency, of the period
or of the previous window. -/
def Summed (expensesIn : DashboardPeriod → List Expense) (period : DashboardPeriod)
    (w : Option ComparisonWindows) (minorUnits : ℤ) (currency : CurrencyCode) : Prop :=
  ∃ window, (window = period ∨ ∃ windows ∈ w, window = windows.previous) ∧
    SumIn (expensesIn window) minorUnits currency

/-- A dashboard shows the Expenses `expensesIn` each window, converted. -/
structure Dashboard.ConvertedBy (d : Dashboard) (converter : ConvertTo)
    (expensesIn : DashboardPeriod → List Expense) (w : Option ComparisonWindows)
    (detail : DashboardDetail) (conversion : Conversion) : Prop where
  in_target : d.currency = some converter.currency
  has_detail : d.detail = some detail
  has_conversion : d.conversion = some conversion
  /-- Every figure is the conversion of exact group sums. -/
  converted : Converted converter expensesIn d.period detail
  /-- The currencies that cannot be converted are listed with their exact totals. -/
  unconverted : Groups Expense.figures (fun e => e.money.currency)
    ((expensesIn d.period).filter fun e => !converter.canConvert e.money.currency)
    CurrencyTotal.currency CurrencyTotal.figures conversion.unconverted
  /-- Each rate is listed once. -/
  rates_sorted : conversion.rates.Pairwise fun a b => a.code < b.code
  /-- The rates are the stored ones of the target and of the currencies that are converted into it,
  if there are any. -/
  rates : ∀ r, r ∈ conversion.rates ↔ r ∈ converter.rates.rates ∧ r.currency ≠ euro ∧
    ∃ c, converter.Occurs expensesIn d.period w c ∧ c ≠ converter.currency ∧
      (r.currency = c ∨ r.currency = converter.currency)

/-- What is in the target currency does not overflow.

**Proof sketch.** A sum of no Expenses is zero, which converts to zero. Any other sum is in the
target currency, and is returned as it is. -/
lemma not_overflows_of_allInTarget {db : Database} {ownerId : UUID}
    (hall : converter.AllInTarget db ownerId) {period : DashboardPeriod}
    {w : Option ComparisonWindows} :
    ¬ converter.Overflows
      (Summed (fun window => activeIn db.expenses.rows ownerId window none) period w) := by
  rintro ⟨n, c, ⟨window, -, es, hes, hcurrency, rfl⟩, herror⟩
  cases es with
  | nil =>
    have hzero : converter.rates.convert 0 c converter.currency = .error .invalidOperation := herror
    by_cases hcan : converter.canConvert c = true
    · rw [ExchangeRates.convert_zero hcan] at hzero
      cases hzero
    · rw [ExchangeRates.convert_of_not_canConvert hcan] at hzero
      cases hzero
  | cons e es =>
    have hc : c = converter.currency := by
      rw [← hcurrency e List.mem_cons_self]
      exact currency_of_allInTarget hall (hes.subset List.mem_cons_self)
    rw [hc, ExchangeRates.convert, if_pos rfl] at herror
    cases herror

/-- The codes of two currencies are equal only if they are. -/
lemma CurrencyCode.value_inj {a b : CurrencyCode} : a.value = b.value ↔ a = b := by
  cases a
  cases b
  exact ⟨fun h => by cases h; rfl, fun h => by cases h; rfl⟩

/-- The conversion a dashboard names: the rates it used and the totals it could not convert. -/
def ConvertTo.conversionOn (converter : ConvertTo) (db : Database) (ownerId : UUID)
    (period : DashboardPeriod) (layout : ChartBuckets) (w : Option ComparisonWindows) :
    Conversion :=
  ⟨converter.usedRates (converter.candidatesIn db ownerId period layout w).2,
    (currencyTotals db.expenses.rows ownerId period).filter fun t =>
      !converter.canConvert t.currency⟩

/-- The converted dashboard, as a function of the stored rows. -/
def ConvertTo.dashboardOn (converter : ConvertTo) (db : Database) (ownerId : UUID)
    (period : DashboardPeriod) (layout : ChartBuckets) (w : Option ComparisonWindows) : Dashboard :=
  ⟨period, currencyTotals db.expenses.rows ownerId period, some converter.currency, false,
    some (converter.detailOn db ownerId period layout w),
    some (converter.conversionOn db ownerId period layout w)⟩

section Execute

variable [PythonRuntime] {db : Database} {callerId : UUID} {user : User} {tape : Stream' Reading}
  {period : Option DashboardPeriod} {p : DashboardPeriod} {today : Date}

/-- The dashboard of a currency asked for is built, with its detail. -/
lemma exec_ownDashboard (huser : db.users.find callerId = some user) (currency : CurrencyCode)
    (hperiod : periodFor period tape.head.now user.timezone = .ok p)
    (htoday : user.localToday tape.head.now = .ok today) {spending : SpendingOverTime}
    (hspending : bucketTotals p (dailyTotals db.expenses.rows callerId p (some currency)) =
      .ok spending)
    {w : Option ComparisonWindows} (hw : comparisonWindows p today = .ok w) :
    ((buildDashboard callerId period (some currency) none).exec postgres tape ⟨db, db⟩).result =
      .ok ⟨p, currencyTotals db.expenses.rows callerId p, some currency, false,
        some (ownDetailOn db callerId p currency spending w), none⟩ := by
  have hone : ¬ ((some currency).isSome ∧ (none : Option ConvertTo).isSome) := fun h => by cases h.2
  rw [exec_buildDashboard hone huser hperiod htoday]
  have hread : ReadsAs postgres ⟨db, db⟩
      (ownDashboard callerId p (some currency) false (currencyTotals db.expenses.rows callerId p)
        today)
      (.ok ⟨p, currencyTotals db.expenses.rows callerId p, some currency, false,
        some (ownDetailOn db callerId p currency spending w), none⟩) :=
    ReadsAs.andThen (ReadsAs.andThen (reads_ownDetail hspending hw) (ReadsAs.pure _))
      (ReadsAs.pure _)
  exact congrArg Outcome.result (hread.exec tape.tail)

/-- **A converted dashboard is built** from the stored rows, unless the conversion of a sum of them
has too many digits.

**Proof sketch.** The program reads up to the totals by currency and then yields the detail
(`yields_convertedDetail`), where only the conversion of a sum can raise. -/
lemma exec_convertedDashboard {layout : ChartBuckets} {w : Option ComparisonWindows}
    (hstored : db.CategoriesStored) (huser : db.users.find callerId = some user)
    (hperiod : periodFor period tape.head.now user.timezone = .ok p)
    (htoday : user.localToday tape.head.now = .ok today)
    (hlayout : chartBuckets p = .ok layout) (hw : comparisonWindows p today = .ok w) :
    let result :=
      ((buildDashboard callerId period none (some converter)).exec postgres tape ⟨db, db⟩).result
    (result = .ok (converter.dashboardOn db callerId p layout w) ∧
        converter.AllDefined db callerId p layout w) ∨
      (result = .error .invalidOperation ∧
        converter.Overflows (Summed (fun window => activeIn db.expenses.rows callerId window none)
          p w)) := by
  intro result
  have hone : ¬ ((none : Option CurrencyCode).isSome ∧ (some converter).isSome) :=
    fun h => by cases h.1
  have hyields : Yields converter
      (Summed (fun window => activeIn db.expenses.rows callerId window none) p w) ⟨db, db⟩
      (convertedDashboard callerId p converter (currencyTotals db.expenses.rows callerId p) today)
      (converter.dashboardOn db callerId p layout w)
      (converter.AllDefined db callerId p layout w) := by
    refine (yields_convertedDetail hlayout hw hstored (fun n c h => ⟨p, .inl rfl, h⟩)
      fun windows hwindows n c h => ⟨windows.previous, .inr ⟨windows, hwindows, rfl⟩, h⟩).andThen
        fun hdefined => ?_
    exact Yields.pure _ hdefined
  have hresult : result = ((convertedDashboard callerId p converter
      (currencyTotals db.expenses.rows callerId p) today).exec postgres
        tape.tail ⟨db, db⟩).result :=
    congrArg Outcome.result (exec_buildDashboard hone huser hperiod htoday)
  rcases hyields with ⟨hreads, hdefined⟩ | ⟨hreads, hover⟩
  · exact .inl ⟨hresult.trans (congrArg Outcome.result (hreads.exec tape.tail)), hdefined⟩
  · exact .inr ⟨hresult.trans (congrArg Outcome.result (hreads.exec tape.tail)), hover⟩

/-- **Conversion.** On any stored rows and rates, the converted dashboard shows, for the period and
for each bucket, category and merchant of it, the sum over the currencies of the conversion of the
exact sum in each. What cannot be converted is in no figure and is listed with its exact totals, and
the rates listed are those that were used. Only the conversion of such a sum can stop it. Where all
the user's Expenses are in the target currency, it shows what their own dashboard shows.

**Proof sketch.** The rows of the queries that can be converted are the groups of the convertible
Expenses, and converting and adding them up by bucket, category or merchant keeps the groups of each
currency apart until each is converted. -/
theorem converted_dashboard_sums (hstored : db.CategoriesStored)
    (huser : db.users.find callerId = some user)
    (hperiod : periodFor period tape.head.now user.timezone = .ok p)
    (htoday : user.localToday tape.head.now = .ok today)
    (heuro : ∀ r ∈ converter.rates.rates, r.currency ≠ euro) :
    let expensesIn := fun window => activeIn db.expenses.rows callerId window none
    let result :=
      ((buildDashboard callerId period none (some converter)).exec postgres tape ⟨db, db⟩).result
    ∃ w, comparisonWindows p today = .ok w ∧
      ((result = .error .invalidOperation ∧ converter.Overflows (Summed expensesIn p w)) ∨
        ∃ d detail conversion, result = .ok d ∧ d.period = p ∧
          d.ConvertedBy converter expensesIn w detail conversion) ∧
      (converter.AllInTarget db callerId → ∃ d own detail, result = .ok d ∧
        d.detail = some detail ∧
        ((buildDashboard callerId period (some converter.currency) none).exec postgres tape
          ⟨db, db⟩).result = .ok own ∧ own.detail = some detail.unconverted) := by
  intro expensesIn result
  obtain ⟨w, hw, -⟩ := comparisonWindows_eq_ok p today
  obtain ⟨layout, hlayout, -⟩ := chartBuckets_eq_ok p
  let detail := converter.detailOn db callerId p layout w
  let d := converter.dashboardOn db callerId p layout w
  have hbuilt := @exec_convertedDashboard converter _ db callerId user tape period p today _ _ hstored
    huser hperiod htoday hlayout hw
  refine ⟨w, hw, ?_, ?_⟩
  · rcases hbuilt with ⟨hresult, hdefined⟩ | ⟨hresult, hover⟩
    · refine .inr ⟨d, detail, converter.conversionOn db callerId p layout w, hresult, rfl, ?_⟩
      constructor
      case in_target => rfl
      case has_detail => rfl
      case has_conversion => rfl
      case converted => exact detailOn_converted hstored hlayout hdefined
      case unconverted =>
        exact (currencyTotals_groups db.expenses.rows callerId p).filter fun c =>
          !converter.canConvert c
      case rates_sorted => exact usedRates_sorted _
      case rates =>
        intro r
        show r ∈ converter.usedRates (converter.candidatesIn db callerId p layout w).2 ↔ _
        rw [mem_usedRates, candidatesIn_codes, mem_codesOf]
        constructor
        · rintro ⟨hr, rate, hrate, hne, hcode⟩
          refine ⟨hr, heuro r hr, rate.2, (mem_roundsOn hstored hw _).mp ⟨rate, hrate, rfl⟩, hne, ?_⟩
          exact hcode.imp CurrencyCode.value_inj.mp CurrencyCode.value_inj.mp
        · rintro ⟨hr, -, c, hc, hne, hcode⟩
          obtain ⟨rate, hrate, rfl⟩ := (mem_roundsOn hstored hw c).mpr hc
          exact ⟨hr, rate, hrate, hne,
            hcode.imp CurrencyCode.value_inj.mpr CurrencyCode.value_inj.mpr⟩
    · exact .inl ⟨hresult, hover⟩
  · intro hall
    obtain ⟨spending, hspending, -⟩ := bucketTotals_eq_ok p
      (dailyTotals db.expenses.rows callerId p (some converter.currency))
    rcases hbuilt with ⟨hresult, -⟩ | ⟨-, hover⟩
    · refine ⟨d, _, detail, hresult, rfl,
        exec_ownDashboard huser converter.currency hperiod htoday hspending hw, ?_⟩
      exact congrArg some (detailOn_eq_own hall hstored hlayout hspending).symm
    · exact absurd hover (not_overflows_of_allInTarget hall)

end Execute

/-- A table with one rate: 1.25 dollars for a euro. -/
def toDollars : ConvertTo where
  currency := dollar
  rates := ⟨⟨[⟨dollar, ⟨125, -2⟩, july29.value, "ECB", by decide⟩], by decide⟩⟩

lemma ne_euro_of_mem_toDollars : ∀ r ∈ toDollars.rates.rates, r.currency ≠ euro := by
  intro r hr
  obtain rfl := List.mem_singleton.mp hr
  decide

/-- The dashboard in dollars: the euros are converted group by group, the yen are not. -/
theorem converted_dashboard_sums_spent :
    letI := PythonRuntime.ascii
    let expensesIn := fun window => activeIn Database.spent.expenses.rows 7 window none
    ∃ w d detail conversion, comparisonWindows july july.dateTo = .ok w ∧
      ((buildDashboard 7 (some july) none (some toDollars)).exec postgres endOfJuly
        ⟨.spent, .spent⟩).result = .ok d ∧
      detail.summary.totalMinorUnits = 12086 ∧
      detail.categories.map CategorySpending.totalMinorUnits = [4688, 3750, 3649] ∧
      detail.topMerchants.merchants.map MerchantSpending.totalMinorUnits =
        [3750, 2875, 1875, 1562, 1249] ∧
      detail.topMerchants.other.map MerchantSpending.totalMinorUnits = some 775 ∧
      conversion.unconverted.map CurrencyTotal.currency = [yen] ∧
      d.ConvertedBy toDollars expensesIn w detail conversion := by
  obtain ⟨w, hw, h, -⟩ := @converted_dashboard_sums toDollars PythonRuntime.ascii .spent 7
    ⟨7, .active, "UTC", some ⟨"EUR", by decide⟩⟩ endOfJuly (some july) july july.dateTo
    categoriesStored_spent rfl rfl rfl ne_euro_of_mem_toDollars
  have hrun : ((@buildDashboard PythonRuntime.ascii 7 (some july) none (some toDollars)).exec postgres
      endOfJuly ⟨.spent, .spent⟩).result.toOption.any (fun d =>
        d.detail.any (fun detail =>
          decide (detail.summary.totalMinorUnits = 12086 ∧
            detail.categories.map CategorySpending.totalMinorUnits = [4688, 3750, 3649] ∧
            detail.topMerchants.merchants.map MerchantSpending.totalMinorUnits =
              [3750, 2875, 1875, 1562, 1249] ∧
            detail.topMerchants.other.map MerchantSpending.totalMinorUnits = some 775)) &&
        d.conversion.any fun conversion =>
          decide (conversion.unconverted.map CurrencyTotal.currency = [yen])) = true := by
    decide +kernel
  rcases h with ⟨herror, -⟩ | ⟨d, detail, conversion, hd, -, hby⟩
  · rw [herror] at hrun
    cases hrun
  · rw [hd] at hrun
    obtain ⟨hdetail, hconversion⟩ := Bool.and_eq_true_iff.mp hrun
    rw [hby.has_detail] at hdetail
    rw [hby.has_conversion] at hconversion
    obtain ⟨htotal, hcategories, hmerchants, hother⟩ := of_decide_eq_true hdetail
    exact ⟨w, d, detail, conversion, hw, hd, htotal, hcategories, hmerchants, hother,
      of_decide_eq_true hconversion, hby⟩

end MintFlow
