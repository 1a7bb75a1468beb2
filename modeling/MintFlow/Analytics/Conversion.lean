import MintFlow.Analytics.Converting

set_option relaxedAutoImplicit false
set_option autoImplicit false

/-!
# What the converted dashboard reads and converts

The converted dashboard is a function of the stored rows. Everything it converts is a sum of some of
the user's Expenses in one currency, and only a conversion whose result has too many digits stops it.

## Main definitions

* `MintFlow.ConvertTo.detailOn` — the detail, from the stored rows.
* `MintFlow.ConvertTo.AllDefined` — every conversion that is shown has its value.

## Main results

* `MintFlow.yields_convertedDetail` — the program gives this detail, unless a conversion overflows.
-/

namespace MintFlow

open Transact Transact.Prog ConvertTo

variable {converter : ConvertTo} {P : ℤ → CurrencyCode → Prop} {s : Alone Database}

/-! ## What is converted -/

/-- An amount is the sum of some of the Expenses, all in one currency. -/
def SumIn (es : List Expense) (minorUnits : ℤ) (currency : CurrencyCode) : Prop :=
  ∃ es', es'.Sublist es ∧ (∀ e ∈ es', e.money.currency = currency) ∧ totalOf es' = minorUnits

/-- A sum of some Expenses is one of any list they are taken from. -/
lemma SumIn.mono {es es' : List Expense} (h : es.Sublist es') {n : ℤ} {c : CurrencyCode}
    (hsum : SumIn es n c) : SumIn es' n c := by
  obtain ⟨xs, hxs, hcurrency, htotal⟩ := hsum
  exact ⟨xs, hxs.trans h, hcurrency, htotal⟩

/-- The total of a group of one currency is a sum of Expenses in it. -/
lemma sumIn_of_groups {κ ρ : Type} [DecidableEq κ] {key : Expense → κ} {es : List Expense}
    {rowKey : ρ → κ} {figures : ρ → ℤ × ℕ} {rows : List ρ}
    (h : Groups Expense.figures key es rowKey figures rows) {row : ρ} (hrow : row ∈ rows)
    {c : CurrencyCode} (hc : ∀ e, key e = rowKey row → e.money.currency = c) :
    SumIn es (figures row).1 c := by
  refine ⟨_, List.filter_sublist, fun e he => hc e (of_decide_eq_true (List.mem_filter.mp he).2), ?_⟩
  rw [h.exact row hrow, sumWhere_figures]
  rfl

/-- The Expenses in the currencies that can be converted. -/
def ConvertTo.among (converter : ConvertTo) (es : List Expense) : List Expense :=
  converter.convertible (fun e => e.money.currency) es

/-- Convertible Expenses of a kind are the convertible ones among those of the kind. -/
lemma among_filter (es : List Expense) (p : Expense → Bool) :
    converter.among (es.filter p) = (converter.among es).filter p := by
  unfold ConvertTo.among convertible
  rw [List.filter_filter, List.filter_filter]
  exact List.filter_congr fun e _ => Bool.and_comm _ _

section Rows

variable (converter) (db : Database) (expenses : List Expense) (ownerId : UUID)
  (period : DashboardPeriod)

/-- The rows of each query in the currencies that can be converted. -/
def ConvertTo.presentIn : List CurrencyTotal :=
  converter.convertible CurrencyTotal.currency (currencyTotals expenses ownerId period)

def ConvertTo.dailyIn : List DailyTotal :=
  converter.convertible DailyTotal.currency (dailyTotals expenses ownerId period none)

def ConvertTo.categoriesIn : List CategoryTotal :=
  converter.convertible CategoryTotal.currency
    (categoryTotals db.categories.rows db.expenses.rows ownerId period none)

def ConvertTo.merchantsIn : List MerchantTotal :=
  converter.convertible MerchantTotal.currency (merchantTotals expenses ownerId period none)

/-- They account for the convertible Expenses. -/
lemma presentIn_groups :
    Groups Expense.figures (fun e => e.money.currency)
      (converter.among (activeIn expenses ownerId period none))
      CurrencyTotal.currency CurrencyTotal.figures (converter.presentIn expenses ownerId period) :=
  (currencyTotals_groups expenses ownerId period).filter converter.canConvert

/-- The daily totals of a window group its Expenses by date and currency. -/
lemma dailyIn_groups :
    Groups Expense.figures (fun e => (e.money.currency, e.transactionDate.value))
      (converter.among (activeIn expenses ownerId period none))
      (fun t => (t.currency, t.transactionDate)) DailyTotal.figures
      (converter.dailyIn expenses ownerId period) :=
  (dailyTotals_groups expenses ownerId period none).filter fun k => converter.canConvert k.1

/-- The totals of categories of a window group its Expenses by category and currency. -/
lemma categoriesIn_groups (hstored : db.CategoriesStored) :
    Groups Expense.figures (fun e => (e.money.currency, e.categoryKey))
      (converter.among (activeIn db.expenses.rows ownerId period none))
      (fun t => (t.currency, t.categoryKey)) CategoryTotal.figures
      (converter.categoriesIn db ownerId period) :=
  (categoryTotals_groups db.expenses.rows ownerId period none hstored).filter fun k =>
    converter.canConvert k.1

/-- The totals of merchants of a window group its Expenses by merchant and currency. -/
lemma merchantsIn_groups :
    Groups Expense.figures (fun e => (e.money.currency, e.merchant.map MerchantName.value))
      (converter.among (activeIn expenses ownerId period none))
      (fun t => (t.currency, t.merchant)) MerchantTotal.figures
      (converter.merchantsIn expenses ownerId period) :=
  (merchantTotals_groups expenses ownerId period none).filter fun k => converter.canConvert k.1

end Rows

/-- The bucket of one currency has the Expenses of its days. -/
lemma bucketOf_figures (expenses : List Expense) (ownerId : UUID) (period : DashboardPeriod)
    (c : CurrencyCode) (bucket : DashboardPeriod) :
    (bucketOf (daysOf (converter.dailyIn expenses ownerId period) c) bucket).figures =
      figuresOf ((converter.among (activeIn expenses ownerId period none)).filter fun e =>
        bucket.contains e.transactionDate.value && decide (e.money.currency = c)) := by
  rw [← sumWhere_figures, show (bucketOf (daysOf _ c) bucket).figures = _ from
    (sum_pairs DailyTotal.totalMinorUnits DailyTotal.count _).symm]
  show sumWhere DailyTotal.figures (fun day => bucket.contains day.transactionDate)
    ((converter.dailyIn expenses ownerId period).filter fun day => decide (day.currency = c)) = _
  rw [sumWhere_filter]
  exact (dailyIn_groups converter expenses ownerId period).sum_filter fun k =>
    bucket.contains k.2 && decide (k.1 = c)

/-! ## What the program reads and converts -/

/-- The candidate of a currency, and the codes of its rates. -/
def nextCandidate (converter : ConvertTo) (expenses : List Expense) (ownerId : UUID)
    (period : DashboardPeriod) (state : List (ℤ × Expense) × UsedCodes) (total : CurrencyTotal) :
    List (ℤ × Expense) × UsedCodes :=
  match largestExpense expenses ownerId period total.currency with
  | none => state
  | some e => (state.1 ++ [(converter.value e.money.minorUnits e.money.currency, e)],
      state.2 ++ converter.codes e.money.currency)

/-- The largest Expense of a currency is one of its Expenses. -/
lemma mem_of_largestExpense {expenses : List Expense} {ownerId : UUID} {period : DashboardPeriod}
    {c : CurrencyCode} {e : Expense} (h : largestExpense expenses ownerId period c = some e) :
    e ∈ activeIn expenses ownerId period none ∧ e.money.currency = c := by
  have hmem : e ∈ activeIn expenses ownerId period (some c) :=
    (perm_orderBy _ _).mem_iff.mp (List.mem_of_head? h)
  rw [activeIn_some] at hmem
  obtain ⟨hmem, hcurrency⟩ := List.mem_filter.mp hmem
  exact ⟨hmem, of_decide_eq_true hcurrency⟩

/-- The conversion of the largest Expense of a currency has its value. -/
def ConvertTo.LargestDefined (converter : ConvertTo) (expenses : List Expense) (ownerId : UUID)
    (period : DashboardPeriod) (t : CurrencyTotal) : Prop :=
  ∀ e ∈ largestExpense expenses ownerId period t.currency,
    converter.Defined e.money.minorUnits e.money.currency

/-- The candidates, one currency after another.

**Proof sketch.** For each currency its largest Expense is read and its amount converted; the amount
is a sum of one Expense of the period. -/
lemma yields_addCandidate {ownerId : UUID} {period : DashboardPeriod} {totals : List CurrencyTotal}
    (hconvert : ∀ t ∈ totals, converter.canConvert t.currency = true)
    (hP : ∀ n c, SumIn (activeIn s.view.expenses.rows ownerId period none) n c → P n c)
    (used : UsedCodes) :
    Yields converter P s (totals.foldlM (addCandidate ownerId period converter) ([], used))
      (totals.foldl (nextCandidate converter s.view.expenses.rows ownerId period) ([], used))
      (∀ t ∈ totals, converter.LargestDefined s.view.expenses.rows ownerId period t) := by
  refine Yields.foldlM _ fun state t ht => ?_
  refine Yields.read (reads_execute rfl) ?_
  unfold nextCandidate ConvertTo.LargestDefined
  cases hlargest : largestExpense s.view.expenses.rows ownerId period t.currency with
  | none => exact Yields.pure state fun _ h => by cases h
  | some e =>
    obtain ⟨hmem, hcurrency⟩ := mem_of_largestExpense hlargest
    have hcan : converter.canConvert e.money.currency = true := by
      rw [hcurrency]
      exact hconvert t ht
    have hone : SumIn (activeIn s.view.expenses.rows ownerId period none) e.money.minorUnits
        e.money.currency := by
      refine ⟨[e], List.singleton_sublist.mpr hmem, ?_, ?_⟩
      · exact fun e' he' => List.mem_singleton.mp he' ▸ rfl
      · exact List.sum_singleton
    have hP' : ∀ r ∈ [(e.money.minorUnits, e.money.currency)], P r.1 r.2 :=
      List.forall_mem_singleton.mpr (hP _ _ hone)
    have h := (Yields.of_settles (s := s) (Settles.convert hcan e.money.minorUnits) hP'
      state.2).andThen (f := fun r => Prog.pure (state.1 ++ [(r.1, e)], r.2)) fun hdefined =>
        Yields.pure _ hdefined
    simp only [codesOf, List.flatMap_cons, List.flatMap_nil, List.append_nil] at h
    refine Yields.imp h fun hdefined e' he' => ?_
    obtain rfl := Option.some.inj he'
    exact hdefined (e.money.minorUnits, e.money.currency) (List.mem_singleton_self _)

/-- The converted total and the count of a window. -/
def ConvertTo.windowTotal (converter : ConvertTo) (expenses : List Expense) (ownerId : UUID)
    (window : DashboardPeriod) : ℤ × ℕ :=
  ((converter.presentIn expenses ownerId window).map
    (converter.converted CurrencyTotal.currency CurrencyTotal.figures)).sum

/-- What a window's total converts. -/
def ConvertTo.windowRounds (converter : ConvertTo) (expenses : List Expense) (ownerId : UUID)
    (window : DashboardPeriod) : List (ℤ × CurrencyCode) :=
  (converter.presentIn expenses ownerId window).map fun t => (t.totalMinorUnits, t.currency)

/-- It converts sums of the window's Expenses. -/
lemma sumIn_windowRounds {expenses : List Expense} {ownerId : UUID} {window : DashboardPeriod} :
    ∀ r ∈ converter.windowRounds expenses ownerId window,
      SumIn (activeIn expenses ownerId window none) r.1 r.2 := by
  intro r hr
  obtain ⟨t, ht, rfl⟩ := List.mem_map.mp hr
  exact (sumIn_of_groups (presentIn_groups converter expenses ownerId window) ht
    fun e he => he).mono List.filter_sublist

/-- The total of a window, converted. -/
lemma yields_convertedWindow {ownerId : UUID} {window : DashboardPeriod}
    (hP : ∀ n c, SumIn (activeIn s.view.expenses.rows ownerId window none) n c → P n c)
    (used : UsedCodes) :
    Yields converter P s (convertedWindow ownerId converter window used)
      (converter.windowTotal s.view.expenses.rows ownerId window,
        used ++ converter.codesOf (converter.windowRounds s.view.expenses.rows ownerId window))
      (∀ r ∈ converter.windowRounds s.view.expenses.rows ownerId window,
        converter.Defined r.1 r.2) := by
  refine Yields.read (reads_execute rfl) ?_
  exact Yields.of_settles (settles_convertedTotal fun t ht => (List.mem_filter.mp ht).2)
    (fun r hr => hP _ _ (sumIn_windowRounds r hr)) used

/-- The converted comparison, and the codes used so far. -/
def ConvertTo.comparisonOn (converter : ConvertTo) (expenses : List Expense) (ownerId : UUID)
    (used : UsedCodes) : Option ComparisonWindows → Option Comparison × UsedCodes
  | none => (none, used)
  | some windows =>
    let previous := converter.windowTotal expenses ownerId windows.previous
    let used := used ++ converter.codesOf (converter.windowRounds expenses ownerId windows.previous)
    if previous.2 = 0 then (none, used)
    else
      (some (compareTotals windows (converter.windowTotal expenses ownerId windows.current).1 previous.1),
        used ++ converter.codesOf (converter.windowRounds expenses ownerId windows.current))

/-- The conversions of the compared windows have their values. -/
def ConvertTo.ComparedDefined (converter : ConvertTo) (expenses : List Expense) (ownerId : UUID)
    (windows : ComparisonWindows) : Prop :=
  ∀ window ∈ [windows.previous, windows.current],
    ∀ r ∈ converter.windowRounds expenses ownerId window, converter.Defined r.1 r.2

/-- The current window is a part of the period. -/
lemma activeIn_current_sublist {expenses : List Expense} {ownerId : UUID} {period : DashboardPeriod}
    {today : Date} {w : Option ComparisonWindows} (hw : comparisonWindows period today = .ok w)
    {windows : ComparisonWindows} (hwindows : windows ∈ w) :
    (activeIn expenses ownerId windows.current none).Sublist
      (activeIn expenses ownerId period none) := by
  obtain ⟨w', hw', hcurrent⟩ := comparisonWindows_eq_ok period today
  obtain rfl := Except.ok.inj (hw.symm.trans hw')
  obtain ⟨hfrom, hto⟩ := hcurrent windows hwindows
  refine List.monotone_filter_right expenses fun e he => ?_
  simp only [DashboardPeriod.contains, Bool.and_eq_true, decide_eq_true_eq] at he ⊢
  obtain ⟨⟨howner, hfrom', hto'⟩, -⟩ := he
  rw [hto] at hto'
  exact ⟨⟨howner, hfrom ▸ hfrom', hto'.trans (min_le_left _ _)⟩, trivial⟩

/-- The converted comparison reads and converts the totals of its windows.

**Proof sketch.** The totals of the windows are read and converted one after the other, and what is
compared is a function of them. -/
lemma yields_comparison {ownerId : UUID} {period : DashboardPeriod} {today : Date}
    {w : Option ComparisonWindows} (hw : comparisonWindows period today = .ok w)
    (hP : ∀ n c, SumIn (activeIn s.view.expenses.rows ownerId period none) n c → P n c)
    (hP' : ∀ windows ∈ w, ∀ n c,
      SumIn (activeIn s.view.expenses.rows ownerId windows.previous none) n c → P n c)
    (used : UsedCodes) :
    Yields converter P s (comparisonOf period (convertedWindow ownerId converter) today used)
      (converter.comparisonOn s.view.expenses.rows ownerId used w)
      (∀ windows ∈ w, (converter.comparisonOn s.view.expenses.rows ownerId used w).1.isSome →
        converter.ComparedDefined s.view.expenses.rows ownerId windows) := by
  refine Yields.read (reads_checked hw) ?_
  cases w with
  | none => exact Yields.pure _ fun _ h => by cases h
  | some windows =>
    refine (yields_convertedWindow (hP' windows rfl) used).andThen fun hprevious => ?_
    show Yields converter P s (if (converter.windowTotal s.view.expenses.rows ownerId
      windows.previous).2 = 0 then _ else _) _ _
    unfold ConvertTo.comparisonOn
    by_cases hcount : (converter.windowTotal s.view.expenses.rows ownerId windows.previous).2 = 0
    · rw [if_pos hcount]
      simp only
      rw [if_pos hcount]
      exact Yields.pure _ fun _ _ h => by cases h
    · rw [if_neg hcount]
      simp only
      rw [if_neg hcount]
      have hsub : ∀ n c, SumIn (activeIn s.view.expenses.rows ownerId windows.current none) n c →
          P n c := fun n c h => hP n c (h.mono (activeIn_current_sublist hw rfl))
      refine (yields_convertedWindow hsub _).andThen fun hcurrent => Yields.pure _ ?_
      rintro _ ⟨⟩ -
      exact List.forall_mem_cons.mpr ⟨hprevious, List.forall_mem_singleton.mpr hcurrent⟩

section Detail

variable (converter) (db : Database) (ownerId : UUID) (period : DashboardPeriod)
  (layout : ChartBuckets) (w : Option ComparisonWindows)

/-- The comparison, and the codes used up to it. -/
def ConvertTo.comparisonIn : Option Comparison × UsedCodes :=
  converter.comparisonOn db.expenses.rows ownerId
    ([] ++ converter.codesOf (converter.windowRounds db.expenses.rows ownerId period)) w

/-- What the buckets, the categories and the merchants convert. -/
def ConvertTo.groupRounds : List (ℤ × CurrencyCode) :=
  bucketRounds layout (converter.dailyIn db.expenses.rows ownerId period) ++
    (converter.categoriesIn db ownerId period).map (fun t => (t.totalMinorUnits, t.currency)) ++
    (converter.merchantsIn db.expenses.rows ownerId period).map
      fun t => (t.totalMinorUnits, t.currency)

/-- The largest Expense of each currency, converted, and the codes used in all. -/
def ConvertTo.candidatesIn : List (ℤ × Expense) × UsedCodes :=
  (converter.presentIn db.expenses.rows ownerId period).foldl
    (nextCandidate converter db.expenses.rows ownerId period)
    ([], (converter.comparisonIn db ownerId period w).2 ++
      converter.codesOf (converter.groupRounds db ownerId period layout))

/-- The converted dashboard's detail, as a function of the stored rows. -/
def ConvertTo.detailOn : DashboardDetail :=
  let expenses := db.expenses.rows
  let total := converter.windowTotal expenses ownerId period
  let daily := converter.dailyIn expenses ownerId period
  assembleDetail total.1 total.2 (converter.comparisonIn db ownerId period w).1
    ⟨layout.granularity, layout.buckets.map (converter.bucketIn daily (currenciesOf daily))⟩
    (converter.categoriesOf (converter.categoriesIn db ownerId period))
    (converter.merchantsOf (converter.merchantsIn expenses ownerId period))
    ((orderBy largerCandidate (converter.candidatesIn db ownerId period layout w).1).head?.map
      fun c => largestExpenseOf c.2 (some c.1))

/-- Every conversion that is shown has its value. -/
structure ConvertTo.AllDefined : Prop where
  total : ∀ r ∈ converter.windowRounds db.expenses.rows ownerId period, converter.Defined r.1 r.2
  comparison : ∀ windows ∈ w, (converter.comparisonIn db ownerId period w).1.isSome →
    converter.ComparedDefined db.expenses.rows ownerId windows
  group : ∀ r ∈ converter.groupRounds db ownerId period layout, converter.Defined r.1 r.2
  largest : ∀ t ∈ converter.presentIn db.expenses.rows ownerId period,
    converter.LargestDefined db.expenses.rows ownerId period t

end Detail

/-- The groups convert sums of the period's Expenses.

**Proof sketch.** A bucket, a category and a merchant each sum up some of the Expenses of one
currency. -/
lemma sumIn_groupRounds {db : Database} (hstored : db.CategoriesStored) {ownerId : UUID}
    {period : DashboardPeriod} {layout : ChartBuckets} :
    ∀ r ∈ converter.groupRounds db ownerId period layout,
      SumIn (activeIn db.expenses.rows ownerId period none) r.1 r.2 := by
  intro r hr
  rcases List.mem_append.mp hr with hr | hr
  · rcases List.mem_append.mp hr with hr | hr
    · obtain ⟨c, -, hr⟩ := List.mem_flatMap.mp hr
      obtain ⟨bucket, -, hr⟩ := List.mem_flatMap.mp hr
      unfold bucketRound at hr
      simp only at hr
      split_ifs at hr
      · cases hr
      · obtain rfl := List.mem_singleton.mp hr
        have hfigures := congrArg Prod.fst
          (@bucketOf_figures converter db.expenses.rows ownerId period c bucket)
        refine ⟨_, List.filter_sublist.trans List.filter_sublist, fun e he => ?_, hfigures.symm⟩
        have hboth := (Bool.and_eq_true_iff.mp (List.mem_filter.mp he).2).2
        exact of_decide_eq_true hboth
    · obtain ⟨t, ht, rfl⟩ := List.mem_map.mp hr
      exact (sumIn_of_groups (categoriesIn_groups converter db ownerId period hstored) ht
        fun e he => (Prod.mk.inj he).1).mono List.filter_sublist
  · obtain ⟨t, ht, rfl⟩ := List.mem_map.mp hr
    exact (sumIn_of_groups (merchantsIn_groups converter db.expenses.rows ownerId period) ht
      fun e he => (Prod.mk.inj he).1).mono List.filter_sublist

/-- **What is read.** The converted dashboard is a function of the stored rows, unless a conversion
overflows.

**Proof sketch.** The parts of the detail are read and converted in the order of the source. What
each converts is a sum of Expenses of the period or of the window before it, so that `P` holds of
it. -/
lemma yields_convertedDetail {ownerId : UUID} {period : DashboardPeriod} {today : Date}
    {layout : ChartBuckets} {w : Option ComparisonWindows} (hlayout : chartBuckets period = .ok layout)
    (hw : comparisonWindows period today = .ok w) (hstored : s.view.CategoriesStored)
    (hP : ∀ n c, SumIn (activeIn s.view.expenses.rows ownerId period none) n c → P n c)
    (hP' : ∀ windows ∈ w, ∀ n c,
      SumIn (activeIn s.view.expenses.rows ownerId windows.previous none) n c → P n c) :
    Yields converter P s (convertedDetail ownerId period converter
        (currencyTotals s.view.expenses.rows ownerId period) today)
      (converter.detailOn s.view ownerId period layout w,
        (converter.candidatesIn s.view ownerId period layout w).2)
      (converter.AllDefined s.view ownerId period layout w) := by
  have hpos : ∀ day ∈ converter.dailyIn s.view.expenses.rows ownerId period, 0 < day.count :=
    fun day hday => count_pos_of_groups (dailyIn_groups converter _ _ _) hday
  have hPgroup : ∀ r ∈ converter.groupRounds s.view ownerId period layout, P r.1 r.2 :=
    fun r hr => hP _ _ (sumIn_groupRounds hstored r hr)
  obtain ⟨hPrest, hPmerchant⟩ := List.forall_mem_append.mp hPgroup
  obtain ⟨hPbucket, hPcategory⟩ := List.forall_mem_append.mp hPrest
  refine (Yields.of_settles (settles_convertedTotal fun t ht => (List.mem_filter.mp ht).2)
    (fun r hr => hP _ _ (sumIn_windowRounds r hr)) []).andThen fun htotal => ?_
  refine (yields_comparison hw hP hP' _).andThen fun hcomparison => ?_
  refine Yields.read (reads_execute rfl) ?_
  refine (Yields.of_settles (settles_convertedBuckets hlayout
    (fun day hday => (List.mem_filter.mp hday).2) hpos) hPbucket _).andThen fun hbucket => ?_
  refine Yields.read (reads_execute rfl) ?_
  refine (Yields.of_settles (settles_convertedCategories
    fun t ht => (List.mem_filter.mp ht).2) hPcategory _).andThen fun hcategory => ?_
  refine Yields.read (reads_execute rfl) ?_
  refine (Yields.of_settles (settles_convertedMerchants
    fun t ht => (List.mem_filter.mp ht).2) hPmerchant _).andThen fun hmerchant => ?_
  have hlargest : Yields converter P s
      ((converter.presentIn s.view.expenses.rows ownerId period).foldlM
        (addCandidate ownerId period converter) ([], (converter.comparisonIn s.view ownerId
          period w).2 ++ converter.codesOf (converter.groupRounds s.view ownerId period layout)))
      (converter.candidatesIn s.view ownerId period layout w)
      (∀ t ∈ converter.presentIn s.view.expenses.rows ownerId period,
        converter.LargestDefined s.view.expenses.rows ownerId period t) :=
    yields_addCandidate (fun t ht => (List.mem_filter.mp ht).2) hP _
  rw [ConvertTo.groupRounds, codesOf_append, codesOf_append, ← List.append_assoc,
    ← List.append_assoc] at hlargest
  have hgroup : ∀ r ∈ converter.groupRounds s.view ownerId period layout,
      converter.Defined r.1 r.2 :=
    List.forall_mem_append.mpr ⟨List.forall_mem_append.mpr ⟨hbucket, hcategory⟩, hmerchant⟩
  exact Yields.andThen (hlargest.andThen fun h => Yields.pure _ h) fun hlargest =>
    Yields.pure _ ⟨htotal, hcomparison, hgroup, hlargest⟩

end MintFlow
