import MintFlow.Web.HistoryView
import MintFlow.Http.ExpenseHistory
import MintFlow.Analytics.ConvertedDashboard

set_option relaxedAutoImplicit false
set_option autoImplicit false

/-!
# Drill-through

A bucket or a category of the dashboard links to the history. The dashboard adds up the Expenses
that its own queries select; the link goes through a query string to another parser and another
query. The history lists the Expenses that the figure counted, and on a converted dashboard also
those that it names as not converted.

## Main definitions

* `MintFlow.ListsExactly` — all pages of a history together.
* `MintFlow.DrillsTo` — the Expenses that a link lists.
* `MintFlow.Detail.Links` — what holds of every figure that links, and of its link.

## Main results

* `MintFlow.drillsTo_expensesHref` — the link of a figure lists the Expenses of its scope.
* `MintFlow.drill_through` — **Drill-through**, for both kinds of dashboard.
-/

namespace MintFlow

open Transact Transact.Prog ConvertTo

/-! ## What a link lists -/

/-- All pages of a history over one state, of whatever size, list exactly the Expenses `es`. -/
def ListsExactly (db : Database) (callerId : UUID) (historyFilter : ExpenseHistoryFilter)
    (es : List Expense) : Prop :=
  ∀ limit, 1 ≤ limit ∧ limit ≤ maxHistoryPageSize → ∃ n walk,
    followHistory callerId historyFilter limit none (List.replicate n db) = .ok walk ∧
      walk.next = none ∧ walk.items.Perm es

/-- A link leads to the first page of a history that lists exactly the Expenses `es`. -/
def DrillsTo [PythonRuntime] [TextDecoder] (db : Database) (callerId : UUID) (href : String)
    (es : List Expense) : Prop :=
  ∃ query, LinksTo href query ∧ query.after = none ∧
    ListsExactly db callerId query.historyFilter es

/-- What is listed does not depend on the order. -/
lemma DrillsTo.perm [PythonRuntime] [TextDecoder] {db : Database} {callerId : UUID} {href : String}
    {es es' : List Expense} (h : DrillsTo db callerId href es) (hperm : es.Perm es') :
    DrillsTo db callerId href es' := by
  obtain ⟨query, hlink, hafter, hlists⟩ := h
  refine ⟨query, hlink, hafter, fun limit hlimit => ?_⟩
  obtain ⟨n, walk, hwalk, hended, hitems⟩ := hlists limit hlimit
  exact ⟨n, walk, hwalk, hended, hitems.trans hperm⟩

/-- **All pages.** A history over one state ends, and lists what is selected, each Expense once.

**Proof sketch.** Nothing new comes while the state stays, so following the cursors ends. The pages
are in strictly descending order, and what is selected is on one of them. -/
lemma listsExactly_of_selected {db : Database} (hdb : db.Timed) {callerId : UUID}
    {historyFilter : ExpenseHistoryFilter} {es : List Expense} (hnodup : es.Nodup)
    (h : ∀ e, Selected db.expenses callerId historyFilter e ↔ e ∈ es) :
    ListsExactly db callerId historyFilter es := by
  intro limit hlimit
  have hnone : ∀ p ∈ (none : Option ExpenseHistoryPosition), p.createdAt.Representable :=
    fun _ hp => by cases hp
  obtain ⟨walk, hended, hwalk⟩ := @followHistory_ends_of_nothingNew callerId historyFilter limit
    hlimit _ (fun _ => db) (fun _ => hdb) (fun _ _ he _ _ => he) _ hnone le_rfl
  rw [List.map_const', List.length_range] at hwalk
  obtain ⟨walk', hwalk', hfaithful⟩ := @followHistory_faithful callerId historyFilter limit hlimit _
    (fun _ hmem => List.eq_of_mem_replicate hmem ▸ hdb) _ hnone
  obtain rfl := Except.ok.inj (hwalk.symm.trans hwalk')
  refine ⟨_, walk, hwalk, hended, ?_⟩
  have hitems : walk.items.Nodup := hfaithful.descending.imp fun {a b} hab heq => by
    rw [heq] at hab
    exact lt_irrefl _ hab
  refine (List.perm_ext_iff_of_nodup hitems hnodup).mpr fun e => ?_
  rw [← h e]
  constructor
  · intro he
    obtain ⟨db', hdb', hselected, -⟩ := hfaithful.selected he
    rwa [List.eq_of_mem_replicate (List.mem_of_mem_take hdb')] at hselected
  · intro he
    refine hfaithful.complete hended e (fun _ hp => by cases hp) fun db' hdb' => ?_
    rwa [List.eq_of_mem_replicate (List.mem_of_mem_take hdb')]

/-! ## The link of a figure -/

/-- The keys of categories fit their column, and `_require_stable_key` refuses an empty one. -/
def Database.KeysFit (db : Database) : Prop :=
  ∀ e ∈ db.expenses.rows, 0 < e.categoryKey.length ∧ e.categoryKey.length ≤ 32

/-- The Expenses of some days, and of a category if there is one. -/
def inScope (within : DashboardPeriod) (category : Option String) (e : Expense) : Bool :=
  within.contains e.transactionDate.value && category.all fun key => decide (e.categoryKey = key)

section Links

variable {db : Database} {callerId : UUID} {period within : DashboardPeriod}
  {currency : Option CurrencyCode} {category : Option String}

/-- The query of a figure's link. -/
lemma expensesHref_eq (within : DashboardPeriod) (currency : Option CurrencyCode)
    (category : Option String) :
    expensesHref within currency (named "category" category.toList) =
      historyHref (historyParams (some within.dateFrom) (some within.dateTo) category.toList
        currency.toList ((none : Option ExpenseHistoryPosition).map encodeHistoryCursor)) := by
  unfold expensesHref historyHref
  refine congrArg (fun params => "/expenses?" ++ urlencode params) ?_
  cases category <;> cases currency <;> rfl

/-- The history and the queries of the dashboard select the same Expenses.

**Proof sketch.** Both ask for the caller's active Expenses. The dates of the scope lie within the
period, and a filter without a currency or category admits all, as the query does. -/
lemma selected_iff (hfrom : period.dateFrom ≤ within.dateFrom) (hto : within.dateTo ≤ period.dateTo)
    (hordered : ∀ start ∈ some within.dateFrom, ∀ stop ∈ some within.dateTo, start ≤ stop)
    (e : Expense) :
    Selected db.expenses callerId ⟨some within.dateFrom, some within.dateTo, category.toList.dedup,
        currency.toList.dedup, hordered⟩ e ↔
      e ∈ (activeIn db.expenses.rows callerId period currency).filter (inScope within category) := by
  have hcategory : (category.toList.dedup.isEmpty ||
      decide (e.categoryKey ∈ category.toList.dedup)) =
        category.all fun key => decide (e.categoryKey = key) := by
    cases category <;> simp
  have hcurrency : (currency.toList.dedup.isEmpty ||
      decide (e.money.currency ∈ currency.toList.dedup)) = true ↔
        ∀ c ∈ currency, e.money.currency = c := by
    cases currency <;> simp
  rw [List.mem_filter, mem_activeIn_iff]
  unfold Selected ExpenseHistoryFilter.admits inScope DashboardPeriod.contains
  simp only [hcategory, hcurrency, Bool.and_eq_true, decide_eq_true_eq, Option.all_some,
    Table.mem_def]
  constructor
  · rintro ⟨hmem, howner, hactive, ⟨⟨hstart, hstop⟩, hkey⟩, hcode⟩
    exact ⟨⟨hmem, howner, hactive, hfrom.trans hstart, hstop.trans hto, hcode⟩,
      ⟨hstart, hstop⟩, hkey⟩
  · rintro ⟨⟨hmem, howner, hactive, -, -, hcode⟩, ⟨hstart, hstop⟩, hkey⟩
    exact ⟨hmem, howner, hactive, ⟨⟨hstart, hstop⟩, hkey⟩, hcode⟩

/-- **The link of a figure** lists the Expenses of its days and category.

**Proof sketch.** The filter that is read from the link selects the Expenses of its scope, as the
queries of the dashboard do. -/
lemma drillsTo_expensesHref [PythonRuntime] [TextDecoder] (hupper : UpperKeepsCapitals)
    (htimed : db.Timed) (hfrom : period.dateFrom ≤ within.dateFrom)
    (hto : within.dateTo ≤ period.dateTo)
    (hkey : ∀ key ∈ category, 0 < key.length ∧ key.length ≤ 32) :
    DrillsTo db callerId (expensesHref within currency (named "category" category.toList))
      ((activeIn db.expenses.rows callerId period currency).filter
        (inScope within category)) := by
  have hordered : ∀ start ∈ some within.dateFrom, ∀ stop ∈ some within.dateTo, start ≤ stop := by
    rintro _ ⟨⟩ _ ⟨⟩
    exact within.le
  have hfit : filterValuesFit category.toList (currency.toList.map CurrencyCode.value) := by
    have hone : 1 ≤ maxHistoryFilterValues := by decide
    refine ⟨?_, ?_, fun key h => hkey key (Option.mem_toList.mp h)⟩
    · cases category
      · exact Nat.zero_le _
      · exact hone
    · cases currency
      · exact Nat.zero_le _
      · exact hone
  have hnodup : ((activeIn db.expenses.rows callerId period currency).filter
      (inScope within category)).Nodup :=
    ((List.Nodup.of_map _ db.expenses.nodup).filter _).filter _
  rw [expensesHref_eq]
  exact ⟨_, linksTo_historyHref hupper hordered hfit (fun _ h => by cases h), rfl,
    listsExactly_of_selected htimed hnodup (selected_iff hfrom hto hordered)⟩

end Links

/-! ## The figures that link -/

section Figures

/-- What holds of every figure of a page that links, of the Expenses it is about and of its link. -/
structure Detail.Links (shown : Detail) (detail : DashboardDetail)
    (R : (Expense → Bool) → ℤ × ℕ → String → Prop) : Prop where
  /-- Each bucket has a column. -/
  columns : List.Forall₂ (fun (bucket : TimeBucket) (column : ColumnView) =>
      R (fun e => bucket.period.contains e.transactionDate.value) bucket.figures column.href)
    detail.spendingOverTime.buckets shown.timeChart.columns
  /-- Each bucket with spending has a row of the table. -/
  rows : List.Forall₂ (fun (bucket : TimeBucket) (row : ColumnView) =>
      R (fun e => bucket.period.contains e.transactionDate.value) bucket.figures row.href)
    (detail.spendingOverTime.buckets.filter fun b => decide (b.count ≠ 0)) shown.timeChart.rows
  /-- Each category has a bar. -/
  categories : List.Forall₂ (fun (category : CategorySpending) (row : BarRow) =>
      ∃ href, row.href = some href ∧
        R (fun e => decide (e.categoryKey = category.categoryKey)) category.figures href)
    detail.categories shown.categories
  /-- Each category has a slice. -/
  donut : List.Forall₂ (fun (category : CategorySpending) (slice : DonutSlice) =>
      R (fun e => decide (e.categoryKey = category.categoryKey)) category.figures slice.href)
    detail.categories shown.donut

/-- What is made of each element of a list is related to that element. -/
lemma forall₂_of_map {α β γ : Type} {P : α → γ → Prop} {xs : List α} {ys : List β} {g : β → α}
    (f : β → γ) (hmap : ys.map g = xs) (h : ∀ y ∈ ys, P (g y) (f y)) :
    List.Forall₂ P xs (ys.map f) := by
  rw [← hmap, List.forall₂_map_left_iff, List.forall₂_map_right_iff]
  exact List.forall₂_same.mpr h

/-- A list with what was made of its pairs with another pairs each element with what was made of
it. -/
lemma snd_of_mem_zip {α β γ : Type} (f : α × β → γ) {xs : List α} {ys : List β} {p : α × γ}
    (h : p ∈ xs.zip ((xs.zip ys).map f)) : p.1 ∈ xs ∧ ∃ y, p.2 = f (p.1, y) := by
  induction xs generalizing ys with
  | nil => cases h
  | cons x xs ih =>
    cases ys with
    | nil => cases h
    | cons y ys =>
      rw [List.zip_cons_cons, List.map_cons, List.zip_cons_cons] at h
      rcases List.mem_cons.mp h with rfl | h
      · exact ⟨List.mem_cons_self, y, rfl⟩
      · obtain ⟨hmem, hmade⟩ := ih h
        exact ⟨List.mem_cons_of_mem _ hmem, hmade⟩

variable [Babel] {period : DashboardPeriod} {detail : DashboardDetail}
  {amounts : Amounts} {linkCurrency : Option CurrencyCode}
  {R : (Expense → Bool) → ℤ × ℕ → String → Prop}

/-- A chart that is drawn has a column for each bucket, with the bucket's link, and the rows of the
buckets with spending.

**Proof sketch.** The columns pair each bucket with its height, and the rows each bucket that has
spending with its column. Both pairings are of equal lengths, so they keep the order, and every view
carries the link of its bucket. -/
lemma timeChart_links {chart : TimeChart} (h : timeChartOf detail amounts linkCurrency = .ok chart)
    (hbucket : ∀ b ∈ detail.spendingOverTime.buckets,
      R (fun e => b.period.contains e.transactionDate.value) b.figures
        (expensesHref b.period linkCurrency [])) :
    List.Forall₂ (fun (bucket : TimeBucket) (column : ColumnView) =>
        R (fun e => bucket.period.contains e.transactionDate.value) bucket.figures column.href)
      detail.spendingOverTime.buckets chart.columns ∧
    List.Forall₂ (fun (bucket : TimeBucket) (row : ColumnView) =>
        R (fun e => bucket.period.contains e.transactionDate.value) bucket.figures row.href)
      (detail.spendingOverTime.buckets.filter fun b => decide (b.count ≠ 0)) chart.rows := by
  obtain ⟨top, -, h⟩ := Checked.bind_eq_ok.mp h
  obtain ⟨geometry, -, h⟩ := Checked.bind_eq_ok.mp h
  obtain ⟨pairs, hpairs, h⟩ := Checked.bind_eq_ok.mp h
  obtain ⟨ticks, -, h⟩ := Checked.bind_eq_ok.mp h
  obtain ⟨rows, hrows, h⟩ := Checked.bind_eq_ok.mp h
  obtain rfl := Except.ok.inj h
  have hlength := length_of_zipStrict hpairs
  have hlength' := length_of_zipStrict hrows
  obtain rfl := Except.ok.inj ((zipStrict_eq_ok hlength).symm.trans hpairs)
  obtain rfl := Except.ok.inj ((zipStrict_eq_ok hlength').symm.trans hrows)
  constructor
  · refine forall₂_of_map _ (List.map_fst_zip hlength.ge) fun p hp => ?_
    exact hbucket p.1 (List.of_mem_zip hp).1
  · refine forall₂_of_map _ (g := Prod.fst) ?_ fun p hp => ?_
    · rw [← List.map_fst_zip hlength'.ge, List.filter_map, List.map_fst_zip hlength'.ge]
      rfl
    · obtain ⟨hmem, y, hview⟩ := snd_of_mem_zip _ (List.mem_filter.mp hp).1
      rw [hview]
      exact hbucket p.1 hmem

/-- **The page's links.** What holds of each bucket and category with its link holds of what the page
shows of it.

**Proof sketch.** The page pairs the buckets and categories with what is drawn of them, in order. -/
lemma detail_links {shown : Detail} (h : detailView period detail amounts linkCurrency = .ok shown)
    (hbucket : ∀ b ∈ detail.spendingOverTime.buckets,
      R (fun e => b.period.contains e.transactionDate.value) b.figures
        (expensesHref b.period linkCurrency []))
    (hcategory : ∀ c ∈ detail.categories, R (fun e => decide (e.categoryKey = c.categoryKey))
      c.figures (categoryHref period linkCurrency c)) : shown.Links detail R := by
  obtain ⟨lengths, -, h⟩ := Checked.bind_eq_ok.mp h
  obtain ⟨lengths', -, h⟩ := Checked.bind_eq_ok.mp h
  obtain ⟨slices, -, h⟩ := Checked.bind_eq_ok.mp h
  obtain ⟨slicePairs, hslices, h⟩ := Checked.bind_eq_ok.mp h
  obtain ⟨chart, hchart, h⟩ := Checked.bind_eq_ok.mp h
  obtain ⟨pairs, hpairs, h⟩ := Checked.bind_eq_ok.mp h
  obtain ⟨merchants, -, h⟩ := Checked.bind_eq_ok.mp h
  obtain rfl := Except.ok.inj h
  have hlength := length_of_zipStrict hslices
  have hlength' := length_of_zipStrict hpairs
  obtain rfl := Except.ok.inj ((zipStrict_eq_ok hlength).symm.trans hslices)
  obtain rfl := Except.ok.inj ((zipStrict_eq_ok hlength').symm.trans hpairs)
  obtain ⟨hcolumns, hrows⟩ := timeChart_links hchart hbucket
  constructor
  case columns => exact hcolumns
  case rows => exact hrows
  case categories =>
    refine forall₂_of_map _ (List.map_fst_zip hlength'.ge) fun p hp => ?_
    exact ⟨_, rfl, hcategory p.1 (List.of_mem_zip hp).1⟩
  case donut =>
    refine forall₂_of_map _ (g := fun p => p.1.1) ?_ fun p hp => ?_
    · have hfirst : ((detail.categories.zip slices).zipIdx.map Prod.fst).map Prod.fst =
          detail.categories := by
        rw [List.zipIdx_map_fst, List.map_fst_zip hlength.ge]
      rw [List.map_map] at hfirst
      exact hfirst
    · have hmem := List.fst_mem_of_mem_zipIdx hp
      exact hcategory p.1.1 (List.of_mem_zip hmem).1

/-- The detail of a page is that of its dashboard, which has a currency then.

**Proof sketch.** The page is a chain of checks that all passed, the first of which draws the detail
in the currency of the dashboard. -/
lemma detailView_of_view {d : Dashboard} {page : PageChoices} {view : DashboardView}
    {shown : Detail} (hview : buildDashboardView d page = .ok view)
    (hshown : view.detail = some shown) (hdetail : d.detail = some detail) :
    ∃ currency, d.currency = some currency ∧
      detailView d.period detail (d.amounts currency page.locale) d.linkCurrency = .ok shown := by
  obtain ⟨x, hx, hview⟩ := Checked.bind_eq_ok.mp hview
  obtain ⟨_, -, hview⟩ := Checked.bind_eq_ok.mp hview
  obtain ⟨_, -, hview⟩ := Checked.bind_eq_ok.mp hview
  obtain rfl := Except.ok.inj hview
  obtain rfl : x = some shown := hshown
  unfold shownDetail at hx
  rw [hdetail] at hx
  cases hcurrency : d.currency with
  | none =>
    rw [hcurrency] at hx
    cases hx
  | some c =>
    rw [hcurrency] at hx
    obtain ⟨v, hv, hsome⟩ := Checked.bind_eq_ok.mp hx
    obtain rfl := Option.some.inj (Except.ok.inj hsome)
    exact ⟨c, rfl, hv⟩

end Figures

/-! ## The Expenses of a figure -/

section Scopes

variable {db : Database} {callerId : UUID} {period : DashboardPeriod}
  {currency : Option CurrencyCode}

/-- The link of a bucket lists the Expenses of its days. -/
lemma drillsTo_bucket [PythonRuntime] [TextDecoder] (hupper : UpperKeepsCapitals)
    (htimed : db.Timed) {buckets : List TimeBucket}
    (htiles : Tiles period.dateFrom.ordinal (buckets.map TimeBucket.period)
      (period.dateTo.ordinal + 1)) {b : TimeBucket} (hb : b ∈ buckets) :
    DrillsTo db callerId (expensesHref b.period currency [])
      ((activeIn db.expenses.rows callerId period currency).filter fun e =>
        b.period.contains e.transactionDate.value) := by
  obtain ⟨hfrom, hto⟩ := htiles.bounds.2 b.period (List.mem_map_of_mem hb)
  have hscope : (inScope b.period none) = fun e => b.period.contains e.transactionDate.value := by
    funext e
    exact Bool.and_true _
  have hlists := @drillsTo_expensesHref db callerId period b.period currency none _ _ hupper htimed
    hfrom (Nat.le_of_lt_succ hto) fun _ h => by cases h
  rwa [hscope] at hlists

/-- The link of a category lists its Expenses.

**Proof sketch.** The key of a stored Expense is within the bounds of the filter, so the link lists
the scope of the category in the period (`drillsTo_expensesHref`), and the Expenses the dashboard
counts are all in the period. -/
lemma drillsTo_category [PythonRuntime] [TextDecoder] (hupper : UpperKeepsCapitals)
    (htimed : db.Timed) (hkeys : db.KeysFit) {key : String}
    (hkey : ∃ e ∈ activeIn db.expenses.rows callerId period currency, e.categoryKey = key) :
    DrillsTo db callerId (expensesHref period currency [("category", key)])
      ((activeIn db.expenses.rows callerId period currency).filter fun e =>
        decide (e.categoryKey = key)) := by
  have hfits : ∀ k ∈ some key, 0 < k.length ∧ k.length ≤ 32 := by
    rintro _ ⟨⟩
    obtain ⟨e, he, rfl⟩ := hkey
    exact hkeys e (mem_activeIn he).1
  have hscope : (activeIn db.expenses.rows callerId period currency).filter
        (inScope period (some key)) =
      (activeIn db.expenses.rows callerId period currency).filter fun e =>
        decide (e.categoryKey = key) := by
    refine List.filter_congr fun e he => ?_
    obtain ⟨-, -, -, hfrom, hto, -⟩ := mem_activeIn he
    have hwithin : period.contains e.transactionDate.value = true :=
      Bool.and_eq_true_iff.mpr ⟨decide_eq_true hfrom, decide_eq_true hto⟩
    unfold inScope
    rw [hwithin, Bool.true_and]
    rfl
  have hlists := @drillsTo_expensesHref db callerId period period currency (some key) _ _ hupper
    htimed le_rfl le_rfl hfits
  rwa [hscope] at hlists

/-- What a converted dashboard counts and what it names as not converted are all the Expenses.

**Proof sketch.** The totals name a currency exactly if some Expense has it, so the Expenses whose
currency is named as not converted are those that cannot be converted: the two filters are
complementary. -/
lemma among_append_perm (converter : ConvertTo) (counted : Expense → Bool) :
    let es := (activeIn db.expenses.rows callerId period none).filter counted
    let unconverted := (currencyTotals db.expenses.rows callerId period).filter fun t =>
      !converter.canConvert t.currency
    es.Perm (converter.among es ++ es.filter fun e =>
      decide (e.money.currency ∈ unconverted.map CurrencyTotal.currency)) := by
  intro es unconverted
  have hgroups := currencyTotals_groups db.expenses.rows callerId period
  have hleft : (es.filter fun e =>
        decide (e.money.currency ∈ unconverted.map CurrencyTotal.currency)) =
      es.filter fun e => !converter.canConvert e.money.currency := by
    refine List.filter_congr fun e he => Bool.eq_iff_iff.mpr ?_
    rw [decide_eq_true_eq, List.mem_map]
    constructor
    · rintro ⟨t, ht, hcurrency⟩
      rw [← hcurrency]
      exact (List.mem_filter.mp ht).2
    · intro hcannot
      obtain ⟨t, ht, hcurrency⟩ := List.mem_map.mp (hgroups.covers e (List.mem_filter.mp he).1)
      refine ⟨t, List.mem_filter.mpr ⟨ht, ?_⟩, hcurrency⟩
      rw [hcurrency]
      exact hcannot
  rw [hleft]
  exact (List.filter_append_perm (fun e : Expense => converter.canConvert e.money.currency) es).symm

end Scopes

section Pages

variable [PythonRuntime] [TextDecoder] [Babel] {db : Database} {callerId : UUID}
  {user : User} {tape : Stream' Reading} {period : Option DashboardPeriod} {p : DashboardPeriod}
  {detail : DashboardDetail} {d : Dashboard} {page : PageChoices} {view : DashboardView}
  {shown : Detail}

omit [TextDecoder] [Babel] in
/-- A dashboard that was built has a today. -/
lemma exists_today {currency : Option CurrencyCode} {convertTo : Option ConvertTo}
    (hone : ¬ (currency.isSome ∧ convertTo.isSome)) (huser : db.users.find callerId = some user)
    (hperiod : periodFor period tape.head.now user.timezone = .ok p)
    (hbuilt : ((buildDashboard callerId period currency convertTo).exec postgres tape
      ⟨db, db⟩).result = .ok d) :
    ∃ today, user.localToday tape.head.now = .ok today := by
  cases htoday : user.localToday tape.head.now with
  | ok today => exact ⟨today, rfl⟩
  | error r =>
    rw [exec_buildDashboard_noToday hone huser hperiod htoday] at hbuilt
    cases hbuilt

/-- **One currency.** The links of a dashboard in one currency list what their figures count.

**Proof sketch.** The dashboard is the one that reconciles with the Expenses
(`exec_ownDashboard_reconciled`). The buckets tile the period, so each links to its days, and a
category that is shown counts some Expense, so its key fits. -/
lemma ownDashboard_links (hupper : UpperKeepsCapitals) (hstored : db.CategoriesStored)
    (hkeys : db.KeysFit) (htimed : db.Timed) (huser : db.users.find callerId = some user)
    (hperiod : periodFor period tape.head.now user.timezone = .ok p)
    {currency : Option CurrencyCode}
    (hbuilt : ((buildDashboard callerId period currency none).exec postgres tape
      ⟨db, db⟩).result = .ok d) (hdetail : d.detail = some detail)
    (hview : buildDashboardView d page = .ok view) (hshown : view.detail = some shown) :
    shown.Links detail fun counted figures href =>
      figures = figuresOf ((d.expensesOn db callerId).filter counted) ∧
        DrillsTo db callerId href ((d.expensesOn db callerId).filter counted) := by
  have hone : ¬ (currency.isSome ∧ (none : Option ConvertTo).isSome) := fun h => by cases h.2
  obtain ⟨today, htoday⟩ := exists_today hone huser hperiod hbuilt
  obtain ⟨d', hbuilt', hconversion, hperiod', -, -, hreconciled⟩ :=
    exec_ownDashboard_reconciled hstored huser currency hperiod htoday
  obtain rfl := Except.ok.inj (hbuilt.symm.trans hbuilt')
  obtain ⟨c, hcurrency, hdrawn⟩ := detailView_of_view hview hshown hdetail
  have hlink : d.linkCurrency = d.currency := by
    unfold Dashboard.linkCurrency
    rw [hconversion]
    rfl
  have h := hreconciled detail hdetail
  rw [← hperiod'] at h
  rw [hlink] at hdrawn
  refine detail_links hdrawn (fun b hb => ⟨h.bucket b hb, drillsTo_bucket hupper htimed h.tiles hb⟩)
    fun category hcategory => ?_
  obtain ⟨hfigures, hcount⟩ := h.category category hcategory
  refine ⟨hfigures, drillsTo_category hupper htimed hkeys ?_⟩
  -- A category that is shown counts some Expense.
  have hcounted : category.count = ((d.expensesOn db callerId).filter fun e =>
      decide (e.categoryKey = category.categoryKey)).length := congrArg Prod.snd hfigures
  rw [hcounted] at hcount
  obtain ⟨e, he⟩ := List.exists_mem_of_length_pos hcount
  obtain ⟨hmem, hkey⟩ := List.mem_filter.mp he
  exact ⟨e, hmem, of_decide_eq_true hkey⟩

/-- **Several currencies.** The links of a converted dashboard list what their figures count, and
what the dashboard names as not converted.

**Proof sketch.** The dashboard that was returned is the one with every conversion defined, whose
buckets and categories are sums of what can be converted. A link lists all Expenses of its scope,
which are these and the ones named as not converted (`among_append_perm`). -/
lemma convertedDashboard_links (hupper : UpperKeepsCapitals) (hstored : db.CategoriesStored)
    (hkeys : db.KeysFit) (htimed : db.Timed) (huser : db.users.find callerId = some user)
    (hperiod : periodFor period tape.head.now user.timezone = .ok p) {converter : ConvertTo}
    (hbuilt : ((buildDashboard callerId period none (some converter)).exec postgres tape
      ⟨db, db⟩).result = .ok d) (hdetail : d.detail = some detail)
    (hview : buildDashboardView d page = .ok view) (hshown : view.detail = some shown) :
    ∃ conversion, d.conversion = some conversion ∧
      shown.Links detail fun counted figures href =>
        let es := (activeIn db.expenses.rows callerId d.period none).filter counted
        converter.Shows es figures ∧
          DrillsTo db callerId href (converter.among es ++ es.filter fun e =>
            decide (e.money.currency ∈ conversion.unconverted.map CurrencyTotal.currency)) := by
  have hone : ¬ ((none : Option CurrencyCode).isSome ∧ (some converter).isSome) :=
    fun h => by cases h.1
  obtain ⟨today, htoday⟩ := exists_today hone huser hperiod hbuilt
  obtain ⟨w, hw, -⟩ := comparisonWindows_eq_ok p today
  obtain ⟨layout, hlayout, -⟩ := chartBuckets_eq_ok p
  have hcases := @exec_convertedDashboard converter _ db callerId user tape period p today layout _
    hstored huser hperiod htoday hlayout hw
  rcases hcases with ⟨hresult, hdefined⟩ | ⟨hresult, -⟩
  · obtain rfl := Except.ok.inj (hbuilt.symm.trans hresult)
    obtain rfl := Option.some.inj hdetail
    obtain ⟨c, -, hdrawn⟩ := detailView_of_view hview hshown rfl
    have h := detailOn_converted hstored hlayout hdefined
    refine ⟨_, rfl, detail_links hdrawn (fun b hb => ⟨h.bucket b hb, ?_⟩)
      fun category hcategory => ⟨h.category category hcategory, ?_⟩⟩
    · exact (drillsTo_bucket hupper htimed h.tiles hb).perm (among_append_perm converter _)
    · have hsome := (h.categories_covers category.categoryKey).mp (List.mem_map_of_mem hcategory)
      obtain ⟨e, he, hkey⟩ := hsome
      exact (drillsTo_category hupper htimed hkeys ⟨e, (List.mem_filter.mp he).1, hkey⟩).perm
        (among_append_perm converter _)
  · rw [hresult] at hbuilt
    cases hbuilt

/-- **Drill-through.** On any stored rows, what the history lists behind the link of a bucket or a
category is what the figure counts; on a converted dashboard, together with the Expenses in the
currencies that it names as not converted.

**Proof sketch.** The period, the category and the currency come back from the link, and the filter
selects what the queries of the dashboard select. The pages of an unchanging history list what is
selected, each Expense once. -/
theorem drill_through (hupper : UpperKeepsCapitals) (hstored : db.CategoriesStored)
    (hkeys : db.KeysFit) (htimed : db.Timed) (huser : db.users.find callerId = some user)
    (hperiod : periodFor period tape.head.now user.timezone = .ok p) :
    (∀ (currency : Option CurrencyCode) (d : Dashboard) (detail : DashboardDetail)
      (page : PageChoices) (view : DashboardView) (shown : Detail),
      ((buildDashboard callerId period currency none).exec postgres tape ⟨db, db⟩).result = .ok d →
      d.detail = some detail → buildDashboardView d page = .ok view → view.detail = some shown →
      shown.Links detail fun counted figures href =>
        figures = figuresOf ((d.expensesOn db callerId).filter counted) ∧
          DrillsTo db callerId href ((d.expensesOn db callerId).filter counted)) ∧
    ∀ (converter : ConvertTo) (d : Dashboard) (detail : DashboardDetail) (page : PageChoices)
      (view : DashboardView) (shown : Detail),
      ((buildDashboard callerId period none (some converter)).exec postgres tape ⟨db, db⟩).result =
        .ok d → d.detail = some detail → buildDashboardView d page = .ok view →
      view.detail = some shown → ∃ conversion, d.conversion = some conversion ∧
      shown.Links detail fun counted figures href =>
        let es := (activeIn db.expenses.rows callerId d.period none).filter counted
        converter.Shows es figures ∧
          DrillsTo db callerId href (converter.among es ++ es.filter fun e =>
            decide (e.money.currency ∈ conversion.unconverted.map CurrencyTotal.currency)) :=
  ⟨fun _ _ _ _ _ _ hbuilt hdetail hview hshown =>
      ownDashboard_links hupper hstored hkeys htimed huser hperiod hbuilt hdetail hview hshown,
    fun _ _ _ _ _ _ hbuilt hdetail hview hshown =>
      convertedDashboard_links hupper hstored hkeys htimed huser hperiod hbuilt hdetail hview
        hshown⟩

end Pages

/-- On the page in euros and on the one in dollars, the links of the buckets and categories list
what they count, on the latter together with the yen. -/
theorem drill_through_spent :
    letI := PythonRuntime.ascii
    letI := TextDecoder.whole
    letI := Babel.plain
    (∃ (d : Dashboard) (detail : DashboardDetail) (view : DashboardView) (shown : Detail),
      ((buildDashboard 7 (some july) none none).exec postgres endOfJuly
        ⟨.spent, .spent⟩).result = .ok d ∧ d.detail = some detail ∧
      buildDashboardView d julyPage = .ok view ∧ view.detail = some shown ∧
      shown.timeChart.columns.length = 31 ∧ shown.categories.length = 3 ∧
      shown.Links detail fun counted figures href =>
        figures = figuresOf ((d.expensesOn .spent 7).filter counted) ∧
          DrillsTo .spent 7 href ((d.expensesOn .spent 7).filter counted)) ∧
    ∃ (d : Dashboard) (detail : DashboardDetail) (view : DashboardView) (shown : Detail)
      (conversion : Conversion),
      ((buildDashboard 7 (some july) none (some toDollars)).exec postgres endOfJuly
        ⟨.spent, .spent⟩).result = .ok d ∧ d.detail = some detail ∧
      buildDashboardView d julyPage = .ok view ∧ view.detail = some shown ∧
      d.conversion = some conversion ∧
      conversion.unconverted.map CurrencyTotal.currency = [yen] ∧
      shown.Links detail fun counted figures href =>
        let es := (activeIn Database.spent.expenses.rows 7 d.period none).filter counted
        toDollars.Shows es figures ∧
          DrillsTo .spent 7 href (toDollars.among es ++ es.filter fun e =>
            decide (e.money.currency ∈ conversion.unconverted.map CurrencyTotal.currency)) := by
  let _ := PythonRuntime.ascii
  let _ := TextDecoder.whole
  let _ := Babel.plain
  have hkeys : Database.spent.KeysFit := by
    have h : ∀ e ∈ Database.spent.expenses.rows, 1 ≤ e.categoryKey.length ∧
        e.categoryKey.length ≤ 32 := by decide +kernel
    exact h
  have htimed : Database.spent.Timed := by
    intro e he
    have h : ∀ e ∈ Database.spent.expenses.rows, e.createdAt = 0 := by decide +kernel
    rw [h e he]
    decide +kernel
  obtain ⟨hown, hconverted⟩ := @drill_through _ _ _ .spent 7 ⟨7, .active, "UTC", some euro⟩ endOfJuly
    (some july) july upperKeepsCapitals_ascii categoriesStored_spent hkeys htimed rfl rfl
  constructor
  · have hrun : ((buildDashboard 7 (some july) none none).exec postgres endOfJuly
        ⟨.spent, .spent⟩).result.toOption.any (fun d =>
          (Except.toOption (buildDashboardView d julyPage)).any fun view =>
            view.detail.any fun shown => d.detail.isSome && decide
              (shown.timeChart.columns.length = 31 ∧ shown.categories.length = 3)) = true := by
      decide +kernel
    obtain ⟨d, view, shown, hbuilt, hview, hshown, hrun⟩ := exists_page hrun
    obtain ⟨hdetail, hrun⟩ := Bool.and_eq_true_iff.mp hrun
    obtain ⟨detail, hdetail⟩ := Option.isSome_iff_exists.mp hdetail
    obtain ⟨hcolumns, hcategories⟩ := of_decide_eq_true hrun
    exact ⟨d, detail, view, shown, hbuilt, hdetail, hview, hshown, hcolumns, hcategories,
      hown none d detail julyPage view shown hbuilt hdetail hview hshown⟩
  · have hrun : ((buildDashboard 7 (some july) none (some toDollars)).exec postgres endOfJuly
        ⟨.spent, .spent⟩).result.toOption.any (fun d =>
          (Except.toOption (buildDashboardView d julyPage)).any fun view =>
            view.detail.any fun _ => d.detail.isSome && d.conversion.any fun conversion =>
              decide (conversion.unconverted.map CurrencyTotal.currency = [yen])) = true := by
      decide +kernel
    obtain ⟨d, view, shown, hbuilt, hview, hshown, hrun⟩ := exists_page hrun
    obtain ⟨hdetail, hrun⟩ := Bool.and_eq_true_iff.mp hrun
    obtain ⟨detail, hdetail⟩ := Option.isSome_iff_exists.mp hdetail
    obtain ⟨conversion, hconversion, hlinks⟩ :=
      hconverted toDollars d detail julyPage view shown hbuilt hdetail hview hshown
    rw [hconversion] at hrun
    exact ⟨d, detail, view, shown, conversion, hbuilt, hdetail, hview, hshown, hconversion,
      of_decide_eq_true hrun, hlinks⟩

end MintFlow
