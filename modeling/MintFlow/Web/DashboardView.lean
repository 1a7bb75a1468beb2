import MintFlow.Analytics.Dashboard
import MintFlow.Web.Charts
import MintFlow.Web.Formatting

set_option relaxedAutoImplicit false
set_option autoImplicit false

/-!
# The dashboard page

`buildDashboardView` turns a dashboard into display-ready text and chart geometry, so templates only
lay things out. Amounts in different currencies are never combined: a period with several currencies
shows one total per currency and details for one of them, or everything converted.

## Main definitions

* `MintFlow.DashboardView` — what the page shows.
* `MintFlow.buildDashboardView` — the page of a dashboard.
-/

namespace MintFlow

open Transact Babel

variable [Babel]

/-! ## The view model -/

structure CurrencyLine where
  currency : String
  total : String
  count : String
  href : String
  selected : Bool
  /-- A converted dashboard leaves this currency out: it has no exchange rate. -/
  noRate : Bool

structure ColumnView where
  column : Column
  label : String
  amount : String
  href : String

structure TimeChart where
  title : String
  summary : String
  columns : List ColumnView
  /-- The value axis from the top: the rounded maximum, its half, and zero. -/
  axis : String × String × String
  /-- Evenly spaced date labels under the columns. -/
  ticks : List String
  /-- The table beside the chart lists only the buckets with spending. -/
  rows : List ColumnView

structure DonutSlice where
  label : String
  amount : String
  share : String
  href : String
  color : ℕ
  slice : Slice

structure ChartLink where
  label : String
  href : String
  selected : Bool

structure Preset where
  label : String
  href : String
  selected : Bool
  /-- The dates the preset stands for. -/
  dates : String

structure BarRow where
  label : String
  amount : String
  share : String
  count : String
  length : Binary64
  href : Option String

structure Detail where
  empty : Bool
  total : String
  count : String
  comparison : Option String
  timeChart : TimeChart
  donut : List DonutSlice
  categories : List BarRow
  merchants : List BarRow
  largestCategory : Option String
  largestExpense : Option String
  largestExpenseHref : Option String
  /-- "up", "down", or "flat" when there is a comparison. -/
  comparisonDirection : Option String

structure DashboardView where
  period : String
  dateFrom : String
  dateTo : String
  currency : Option String
  currencyOptions : List String
  currencies : List CurrencyLine
  selectionRequired : Bool
  detail : Option Detail
  chart : String
  chartLinks : List ChartLink
  presets : List Preset
  table : Bool
  tableHref : String
  mainCurrency : Option String
  allLabel : String
  converted : Bool
  convertedHref : Option String
  showCurrencyChoice : Bool
  ratesNote : Option String
  ratesDetail : String
  unconvertedNote : Option String
  needsDefaultCurrency : Bool
  ratesMissing : Bool

/-! ## Links -/

/-- Named values of a query. -/
abbrev Params := List (String × String)

/-- `DASHBOARD_PATH` with a query. -/
def dashboardHref (params : Params) : String := "/dashboard?" ++ urlencode params

/-- The days of a period, as parameters. -/
def dateParams (dateFrom dateTo : Date) : Params :=
  [("date_from", isoformat dateFrom), ("date_to", isoformat dateTo)]

/-- The currency of a link, if it is to one currency. -/
def currencyParam (currency : Option CurrencyCode) : Params :=
  (currency.map fun c => ("currency", c.value)).toList

/-- `_expenses_href`: the matching history; a converted dashboard links to every currency. -/
def expensesHref (period : DashboardPeriod) (currency : Option CurrencyCode) (extra : Params) :
    String :=
  "/expenses?" ++
    urlencode (dateParams period.dateFrom period.dateTo ++ extra ++ currencyParam currency)

/-! ## Amounts -/

/-- `_Amounts`: formats one dashboard's amounts, marking them "≈" when they were converted. -/
structure Amounts where
  currency : CurrencyCode
  locale : Babel.Locale
  approximate : Bool

namespace Amounts

variable (amounts : Amounts)

/-- `mark`. -/
def mark (text : String) : String := if amounts.approximate then approximately text else text

/-- `amount`. -/
def amount (minorUnits : ℤ) : String :=
  amounts.mark (formatAmount minorUnits amounts.currency amounts.locale)

/-- `axis`. -/
def axis (minorUnits : ℤ) : String :=
  amounts.mark (formatAxisAmount minorUnits amounts.currency amounts.locale)

end Amounts

/-- `_expense_count`. -/
def expenseCount (count : ℕ) (locale : Babel.Locale) : String :=
  fill (ngettext "\x7bcount\x7d expense" "\x7bcount\x7d expenses" count)
    [("count", formatCount count locale)]

/-- `_comparison`: the change against the previous comparable window. -/
def comparisonText (comparison : Comparison) (amounts : Amounts) : String :=
  let locale := amounts.locale
  let previous :=
    formatPeriod comparison.previousPeriod.dateFrom comparison.previousPeriod.dateTo locale
  let change := comparison.changeMinorUnits
  if change = 0 then
    sentence (fill (translate "No change compared with \x7bprevious\x7d.") [("previous", previous)])
  else
    let signed := amounts.mark ((if 0 < change then "+" else "\u2212") ++
      formatAmount change.natAbs amounts.currency locale)
    let changeText :=
      match comparison.changeBasisPoints with
      | none => signed
      | some basisPoints => formatShare basisPoints.natAbs locale ++ " (" ++ signed ++ ")"
    let template :=
      if 0 < change then translate "Up \x7bchange\x7d compared with \x7bprevious\x7d."
      else translate "Down \x7bchange\x7d compared with \x7bprevious\x7d."
    sentence (fill template [("change", changeText), ("previous", previous)])

/-- `_direction`. -/
def directionOf (comparison : Comparison) : String :=
  let change := comparison.changeMinorUnits
  if 0 < change then "up" else if change < 0 then "down" else "flat"

/-! ## Charts -/

/-- `zip(xs, ys, strict=True)`. -/
def zipStrict {α β : Type} (xs : List α) (ys : List β) : Checked (List (α × β)) :=
  if ys.length < xs.length then .error "zip() argument 2 is shorter than argument 1"
  else if xs.length < ys.length then .error "zip() argument 2 is longer than argument 1"
  else .ok (xs.zip ys)

/-- `views[index].label`. -/
def labelAt (views : List ColumnView) (index : ℕ) : Checked String :=
  match views[index]? with
  | some view => .ok view.label
  | none => .error "tuple index out of range"

/-- The positions of the date labels, each once, in order. -/
def tickIndexes (count : ℕ) : List ℕ :=
  if count = 0 then []
  else
    let last := count - 1
    [0, last / 4, last / 2, 3 * last / 4, last].dedup

/-- The first of the buckets with the highest total. -/
def highestBucket : List TimeBucket → Option TimeBucket
  | [] => none
  | bucket :: buckets => some (buckets.foldl (fun best b =>
      if best.totalMinorUnits < b.totalMinorUnits then b else best) bucket)

/-- The label of a bucket: its month or its day. -/
def bucketLabel (granularity : BucketGranularity) (date : Date) (locale : Babel.Locale) : String :=
  if granularity = .month then formatMonth date locale else formatShortDate date locale

/-- The column of a bucket. -/
def columnView (granularity : BucketGranularity) (amounts : Amounts)
    (linkCurrency : Option CurrencyCode) (p : TimeBucket × Column) : ColumnView where
  column := p.2
  label := bucketLabel granularity p.1.period.dateFrom amounts.locale
  amount := amounts.amount p.1.totalMinorUnits
  href := expensesHref p.1.period linkCurrency []

/-- The sentence about the highest bucket. -/
def chartSummary (granularity : BucketGranularity) (amounts : Amounts) (buckets : List TimeBucket) :
    String :=
  match highestBucket buckets with
  | none => translate "No spending in this period."
  | some highest =>
    if highest.totalMinorUnits = 0 then translate "No spending in this period."
    else fill (translate "Highest: \x7blabel\x7d, \x7bamount\x7d.")
      [("label", bucketLabel granularity highest.period.dateFrom amounts.locale),
        ("amount", amounts.amount highest.totalMinorUnits)]

/-- `_time_chart`. -/
def timeChartOf (detail : DashboardDetail) (amounts : Amounts) (linkCurrency : Option CurrencyCode) :
    Checked TimeChart := do
  let granularity := detail.spendingOverTime.granularity
  let buckets := detail.spendingOverTime.buckets
  let totals := buckets.map TimeBucket.totalMinorUnits
  let top ← niceCeiling (maxDefault 0 totals)
  let geometry ← columns totals (if top = 0 then none else some top)
  let pairs ← zipStrict buckets geometry
  let views := pairs.map (columnView granularity amounts linkCurrency)
  let ticks ← (tickIndexes views.length).mapM (labelAt views)
  let rows ← zipStrict buckets views
  return {
    title := translate (if granularity = .month then "Spending by month" else "Spending by day")
    summary := chartSummary granularity amounts buckets
    columns := views
    -- Zero is exact, so only the two upper labels carry the mark.
    axis := (amounts.axis top, amounts.axis (top / 2),
      formatAxisAmount 0 amounts.currency amounts.locale)
    ticks := ticks
    rows := (rows.filter fun p => decide (p.1.count ≠ 0)).map Prod.snd }

/-- `_largest_expense_amount`: the expense's own amount, followed by the converted one when it is in
another currency. -/
def largestExpenseAmount (largest : LargestExpense) (amounts : Amounts) : String :=
  let own := formatMoney largest.money amounts.locale
  match largest.convertedMinorUnits with
  | none => own
  | some converted =>
    if largest.money.currency = amounts.currency then own
    else own ++ " (" ++
      approximately (formatAmount converted amounts.currency amounts.locale) ++ ")"

/-- The sentence about the largest category. -/
def categorySentence (amounts : Amounts) (category : CategorySpending) : String :=
  fill (translate
    "Your largest category was \x7bcategory\x7d at \x7bamount\x7d, representing \x7bshare\x7d of spending.")
    [("category", categoryLabel category.categoryKey category.categoryName),
      ("amount", amounts.amount category.totalMinorUnits),
      ("share", formatShare category.shareBasisPoints amounts.locale)]

/-- The sentence about the largest Expense. -/
def expenseSentence (amounts : Amounts) (largest : LargestExpense) : String :=
  let values := [("amount", largestExpenseAmount largest amounts),
    ("date", formatDate largest.transactionDate amounts.locale)]
  sentence (match largest.merchant with
    | some merchant => fill
        (translate "Your largest expense was \x7bamount\x7d at \x7bmerchant\x7d on \x7bdate\x7d.")
        (("merchant", merchant) :: values)
    | none =>
      fill (translate "Your largest expense was \x7bamount\x7d on \x7bdate\x7d.") values)

/-- The categories and merchants of the page, each by its label and link. -/
def barRow (amounts : Amounts) (label : String) (href : Option String) (total share : ℤ) (count : ℕ)
    (length : Binary64) : BarRow where
  label := label
  amount := amounts.amount total
  share := formatShare share amounts.locale
  count := expenseCount count amounts.locale
  length := length
  href := href

/-- The bar of a category. -/
def categoryRow (amounts : Amounts) (period : DashboardPeriod) (linkCurrency : Option CurrencyCode)
    (p : CategorySpending × Binary64) : BarRow :=
  barRow amounts (categoryLabel p.1.categoryKey p.1.categoryName)
    (some (expensesHref period linkCurrency [("category", p.1.categoryKey)]))
    p.1.totalMinorUnits p.1.shareBasisPoints p.1.count p.2

/-- The bar of a merchant; merchants do not link. -/
def merchantRow (amounts : Amounts) (p : MerchantSpending × Binary64) : BarRow :=
  barRow amounts (p.1.merchant.getD (translate "Other")) none p.1.totalMinorUnits
    p.1.shareBasisPoints p.1.count p.2

/-- The slice of a category. -/
def donutSlice (amounts : Amounts) (period : DashboardPeriod) (linkCurrency : Option CurrencyCode)
    (p : (CategorySpending × Slice) × ℕ) : DonutSlice where
  label := categoryLabel p.1.1.categoryKey p.1.1.categoryName
  amount := amounts.amount p.1.1.totalMinorUnits
  share := formatShare p.1.1.shareBasisPoints amounts.locale
  href := expensesHref period linkCurrency [("category", p.1.1.categoryKey)]
  -- `DONUT_COLORS`.
  color := p.2 % 8
  slice := p.1.2

/-- The merchants listed, and "Other". -/
def TopMerchants.all (m : TopMerchants) : List MerchantSpending := m.merchants ++ m.other.toList

/-- `_detail`. -/
def detailView (period : DashboardPeriod) (detail : DashboardDetail) (amounts : Amounts)
    (linkCurrency : Option CurrencyCode) : Checked Detail := do
  let categories := detail.categories
  let categoryLengths ← barLengths (categories.map CategorySpending.totalMinorUnits)
  let merchants := detail.topMerchants.all
  let merchantLengths ← barLengths (merchants.map MerchantSpending.totalMinorUnits)
  let slices ← donut (categories.map CategorySpending.shareBasisPoints)
  let donutPairs ← zipStrict categories slices
  let timeChart ← timeChartOf detail amounts linkCurrency
  let categoryPairs ← zipStrict categories categoryLengths
  let merchantPairs ← zipStrict merchants merchantLengths
  return {
    empty := decide (detail.summary.count = 0)
    donut := donutPairs.zipIdx.map (donutSlice amounts period linkCurrency)
    total := amounts.amount detail.summary.totalMinorUnits
    count := expenseCount detail.summary.count amounts.locale
    comparison := detail.summary.comparison.map fun c => comparisonText c amounts
    timeChart := timeChart
    categories := categoryPairs.map (categoryRow amounts period linkCurrency)
    merchants := merchantPairs.map (merchantRow amounts)
    largestCategory := detail.insights.largestCategory.map (categorySentence amounts)
    largestExpense := detail.insights.largestExpense.map (expenseSentence amounts)
    largestExpenseHref := detail.insights.largestExpense.map fun e =>
      "/expenses/" ++ uuidText e.expenseId
    comparisonDirection := detail.summary.comparison.map directionOf }

/-! ## The page -/

/-- `date.weekday`: Monday is zero. -/
def weekday (d : Date) : ℕ := (d.ordinal + 6) % 7

/-- The ranges of the presets around a day: today, this week, this month, last month, and the last
three months. -/
def presetRanges (today : Date) : Checked (List (String × Date × Date)) := do
  let firstThis ← replaceDay today 1
  let lastThis ← lastDayOfMonth today
  let lastPrevious ← addDays firstThis (-1)
  let firstPrevious ← replaceDay lastPrevious 1
  let beforePrevious ← addDays firstPrevious (-1)
  let firstThree ← replaceDay beforePrevious 1
  let monday ← addDays today (-(weekday today : ℤ))
  let sunday ← addDays monday 6
  return [("Today", today, today), ("This week", monday, sunday),
    ("This month", firstThis, lastThis), ("Last month", firstPrevious, lastPrevious),
    ("Last 3 months", firstThree, lastThis)]

/-- `_presets`. -/
def presetsOf (today : Date) (current : DashboardPeriod) (extra : Params) (locale : Babel.Locale) :
    Checked (List Preset) := do
  let ranges ← presetRanges today
  return ranges.map fun (label, start, stop) => {
    label := translate label
    href := dashboardHref (dateParams start stop ++ extra)
    selected := decide (start = current.dateFrom ∧ stop = current.dateTo)
    dates := formatPeriod start stop locale }

/-- The two chart views. -/
inductive ChartKind
  | columns
  | pie
deriving DecidableEq, Repr

/-- The value of a chart view in a query. -/
def ChartKind.value : ChartKind → String
  | columns => "columns"
  | pie => "pie"

/-- What the page is asked for, and the user's conversion setup. -/
structure PageChoices where
  locale : Babel.Locale
  chart : ChartKind
  table : Bool
  today : Option Date
  defaultCurrency : Option CurrencyCode
  ratesAvailable : Bool

/-- The page's own choices, carried by every link so switching one keeps the others. -/
def viewParams (chart : ChartKind) (table : Bool) : Params :=
  ("chart", chart.value) :: if table then [("table", "1")] else []

/-- The amounts of a dashboard are approximate when some were converted. -/
def Dashboard.amounts (dashboard : Dashboard) (currency : CurrencyCode) (locale : Babel.Locale) :
    Amounts :=
  ⟨currency, locale, match dashboard.conversion with
    | some conversion => decide (conversion.rates ≠ [])
    | none => false⟩

/-- The currency that the links of a dashboard are about: a converted one links to all. -/
def Dashboard.linkCurrency (dashboard : Dashboard) : Option CurrencyCode :=
  if dashboard.conversion.isSome then none else dashboard.currency

/-- The detail of the page, when there is one to show. -/
def shownDetail (dashboard : Dashboard) (locale : Babel.Locale) : Checked (Option Detail) :=
  match dashboard.detail, dashboard.currency with
  | some detail, some currency => do
    let view ← detailView dashboard.period detail (dashboard.amounts currency locale)
      dashboard.linkCurrency
    return some view
  | _, _ => .ok none

/-- The presets of the page, when today is known. -/
def shownPresets (page : PageChoices) (period : DashboardPeriod) (extra : Params) :
    Checked (List Preset) :=
  match page.today with
  | some today => presetsOf today period extra page.locale
  | none => .ok []

/-- The note on the rates of the page, when it used some. -/
def shownRatesNote (dashboard : Dashboard) (locale : Babel.Locale) : Checked (Option String) :=
  match dashboard.conversion, dashboard.currency with
  | some conversion, some currency =>
    if conversion.rates = [] then .ok none
    else do
      let note ← ratesNote conversion.rates currency locale
      return some note
  | _, _ => .ok none

/-- `build_dashboard_view`. -/
def buildDashboardView (dashboard : Dashboard) (page : PageChoices) : Checked DashboardView := do
  let locale := page.locale
  let period := dashboard.period
  let periodParams := dateParams period.dateFrom period.dateTo
  let ownParams := viewParams page.chart page.table
  let currency := dashboard.currency
  let conversion := dashboard.conversion
  let mainCurrency := if page.ratesAvailable then page.defaultCurrency else none
  let unconverted := (conversion.map Conversion.unconverted).getD []
  let ownCurrency := if conversion.isNone then currency else none
  let detail ← shownDetail dashboard locale
  let presets ← shownPresets page period (currencyParam ownCurrency ++ ownParams)
  let note ← shownRatesNote dashboard locale
  let several := decide (1 < dashboard.currencies.length)
  return {
    chart := page.chart.value
    chartLinks := [(ChartKind.columns, "Columns"), (ChartKind.pie, "Pie")].map fun (kind, label) => {
      label := translate label
      href := dashboardHref (periodParams ++ currencyParam ownCurrency ++ viewParams kind page.table)
      selected := decide (kind = page.chart) }
    table := page.table
    tableHref := dashboardHref
      (periodParams ++ currencyParam ownCurrency ++ viewParams page.chart !page.table)
    presets := presets
    period := formatPeriod period.dateFrom period.dateTo locale
    dateFrom := isoformat period.dateFrom
    dateTo := isoformat period.dateTo
    currency := currency.map CurrencyCode.value
    currencyOptions := orderBy (fun a b => decide (a ≤ b))
      (dashboard.currencies.map (fun t => t.currency.value) ++
        (ownCurrency.map CurrencyCode.value).toList).dedup
    currencies := dashboard.currencies.map fun total => {
      currency := total.currency.value
      total := formatAmount total.totalMinorUnits total.currency locale
      count := expenseCount total.count locale
      href := dashboardHref (periodParams ++ [("currency", total.currency.value)] ++ ownParams)
      selected := conversion.isNone && decide (some total.currency = currency)
      noRate := decide (total.currency ∈ unconverted.map CurrencyTotal.currency) }
    selectionRequired := dashboard.currencySelectionRequired
    detail := detail
    mainCurrency := mainCurrency.map CurrencyCode.value
    allLabel :=
      match mainCurrency with
      | some main => fill (translate "All in \x7bcurrency\x7d") [("currency", main.value)]
      | none => translate "Automatic"
    converted := conversion.isSome
    convertedHref := mainCurrency.map fun _ => dashboardHref (periodParams ++ ownParams)
    showCurrencyChoice := several || match mainCurrency with
      | some main => dashboard.currencies.any fun t => decide (t.currency ≠ main)
      | none => false
    ratesNote := note
    ratesDetail := translate
      "Past spending is converted at today's rates, so these totals can change slightly."
    unconvertedNote :=
      if unconverted = [] then none
      else some (sentence (fill (translate "Not included, no exchange rate: \x7bamounts\x7d.")
        [("amounts", ", ".intercalate (unconverted.map fun total =>
          formatAmount total.totalMinorUnits total.currency locale))]))
    needsDefaultCurrency := several && page.defaultCurrency.isNone
    ratesMissing := several && page.defaultCurrency.isSome && !page.ratesAvailable }

end MintFlow
