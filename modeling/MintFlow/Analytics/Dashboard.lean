import MintFlow.Application.ConfirmDraft
import MintFlow.Rates.Rates

set_option relaxedAutoImplicit false
set_option autoImplicit false

/-!
# The dashboard

The dashboard of one user, period and currency. A converted dashboard shows every currency with a
rate in one target currency: each currency group converts and rounds once, then the groups add up.
Currencies without a rate stay out of every converted figure and are listed separately.

## Main definitions

* `MintFlow.Dashboard`, `MintFlow.DashboardDetail` — what is shown.
* `MintFlow.bucketTotals`, `MintFlow.rankCategories`, `MintFlow.topMerchants` — the parts of a
  dashboard, from rows of the analytics queries.
* `MintFlow.ConvertTo.convert`, `MintFlow.convertedBuckets`, `MintFlow.convertedCategories`,
  `MintFlow.convertedMerchants` — the same rows in one currency.
* `MintFlow.buildDashboard` — the use case.
-/

namespace MintFlow

open Transact

/-! ## What is shown -/

/-- The part of the period up to today against the previous comparable window. -/
structure Comparison where
  currentPeriod : DashboardPeriod
  currentTotalMinorUnits : ℤ
  previousPeriod : DashboardPeriod
  previousTotalMinorUnits : ℤ
  changeMinorUnits : ℤ
  changeBasisPoints : Option ℤ
deriving DecidableEq

structure Summary where
  totalMinorUnits : ℤ
  count : ℕ
  comparison : Option Comparison
deriving DecidableEq

structure TimeBucket where
  period : DashboardPeriod
  totalMinorUnits : ℤ
  count : ℕ
deriving DecidableEq

structure SpendingOverTime where
  granularity : BucketGranularity
  buckets : List TimeBucket
deriving DecidableEq

structure CategorySpending where
  categoryKey : String
  categoryName : String
  totalMinorUnits : ℤ
  count : ℕ
  shareBasisPoints : ℤ
deriving DecidableEq

/-- `merchant` is none only for the "Other" group. -/
structure MerchantSpending where
  merchant : Option String
  totalMinorUnits : ℤ
  count : ℕ
  shareBasisPoints : ℤ
deriving DecidableEq

structure TopMerchants where
  merchants : List MerchantSpending
  other : Option MerchantSpending
deriving DecidableEq

/-- `convertedMinorUnits` is the amount in the dashboard currency when converted. -/
structure LargestExpense where
  expenseId : UUID
  money : Money
  merchant : Option String
  transactionDate : Date
  convertedMinorUnits : Option ℤ
deriving DecidableEq

structure Insights where
  largestCategory : Option CategorySpending
  largestExpense : Option LargestExpense
deriving DecidableEq

structure DashboardDetail where
  summary : Summary
  spendingOverTime : SpendingOverTime
  categories : List CategorySpending
  topMerchants : TopMerchants
  insights : Insights
deriving DecidableEq

/-- Ask for the dashboard in `currency` at the `rates` snapshot. -/
structure ConvertTo where
  currency : CurrencyCode
  rates : ExchangeRates

/-- The rates a converted dashboard used, and the currencies it could not convert. -/
structure Conversion where
  rates : List ExchangeRate
  unconverted : List CurrencyTotal
deriving DecidableEq

structure Dashboard where
  period : DashboardPeriod
  currencies : List CurrencyTotal
  currency : Option CurrencyCode
  currencySelectionRequired : Bool
  detail : Option DashboardDetail
  conversion : Option Conversion
deriving DecidableEq

/-! ## Shares, buckets, ranks -/

/-- `TOP_MERCHANT_COUNT`. -/
def topMerchantCount : ℕ := 5

/-- `round(Fraction(n, d))` for a positive `d`: half to even. -/
def roundHalfEven (n d : ℤ) : ℤ :=
  let floor := n / d
  let remainder := n % d
  if remainder * 2 < d then floor
  else if d < remainder * 2 then floor + 1
  else if floor % 2 = 0 then floor else floor + 1

/-- `share_basis_points`: `part / whole` in basis points. -/
def shareBasisPoints (part whole : ℤ) : ℤ :=
  if whole ≤ 0 then 0 else roundHalfEven (part * 10000) whole

/-- `resolve_currency`: the selected currency, and whether a selection is required. -/
def resolveCurrency (requested : Option CurrencyCode) (present : List CurrencyCode)
    (default : Option CurrencyCode) : Option CurrencyCode × Bool :=
  match requested with
  | some c => (some c, false)
  | none =>
    match present with
    | [c] => (some c, false)
    | [] => (default, false)
    | present =>
      match default with
      | some c => if c ∈ present then (some c, false) else (none, true)
      | none => (none, true)

/-- `sum(day.total_minor_units for day in …)`. -/
def sumTotals {α : Type} (total : α → ℤ) (rows : List α) : ℤ := (rows.map total).sum

/-- `sum(day.count for day in …)`. -/
def sumCounts {α : Type} (count : α → ℕ) (rows : List α) : ℕ := (rows.map count).sum

/-- `_bucket_totals`. -/
def bucketTotals (period : DashboardPeriod) (daily : List DailyTotal) : Checked SpendingOverTime :=
  do
    let layout ← chartBuckets period
    return ⟨layout.granularity, layout.buckets.map fun bucket =>
      let inside := daily.filter fun day => bucket.contains day.transactionDate
      ⟨bucket, sumTotals DailyTotal.totalMinorUnits inside, sumCounts DailyTotal.count inside⟩⟩

/-- `_rank_categories`. -/
def rankCategories (totals : List CategoryTotal) (grandTotal : ℤ) : List CategorySpending :=
  let ranked := orderBy (fun a b =>
    thenBy b.totalMinorUnits a.totalMinorUnits (fun x y => decide (x < y))
      (decide (a.categoryKey ≤ b.categoryKey))) totals
  ranked.map fun total =>
    ⟨total.categoryKey, total.categoryName, total.totalMinorUnits, total.count,
      shareBasisPoints total.totalMinorUnits grandTotal⟩

/-- The merchants that have a name, in order of rank. -/
def rankMerchants (totals : List MerchantTotal) : List MerchantTotal :=
  orderBy (fun a b =>
    thenBy b.totalMinorUnits a.totalMinorUnits (fun x y => decide (x < y))
      (decide (a.merchant.getD "" ≤ b.merchant.getD "")))
    (totals.filter fun total => total.merchant.isSome)

/-- `_top_merchants`. -/
def topMerchants (totals : List MerchantTotal) (grandTotal : ℤ) : TopMerchants :=
  let named := rankMerchants totals
  let rest := named.drop topMerchantCount ++ totals.filter fun total => total.merchant.isNone
  let otherTotal := sumTotals MerchantTotal.totalMinorUnits rest
  let otherCount := sumCounts MerchantTotal.count rest
  { merchants := (named.take topMerchantCount).map fun total =>
      ⟨total.merchant, total.totalMinorUnits, total.count,
        shareBasisPoints total.totalMinorUnits grandTotal⟩
    other :=
      if otherCount = 0 then none
      else some ⟨none, otherTotal, otherCount, shareBasisPoints otherTotal grandTotal⟩ }

/-- `_largest_expense`. -/
def largestExpenseOf (e : Expense) (convertedMinorUnits : Option ℤ) : LargestExpense :=
  ⟨e.id, e.money, e.merchant.map MerchantName.value, e.transactionDate.value, convertedMinorUnits⟩

/-- `_assemble_detail`. -/
def assembleDetail (total : ℤ) (count : ℕ) (comparison : Option Comparison)
    (spendingOverTime : SpendingOverTime) (categoryTotals : List CategoryTotal)
    (merchantTotals : List MerchantTotal) (largest : Option LargestExpense) : DashboardDetail :=
  let categories := rankCategories categoryTotals total
  { summary := ⟨total, count, comparison⟩
    spendingOverTime := spendingOverTime
    categories := categories
    topMerchants := topMerchants merchantTotals total
    insights := ⟨categories.find? fun c => decide (c.categoryKey ≠ uncategorizedKey), largest⟩ }

/-- `_empty_detail`. -/
def emptyDetail (period : DashboardPeriod) : Checked DashboardDetail := do
  let spendingOverTime ← bucketTotals period []
  return ⟨⟨0, 0, none⟩, spendingOverTime, [], ⟨[], none⟩, ⟨none, none⟩⟩

/-! ## Conversion -/

/-- The codes of the rates used so far (`_used`). -/
abbrev UsedCodes := List String

/-- Code that converts: it remembers the rates it used, and may raise. -/
abbrev Converting := StateT UsedCodes (Except Error)

namespace ConvertTo

variable (converter : ConvertTo)

/-- `_Converter.can_convert`. -/
def canConvert (currency : CurrencyCode) : Bool :=
  converter.rates.canConvert currency converter.currency

/-- `_Converter.convert`. -/
def convert (minorUnits : ℤ) (currency : CurrencyCode) : Converting ℤ := fun used =>
  match converter.rates.convert minorUnits currency converter.currency with
  | .error .invalidOperation => .error .invalidOperation
  | .ok none => .error (.valueError ("no rate for " ++ currency.value))
  | .ok (some converted) =>
    .ok (converted,
      if currency = converter.currency then used
      else used ++ [currency.value, converter.currency.value])

/-- `_Converter.used_rates`. -/
def usedRates (used : UsedCodes) : List ExchangeRate :=
  (orderBy (fun a b => decide (a ≤ b)) used.dedup).filterMap converter.rates.rates.find

/-- `convertible`. -/
def convertible {α : Type} (currency : α → CurrencyCode) (rows : List α) : List α :=
  rows.filter fun row => converter.canConvert (currency row)

/-- One round of the sum in `converted_total`. -/
def addConverted (sum : ℤ) (total : CurrencyTotal) : Converting ℤ := do
  let converted ← converter.convert total.totalMinorUnits total.currency
  return sum + converted

/-- `converted_total`. -/
def convertedTotal (totals : List CurrencyTotal) : Converting (ℤ × ℕ) := do
  let total ← totals.foldlM converter.addConverted 0
  return (total, sumCounts CurrencyTotal.count totals)

end ConvertTo

/-- The values of a list, each where it first appears. -/
def firstAppearances {α : Type} [DecidableEq α] (xs : List α) : List α := xs.reverse.dedup.reverse

/-- One round of the loop over a currency's buckets: what it has is added to what is there. -/
def addBucket (converter : ConvertTo) (currency : CurrencyCode) (there has : TimeBucket) :
    Converting TimeBucket :=
  if has.count = 0 then pure there
  else do
    let converted ← converter.convert has.totalMinorUnits currency
    return ⟨has.period, there.totalMinorUnits + converted, there.count + has.count⟩

/-- The loop over the currencies: the buckets of each are added to those there are. -/
def addCurrency (period : DashboardPeriod) (daily : List DailyTotal) (converter : ConvertTo)
    (buckets : List TimeBucket) (currency : CurrencyCode) : Converting (List TimeBucket) := do
  let days := daily.filter fun day => decide (day.currency = currency)
  let spending ← StateT.lift ((bucketTotals period days).mapError Error.valueError)
  (buckets.zip spending.buckets).mapM fun b => addBucket converter currency b.1 b.2

/-- `_converted_buckets`. -/
def convertedBuckets (period : DashboardPeriod) (daily : List DailyTotal) (converter : ConvertTo) :
    Converting SpendingOverTime := do
  let combined ← StateT.lift ((bucketTotals period []).mapError Error.valueError)
  let currencies := firstAppearances (daily.map DailyTotal.currency)
  let buckets ← currencies.foldlM (addCurrency period daily converter) combined.buckets
  return ⟨combined.granularity, buckets⟩

/-- One round of `_converted_categories`. -/
def addCategory (converter : ConvertTo) (combined : Table CategoryTotal.categoryKey)
    (total : CategoryTotal) : Converting (Table CategoryTotal.categoryKey) := do
  let converted ← converter.convert total.totalMinorUnits total.currency
  let previous := combined.find total.categoryKey
  return combined.upsert
    { currency := converter.currency
      categoryKey := total.categoryKey
      categoryName := total.categoryName
      totalMinorUnits := converted + (previous.map CategoryTotal.totalMinorUnits).getD 0
      count := total.count + (previous.map CategoryTotal.count).getD 0 }

/-- `_converted_categories`. -/
def convertedCategories (totals : List CategoryTotal) (converter : ConvertTo) :
    Converting (List CategoryTotal) := do
  let combined ← totals.foldlM (addCategory converter) .empty
  return combined.rows

/-- One round of `_converted_merchants`. -/
def addMerchant (converter : ConvertTo) (combined : Table MerchantTotal.merchant)
    (total : MerchantTotal) : Converting (Table MerchantTotal.merchant) := do
  let converted ← converter.convert total.totalMinorUnits total.currency
  let previous := combined.find total.merchant
  return combined.upsert
    { currency := converter.currency
      merchant := total.merchant
      totalMinorUnits := converted + (previous.map MerchantTotal.totalMinorUnits).getD 0
      count := total.count + (previous.map MerchantTotal.count).getD 0 }

/-- `_converted_merchants`. -/
def convertedMerchants (totals : List MerchantTotal) (converter : ConvertTo) :
    Converting (List MerchantTotal) := do
  let combined ← totals.foldlM (addMerchant converter) .empty
  return combined.rows

/-! ## The use case -/

/-- Run code that converts. -/
def converting {α : Type} (x : Converting α) (used : UsedCodes) : Program (α × UsedCodes) :=
  Prog.lift id (x.run used)

/-- `_comparison`; a window's total may convert, so the codes used so far go along. -/
def comparisonOf (period : DashboardPeriod)
    (windowTotal : DashboardPeriod → UsedCodes → Program ((ℤ × ℕ) × UsedCodes)) (today : Date)
    (used : UsedCodes) : Program (Option Comparison × UsedCodes) := do
  match ← checked (comparisonWindows period today) with
  | none => return (none, used)
  | some windows => do
    let ((previousTotal, previousCount), used) ← windowTotal windows.previous used
    if previousCount = 0 then return (none, used)
    else do
      let ((currentTotal, _), used) ← windowTotal windows.current used
      let change := currentTotal - previousTotal
      return (some
        { currentPeriod := windows.current
          currentTotalMinorUnits := currentTotal
          previousPeriod := windows.previous
          previousTotalMinorUnits := previousTotal
          changeMinorUnits := change
          changeBasisPoints :=
            if 0 < previousTotal then some (shareBasisPoints change previousTotal) else none },
        used)

/-- The total of one currency among the totals of a window. -/
def totalIn (currency : CurrencyCode) (totals : List CurrencyTotal) : ℤ × ℕ :=
  match totals.find? fun total => decide (total.currency = currency) with
  | some total => (total.totalMinorUnits, total.count)
  | none => (0, 0)

/-- `window_total` of `_detail`. -/
def ownWindow (ownerId : UUID) (currency : CurrencyCode) (window : DashboardPeriod)
    (used : UsedCodes) : Program ((ℤ × ℕ) × UsedCodes) := do
  let totals ← execute (.currencyTotals ownerId window)
  return (totalIn currency totals, used)

/-- `_detail`: the dashboard of one currency. -/
def ownDetail (ownerId : UUID) (period : DashboardPeriod) (currency : CurrencyCode)
    (currencies : List CurrencyTotal) (today : Date) : Program DashboardDetail := do
  let (total, count) := totalIn currency currencies
  let largest ← execute (.largestExpense ownerId period currency)
  let (comparison, _) ← comparisonOf period (ownWindow ownerId currency) today []
  let daily ← execute (.dailyTotals ownerId period (some currency))
  let spendingOverTime ← checked (bucketTotals period daily)
  let categories ← execute (.categoryTotals ownerId period (some currency))
  let merchants ← execute (.merchantTotals ownerId period (some currency))
  return assembleDetail total count comparison spendingOverTime categories merchants
    (largest.map fun e => largestExpenseOf e none)

/-- The order of `max` in `_converted_largest`. -/
def largerCandidate (a b : ℤ × Expense) : Bool :=
  thenBy b.1 a.1 (fun x y => decide (x < y))
    (thenBy b.2.transactionDate.value a.2.transactionDate.value (fun x y => decide (x < y))
      (thenBy b.2.createdAt a.2.createdAt (fun x y => decide (x < y)) (decide (b.2.id ≤ a.2.id))))

/-- One round of the loop over the currencies: the largest Expense of a currency is a candidate. -/
def addCandidate (ownerId : UUID) (period : DashboardPeriod) (converter : ConvertTo)
    (state : List (ℤ × Expense) × UsedCodes) (total : CurrencyTotal) :
    Program (List (ℤ × Expense) × UsedCodes) := do
  match ← execute (.largestExpense ownerId period total.currency) with
  | none => return state
  | some expense => do
    let r ← converting (converter.convert expense.money.minorUnits expense.money.currency) state.2
    return (state.1 ++ [(r.1, expense)], r.2)

/-- `_converted_largest`: the largest converted amount among the largest of each currency. -/
def convertedLargest (ownerId : UUID) (period : DashboardPeriod) (currencies : List CurrencyTotal)
    (converter : ConvertTo) (used : UsedCodes) : Program (Option LargestExpense × UsedCodes) := do
  let r ← currencies.foldlM (addCandidate ownerId period converter) ([], used)
  return ((orderBy largerCandidate r.1).head?.map fun c => largestExpenseOf c.2 (some c.1), r.2)

/-- `window_total` of `_converted_detail`. -/
def convertedWindow (ownerId : UUID) (converter : ConvertTo) (window : DashboardPeriod)
    (used : UsedCodes) : Program ((ℤ × ℕ) × UsedCodes) := do
  let totals ← execute (.currencyTotals ownerId window)
  converting (converter.convertedTotal (converter.convertible CurrencyTotal.currency totals)) used

/-- `_converted_detail`: the dashboard of every convertible currency, and the codes it used. -/
def convertedDetail (ownerId : UUID) (period : DashboardPeriod) (converter : ConvertTo)
    (currencies : List CurrencyTotal) (today : Date) : Program (DashboardDetail × UsedCodes) := do
  let present := converter.convertible CurrencyTotal.currency currencies
  let ((total, count), used) ← converting (converter.convertedTotal present) []
  let (comparison, used) ← comparisonOf period (convertedWindow ownerId converter) today used
  let daily ← execute (.dailyTotals ownerId period none)
  let (spendingOverTime, used) ← converting
    (convertedBuckets period (converter.convertible DailyTotal.currency daily) converter) used
  let categories ← execute (.categoryTotals ownerId period none)
  let (categories, used) ← converting
    (convertedCategories (converter.convertible CategoryTotal.currency categories) converter) used
  let merchants ← execute (.merchantTotals ownerId period none)
  let (merchants, used) ← converting
    (convertedMerchants (converter.convertible MerchantTotal.currency merchants) converter) used
  let (largest, used) ← convertedLargest ownerId period present converter used
  return (assembleDetail total count comparison spendingOverTime categories merchants largest,
    used)

/-- The converted dashboard. -/
def convertedDashboard (callerId : UUID) (period : DashboardPeriod) (converter : ConvertTo)
    (currencies : List CurrencyTotal) (today : Date) : Program Dashboard := do
  let (detail, used) ← convertedDetail callerId period converter currencies today
  return ⟨period, currencies, some converter.currency, false, some detail,
    some ⟨converter.usedRates used,
      currencies.filter fun total => !converter.canConvert total.currency⟩⟩

/-- The dashboard of a selected currency, if one is selected. -/
def ownDashboard (callerId : UUID) (period : DashboardPeriod) (selected : Option CurrencyCode)
    (selectionRequired : Bool) (currencies : List CurrencyTotal) (today : Date) :
    Program Dashboard := do
  let detail ← detailOf
  return ⟨period, currencies, selected, selectionRequired, detail, none⟩
where
  /-- The detail, unless a currency has to be selected first. -/
  detailOf : Program (Option DashboardDetail) :=
    if selectionRequired then pure none
    else
      match selected with
      | none => do
        let detail ← checked (emptyDetail period)
        return some detail
      | some currency => do
        let detail ← ownDetail callerId period currency currencies today
        return some detail

/-- The dashboard asked for: converted, or in a selected currency. -/
def dashboardOf (callerId : UUID) (period : DashboardPeriod) (currency : Option CurrencyCode)
    (convertTo : Option ConvertTo) (user : User) (currencies : List CurrencyTotal) (today : Date) :
    Program Dashboard :=
  match convertTo with
  | some converter => convertedDashboard callerId period converter currencies today
  | none =>
    let selection :=
      resolveCurrency currency (currencies.map CurrencyTotal.currency) user.defaultCurrency
    ownDashboard callerId period selection.1 selection.2 currencies today

variable [PythonRuntime]

/-- The period asked for, else the current month. -/
def periodFor (period : Option DashboardPeriod) (now : Instant) (timezone : String) :
    Except Raised DashboardPeriod :=
  match period with
  | some period => .ok period
  | none => defaultPeriod now timezone

/-- `BuildDashboard.execute`. -/
def buildDashboard (callerId : UUID) (period : Option DashboardPeriod)
    (currency : Option CurrencyCode) (convertTo : Option ConvertTo) : Program Dashboard :=
  if currency.isSome ∧ convertTo.isSome then
    raise (.valueError "a dashboard is either in one currency or converted, not both")
  else do
    match ← execute (.getUser callerId) with
    | none => raise (.dashboardUserNotFound "user not found")
    | some user => do
      let now ← clock
      let period ← raising (periodFor period now user.timezone)
      let currencies ← execute (.currencyTotals callerId period)
      let today ← raising (user.localToday now)
      dashboardOf callerId period currency convertTo user currencies today

end MintFlow
