import MintFlow.Web.Query
import MintFlow.Http.HistoryQuery
import MintFlow.Web.DashboardRenders

set_option relaxedAutoImplicit false
set_option autoImplicit false

/-!
# The history page

The page shows one page of the history and, when another follows, a link to it. The link carries the
filter as it was read, so it is read again by the rules that the filter passed before.

## Main definitions

* `MintFlow.buildHistoryView` — the page.
* `MintFlow.historyPageQuery` — what the page reads from its parameters.
* `MintFlow.LinksTo` — what is read from a link, by the page and by the API.

## Main results

* `MintFlow.load_more_keeps_filter` — **Load more**: the next page has the same filter and starts
  where this one ends.
-/

namespace MintFlow

open Transact

/-! ## The parameters of the page -/

/-- `non_empty_params`: an emptied form field means "not set", not invalid. -/
def nonEmptyParams (params : List (String × String)) : List (String × String) :=
  params.filter fun p => decide (p.2 ≠ "")

/-- What `expense_history_page` reads. The page size is fixed; only the API lets a client choose. -/
def historyPageQuery [PythonRuntime] (params : List (String × String)) :
    Option ExpenseHistoryQuery :=
  let params := nonEmptyParams params
  if getlist params "limit" = [] then parseExpenseHistoryParams params else none

/-- What is read from a link, by the page and by the API. -/
def LinksTo [PythonRuntime] [TextDecoder] (href : String) (query : ExpenseHistoryQuery) : Prop :=
  parseExpenseHistoryParams (linkParams href) = some query ∧
    historyPageQuery (linkParams href) = some query

/-- A link to the history that asks for a filter and a position. -/
def historyHref (params : List (String × String)) : String := "/expenses?" ++ urlencode params

/-- Values that are not empty are kept. -/
lemma nonEmptyParams_named {name : String} {values : List String} (h : ∀ v ∈ values, v ≠ "") :
    nonEmptyParams (named name values) = named name values := by
  refine List.filter_eq_self.mpr fun p hp => ?_
  obtain ⟨v, hv, rfl⟩ := List.mem_map.mp hp
  exact decide_eq_true (h v hv)

/-- A text of positive length is not empty. -/
lemma ne_empty_of_length {s : String} (h : 0 < s.length) : s ≠ "" := by
  rintro rfl
  exact absurd h (by decide)

/-- **Links.** The link that asks for a filter and a position leads to them.

**Proof sketch.** The query reads back, none of its values is empty, and each of them passes the
rules of the parser. -/
theorem linksTo_historyHref [PythonRuntime] [TextDecoder] (hupper : UpperKeepsCapitals)
    {dateFrom dateTo : Option Date} (hdates : ∀ start ∈ dateFrom, ∀ stop ∈ dateTo, start ≤ stop)
    {categories : List String} {currencies : List CurrencyCode}
    (hfit : filterValuesFit categories (currencies.map CurrencyCode.value))
    {after : Option ExpenseHistoryPosition}
    (hafter : ∀ position ∈ after, position.createdAt.Representable) :
    LinksTo (historyHref
        (historyParams dateFrom dateTo categories currencies (after.map encodeHistoryCursor)))
      ⟨⟨dateFrom, dateTo, categories.dedup, currencies.dedup, hdates⟩,
        defaultHistoryPageSize, after⟩ := by
  let params := historyParams dateFrom dateTo categories currencies (after.map encodeHistoryCursor)
  have hread : parseExpenseHistoryParams params =
      some ⟨⟨dateFrom, dateTo, categories.dedup, currencies.dedup, hdates⟩,
        defaultHistoryPageSize, after⟩ :=
    parseExpenseHistoryParams_eq_some hupper hdates hfit hafter
  have hlink : linkParams (historyHref params) = params := by
    have hpath : "/expenses?" = "/expenses" ++ "?" := rfl
    unfold historyHref
    rw [hpath]
    exact linkParams_urlencode (by decide) params
  have hdate : ∀ d : Option Date, ∀ v ∈ d.toList.map isoformat, v ≠ "" := by
    intro d v hv
    obtain ⟨x, -, rfl⟩ := List.mem_map.mp hv
    refine ne_empty_of_length ?_
    rw [← String.length_toList, length_isoformat]
    decide
  have hcode : ∀ v ∈ currencies.map CurrencyCode.value, v ≠ "" := by
    have hall : ∀ code ∈ supportedCurrencyCodes, code ≠ "" := by decide
    intro v hv
    obtain ⟨c, -, rfl⟩ := List.mem_map.mp hv
    exact hall c.value c.supported
  have hcursor : ∀ v ∈ (after.map encodeHistoryCursor).toList, v ≠ "" := by
    intro v hv
    obtain ⟨position, hposition, rfl⟩ := Option.map_eq_some_iff.mp (Option.mem_toList.mp hv)
    exact encodeHistoryCursor_ne_empty (hafter position hposition)
  have hkept : nonEmptyParams params = params := by
    have happend : ∀ a b, nonEmptyParams (a ++ b) = nonEmptyParams a ++ nonEmptyParams b :=
      fun a b => List.filter_append _ _
    show nonEmptyParams (historyParams _ _ _ _ _) = historyParams _ _ _ _ _
    rw [historyParams, happend, happend, happend, happend, nonEmptyParams_named (hdate dateFrom),
      nonEmptyParams_named (hdate dateTo),
      nonEmptyParams_named fun key hkey => ne_empty_of_length (hfit.2.2 key hkey).1,
      nonEmptyParams_named hcode, nonEmptyParams_named hcursor]
  have hlimit : getlist params "limit" = [] := (getlist_historyParams _ _ _ _ _).2.2.2.2.1
  refine ⟨hlink ▸ hread, ?_⟩
  rw [hlink]
  unfold historyPageQuery
  rw [hkept, if_pos hlimit, hread]

/-! ## The page -/

structure ExpenseRow where
  href : String
  date : String
  merchant : Option String
  category : String
  amount : String
  /-- The amount in the default currency, for a row in another currency. -/
  converted : Option String

structure HistoryView where
  rows : List ExpenseRow
  nextHref : Option String
  /-- Filter values as the form shows them. -/
  dateFrom : String
  dateTo : String
  category : String
  currency : String
  categoryOptions : List (String × String)
  currencyOptions : List String
  filtered : Bool
  /-- Whether this is not the first page. -/
  continued : Bool
  ratesNote : Option String

section View

variable [Babel]

open Babel

/-- The amount of an Expense in the default currency, if it is in another and there is a rate. The
codes of the rates needed are collected. -/
def convertedAmount (e : Expense) (locale : Babel.Locale) (convertTo : Option ConvertTo) :
    Converting (Option String) :=
  match convertTo with
  | none => return none
  | some converter =>
    if e.money.currency = converter.currency then return none
    else
      match converter.rates.convert e.money.minorUnits e.money.currency converter.currency with
      | .error _ => throw .invalidOperation
      | .ok none => return none
      | .ok (some minorUnits) => do
        modify fun used => used ++ [e.money.currency.value, converter.currency.value]
        return some (approximately (formatAmount minorUnits converter.currency locale))

/-- `_row`. -/
def historyRow (names : List (String × String)) (locale : Babel.Locale)
    (convertTo : Option ConvertTo) (e : Expense) : Converting ExpenseRow := do
  let converted ← convertedAmount e locale convertTo
  return {
    href := "/expenses/" ++ uuidText e.id
    date := formatDate e.transactionDate.value locale
    merchant := e.merchant.map MerchantName.value
    category := (names.lookup e.categoryKey).getD e.categoryKey
    amount := formatMoney e.money locale
    converted := converted }

/-- `_single`. -/
def singleOf (values : List String) : String :=
  match values.dedup with
  | [value] => value
  | _ => ""

/-- `str` of a currency. -/
def CurrencyCode.text (c : CurrencyCode) : String := "CurrencyCode(value='" ++ c.value ++ "')"

/-- The parameters of a filter, each set in order. -/
def filterParams (historyFilter : ExpenseHistoryFilter) : List (String × String) :=
  (historyFilter.dateFrom.toList.map fun d => ("date_from", isoformat d)) ++
    (historyFilter.dateTo.toList.map fun d => ("date_to", isoformat d)) ++
    ((orderBy (fun a b => decide (a ≤ b)) historyFilter.categoryKeys).map
      fun key => ("category", key)) ++
    (orderBy (fun a b => decide (a.text ≤ b.text)) historyFilter.currencies).map
      fun code => ("currency", code.value)

/-- The link to the next page, if there is one. -/
def nextHref (page : ExpenseHistoryPage) (historyFilter : ExpenseHistoryFilter) : Option String :=
  page.nextPosition.map fun position =>
    "/expenses?" ++
      urlencode (filterParams historyFilter ++ [("cursor", encodeHistoryCursor position)])

/-- The note on the rates of the page, when it used some. -/
def historyRatesNote (used : UsedCodes) (locale : Babel.Locale) (convertTo : Option ConvertTo) :
    Except Error (Option String) :=
  match convertTo with
  | none => .ok none
  | some converter =>
    let usedRates := converter.usedRates used
    if usedRates = [] then .ok none
    else ((ratesNote usedRates converter.currency locale).mapError .valueError).map some

/-- `build_history_view`. -/
def buildHistoryView (page : ExpenseHistoryPage) (historyFilter : ExpenseHistoryFilter)
    (categories : List Category) (locale : Babel.Locale) (continued : Bool)
    (convertTo : Option ConvertTo) : Except Error HistoryView := do
  let options := categories.map fun c => (c.key, categoryLabel c.key c.name)
  -- A later category of one key would replace an earlier one.
  let (rows, used) ← (page.items.mapM (historyRow options.reverse locale convertTo)).run []
  let note ← historyRatesNote used locale convertTo
  return {
    rows := rows
    nextHref := nextHref page historyFilter
    dateFrom := (historyFilter.dateFrom.map isoformat).getD ""
    dateTo := (historyFilter.dateTo.map isoformat).getD ""
    category := singleOf historyFilter.categoryKeys
    currency := singleOf (historyFilter.currencies.map CurrencyCode.value)
    categoryOptions := options
    currencyOptions := supportedCurrencyCodes
    filtered := decide (filterParams historyFilter ≠ [])
    continued := continued
    ratesNote := note }

/-! ## Load more -/

omit [Babel] in
/-- The link to the next page asks for the filter and the position. -/
lemma nextHref_eq {page : ExpenseHistoryPage} {historyFilter : ExpenseHistoryFilter}
    {position : ExpenseHistoryPosition} (h : page.nextPosition = some position) :
    nextHref page historyFilter = some (historyHref (historyParams historyFilter.dateFrom
      historyFilter.dateTo (orderBy (fun a b => decide (a ≤ b)) historyFilter.categoryKeys)
      (orderBy (fun a b => decide (a.text ≤ b.text)) historyFilter.currencies)
      ((some position).map encodeHistoryCursor))) := by
  have hparams : filterParams historyFilter ++ [("cursor", encodeHistoryCursor position)] =
      historyParams historyFilter.dateFrom historyFilter.dateTo
        (orderBy (fun a b => decide (a ≤ b)) historyFilter.categoryKeys)
        (orderBy (fun a b => decide (a.text ≤ b.text)) historyFilter.currencies)
        ((some position).map encodeHistoryCursor) := by
    unfold filterParams historyParams named
    simp only [List.map_map]
    rfl
  unfold nextHref
  rw [h, Option.map_some, hparams]
  rfl

/-- **Load more.** A filter that was read, by whatever spellings, is read again from the link to the
next page, with the position where that page starts.

**Proof sketch.** A filter that was read has few values, and its keys have the length of keys; its
dates, codes and the position are written in the one form that is always read. Sorting a set does
not change its members. -/
theorem load_more_keeps_filter [PythonRuntime] [TextDecoder] (hupper : UpperKeepsCapitals)
    {params : List (String × String)} {query : ExpenseHistoryQuery}
    (hquery : parseExpenseHistoryParams params = some query)
    {page : ExpenseHistoryPage} {position : ExpenseHistoryPosition}
    (hnext : page.nextPosition = some position) (hposition : position.createdAt.Representable)
    {categories : List Category} {locale : Babel.Locale} {continued : Bool}
    {convertTo : Option ConvertTo} {view : HistoryView}
    (hview : buildHistoryView page query.historyFilter categories locale continued convertTo =
      .ok view) :
    ∃ href next, view.nextHref = some href ∧ LinksTo href next ∧
      next.historyFilter.Same query.historyFilter ∧ next.after = some position ∧
      (getlist params "limit" = [] → next.limit = query.limit) := by
  have hfits := fits_of_parse hquery
  let keys := orderBy (fun a b => decide (a ≤ b)) query.historyFilter.categoryKeys
  let codes := orderBy (fun a b => decide (a.text ≤ b.text)) query.historyFilter.currencies
  have hkeys : keys.Perm query.historyFilter.categoryKeys := perm_orderBy _ _
  have hcodes : codes.Perm query.historyFilter.currencies := perm_orderBy _ _
  have hfit : filterValuesFit keys (codes.map CurrencyCode.value) := by
    refine ⟨?_, ?_, fun key hkey => hfits.keys key (hkeys.mem_iff.mp hkey)⟩
    · rw [hkeys.length_eq]
      exact hfits.categories
    · rw [List.length_map, hcodes.length_eq]
      exact hfits.currencies
  have hafter : ∀ p ∈ some position, p.createdAt.Representable := by
    rintro _ ⟨⟩
    exact hposition
  obtain ⟨⟨rows, used⟩, -, hview⟩ := Checked.bind_eq_ok.mp hview
  obtain ⟨note, -, hview⟩ := Checked.bind_eq_ok.mp hview
  obtain rfl := Except.ok.inj hview
  refine ⟨_, _, nextHref_eq hnext,
    linksTo_historyHref hupper query.historyFilter.ordered hfit hafter, ?_, rfl,
    fun hlimit => (limit_of_parse hquery hlimit).symm⟩
  refine ⟨rfl, rfl, fun key => ?_, fun code => ?_⟩
  · exact List.mem_dedup.trans hkeys.mem_iff
  · exact List.mem_dedup.trans hcodes.mem_iff

end View

/-- Groceries in euros, the code written in two ways. -/
def groceriesInEuros : List (String × String) :=
  [("currency", " eur"), ("category", "groceries"), ("currency", "EUR")]

/-- The page that ends with 12.50 euros. -/
def spentPage : ExpenseHistoryPage :=
  ⟨Database.spent.expenses.rows.take 1, Database.spent.expenses.rows.head?.map .after⟩

/-- That page goes on with groceries in euros. -/
theorem load_more_keeps_filter_groceries :
    letI := PythonRuntime.ascii
    letI := TextDecoder.whole
    letI := Babel.plain
    ∃ query view href next, parseExpenseHistoryParams groceriesInEuros = some query ∧
      buildHistoryView spentPage query.historyFilter [] () false none = .ok view ∧
      view.nextHref = some href ∧ LinksTo href next ∧
      next.historyFilter.Same query.historyFilter ∧ next.after = spentPage.nextPosition := by
  let _ := PythonRuntime.ascii
  let _ := TextDecoder.whole
  let _ := Babel.plain
  have hread : (parseExpenseHistoryParams groceriesInEuros).isSome = true := by decide +kernel
  obtain ⟨query, hquery⟩ := Option.isSome_iff_exists.mp hread
  obtain ⟨view, hview⟩ : ∃ view,
      buildHistoryView spentPage query.historyFilter [] () false none = .ok view := ⟨_, rfl⟩
  obtain ⟨href, next, hhref, hlink, hsame, hafter, -⟩ :=
    @load_more_keeps_filter _ _ _ upperKeepsCapitals_ascii _ _ hquery spentPage _ rfl
      (by decide +kernel) _ _ _ _ _ hview
  exact ⟨query, view, href, next, hquery, hview, hhref, hlink, hsame, hafter⟩

end MintFlow
