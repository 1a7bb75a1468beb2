import MintFlow.Application.ExpenseHistory

set_option relaxedAutoImplicit false
set_option autoImplicit false

/-!
# The query of a history

The parameters of a history are read by hand: which names there may be, how often each, and what
their values look like. Whatever is invalid gives nothing, without saying what it was.

## Main definitions

* `MintFlow.parseExpenseHistoryParams` — the filter, the page size and the position asked for.
* `MintFlow.ExpenseHistoryFilter.Same` — filters that are equal to Python.

## Main results

* `MintFlow.parseExpenseHistoryParams_eq_some` — parameters that are read.
* `MintFlow.fits_of_parse` — what is known of a filter that was read.
-/

namespace MintFlow

open Transact

/-! ## Parameters -/

/-- `_HISTORY_QUERY_PARAMETERS`. -/
def historyQueryParameters : List String :=
  ["date_from", "date_to", "category", "currency", "limit", "cursor"]

/-- `DEFAULT_HISTORY_PAGE_SIZE`. -/
def defaultHistoryPageSize : ℕ := 50

/-- `MAX_HISTORY_FILTER_VALUES`. -/
def maxHistoryFilterValues : ℕ := 32

/-- `ExpenseHistoryQuery`. -/
structure ExpenseHistoryQuery where
  historyFilter : ExpenseHistoryFilter
  limit : ℕ
  after : Option ExpenseHistoryPosition

/-- `params.getlist(name)`. -/
def getlist (params : List (String × String)) (name : String) : List String :=
  (params.filter fun p => decide (p.1 = name)).map Prod.snd

/-- The value of a parameter that may be given once; nothing if it is given more often. -/
def singleValue (params : List (String × String)) (name : String) : Option (Option String) :=
  match getlist params name with
  | [] => some none
  | [value] => some (some value)
  | _ => none

/-- `_ISO_DATE_PATTERN`: `[0-9]{4}-[0-9]{2}-[0-9]{2}`. -/
def isIsoDate : List Char → Bool
  | [a, b, c, d, '-', e, f, '-', g, h] => [a, b, c, d, e, f, g, h].all Char.isDigit
  | _ => false

/-- `_parse_iso_date`. -/
def parseIsoDate : Option String → Option (Option Date)
  | none => some none
  | some value => if isIsoDate value.toList then (dateFromIsoformat value).map some else none

/-- `_LIMIT_PATTERN`: `[1-9][0-9]{0,2}`. -/
def isLimit : List Char → Bool
  | [] => false
  | c :: cs => c.isDigit && c != '0' && decide (cs.length ≤ 2) && cs.all Char.isDigit

/-- `_parse_limit`. -/
def parseLimit : Option String → Option ℕ
  | none => some defaultHistoryPageSize
  | some value =>
    let limit := Nat.ofDigitChars 10 value.toList 0
    if isLimit value.toList ∧ limit ≤ maxHistoryPageSize then some limit else none

/-- The position of a cursor, if one is given. -/
def parseCursor : Option String → Option (Option ExpenseHistoryPosition)
  | none => some none
  | some cursor => (decodeHistoryCursor cursor).toOption.map some

/-- `CurrencyCode(currency) for currency in currencies`. -/
def parseCurrencies [PythonRuntime] : List String → Option (List CurrencyCode)
  | [] => some []
  | currency :: currencies => do
    let code ← (CurrencyCode.new currency).toOption
    let codes ← parseCurrencies currencies
    some (code :: codes)

/-- `ExpenseHistoryFilter(...)`: date_from must not be after date_to. -/
def ExpenseHistoryFilter.new? (dateFrom dateTo : Option Date) (categoryKeys : List String)
    (currencies : List CurrencyCode) : Option ExpenseHistoryFilter :=
  if h : ∀ start ∈ dateFrom, ∀ stop ∈ dateTo, start ≤ stop then
    some ⟨dateFrom, dateTo, categoryKeys, currencies, h⟩
  else none

/-- Whether the categories and currencies asked for are few, and the categories of a length that a
key can have. -/
def filterValuesFit (categories currencies : List String) : Prop :=
  categories.length ≤ maxHistoryFilterValues ∧ currencies.length ≤ maxHistoryFilterValues ∧
    ∀ category ∈ categories, 0 < category.length ∧ category.length ≤ 32

instance filterValuesFitDecidable (categories currencies : List String) :
    Decidable (filterValuesFit categories currencies) :=
  inferInstanceAs (Decidable (_ ∧ _ ∧ ∀ category ∈ categories, _))

/-- `parse_expense_history_params`. -/
def parseExpenseHistoryParams [PythonRuntime] (params : List (String × String)) :
    Option ExpenseHistoryQuery :=
  if params.all fun p => decide (p.1 ∈ historyQueryParameters) then do
    let dateFrom ← singleValue params "date_from"
    let dateTo ← singleValue params "date_to"
    let limit ← singleValue params "limit"
    let cursor ← singleValue params "cursor"
    let categories := getlist params "category"
    let currencies := getlist params "currency"
    if filterValuesFit categories currencies then do
      let dateFrom ← parseIsoDate dateFrom
      let dateTo ← parseIsoDate dateTo
      let codes ← parseCurrencies currencies
      let historyFilter ←
        ExpenseHistoryFilter.new? dateFrom dateTo categories.dedup codes.dedup
      let limit ← parseLimit limit
      let after ← parseCursor cursor
      some ⟨historyFilter, limit, after⟩
    else none
  else none

/-! ## Parameters that are read -/

section Lists

variable {params params' : List (String × String)} {name : String}

lemma getlist_append : getlist (params ++ params') name =
    getlist params name ++ getlist params' name := by
  unfold getlist
  rw [List.filter_append, List.map_append]

/-- Values under one name. -/
def named (name : String) (values : List String) : List (String × String) :=
  values.map fun value => (name, value)

/-- The values given under a name. -/
lemma getlist_named (name : String) (values : List String) :
    getlist (named name values) name = values := by
  unfold getlist named
  rw [List.filter_eq_self.mpr, List.map_map]
  · exact List.map_id values
  · intro p hp
    obtain ⟨v, -, rfl⟩ := List.mem_map.mp hp
    exact decide_eq_true rfl

/-- The values given under another name do not count. -/
lemma getlist_named_of_ne {name' : String} (h : name' ≠ name) (values : List String) :
    getlist (named name' values) name = [] := by
  unfold getlist named
  rw [List.map_eq_nil_iff, List.filter_eq_nil_iff]
  intro p hp
  obtain ⟨v, -, rfl⟩ := List.mem_map.mp hp
  rw [decide_eq_true_eq]
  exact h

end Lists

/-- The parameters that ask for a filter and a position. -/
def historyParams (dateFrom dateTo : Option Date) (categories : List String)
    (currencies : List CurrencyCode) (cursor : Option String) : List (String × String) :=
  named "date_from" (dateFrom.toList.map isoformat) ++
    named "date_to" (dateTo.toList.map isoformat) ++ named "category" categories ++
    named "currency" (currencies.map CurrencyCode.value) ++ named "cursor" cursor.toList

section Params

variable (dateFrom dateTo : Option Date) (categories : List String)
  (currencies : List CurrencyCode) (cursor : Option String)

/-- What is given under each name. -/
lemma getlist_historyParams :
    let params := historyParams dateFrom dateTo categories currencies cursor
    getlist params "date_from" = dateFrom.toList.map isoformat ∧
      getlist params "date_to" = dateTo.toList.map isoformat ∧
      getlist params "category" = categories ∧
      getlist params "currency" = currencies.map CurrencyCode.value ∧
      getlist params "limit" = [] ∧ getlist params "cursor" = cursor.toList := by
  intro params
  have hsplit : ∀ name, getlist params name =
      getlist (named "date_from" (dateFrom.toList.map isoformat)) name ++
        getlist (named "date_to" (dateTo.toList.map isoformat)) name ++
        getlist (named "category" categories) name ++
        getlist (named "currency" (currencies.map CurrencyCode.value)) name ++
        getlist (named "cursor" cursor.toList) name := fun name => by
    show getlist (historyParams _ _ _ _ _) name = _
    rw [historyParams, getlist_append, getlist_append, getlist_append, getlist_append]
  refine ⟨?_, ?_, ?_, ?_, ?_, ?_⟩ <;> rw [hsplit] <;>
    simp (disch := decide) only [getlist_named, getlist_named_of_ne, List.append_nil,
      List.nil_append]

/-- No other names are given. -/
lemma historyParams_names :
    (historyParams dateFrom dateTo categories currencies cursor).all
      (fun p => decide (p.1 ∈ historyQueryParameters)) = true := by
  have hnamed : ∀ name values, name ∈ historyQueryParameters →
      (named name values).all (fun p => decide (p.1 ∈ historyQueryParameters)) = true := by
    intro name values hname
    refine List.all_eq_true.mpr fun p hp => decide_eq_true ?_
    obtain ⟨_, -, rfl⟩ := List.mem_map.mp hp
    exact hname
  unfold historyParams
  simp only [List.all_append, Bool.and_eq_true]
  exact ⟨⟨⟨⟨hnamed _ _ (by decide), hnamed _ _ (by decide)⟩, hnamed _ _ (by decide)⟩,
    hnamed _ _ (by decide)⟩, hnamed _ _ (by decide)⟩

/-- A parameter that is given once or not at all has its value. -/
lemma singleValue_of_toList {params : List (String × String)} {name : String}
    {value : Option String} (h : getlist params name = value.toList) :
    singleValue params name = some value := by
  unfold singleValue
  rw [h]
  cases value <;> rfl

end Params

/-- Year, month and day with hyphens between them look like a date. -/
lemma isIsoDate_append {year month day : List Char} (hyear : year.length = 4)
    (hmonth : month.length = 2) (hday : day.length = 2)
    (hdigits : ∀ c, c ∈ year ∨ c ∈ month ∨ c ∈ day → c.isDigit = true) :
    isIsoDate (year ++ '-' :: (month ++ '-' :: day)) = true := by
  rcases year with _ | ⟨a, _ | ⟨b, _ | ⟨c, _ | ⟨d, _ | ⟨_, _⟩⟩⟩⟩⟩ <;> simp at hyear
  rcases month with _ | ⟨e, _ | ⟨f, _ | ⟨_, _⟩⟩⟩ <;> simp at hmonth
  rcases day with _ | ⟨g, _ | ⟨h, _ | ⟨_, _⟩⟩⟩ <;> simp at hday
  refine List.all_eq_true.mpr fun x hx => hdigits x ?_
  simp only [List.mem_cons, List.not_mem_nil, or_false] at hx ⊢
  tauto

/-- A date that was written looks like one. -/
lemma isIsoDate_isoformat (d : Date) : isIsoDate (isoformat d).toList = true := by
  obtain ⟨hmonth, hday⟩ := Date.month_day_lt d
  have hyear := d.year_le
  rw [toList_isoformat]
  refine isIsoDate_append (length_zeroPadded (by omega) (by decide))
    (length_zeroPadded (by omega) (by decide)) (length_zeroPadded (by omega) (by decide)) ?_
  rintro c (hc | hc | hc) <;> exact isDigit_of_mem_zeroPadded hc

/-- A date that was written is read. -/
lemma parseIsoDate_isoformat (d : Option Date) : parseIsoDate (d.map isoformat) = some d := by
  cases d with
  | none => rfl
  | some d =>
    rw [Option.map_some, parseIsoDate, if_pos (isIsoDate_isoformat d), dateFromIsoformat_isoformat]
    rfl

/-- A cursor that was issued is read. -/
lemma parseCursor_encodeHistoryCursor {after : Option ExpenseHistoryPosition}
    (h : ∀ position ∈ after, position.createdAt.Representable) :
    parseCursor (after.map encodeHistoryCursor) = some after := by
  cases after with
  | none => rfl
  | some position =>
    rw [Option.map_some, parseCursor, decodeHistoryCursor_encodeHistoryCursor (h position rfl)]
    rfl

section Parse

variable [PythonRuntime]

/-- Codes of currencies are read as the currencies. -/
lemma parseCurrencies_values (hupper : UpperKeepsCapitals) (codes : List CurrencyCode) :
    parseCurrencies (codes.map CurrencyCode.value) = some codes := by
  induction codes with
  | nil => rfl
  | cons c codes ih =>
    rw [List.map_cons, parseCurrencies, currencyCode_new_value hupper, ih]
    rfl

/-- **Parameters that are read.** A filter and a position that are asked for are what is read, if
the values of the filter fit.

**Proof sketch.** Each name has the values written under it, and each value reads back. -/
theorem parseExpenseHistoryParams_eq_some (hupper : UpperKeepsCapitals)
    {dateFrom dateTo : Option Date} (hdates : ∀ start ∈ dateFrom, ∀ stop ∈ dateTo, start ≤ stop)
    {categories : List String} {currencies : List CurrencyCode}
    (hfit : filterValuesFit categories (currencies.map CurrencyCode.value))
    {after : Option ExpenseHistoryPosition}
    (hafter : ∀ position ∈ after, position.createdAt.Representable) :
    parseExpenseHistoryParams
        (historyParams dateFrom dateTo categories currencies (after.map encodeHistoryCursor)) =
      some ⟨⟨dateFrom, dateTo, categories.dedup, currencies.dedup, hdates⟩,
        defaultHistoryPageSize, after⟩ := by
  obtain ⟨hfrom, hto, hcategory, hcurrency, hlimit, hcursor⟩ := getlist_historyParams dateFrom dateTo
    categories currencies (after.map encodeHistoryCursor)
  have hfilter : ExpenseHistoryFilter.new? dateFrom dateTo categories.dedup currencies.dedup =
      some ⟨dateFrom, dateTo, categories.dedup, currencies.dedup, hdates⟩ := dif_pos hdates
  have hsome : ∀ d : Option Date, d.toList.map isoformat = (d.map isoformat).toList := fun d => by
    cases d <;> rfl
  rw [hsome] at hfrom hto
  unfold parseExpenseHistoryParams
  rw [if_pos (historyParams_names _ _ _ _ _), singleValue_of_toList hfrom,
    singleValue_of_toList hto, @singleValue_of_toList _ _ none hlimit,
    singleValue_of_toList hcursor, hcategory, hcurrency]
  simp only [Option.bind_eq_bind, Option.bind_some]
  rw [if_pos hfit, parseIsoDate_isoformat, parseIsoDate_isoformat, parseCurrencies_values hupper,
    Option.bind_some, Option.bind_some, Option.bind_some, hfilter, parseLimit,
    parseCursor_encodeHistoryCursor hafter]
  rfl

/-! ## What was read -/

/-- Each currency that is read is one of the values given. -/
lemma length_of_parseCurrencies {values : List String} {codes : List CurrencyCode}
    (h : parseCurrencies values = some codes) : codes.length = values.length := by
  induction values generalizing codes with
  | nil =>
    obtain rfl := Option.some.inj h
    rfl
  | cons value values ih =>
    obtain ⟨code, -, h⟩ := Option.bind_eq_some_iff.mp h
    obtain ⟨rest, hrest, h⟩ := Option.bind_eq_some_iff.mp h
    obtain rfl := Option.some.inj h
    rw [List.length_cons, List.length_cons, ih hrest]

/-- What a filter that was read is like: its sets are small, and its keys fit. -/
structure ExpenseHistoryFilter.Fits (historyFilter : ExpenseHistoryFilter) : Prop where
  categories : historyFilter.categoryKeys.length ≤ maxHistoryFilterValues
  currencies : historyFilter.currencies.length ≤ maxHistoryFilterValues
  keys : ∀ key ∈ historyFilter.categoryKeys, 0 < key.length ∧ key.length ≤ 32
  categories_nodup : historyFilter.categoryKeys.Nodup
  currencies_nodup : historyFilter.currencies.Nodup

/-- A filter that was read fits.

**Proof sketch.** The reader is a chain of options, each of which gave a value. The bounds are those
it checked on the lists before it removed what occurs twice, which makes them no longer. -/
theorem fits_of_parse {params : List (String × String)} {query : ExpenseHistoryQuery}
    (h : parseExpenseHistoryParams params = some query) : query.historyFilter.Fits := by
  unfold parseExpenseHistoryParams at h
  split_ifs at h with hnames
  obtain ⟨dateFrom, -, h⟩ := Option.bind_eq_some_iff.mp h
  obtain ⟨dateTo, -, h⟩ := Option.bind_eq_some_iff.mp h
  obtain ⟨limit, -, h⟩ := Option.bind_eq_some_iff.mp h
  obtain ⟨cursor, -, h⟩ := Option.bind_eq_some_iff.mp h
  simp only at h
  split_ifs at h with hfit
  obtain ⟨dateFrom, -, h⟩ := Option.bind_eq_some_iff.mp h
  obtain ⟨dateTo, -, h⟩ := Option.bind_eq_some_iff.mp h
  obtain ⟨codes, hcodes, h⟩ := Option.bind_eq_some_iff.mp h
  obtain ⟨historyFilter, hfilter, h⟩ := Option.bind_eq_some_iff.mp h
  obtain ⟨limit, -, h⟩ := Option.bind_eq_some_iff.mp h
  obtain ⟨after, -, h⟩ := Option.bind_eq_some_iff.mp h
  obtain rfl := Option.some.inj h
  unfold ExpenseHistoryFilter.new? at hfilter
  split_ifs at hfilter with hdates
  obtain rfl := Option.some.inj hfilter
  have hlength := length_of_parseCurrencies hcodes
  constructor
  case categories => exact (List.dedup_sublist _).length_le.trans hfit.1
  case currencies => exact (List.dedup_sublist _).length_le.trans (hlength.trans_le hfit.2.1)
  case keys => exact fun key hkey => hfit.2.2 key (List.mem_dedup.mp hkey)
  case categories_nodup => exact List.nodup_dedup _
  case currencies_nodup => exact List.nodup_dedup _

/-- Without a limit, the page has the default size.

**Proof sketch.** Without the parameter, the reader of the limit answers nothing, and its default is
taken. -/
lemma limit_of_parse {params : List (String × String)} {query : ExpenseHistoryQuery}
    (h : parseExpenseHistoryParams params = some query) (hlimit : getlist params "limit" = []) :
    query.limit = defaultHistoryPageSize := by
  unfold parseExpenseHistoryParams at h
  rw [@singleValue_of_toList _ _ none hlimit] at h
  split_ifs at h with hnames
  obtain ⟨_, -, h⟩ := Option.bind_eq_some_iff.mp h
  obtain ⟨_, -, h⟩ := Option.bind_eq_some_iff.mp h
  obtain ⟨limit, hnone, h⟩ := Option.bind_eq_some_iff.mp h
  obtain rfl := Option.some.inj hnone
  obtain ⟨_, -, h⟩ := Option.bind_eq_some_iff.mp h
  simp only at h
  split_ifs at h with hfit
  obtain ⟨_, -, h⟩ := Option.bind_eq_some_iff.mp h
  obtain ⟨_, -, h⟩ := Option.bind_eq_some_iff.mp h
  obtain ⟨_, -, h⟩ := Option.bind_eq_some_iff.mp h
  obtain ⟨_, -, h⟩ := Option.bind_eq_some_iff.mp h
  obtain ⟨limit, hdefault, h⟩ := Option.bind_eq_some_iff.mp h
  obtain ⟨_, -, h⟩ := Option.bind_eq_some_iff.mp h
  obtain rfl := Option.some.inj h
  exact (Option.some.inj hdefault).symm

end Parse

/-! ## Equal filters -/

/-- Filters that are equal to Python: their sets have the same members. -/
def ExpenseHistoryFilter.Same (a b : ExpenseHistoryFilter) : Prop :=
  a.dateFrom = b.dateFrom ∧ a.dateTo = b.dateTo ∧
    (∀ key, key ∈ a.categoryKeys ↔ key ∈ b.categoryKeys) ∧
    ∀ code, code ∈ a.currencies ↔ code ∈ b.currencies

end MintFlow
