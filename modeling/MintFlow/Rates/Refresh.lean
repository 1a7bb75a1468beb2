import MintFlow.Rates.Rates

set_option relaxedAutoImplicit false
set_option autoImplicit false

/-!
# Refreshing exchange rates

Sources are fetched in priority order and the latest rate per catalogue currency is stored. A
failed source is meant to keep the rates it provided before. It does unless a source after it
publishes one of those currencies: the rate that was kept for the failed source is then replaced.

## Main definitions

* `MintFlow.ExchangeRateRecord`, `MintFlow.RateTable` — the stored rates.
* `MintFlow.RateTable.latest` — the stored rates as the dashboard reads them.
* `MintFlow.RefreshExchangeRates`, `MintFlow.RefreshExchangeRates.execute` — one refresh.
* `MintFlow.RefreshExchangeRates.Refreshed` — what a refresh promises.
* `MintFlow.RefreshExchangeRates.Undisputed` — no stored rate of a failed source is published
  differently by another source.

## Main results

* `MintFlow.refreshes_as_documented_iff` — **Rate refresh**: the refreshes of a run keep the promise
  exactly when what they publish can be stored and is undisputed.
-/

namespace MintFlow

open Transact

/-! ## Stored rates -/

/-- The fractional digits of a stored rate. -/
def rateScale : ℕ := 10

/-- The significant digits of a stored rate. -/
def ratePrecision : ℕ := 24

/-- The sources a stored rate may come from. -/
def knownRateSources : List String := ["ECB", "NBU"]

lemma known_ecb : "ECB" ∈ knownRateSources := by decide

/-- A row of `exchange_rates`. -/
structure ExchangeRateRecord where
  currency : String
  /-- The rate, in units of its last stored digit. -/
  unitsPerEur : ℕ
  rateDate : Date
  source : String
  fetchedAt : Instant
  /-- `ck_exchange_rates_positive`. -/
  positive : 0 < unitsPerEur
  /-- `Numeric(24, 10)`. -/
  fits : unitsPerEur < 10 ^ ratePrecision
  /-- `ck_exchange_rates_source`. -/
  known : source ∈ knownRateSources
deriving DecidableEq

/-- The table of stored rates. -/
abbrev RateTable := Table ExchangeRateRecord.currency

/-- What a stored rate says: the rate, its date and its source. -/
def ExchangeRateRecord.quote (r : ExchangeRateRecord) : ℕ × Date × String :=
  (r.unitsPerEur, r.rateDate, r.source)

/-- What a published rate says once it is stored. -/
def ExchangeRate.quote (r : ExchangeRate) : ℕ × Date × String :=
  (r.unitsPerEur.toScale rateScale, r.rateDate, r.source)

/-- The rate fits its columns. -/
def ExchangeRate.Storable (r : ExchangeRate) : Prop :=
  0 < r.unitsPerEur.toScale rateScale ∧ r.unitsPerEur.toScale rateScale < 10 ^ ratePrecision ∧
    r.source ∈ knownRateSources

instance (r : ExchangeRate) : Decidable r.Storable := by
  unfold ExchangeRate.Storable
  infer_instance

/-- What the database raises on a row that does not fit its columns. -/
inductive RateError
  | dataError
  | integrityError
deriving DecidableEq, Repr

/-- The row of a rate, rounded to the scale of its column. The database refuses a number with more than
16383 fractional digits before it rounds it; no source publishes one, and this limit is left out. -/
def ExchangeRate.toRecord (r : ExchangeRate) (fetchedAt : Instant) :
    Except RateError ExchangeRateRecord :=
  let units := r.unitsPerEur.toScale rateScale
  if hfits : units < 10 ^ ratePrecision then
    if h : 0 < units ∧ r.source ∈ knownRateSources then
      .ok ⟨r.code, units, r.rateDate, r.source, fetchedAt, h.1, hfits, h.2⟩
    else .error .integrityError
  else .error .dataError

/-- `SqlAlchemyExchangeRateRepository.save`: one statement that replaces the stored rate of each
given currency. -/
def RateTable.save (table : RateTable) (rates : List ExchangeRate) (fetchedAt : Instant) :
    Except RateError RateTable := do
  let rows ← rates.mapM fun r => r.toRecord fetchedAt
  return table.upsertAll rows

/-- `SqlAlchemyExchangeRateRepository.latest`: the rows whose currency the catalogue has. -/
def RateTable.latest [PythonRuntime] (table : RateTable) : ExchangeRates :=
  ⟨table.rows.foldl (fun rates record =>
    match CurrencyCode.new record.currency with
    | .ok currency => rates.upsert
        ⟨currency, ⟨record.unitsPerEur, -rateScale⟩, record.rateDate, record.source,
          record.positive⟩
    | .error _ => rates) .empty⟩

/-! ## A refresh -/

/-- A source, and what fetching it gives: rates, or nothing when it fails. -/
structure ExchangeRateSource where
  name : String
  fetched : Option (List ExchangeRate)

/-- `RefreshResult`. -/
structure RefreshResult where
  saved : List String
  failedSources : List String
deriving DecidableEq

/-- `wanted`: the catalogue without the euro. -/
def wantedCurrencies : List String :=
  supportedCurrencyCodes.filter fun code => decide (code ≠ euro.value)

/-- One refresh: its sources in priority order, and the clock. -/
structure RefreshExchangeRates where
  sources : List ExchangeRateSource
  now : Instant

namespace RefreshExchangeRates

variable (refresh : RefreshExchangeRates)

/-- What the loop over the sources carries: `chosen` and `failed`. -/
structure Fetched where
  chosen : Table ExchangeRate.code
  failed : List String

/-- One round of the loop over the sources. -/
def fetch (state : Fetched) (source : ExchangeRateSource) : Fetched :=
  match source.fetched with
  | none => { state with failed := state.failed ++ [source.name] }
  | some rates =>
    { state with
      chosen := rates.foldl (fun chosen rate =>
        if rate.code ∈ wantedCurrencies ∧ chosen.find rate.code = none then chosen.add rate
        else chosen) state.chosen }

/-- The loop over the sources. -/
def fetchAll : Fetched := refresh.sources.foldl fetch ⟨.empty, []⟩

/-- `sorted(chosen)`. -/
def sortedCodes (chosen : Table ExchangeRate.code) : List String :=
  (chosen.rows.map ExchangeRate.code).insertionSort (· ≤ ·)

/-- `if chosen: self._repository.save(…)`. -/
def store (chosen : Table ExchangeRate.code) (table : RateTable) : Except RateError RateTable :=
  if chosen.rows = [] then .ok table else table.save chosen.rows refresh.now

/-- `execute`, on the stored rates. -/
def execute (table : RateTable) : Except RateError (RefreshResult × RateTable) := do
  let fetched := refresh.fetchAll
  let table ← refresh.store fetched.chosen table
  return (⟨sortedCodes fetched.chosen, fetched.failed⟩, table)

/-- The stored rates after a refresh; a statement that fails leaves them as they were. -/
def tableAfter (table : RateTable) : RateTable :=
  match refresh.execute table with
  | .ok (_, table) => table
  | .error _ => table

/-! ## What a refresh promises -/

/-- The sources that failed. -/
def failedSources : List String :=
  (refresh.sources.filter fun source => source.fetched.isNone).map ExchangeRateSource.name

/-- What the sources that did not fail published, in priority order. -/
def published : List ExchangeRate :=
  (refresh.sources.filterMap ExchangeRateSource.fetched).flatten

/-- The rate of the first source that published a currency. -/
def firstPublished (code : String) : Option ExchangeRate :=
  refresh.published.find? fun rate => decide (rate.code = code)

/-- The stored rate of a currency came from a source that failed this time. -/
def Orphaned (before : RateTable) (code : String) : Prop :=
  ∃ row, before.find code = some row ∧ row.source ∈ refresh.failedSources

/-- What a refresh that ends with `result` and `after` promises. -/
structure Refreshed (before : RateTable) (result : RefreshResult) (after : RateTable) : Prop where
  /-- The rates of a source that failed stay. -/
  kept : ∀ code row, before.find code = some row → row.source ∈ refresh.failedSources →
    (after.find code).map ExchangeRateRecord.quote = some row.quote
  /-- Every other currency that was published has the rate of the first source that did. -/
  replaced : ∀ code ∈ wantedCurrencies, ¬ refresh.Orphaned before code →
    ∀ rate, refresh.firstPublished code = some rate →
      (after.find code).map ExchangeRateRecord.quote = some rate.quote
  /-- The rates of the remaining currencies are as they were. -/
  unchanged : ∀ code, code ∉ wantedCurrencies ∨ refresh.firstPublished code = none →
    after.find code = before.find code
  /-- No currency is stored that is not wanted. -/
  stored_wanted : ∀ row ∈ after, row ∈ before ∨ row.currency ∈ wantedCurrencies
  /-- The result names currencies each once and in order. -/
  saved_sorted : result.saved.Pairwise (· < ·)
  /-- A currency the result names was written. -/
  saved_written : ∀ code ∈ result.saved,
    (after.find code).map ExchangeRateRecord.fetchedAt = some refresh.now
  /-- A currency the result does not name was not. -/
  unsaved : ∀ code ∉ result.saved, after.find code = before.find code
  /-- The result names the sources that failed. -/
  failed : result.failedSources = refresh.failedSources

/-- A refresh returns, and does what it promises. -/
def Keeps (before : RateTable) : Prop :=
  ∃ result after, refresh.execute before = .ok (result, after) ∧
    refresh.Refreshed before result after

/-- Every rate a refresh chooses fits its columns. -/
def AllStorable : Prop :=
  ∀ code ∈ wantedCurrencies, ∀ rate, refresh.firstPublished code = some rate → rate.Storable

/-- Where the stored rate of a failed source is for a currency that another source published, that
source says the same. -/
def Undisputed (before : RateTable) : Prop :=
  ∀ code ∈ wantedCurrencies, ∀ row, before.find code = some row →
    row.source ∈ refresh.failedSources →
      ∀ rate, refresh.firstPublished code = some rate → rate.quote = row.quote

/-! ## What is chosen -/

/-- The loop over the rates of one source chooses the wanted ones that are not chosen yet. -/
lemma choose_eq_addAll (rates : List ExchangeRate) (chosen : Table ExchangeRate.code) :
    rates.foldl (fun chosen rate =>
        if rate.code ∈ wantedCurrencies ∧ chosen.find rate.code = none then chosen.add rate
        else chosen) chosen =
      chosen.addAll (rates.filter fun rate => decide (rate.code ∈ wantedCurrencies)) := by
  induction rates generalizing chosen with
  | nil => rfl
  | cons rate rates ih =>
    rw [List.foldl_cons, ih, List.filter_cons]
    by_cases hw : rate.code ∈ wantedCurrencies
    · rw [decide_eq_true hw, if_pos rfl]
      show _ = (chosen.add rate).addAll _
      by_cases hfind : chosen.find rate.code = none
      · rw [if_pos ⟨hw, hfind⟩]
      · obtain ⟨rate', hrate'⟩ := Option.ne_none_iff_exists'.mp hfind
        rw [if_neg fun h => hfind h.2, Table.add_of_find hrate']
    · rw [if_neg fun h => hw h.1, decide_eq_false hw, if_neg (by simp)]

/-- The loop over the sources, from any point on.

**Proof sketch.** Induction on the sources: a failed one is added to the failed, and the wanted
rates of any other come after those of the sources before it. -/
lemma foldl_fetch (sources : List ExchangeRateSource) (state : Fetched) :
    sources.foldl fetch state =
      ⟨state.chosen.addAll ((sources.filterMap ExchangeRateSource.fetched).flatten.filter fun rate =>
          decide (rate.code ∈ wantedCurrencies)),
        state.failed ++ (sources.filter fun source => source.fetched.isNone).map
          ExchangeRateSource.name⟩ := by
  induction sources generalizing state with
  | nil => simp [Table.addAll]
  | cons source sources ih =>
    rw [List.foldl_cons, ih]
    cases hf : source.fetched with
    | none => simp [fetch, hf]
    | some rates => simp [fetch, hf, choose_eq_addAll, Table.addAll, List.foldl_append]

/-- The failed sources, by name. -/
lemma fetchAll_failed : refresh.fetchAll.failed = refresh.failedSources := by
  rw [fetchAll, foldl_fetch]
  rfl

/-- **Choice.** The rate chosen for a wanted currency is the first one published. -/
lemma find_chosen (code : String) : refresh.fetchAll.chosen.find code =
    if code ∈ wantedCurrencies then refresh.firstPublished code else none := by
  rw [fetchAll, foldl_fetch]
  show (Table.addAll .empty (refresh.published.filter _)).find code = _
  rw [Table.find_addAll, Table.find_empty, Option.none_or, List.find?_filter]
  split_ifs with hw
  · rw [firstPublished]
    congr 1
    funext rate
    by_cases hcode : rate.code = code
    · simp [hcode, hw]
    · simp [hcode]
  · rw [List.find?_eq_none]
    intro rate _ h
    simp only [decide_eq_true_eq] at h
    exact hw (h.2 ▸ h.1)

/-! ## What is stored -/

/-- A rate has a row exactly when it fits its columns. -/
lemma toRecord_isOk_iff {rate : ExchangeRate} {now : Instant} :
    (∃ row, rate.toRecord now = .ok row) ↔ rate.Storable := by
  unfold ExchangeRate.toRecord ExchangeRate.Storable
  constructor
  · rintro ⟨row, h⟩
    simp only at h
    split_ifs at h with hfits hpos
    exact ⟨hpos.1, hfits, hpos.2⟩
  · rintro ⟨hpos, hfits, hsource⟩
    exact ⟨_, by rw [dif_pos hfits, dif_pos ⟨hpos, hsource⟩]⟩

/-- What the row of a rate says. -/
lemma toRecord_eq_ok {rate : ExchangeRate} {now : Instant} {row : ExchangeRateRecord}
    (h : rate.toRecord now = .ok row) :
    row.currency = rate.code ∧ row.quote = rate.quote ∧ row.fetchedAt = now := by
  unfold ExchangeRate.toRecord at h
  simp only at h
  split_ifs at h
  cases h
  exact ⟨rfl, rfl, rfl⟩

/-- Looking a currency up among rates and among the rows made of them. -/
lemma find?_toRecord {now : Instant} {rates : List ExchangeRate} {rows : List ExchangeRateRecord}
    (h : List.Forall₂ (fun rate row => rate.toRecord now = .ok row) rates rows) (code : String) :
    Option.Rel (fun rate row => rate.toRecord now = .ok row)
      (rates.find? fun rate => decide (rate.code = code))
      (rows.find? fun row => decide (row.currency = code)) := by
  induction h with
  | nil => exact .none
  | @cons rate row rates rows hrow hrest ih =>
    rw [List.find?_cons, List.find?_cons, (toRecord_eq_ok hrow).1]
    by_cases hcode : rate.code = code
    · rw [decide_eq_true hcode]
      exact .some hrow
    · rw [decide_eq_false hcode]
      exact ih

/-- The rows made of rates have their currencies. -/
lemma map_currency {now : Instant} {rates : List ExchangeRate} {rows : List ExchangeRateRecord}
    (h : List.Forall₂ (fun rate row => rate.toRecord now = .ok row) rates rows) :
    rows.map ExchangeRateRecord.currency = rates.map ExchangeRate.code := by
  induction h with
  | nil => rfl
  | cons hrow _ ih => rw [List.map_cons, List.map_cons, ih, (toRecord_eq_ok hrow).1]

/-- **Saving.** A save gives each of its currencies the row of its rate and keeps every other. -/
lemma find_save {table after : RateTable} {chosen : Table ExchangeRate.code} {now : Instant}
    (h : table.save chosen.rows now = .ok after) (code : String) :
    match chosen.find code with
    | some rate => ∃ row, rate.toRecord now = .ok row ∧ after.find code = some row
    | none => after.find code = table.find code := by
  obtain ⟨rows, hrows, hafter⟩ := Checked.bind_eq_ok.mp h
  obtain rfl := Checked.pure_eq_ok.mp hafter
  have hall := Checked.mapM_eq_ok.mp hrows
  have hnodup : (rows.map ExchangeRateRecord.currency).Nodup := map_currency hall ▸ chosen.nodup
  have hrel := find?_toRecord hall code
  rw [Table.find_upsertAll hnodup]
  show match chosen.rows.find? _ with | some _ => _ | none => _
  revert hrel
  generalize chosen.rows.find? (fun rate => decide (rate.code = code)) = rate
  generalize rows.find? (fun row => decide (row.currency = code)) = row
  intro hrel
  cases hrel with
  | none => rfl
  | some hrow => exact ⟨_, hrow, rfl⟩

/-- A save goes through exactly when every rate fits its columns. -/
lemma save_isOk_iff {table : RateTable} {rates : List ExchangeRate} {now : Instant} :
    (∃ after, table.save rates now = .ok after) ↔ ∀ rate ∈ rates, rate.Storable := by
  simp only [← @toRecord_isOk_iff _ now]
  rw [← Checked.mapM_isOk_iff]
  constructor
  · rintro ⟨after, h⟩
    obtain ⟨rows, hrows, -⟩ := Checked.bind_eq_ok.mp h
    exact ⟨rows, hrows⟩
  · rintro ⟨rows, hrows⟩
    exact ⟨_, Checked.bind_eq_ok.mpr ⟨rows, hrows, rfl⟩⟩

/-! ## What a refresh does -/

/-- Every chosen rate fits its columns exactly when every first published rate does. -/
lemma allStorable_iff :
    refresh.AllStorable ↔ ∀ rate ∈ refresh.fetchAll.chosen.rows, rate.Storable := by
  constructor
  · intro h rate hrate
    have hfind := Table.find_of_mem (show rate ∈ refresh.fetchAll.chosen from hrate)
    rw [find_chosen] at hfind
    split_ifs at hfind with hw
    exact h _ hw rate hfind
  · intro h code hw rate hrate
    have hfind := refresh.find_chosen code
    rw [if_pos hw, hrate] at hfind
    exact h rate (Table.mem_of_find hfind)

/-- **A refresh goes through** exactly when every rate it chooses fits its columns. -/
lemma execute_isOk_iff {before : RateTable} :
    (∃ p, refresh.execute before = .ok p) ↔ refresh.AllStorable := by
  have hstore : (∃ p, refresh.execute before = .ok p) ↔
      ∃ after, refresh.store refresh.fetchAll.chosen before = .ok after := by
    constructor
    · rintro ⟨p, h⟩
      obtain ⟨after, hafter, -⟩ := Checked.bind_eq_ok.mp h
      exact ⟨after, hafter⟩
    · rintro ⟨after, hafter⟩
      exact ⟨_, Checked.bind_eq_ok.mpr ⟨after, hafter, rfl⟩⟩
  rw [hstore, allStorable_iff]
  unfold store
  split_ifs with hnil
  · simp [hnil]
  · exact save_isOk_iff

/-- **What is stored afterwards.** A currency with a chosen rate has its row, and every other
currency has the row it had. -/
lemma find_execute {before after : RateTable} {result : RefreshResult}
    (h : refresh.execute before = .ok (result, after)) (code : String) :
    match (if code ∈ wantedCurrencies then refresh.firstPublished code else none) with
    | some rate => ∃ row, rate.toRecord refresh.now = .ok row ∧ after.find code = some row
    | none => after.find code = before.find code := by
  rw [← find_chosen]
  obtain ⟨table, htable, heq⟩ := Checked.bind_eq_ok.mp h
  obtain ⟨-, rfl⟩ := Prod.mk.inj (Checked.pure_eq_ok.mp heq)
  unfold store at htable
  split_ifs at htable with hnil
  · obtain rfl := Except.ok.inj htable
    have hfind : refresh.fetchAll.chosen.find code = none := by
      rw [Table.find, hnil, List.find?_nil]
    rw [hfind]
  · exact find_save htable code

/-- The result of a refresh. -/
lemma result_execute {before after : RateTable} {result : RefreshResult}
    (h : refresh.execute before = .ok (result, after)) :
    result = ⟨sortedCodes refresh.fetchAll.chosen, refresh.failedSources⟩ := by
  obtain ⟨table, -, heq⟩ := Checked.bind_eq_ok.mp h
  obtain ⟨rfl, -⟩ := Prod.mk.inj (Checked.pure_eq_ok.mp heq)
  rw [fetchAll_failed]

/-- The codes a refresh reports are those with a chosen rate. -/
lemma mem_sortedCodes {code : String} : code ∈ sortedCodes refresh.fetchAll.chosen ↔
    code ∈ wantedCurrencies ∧ (refresh.firstPublished code).isSome := by
  rw [sortedCodes, List.mem_insertionSort, List.mem_map]
  constructor
  · rintro ⟨rate, hrate, rfl⟩
    have hfind := Table.find_of_mem (show rate ∈ refresh.fetchAll.chosen from hrate)
    rw [find_chosen] at hfind
    split_ifs at hfind with hw
    exact ⟨hw, by rw [hfind]; rfl⟩
  · rintro ⟨hw, hsome⟩
    obtain ⟨rate, hrate⟩ := Option.isSome_iff_exists.mp hsome
    have hfind := refresh.find_chosen code
    rw [if_pos hw, hrate] at hfind
    exact ⟨rate, Table.mem_of_find hfind, Table.key_of_find hfind⟩

/-- The reported codes are in order and each is there once. -/
lemma sortedCodes_sorted (chosen : Table ExchangeRate.code) :
    (sortedCodes chosen).Pairwise (· < ·) := by
  have hle : (sortedCodes chosen).Pairwise (· ≤ ·) := List.pairwise_insertionSort _ _
  have hnodup : (sortedCodes chosen).Nodup :=
    (List.perm_insertionSort _ _).nodup_iff.mpr chosen.nodup
  exact (hle.and hnodup).imp fun h => lt_of_le_of_ne h.1 h.2

/-! ## The promise -/

/-- **One refresh.** A refresh keeps its promise exactly when what it chooses can be stored and is
undisputed.

**Proof sketch.** A refresh that goes through stores the first published rate of every wanted
currency that has one. Everything promised follows from that, except that the rates of a failed
source stay: they stay exactly where no other source published the currency differently. -/
lemma keeps_iff {before : RateTable} :
    refresh.Keeps before ↔ refresh.AllStorable ∧ refresh.Undisputed before := by
  constructor
  · rintro ⟨result, after, hexec, hpromise⟩
    refine ⟨refresh.execute_isOk_iff.mp ⟨_, hexec⟩, ?_⟩
    intro code hw row hrow hfailed rate hrate
    have hfind := refresh.find_execute hexec code
    rw [if_pos hw, hrate] at hfind
    obtain ⟨row', hrow', hafter⟩ := hfind
    have hkept := hpromise.kept code row hrow hfailed
    rw [hafter, Option.map_some, (toRecord_eq_ok hrow').2.1] at hkept
    exact Option.some.inj hkept
  · rintro ⟨hstorable, hundisputed⟩
    have hgoes : ∃ p, refresh.execute before = .ok p := refresh.execute_isOk_iff.mpr hstorable
    obtain ⟨⟨result, after⟩, hexec⟩ := hgoes
    have hafter := refresh.find_execute hexec
    have hresult := refresh.result_execute hexec
    have hmem : ∀ code, code ∈ result.saved ↔
        code ∈ wantedCurrencies ∧ (refresh.firstPublished code).isSome := by
      intro code
      rw [hresult]
      exact refresh.mem_sortedCodes
    -- A currency is written or left alone.
    have hwritten : ∀ code ∈ wantedCurrencies, ∀ rate, refresh.firstPublished code = some rate →
        ∃ row, rate.toRecord refresh.now = .ok row ∧ after.find code = some row := by
      intro code hw rate hrate
      have h := hafter code
      rwa [if_pos hw, hrate] at h
    have hleft : ∀ code, code ∉ wantedCurrencies ∨ refresh.firstPublished code = none →
        after.find code = before.find code := by
      intro code h
      have h' := hafter code
      rcases h with hw | hnone
      · rwa [if_neg hw] at h'
      · rwa [hnone, ite_self] at h'
    have hcases : ∀ code, code ∉ result.saved →
        code ∉ wantedCurrencies ∨ refresh.firstPublished code = none := by
      intro code h
      rw [hmem, not_and_or] at h
      exact h.imp_right fun h => Option.not_isSome_iff_eq_none.mp h
    refine ⟨result, after, hexec, ?_⟩
    constructor
    case kept =>
      intro code row hrow hfailed
      by_cases hsaved : code ∈ result.saved
      · obtain ⟨hw, hsome⟩ := (hmem code).mp hsaved
        obtain ⟨rate, hrate⟩ := Option.isSome_iff_exists.mp hsome
        obtain ⟨row', hrow', hfind⟩ := hwritten code hw rate hrate
        rw [hfind, Option.map_some, (toRecord_eq_ok hrow').2.1,
          hundisputed code hw row hrow hfailed rate hrate]
      · rw [hleft code (hcases code hsaved), hrow, Option.map_some]
    case replaced =>
      intro code hw _ rate hrate
      obtain ⟨row, hrow, hfind⟩ := hwritten code hw rate hrate
      rw [hfind, Option.map_some, (toRecord_eq_ok hrow).2.1]
    case unchanged => exact hleft
    case stored_wanted =>
      intro row hrow
      by_cases hw : row.currency ∈ wantedCurrencies
      · exact .inr hw
      · have hfind := Table.find_of_mem hrow
        rw [hleft _ (.inl hw)] at hfind
        exact .inl (Table.mem_of_find hfind)
    case saved_sorted =>
      rw [hresult]
      exact sortedCodes_sorted _
    case saved_written =>
      intro code hsaved
      obtain ⟨hw, hsome⟩ := (hmem code).mp hsaved
      obtain ⟨rate, hrate⟩ := Option.isSome_iff_exists.mp hsome
      obtain ⟨row, hrow, hfind⟩ := hwritten code hw rate hrate
      rw [hfind, Option.map_some, (toRecord_eq_ok hrow).2.2]
    case unsaved => exact fun code h => hleft code (hcases code h)
    case failed => rw [hresult]

end RefreshExchangeRates

/-! ## Runs -/

/-- The stored rates after the first refreshes of a run. -/
def ratesAfter (table : RateTable) (run : List RefreshExchangeRates) : RateTable :=
  run.foldl (fun table refresh => refresh.tableAfter table) table

/-- **Rate refresh.** Over any run of refreshes, from any stored rates, every refresh keeps its
promise exactly when what each chooses can be stored and is undisputed when its turn comes. -/
theorem refreshes_as_documented_iff (table : RateTable) (run : List RefreshExchangeRates) :
    (∀ done refresh, done ++ [refresh] <+: run → refresh.Keeps (ratesAfter table done)) ↔
      ∀ done refresh, done ++ [refresh] <+: run →
        refresh.AllStorable ∧ refresh.Undisputed (ratesAfter table done) := by
  simp only [RefreshExchangeRates.keeps_iff]

/-- A dollar rate stored from the ECB. -/
def storedDollar : RateTable :=
  ⟨[⟨"USD", 11411000000, ⟨739883, by decide⟩, "ECB", 1000, by decide, by decide, known_ecb⟩],
    by decide⟩

/-- The ECB fails and the NBU publishes a dollar rate of its own. -/
def ecbDown : RefreshExchangeRates where
  sources := [⟨"ECB", none⟩,
    ⟨"NBU", some [⟨dollar, ⟨1141099, -6⟩, ⟨739884, by decide⟩, "NBU", by decide⟩]⟩]
  now := 2000

/-- The dollar rate of the source that failed does not stay. -/
theorem ecbDown_not_keeps : ¬ ecbDown.Keeps storedDollar ∧
    ((ecbDown.tableAfter storedDollar).find "USD").map ExchangeRateRecord.source = some "NBU" := by
  refine ⟨?_, by decide +kernel⟩
  rintro ⟨result, after, hexec, hpromise⟩
  have hkept := hpromise.kept "USD" _ (show storedDollar.find "USD" = some _ from rfl)
    (by decide +kernel)
  have hafter : after = ecbDown.tableAfter storedDollar := by
    rw [RefreshExchangeRates.tableAfter, hexec]
  rw [hafter] at hkept
  revert hkept
  decide +kernel

/-- A refresh stores no currency that is not wanted, whether or not it goes through. -/
lemma RefreshExchangeRates.mem_tableAfter {refresh : RefreshExchangeRates} {table : RateTable}
    {row : ExchangeRateRecord} (h : row ∈ refresh.tableAfter table) :
    row ∈ table ∨ row.currency ∈ wantedCurrencies := by
  unfold tableAfter at h
  cases hexec : refresh.execute table with
  | error e =>
    rw [hexec] at h
    exact .inl h
  | ok p =>
    obtain ⟨result, after⟩ := p
    rw [hexec] at h
    by_cases hw : row.currency ∈ wantedCurrencies
    · exact .inr hw
    · have hafter := refresh.find_execute hexec row.currency
      rw [if_neg hw] at hafter
      exact .inl (Table.mem_of_find (hafter.symm.trans (Table.find_of_mem h)))

/-- **The euro is never stored**, nor is a currency outside the catalogue, by any run. -/
theorem mem_ratesAfter {table : RateTable} {run : List RefreshExchangeRates}
    {row : ExchangeRateRecord} (h : row ∈ ratesAfter table run) :
    row ∈ table ∨ row.currency ∈ wantedCurrencies := by
  induction run generalizing table with
  | nil => exact .inl h
  | cons refresh run ih =>
    rcases ih h with h | h
    · exact RefreshExchangeRates.mem_tableAfter h
    · exact .inr h

end MintFlow
