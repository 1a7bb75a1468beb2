import MintFlow.Analytics.ConvertedDashboard
import MintFlow.Persistence.ExpenseHistory
import MintFlow.Rates.Exactness

set_option relaxedAutoImplicit false
set_option autoImplicit false

/-!
# The largest Expense of a converted dashboard

The converted dashboard compares the largest Expenses of the currencies, each the one with the
greatest original amount. A smaller original amount may convert to the same, and then be the later
one: the Expense that is shown is the largest of all only when this does not happen to the largest.

## Main definitions

* `MintFlow.ConvertTo.rank` — the order that "largest" is meant in.
* `MintFlow.ConvertTo.IsLargest` — what the dashboard is meant to show.
* `MintFlow.ConvertTo.Unrivalled` — the largest has the greatest original amount in its currency.

## Main results

* `MintFlow.converted_largest_iff` — **The largest Expense**: it is the one that is shown exactly
  when it is unrivalled.
-/

namespace MintFlow

open Transact Transact.Prog

/-! ## Order -/

/-- What stands first, when the rows are ordered by a value from above, has the greatest value. -/
lemma head?_orderBy {α β : Type} [LinearOrder β] {le : α → α → Bool} (value : α → β)
    (hle : ∀ a b, le a b = true ↔ value b ≤ value a) {rows : List α} {r : α}
    (h : (orderBy le rows).head? = some r) : r ∈ rows ∧ ∀ r' ∈ rows, value r' ≤ value r := by
  have hdual : ∀ a b, le a b = true ↔
      OrderDual.toDual (value a) ≤ OrderDual.toDual (value b) := fun a b => hle a b
  have hsorted := pairwise_orderBy hdual rows
  have hperm := perm_orderBy le rows
  cases hrows : orderBy le rows with
  | nil =>
    rw [hrows] at h
    cases h
  | cons first rest =>
    rw [hrows] at h hsorted hperm
    obtain rfl := Option.some.inj h
    refine ⟨hperm.mem_iff.mp List.mem_cons_self, fun r' hr' => ?_⟩
    rcases List.mem_cons.mp (hperm.mem_iff.mpr hr') with rfl | hmem
    · exact le_rfl
    · exact List.rel_of_pairwise_cons hsorted hmem

/-- Something stands first among some rows. -/
lemma head?_orderBy_isSome {α : Type} (le : α → α → Bool) {rows : List α} {r : α} (h : r ∈ rows) :
    ∃ first, (orderBy le rows).head? = some first := by
  have hmem := (perm_orderBy le rows).mem_iff.mpr h
  cases hrows : orderBy le rows with
  | nil =>
    rw [hrows] at hmem
    cases hmem
  | cons first rest => exact ⟨first, rfl⟩

/-- The order of a query for the largest Expense. -/
def Expense.sizeKey (e : Expense) : ℤ ×ₗ Date ×ₗ Instant ×ₗ ℕ := toLex (e.money.minorUnits, e.sortKey)

/-- The largest Expense of a currency is the largest by amount, date, creation and id. -/
lemma largestExpense_spec {expenses : List Expense} {ownerId : UUID} {period : DashboardPeriod}
    {c : CurrencyCode} {e : Expense} (h : largestExpense expenses ownerId period c = some e) :
    ∀ e' ∈ activeIn expenses ownerId period none, e'.money.currency = c →
      e'.sizeKey ≤ e.sizeKey := by
  intro e' he' hcurrency
  refine (head?_orderBy Expense.sizeKey (fun a b => ?_) h).2 e' ?_
  · exact thenBy_iff decide_eq_true_iff (newestFirst_iff a b)
  · rw [activeIn_some]
    exact List.mem_filter.mpr ⟨he', decide_eq_true hcurrency⟩

/-- A currency with an Expense has a largest one. -/
lemma largestExpense_isSome {expenses : List Expense} {ownerId : UUID} {period : DashboardPeriod}
    {e : Expense} (h : e ∈ activeIn expenses ownerId period none) :
    ∃ e', largestExpense expenses ownerId period e.money.currency = some e' := by
  refine head?_orderBy_isSome _ (r := e) ?_
  rw [activeIn_some]
  exact List.mem_filter.mpr ⟨h, decide_eq_true rfl⟩

namespace ConvertTo

variable (converter : ConvertTo)

/-- What an Expense converts to. -/
def valueOf (e : Expense) : ℤ := converter.value e.money.minorUnits e.money.currency

/-- The order that "largest" is meant in: by converted amount, then date, creation and id. -/
def rank (e : Expense) : ℤ ×ₗ Date ×ₗ Instant ×ₗ ℕ := toLex (converter.valueOf e, e.sortKey)

/-- An Expense has the greatest rank among some, all of which convert. -/
def Largest (es : List Expense) (e : Expense) : Prop :=
  e ∈ es ∧ ∀ e' ∈ es, converter.Defined e'.money.minorUnits e'.money.currency ∧
    converter.rank e' ≤ converter.rank e

/-- What is meant to be shown: the largest of the Expenses with its converted amount, and nothing
only when there are none. -/
def IsLargest (es : List Expense) : Option LargestExpense → Prop
  | none => es = []
  | some shown => ∃ e, converter.Largest es e ∧ shown = largestExpenseOf e (some (converter.valueOf e))

/-- The largest Expense has the greatest original amount in its currency. -/
def Unrivalled (es : List Expense) : Prop :=
  ∀ e, converter.Largest es e → ∀ e' ∈ es, e'.money.currency = e.money.currency →
    e'.money.minorUnits ≤ e.money.minorUnits

end ConvertTo

/-! ## The two maxima -/

section Largest

variable {converter : ConvertTo} {expenses : Table Expense.id} {ownerId : UUID}
  {period : DashboardPeriod}

/-- The order of the candidates. -/
lemma largerCandidate_iff (a b : ℤ × Expense) :
    largerCandidate a b = true ↔
      (toLex (b.1, b.2.sortKey) : ℤ ×ₗ Date ×ₗ Instant ×ₗ ℕ) ≤ toLex (a.1, a.2.sortKey) :=
  thenBy_iff decide_eq_true_iff (newestFirst_iff a.2 b.2)

/-- A conversion of an amount that is smaller has its value, which is no greater. -/
lemma defined_of_le {m n : ℤ} {c : CurrencyCode} (hm : 0 ≤ m) (h : m ≤ n)
    (hn : converter.Defined n c) :
    converter.Defined m c ∧ converter.value m c ≤ converter.value n c := by
  obtain ⟨m, rfl⟩ := Int.eq_ofNat_of_zero_le hm
  obtain ⟨n, rfl⟩ := Int.eq_ofNat_of_zero_le (hm.trans h)
  obtain ⟨u, hle, hu⟩ := ExchangeRates.convert_mono (by exact_mod_cast h : m ≤ n) hn
  have hvalue : converter.value m c = u := by
    unfold ConvertTo.value
    rw [hu]
  exact ⟨by rw [ConvertTo.Defined, hvalue]; exact hu, hvalue ▸ hle⟩

/-- The largest of a currency is a candidate, and it outranks the others of the currency up to the
tie-breaks of equal conversions.

**Proof sketch.** The currency of the Expense is among those the totals show, so it has a largest
Expense (`largestExpense_isSome`), of at least its amount. Conversion is monotone within a currency,
and defined below an amount it is defined of (`defined_of_le`). -/
lemma candidate_of_mem
    (hdefined : ∀ t ∈ converter.presentIn expenses.rows ownerId period,
      converter.LargestDefined expenses.rows ownerId period t) {e : Expense}
    (he : e ∈ converter.among (activeIn expenses.rows ownerId period none)) :
    ∃ top ∈ largestAmong expenses.rows ownerId period
        (converter.presentIn expenses.rows ownerId period),
      top ∈ converter.among (activeIn expenses.rows ownerId period none) ∧
        top.money.currency = e.money.currency ∧ e.sizeKey ≤ top.sizeKey ∧
        converter.Defined e.money.minorUnits e.money.currency ∧
        converter.valueOf e ≤ converter.valueOf top := by
  obtain ⟨hactive, hcan⟩ := List.mem_filter.mp he
  obtain ⟨t, ht, hcurrency⟩ :=
    List.mem_map.mp ((presentIn_groups converter expenses.rows ownerId period).covers e he)
  obtain ⟨top, htop⟩ := largestExpense_isSome hactive
  rw [← hcurrency] at htop
  have htop' : top ∈ largestAmong expenses.rows ownerId period
      (converter.presentIn expenses.rows ownerId period) := List.mem_filterMap.mpr ⟨t, ht, htop⟩
  obtain ⟨hmem, hsame⟩ := mem_of_largestExpense htop
  have hsize := largestExpense_spec htop e hactive hcurrency.symm
  have hle : e.money.minorUnits ≤ top.money.minorUnits := by
    rcases (Prod.Lex.toLex_le_toLex.mp hsize) with hlt | ⟨heq, -⟩
    · exact hlt.le
    · exact heq.le
  have hsame' : top.money.currency = e.money.currency := hsame.trans hcurrency
  have htopdef := hdefined t ht top htop
  rw [hsame'] at htopdef
  obtain ⟨hedef, hvalue⟩ := defined_of_le e.money.nonneg hle htopdef
  refine ⟨top, htop', (mem_largestAmong htop').1, hsame', hsize, hedef, ?_⟩
  unfold ConvertTo.valueOf
  rw [hsame']
  exact hvalue

/-- **The two maxima.** The largest of the candidates is the largest of all Expenses exactly when
that has the greatest original amount in its currency.

**Proof sketch.** The candidates are ordered, and the first of them outranks the others
(`head?_orderBy`). If it is the largest of all, it is the only one, as no two Expenses share a sort
key, and a candidate has the greatest amount of its currency. Conversely let `best` outrank all
Expenses. The candidate of its currency has no lesser amount, and none greater by assumption, so it
converts to the same value and is not created earlier: it is `best`, which the first candidate then
is. -/
lemma isLargest_iff
    (hdefined : ∀ t ∈ converter.presentIn expenses.rows ownerId period,
      converter.LargestDefined expenses.rows ownerId period t) :
    converter.IsLargest (converter.among (activeIn expenses.rows ownerId period none))
        ((orderBy largerCandidate ((largestAmong expenses.rows ownerId period
          (converter.presentIn expenses.rows ownerId period)).map fun e =>
            (converter.valueOf e, e))).head?.map fun c => largestExpenseOf c.2 (some c.1)) ↔
      converter.Unrivalled (converter.among (activeIn expenses.rows ownerId period none)) := by
  set es := converter.among (activeIn expenses.rows ownerId period none) with hes
  set tops := largestAmong expenses.rows ownerId period
    (converter.presentIn expenses.rows ownerId period) with htops
  have hrow : ∀ {e}, e ∈ es → e ∈ expenses := fun he => (mem_activeIn (List.mem_filter.mp he).1).1
  have hunique : ∀ {a b}, a ∈ es → b ∈ es → a.sortKey = b.sortKey → a = b := fun ha hb h =>
    eq_of_sortKey_eq (hrow ha) (hrow hb) h
  cases hfirst : (orderBy largerCandidate (tops.map fun e => (converter.valueOf e, e))).head? with
  | none =>
    have hes : es = [] := by
      refine List.eq_nil_iff_forall_not_mem.mpr fun e he => ?_
      obtain ⟨top, htop, -⟩ := candidate_of_mem hdefined he
      obtain ⟨first, h⟩ := head?_orderBy_isSome largerCandidate
        (List.mem_map_of_mem (f := fun e => (converter.valueOf e, e)) htop)
      rw [hfirst] at h
      cases h
    exact iff_of_true hes fun e he => by
      rw [hes] at he
      cases he.1
  | some first =>
    obtain ⟨hmem, hmax⟩ := head?_orderBy
      (fun c : ℤ × Expense => (toLex (c.1, c.2.sortKey) : ℤ ×ₗ Date ×ₗ Instant ×ₗ ℕ))
      largerCandidate_iff hfirst
    obtain ⟨c, hc, rfl⟩ := List.mem_map.mp hmem
    obtain ⟨hces, t, -, hlargest⟩ := mem_largestAmong hc
    have hcmax : ∀ top ∈ tops, converter.rank top ≤ converter.rank c := fun top htop =>
      hmax _ (List.mem_map_of_mem (f := fun e => (converter.valueOf e, e)) htop)
    constructor
    · -- What is shown is a candidate, which has the greatest original amount of its currency.
      rintro ⟨e, he, hshown⟩ e' he' e'' he'' hcurrency
      have hid : c.id = e.id := congrArg LargestExpense.expenseId hshown
      have hce : c = e := expenses.eq_of_key_eq (hrow hces) (hrow he.1) hid
      subst hce
      have hrank := le_antisymm (he'.2 c hces).2 (he.2 e' he'.1).2
      have hec : c = e' := hunique hces he'.1 (congrArg (fun k => (ofLex k).2) hrank)
      subst hec
      have hsize := largestExpense_spec hlargest e'' (List.mem_filter.mp he'').1
        (hcurrency.trans (mem_of_largestExpense hlargest).2)
      rcases Prod.Lex.toLex_le_toLex.mp hsize with hlt | ⟨heq, -⟩
      · exact hlt.le
      · exact heq.le
    · intro h
      obtain ⟨best, hbest⟩ := head?_orderBy_isSome
        (fun a b => decide (converter.rank b ≤ converter.rank a)) hces
      obtain ⟨hbestmem, hbestmax⟩ :=
        head?_orderBy converter.rank (fun a b => decide_eq_true_iff) hbest
      have hbestlargest : converter.Largest es best := ⟨hbestmem, fun e' he' => by
        obtain ⟨-, -, -, -, -, hdef, -⟩ := candidate_of_mem hdefined he'
        exact ⟨hdef, hbestmax e' he'⟩⟩
      -- The best is the candidate of its currency.
      obtain ⟨top, htop, htopes, hcurrency, hsize, -, -⟩ := candidate_of_mem hdefined hbestmem
      have hamount := h best hbestlargest top htopes hcurrency
      have hkeys : best.money.minorUnits = top.money.minorUnits ∧ best.sortKey ≤ top.sortKey := by
        rcases Prod.Lex.toLex_le_toLex.mp hsize with hlt | heq
        · exact absurd hamount hlt.not_ge
        · exact heq
      have hvalue : converter.valueOf top = converter.valueOf best := by
        unfold ConvertTo.valueOf
        rw [hkeys.1, hcurrency]
      have hsort : top.sortKey ≤ best.sortKey := by
        rcases Prod.Lex.toLex_le_toLex.mp (hbestmax top htopes) with hlt | heq
        · exact absurd hvalue hlt.ne
        · exact heq.2
      have hsame : best = top := hunique hbestmem htopes (le_antisymm hkeys.2 hsort)
      have hcbest : converter.rank best ≤ converter.rank c := by
        rw [hsame]
        exact hcmax top htop
      exact ⟨c, ⟨hces, fun e' he' => ⟨(hbestlargest.2 e' he').1,
        (hbestlargest.2 e' he').2.trans hcbest⟩⟩, rfl⟩

end Largest

section Execute

variable [PythonRuntime] {converter : ConvertTo} {db : Database} {callerId : UUID} {user : User}
  {tape : Stream' Reading} {period : Option DashboardPeriod} {p : DashboardPeriod}

/-- **The largest Expense.** On any stored rows and rates, a converted dashboard that is built shows
the Expense that is greatest by converted amount, date, creation and id among the convertible ones
of its period, with what it converts to, and none only when there are none, exactly when the Expense
that is so the greatest has the greatest original amount in its currency. Only a clock outside of the
calendar and a conversion with too many digits stop a dashboard from being built.

**Proof sketch.** Conversions are monotone, so the largest of a currency converts to no less than
the others of the currency. Only one that converts to the same and is later can be missed. -/
theorem converted_largest_iff (hstored : db.CategoriesStored)
    (huser : db.users.find callerId = some user)
    (hperiod : periodFor period tape.head.now user.timezone = .ok p) :
    let expensesIn := fun window => activeIn db.expenses.rows callerId window none
    let result :=
      ((buildDashboard callerId period none (some converter)).exec postgres tape ⟨db, db⟩).result
    (user.localToday tape.head.now = .error .overflowError ∧ result = .error .overflowError) ∨
      ∃ today w, user.localToday tape.head.now = .ok today ∧ comparisonWindows p today = .ok w ∧
        ((result = .error .invalidOperation ∧ converter.Overflows (Summed expensesIn p w)) ∨
          ∃ d detail, result = .ok d ∧ d.detail = some detail ∧
            (converter.IsLargest (converter.among (expensesIn p)) detail.insights.largestExpense ↔
              converter.Unrivalled (converter.among (expensesIn p)))) := by
  intro expensesIn result
  cases htoday : user.localToday tape.head.now with
  | error r =>
    have hone : ¬ ((none : Option CurrencyCode).isSome ∧ (some converter).isSome) :=
      fun h => by cases h.1
    obtain rfl := inCalendar_eq_error htoday
    exact .inl ⟨rfl, exec_buildDashboard_noToday hone huser hperiod htoday⟩
  | ok today =>
  obtain ⟨w, hw, -⟩ := comparisonWindows_eq_ok p today
  obtain ⟨layout, hlayout, -⟩ := chartBuckets_eq_ok p
  refine .inr ⟨today, w, rfl, hw, ?_⟩
  rcases @exec_convertedDashboard converter _ db callerId user tape period p today _ _ hstored huser
    hperiod htoday hlayout hw with ⟨hresult, hdefined⟩ | ⟨hresult, hover⟩
  · refine .inr ⟨_, converter.detailOn db callerId p layout w, hresult, rfl, ?_⟩
    have hlargest := isLargest_iff hdefined.largest
    have hcandidates : (converter.candidatesIn db callerId p layout w).1 =
        (largestAmong db.expenses.rows callerId p
          (converter.presentIn db.expenses.rows callerId p)).map fun e =>
            (converter.valueOf e, e) := by
      rw [ConvertTo.candidatesIn, foldl_nextCandidate, List.nil_append]
      rfl
    rw [← hcandidates] at hlargest
    exact hlargest
  · exact .inl ⟨hresult, hover⟩

end Execute

/-- 30 euros are the largest Expense in dollars. -/
theorem converted_largest_iff_spent :
    letI := PythonRuntime.ascii
    let es := toDollars.among (activeIn Database.spent.expenses.rows 7 july none)
    ∃ d detail shown, ((buildDashboard 7 (some july) none (some toDollars)).exec postgres endOfJuly
        ⟨.spent, .spent⟩).result = .ok d ∧
      d.detail = some detail ∧ detail.insights.largestExpense = some shown ∧
      shown.expenseId = 10 ∧ shown.convertedMinorUnits = some 3750 ∧ es.length = 8 ∧
      toDollars.IsLargest es (some shown) := by
  have hrun : ((@buildDashboard PythonRuntime.ascii 7 (some july) none (some toDollars)).exec postgres
      endOfJuly ⟨.spent, .spent⟩).result.toOption.any (fun d => d.detail.any fun detail =>
        detail.insights.largestExpense.any fun shown =>
          decide (shown.expenseId = 10 ∧ shown.convertedMinorUnits = some 3750)) = true := by
    decide +kernel
  rcases @converted_largest_iff PythonRuntime.ascii toDollars .spent 7
    ⟨7, .active, "UTC", some ⟨"EUR", by decide⟩⟩ endOfJuly (some july) july
    categoriesStored_spent rfl rfl with
    ⟨-, herror⟩ | ⟨today, w, -, -, ⟨herror, -⟩ | ⟨d, detail, hd, hdetail, hiff⟩⟩
  · rw [herror] at hrun
    cases hrun
  · rw [herror] at hrun
    cases hrun
  · rw [hd] at hrun
    change d.detail.any _ = true at hrun
    rw [hdetail] at hrun
    change detail.insights.largestExpense.any _ = true at hrun
    obtain ⟨shown, hshown, hrun⟩ := (Option.any_eq_true _ _).mp hrun
    obtain ⟨hid, hconverted⟩ := of_decide_eq_true hrun
    refine ⟨d, detail, shown, hd, hdetail, hshown, hid, hconverted, by decide +kernel, ?_⟩
    rw [hshown] at hiff
    refine hiff.mpr fun e he => ?_
    -- The Expense that ranks highest is that of 30 euros, the largest amount in euros.
    have hthirty : ∀ e ∈ toDollars.among (activeIn Database.spent.expenses.rows 7 july none),
        e.id = 10 → ∀ e' ∈ toDollars.among (activeIn Database.spent.expenses.rows 7 july none),
          e'.money.currency = e.money.currency → e'.money.minorUnits ≤ e.money.minorUnits := by
      decide +kernel
    have houtranked : ∀ e ∈ toDollars.among (activeIn Database.spent.expenses.rows 7 july none),
        e.id ≠ 10 → ∃ e' ∈ toDollars.among (activeIn Database.spent.expenses.rows 7 july none),
          ¬ toDollars.rank e' ≤ toDollars.rank e := by decide +kernel
    refine hthirty e he.1 ?_
    by_contra hne
    obtain ⟨e', he', hrank⟩ := houtranked e he.1 hne
    exact hrank (he.2 e' he').2

/-! ## Yen in cents -/

/-- 150 yen to the euro. -/
def yenToEuros : ConvertTo where
  currency := euro
  rates := ⟨⟨[⟨yen, ⟨150, 0⟩, july29.value, "ECB", by decide⟩], by decide⟩⟩

/-- A store with two Expenses: two yen on the 29th of July 2021 and one yen on the 30th. -/
def Database.inYen : Database :=
  { Database.small with
    expenses := ⟨[⟨9, 7, ⟨2, yen, by decide, by decide⟩, july29, none, "uncategorized", none, .webManual, 5, none, 0, 0,
        none⟩,
      ⟨10, 7, ⟨1, yen, by decide, by decide⟩,
        ⟨⟨738001, by decide⟩, by decide⟩, none, "uncategorized", none, .webManual, 6, none, 0, 0,
        none⟩], by decide⟩ }

/-- Both convert to a cent, and the later one is the largest, but the dashboard shows the other. -/
theorem inYen_not_largest :
    letI := PythonRuntime.ascii
    let es := yenToEuros.among (activeIn Database.inYen.expenses.rows 7 july none)
    ∃ d detail shown, ((buildDashboard 7 (some july) none (some yenToEuros)).exec postgres
        (fun _ => ⟨0, 0, none, 0, none⟩) ⟨.inYen, .inYen⟩).result = .ok d ∧
      d.detail = some detail ∧ detail.insights.largestExpense = some shown ∧
      shown.expenseId = 9 ∧ (∀ e ∈ es, yenToEuros.valueOf e = 1) ∧
      ¬ yenToEuros.IsLargest es (some shown) := by
  refine ⟨_, _, _, rfl, rfl, rfl, by decide +kernel, by decide +kernel, ?_⟩
  rintro ⟨e, he, hshown⟩
  have hid : e.id = 9 := (congrArg LargestExpense.expenseId hshown).symm
  have houtranked : ∀ e ∈ yenToEuros.among (activeIn Database.inYen.expenses.rows 7 july none),
      e.id = 9 → ∃ e' ∈ yenToEuros.among (activeIn Database.inYen.expenses.rows 7 july none),
        ¬ yenToEuros.rank e' ≤ yenToEuros.rank e := by decide +kernel
  obtain ⟨e', he', houtrank⟩ := houtranked e he.1 hid
  exact houtrank (he.2 e' he').2

end MintFlow
