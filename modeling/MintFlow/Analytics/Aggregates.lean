import MintFlow.Analytics.Periods
import MintFlow.Domain.Expense
import MintFlow.Lib.Grouping
import Mathlib.Algebra.Group.Prod
import Mathlib.Data.List.Sort
import Mathlib.Data.List.Dedup

set_option relaxedAutoImplicit false
set_option autoImplicit false

/-!
# Dashboard aggregates

What the analytics queries answer, over confirmed, non-deleted Expenses of one owner in a period.
Totals are exact integers in minor units and never mix currencies: every row carries its currency.
Every query is a function of the rows `activeIn` selects (and, for category names, the categories).

## Main definitions

* `MintFlow.activeIn` — the Expenses a query is about.
* `MintFlow.currencyTotals`, `dailyTotals`, `categoryTotals`, `merchantTotals`,
  `largestExpense` — the queries.
-/

namespace MintFlow

open Transact

/-- The total of one currency. -/
structure CurrencyTotal where
  currency : CurrencyCode
  totalMinorUnits : ℤ
  count : ℕ
deriving DecidableEq

/-- The total of one currency and day. -/
structure DailyTotal where
  currency : CurrencyCode
  transactionDate : Date
  totalMinorUnits : ℤ
  count : ℕ
deriving DecidableEq

/-- The total of one currency and category. -/
structure CategoryTotal where
  currency : CurrencyCode
  categoryKey : String
  categoryName : String
  totalMinorUnits : ℤ
  count : ℕ
deriving DecidableEq

/-- The total of one currency and merchant; no merchant is the group without one. -/
structure MerchantTotal where
  currency : CurrencyCode
  merchant : Option String
  totalMinorUnits : ℤ
  count : ℕ
deriving DecidableEq

/-- `_active_in`: one owner's active Expenses of a period, in one currency when one is given. -/
def activeIn (expenses : List Expense) (ownerId : UUID) (period : DashboardPeriod)
    (currency : Option CurrencyCode) : List Expense :=
  expenses.filter fun e =>
    decide (e.ownerId = ownerId) && e.isActive && period.contains e.transactionDate.value &&
      match currency with
      | none => true
      | some c => decide (e.money.currency = c)

/-- `SUM(amount_minor_units)`. -/
def totalOf (es : List Expense) : ℤ := (es.map fun e => e.money.minorUnits).sum

/-- `GROUP BY key`: each key once, with its rows. -/
def groupBy {κ : Type} [DecidableEq κ] (key : Expense → κ) (es : List Expense) :
    List (κ × List Expense) :=
  (es.map key).dedup.map fun k => (k, es.filter fun e => decide (key e = k))

/-- `ORDER BY`, by a comparison that tells whether a row may stand before another. -/
def orderBy {α : Type} (le : α → α → Bool) (rows : List α) : List α :=
  rows.insertionSort fun a b => le a b

/-- Lexicographic comparison: by the first key, then by the rest. -/
def thenBy {α : Type} [DecidableEq α] (a b : α) (lt : α → α → Bool) (rest : Bool) : Bool :=
  if a = b then rest else lt a b

/-- `currency_totals`. -/
def currencyTotals (expenses : List Expense) (ownerId : UUID) (period : DashboardPeriod) :
    List CurrencyTotal :=
  let rows := (groupBy (fun e => e.money.currency) (activeIn expenses ownerId period none)).map
    fun g => (⟨g.1, totalOf g.2, g.2.length⟩ : CurrencyTotal)
  orderBy (fun a b =>
    thenBy b.totalMinorUnits a.totalMinorUnits (fun x y => decide (x < y))
      (decide (a.currency.value ≤ b.currency.value))) rows

/-- `daily_totals`. -/
def dailyTotals (expenses : List Expense) (ownerId : UUID) (period : DashboardPeriod)
    (currency : Option CurrencyCode) : List DailyTotal :=
  let rows := (groupBy (fun e => (e.money.currency, e.transactionDate.value))
    (activeIn expenses ownerId period currency)).map
      fun g => (⟨g.1.1, g.1.2, totalOf g.2, g.2.length⟩ : DailyTotal)
  orderBy (fun a b =>
    thenBy a.transactionDate b.transactionDate (fun x y => decide (x < y))
      (decide (a.currency.value ≤ b.currency.value))) rows

/-- `category_totals`: the join drops keys without a category. -/
def categoryTotals (categories : List Category) (expenses : List Expense) (ownerId : UUID)
    (period : DashboardPeriod) (currency : Option CurrencyCode) : List CategoryTotal :=
  let rows := (groupBy (fun e => (e.money.currency, e.categoryKey))
    (activeIn expenses ownerId period currency)).filterMap fun g =>
      (categories.find? fun c => decide (c.key = g.1.2)).map fun c =>
        (⟨g.1.1, g.1.2, c.name, totalOf g.2, g.2.length⟩ : CategoryTotal)
  orderBy (fun a b =>
    thenBy b.totalMinorUnits a.totalMinorUnits (fun x y => decide (x < y))
      (thenBy a.categoryKey b.categoryKey (fun x y => decide (x < y))
        (decide (a.currency.value ≤ b.currency.value)))) rows

/-- Merchants in order, the group without one last. -/
def merchantLt : Option String → Option String → Bool
  | some a, some b => decide (a < b)
  | some _, none => true
  | none, _ => false

/-- `merchant_totals`. -/
def merchantTotals (expenses : List Expense) (ownerId : UUID) (period : DashboardPeriod)
    (currency : Option CurrencyCode) : List MerchantTotal :=
  let rows := (groupBy (fun e => (e.money.currency, e.merchant.map MerchantName.value))
    (activeIn expenses ownerId period currency)).map
      fun g => (⟨g.1.1, g.1.2, totalOf g.2, g.2.length⟩ : MerchantTotal)
  orderBy (fun a b =>
    thenBy b.totalMinorUnits a.totalMinorUnits (fun x y => decide (x < y))
      (thenBy a.merchant b.merchant merchantLt
        (decide (a.currency.value ≤ b.currency.value)))) rows

/-- `largest_expense`: greatest amount; ties go to the later date, then later creation, then id. -/
def largestExpense (expenses : List Expense) (ownerId : UUID) (period : DashboardPeriod)
    (currency : CurrencyCode) : Option Expense :=
  (orderBy (fun a b =>
    thenBy b.money.minorUnits a.money.minorUnits (fun x y => decide (x < y))
      (thenBy b.transactionDate.value a.transactionDate.value (fun x y => decide (x < y))
        (thenBy b.createdAt a.createdAt (fun x y => decide (x < y))
          (decide (b.id ≤ a.id))))) (activeIn expenses ownerId period (some currency))).head?

/-- `list_history` without a filter: one owner's newest active Expenses. -/
def recentExpenses (expenses : List Expense) (ownerId : UUID) (limit : ℕ) : List Expense :=
  ((expenses.filter fun e => decide (e.ownerId = ownerId) && e.isActive).insertionSort fun a b =>
    thenBy b.transactionDate.value a.transactionDate.value (fun x y => decide (x < y))
      (thenBy b.createdAt a.createdAt (fun x y => decide (x < y))
        (decide (b.id ≤ a.id)))).take limit

/-! ## Order -/

/-- Ordering rows keeps them. -/
lemma perm_orderBy {α : Type} (le : α → α → Bool) (rows : List α) :
    (orderBy le rows).Perm rows :=
  List.perm_insertionSort _ rows

/-- Rows ordered by a value stand in its order. -/
lemma pairwise_orderBy {α β : Type} [LinearOrder β] {le : α → α → Bool} {value : α → β}
    (hle : ∀ a b, le a b = true ↔ value a ≤ value b) (rows : List α) :
    (orderBy le rows).Pairwise fun a b => value a ≤ value b := by
  have htotal : Std.Total fun a b => le a b = true :=
    ⟨fun a b => by rw [hle, hle]; exact le_total _ _⟩
  have htrans : IsTrans α fun a b => le a b = true :=
    ⟨fun a b c hab hbc => (hle a c).mpr (((hle a b).mp hab).trans ((hle b c).mp hbc))⟩
  exact (List.pairwise_insertionSort (fun a b => le a b = true) rows).imp fun h => (hle _ _).mp h

/-- Lexicographic comparison is the order of pairs. -/
lemma thenBy_iff {α β : Type} [DecidableEq α] [PartialOrder α] [PartialOrder β] {a a' : α}
    {b b' : β} {lt : α → α → Bool} (hlt : lt a a' = true ↔ a < a') {rest : Bool}
    (hrest : rest = true ↔ b ≤ b') :
    thenBy a a' lt rest = true ↔ toLex (a, b) ≤ toLex (a', b') := by
  unfold thenBy
  rw [Prod.Lex.toLex_le_toLex]
  by_cases h : a = a'
  · rw [if_pos h, hrest]
    simp [h]
  · rw [if_neg h, hlt]
    simp [h]

/-- Strict lexicographic comparison is the strict order of pairs. -/
lemma thenBy_iff_lt {α β : Type} [DecidableEq α] [PartialOrder α] [PartialOrder β] {a a' : α}
    {b b' : β} {lt : α → α → Bool} (hlt : lt a a' = true ↔ a < a') {rest : Bool}
    (hrest : rest = true ↔ b < b') :
    thenBy a a' lt rest = true ↔ toLex (a, b) < toLex (a', b') := by
  unfold thenBy
  rw [Prod.Lex.toLex_lt_toLex]
  by_cases h : a = a'
  · rw [if_pos h, hrest]
    simp [h]
  · rw [if_neg h, hlt]
    simp [h]

/-! ## What the queries answer -/

/-- What an Expense adds to a total: its amount, and one to the count. -/
def Expense.figures (e : Expense) : ℤ × ℕ := (e.money.minorUnits, 1)

/-- The exact sum of some Expenses, and how many they are. -/
def figuresOf (es : List Expense) : ℤ × ℕ := (totalOf es, es.length)

def CurrencyTotal.figures (t : CurrencyTotal) : ℤ × ℕ := (t.totalMinorUnits, t.count)

def DailyTotal.figures (t : DailyTotal) : ℤ × ℕ := (t.totalMinorUnits, t.count)

def CategoryTotal.figures (t : CategoryTotal) : ℤ × ℕ := (t.totalMinorUnits, t.count)

def MerchantTotal.figures (t : MerchantTotal) : ℤ × ℕ := (t.totalMinorUnits, t.count)

/-- The figures of Expenses are the sum of the figures of each. -/
lemma sum_figures (es : List Expense) : (es.map Expense.figures).sum = figuresOf es := by
  induction es with
  | nil => rfl
  | cons e es ih =>
    rw [List.map_cons, List.sum_cons, ih]
    refine Prod.ext rfl ?_
    show 1 + es.length = (e :: es).length
    rw [List.length_cons, Nat.add_comm]

/-- The figures of the Expenses with a property. -/
lemma sumWhere_figures (p : Expense → Bool) (es : List Expense) :
    sumWhere Expense.figures p es = figuresOf (es.filter p) :=
  sum_figures _

/-- The Expenses of one currency among those of all. -/
lemma activeIn_some (expenses : List Expense) (ownerId : UUID) (period : DashboardPeriod)
    (c : CurrencyCode) :
    activeIn expenses ownerId period (some c) =
      (activeIn expenses ownerId period none).filter fun e => decide (e.money.currency = c) := by
  unfold activeIn
  rw [List.filter_filter]
  refine List.filter_congr fun e _ => ?_
  rw [Bool.and_true, Bool.and_comm]

variable (expenses : List Expense) (ownerId : UUID) (period : DashboardPeriod)
  (currency : Option CurrencyCode)

/-- The totals by currency account for every Expense. -/
lemma currencyTotals_groups :
    Groups Expense.figures (fun e => e.money.currency) (activeIn expenses ownerId period none)
      CurrencyTotal.currency CurrencyTotal.figures (currencyTotals expenses ownerId period) := by
  refine Groups.perm ?_ (perm_orderBy _ _)
  rw [groupBy, List.map_map]
  exact groups_dedup _ _ _ _ (fun _ => rfl) fun _ => (sumWhere_figures _ _).symm

/-- The totals by day account for every Expense. -/
lemma dailyTotals_groups :
    Groups Expense.figures (fun e => (e.money.currency, e.transactionDate.value))
      (activeIn expenses ownerId period currency) (fun t => (t.currency, t.transactionDate))
      DailyTotal.figures (dailyTotals expenses ownerId period currency) := by
  refine Groups.perm ?_ (perm_orderBy _ _)
  rw [groupBy, List.map_map]
  exact groups_dedup _ _ _ _ (fun _ => rfl) fun _ => (sumWhere_figures _ _).symm

/-- The totals by merchant account for every Expense. -/
lemma merchantTotals_groups :
    Groups Expense.figures (fun e => (e.money.currency, e.merchant.map MerchantName.value))
      (activeIn expenses ownerId period currency) (fun t => (t.currency, t.merchant))
      MerchantTotal.figures (merchantTotals expenses ownerId period currency) := by
  refine Groups.perm ?_ (perm_orderBy _ _)
  rw [groupBy, List.map_map]
  exact groups_dedup _ _ _ _ (fun _ => rfl) fun _ => (sumWhere_figures _ _).symm

/-- The totals by category account for every Expense whose category exists: the join then drops
nothing.

**Proof sketch.** The join finds the category of every group, so the rows are one for each key, up
to their order (`groups_dedup`). -/
lemma categoryTotals_groups {categories : List Category}
    (h : ∀ e ∈ expenses, ∃ c ∈ categories, c.key = e.categoryKey) :
    Groups Expense.figures (fun e => (e.money.currency, e.categoryKey))
      (activeIn expenses ownerId period currency) (fun t => (t.currency, t.categoryKey))
      CategoryTotal.figures (categoryTotals categories expenses ownerId period currency) := by
  refine Groups.perm ?_ (perm_orderBy _ _)
  let es := activeIn expenses ownerId period currency
  let row : CurrencyCode × String → CategoryTotal := fun k =>
    ⟨k.1, k.2, ((categories.find? fun c => decide (c.key = k.2)).map Category.name).getD "",
      totalOf (es.filter fun e => decide ((e.money.currency, e.categoryKey) = k)),
      (es.filter fun e => decide ((e.money.currency, e.categoryKey) = k)).length⟩
  have hjoin : ((groupBy (fun e => (e.money.currency, e.categoryKey)) es).filterMap fun g =>
      (categories.find? fun c => decide (c.key = g.1.2)).map fun c =>
        (⟨g.1.1, g.1.2, c.name, totalOf g.2, g.2.length⟩ : CategoryTotal)) =
      ((es.map fun e => (e.money.currency, e.categoryKey)).dedup).map row := by
    rw [groupBy, List.filterMap_map, ← List.filterMap_eq_map (f := row)]
    refine List.filterMap_congr fun k hk => ?_
    obtain ⟨e, he, rfl⟩ := List.mem_map.mp (List.mem_dedup.mp hk)
    obtain ⟨c, hc, hkey⟩ := h e (List.mem_of_mem_filter he)
    have hsome : (categories.find? fun c => decide (c.key = e.categoryKey)).isSome :=
      List.find?_isSome.mpr ⟨c, hc, decide_eq_true hkey⟩
    obtain ⟨c', hc'⟩ := Option.isSome_iff_exists.mp hsome
    simp only [Function.comp_apply, row, hc', Option.map_some, Option.getD_some]
  rw [show activeIn expenses ownerId period currency = es from rfl, hjoin]
  exact groups_dedup _ _ _ _ (fun _ => rfl) fun _ => (sumWhere_figures _ _).symm

end MintFlow
