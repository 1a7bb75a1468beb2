import MintFlow.Application.ExpenseHistory
import MintFlow.Analytics.Aggregates

set_option relaxedAutoImplicit false
set_option autoImplicit false

/-!
# One page of the history

The repository reads one owner's active Expenses below a position, newest first, and one more than
the page holds, to see whether another page follows.

## Main definitions

* `MintFlow.listHistory` — the page.
* `MintFlow.Expense.sortKey`, `MintFlow.ExpenseHistoryPosition.sortKey` — date, time and identifier
  in lexicographic order.
* `MintFlow.Selected` — the Expenses a reader of a history is shown.

## Main results

* `MintFlow.listHistory_shows` — what a page shows and leaves for the next.
-/

namespace MintFlow

open Transact

/-! ## The query -/

/-- `select_active_expenses`: the single active-record rule for every financial-history read. -/
def selectActiveExpenses (expenses : List Expense) (ownerId : UUID) : List Expense :=
  expenses.filter fun e => decide (e.ownerId = ownerId) && e.isActive

/-- The conditions of a filter. -/
def ExpenseHistoryFilter.admits (historyFilter : ExpenseHistoryFilter) (e : Expense) : Bool :=
  (historyFilter.dateFrom.all fun start => decide (start ≤ e.transactionDate.value)) &&
    (historyFilter.dateTo.all fun stop => decide (e.transactionDate.value ≤ stop)) &&
    (historyFilter.categoryKeys.isEmpty ||
      decide (e.categoryKey ∈ historyFilter.categoryKeys)) &&
    (historyFilter.currencies.isEmpty || decide (e.money.currency ∈ historyFilter.currencies))

/-- `sort_key < after`, by date, then time, then identifier. -/
def ExpenseHistoryPosition.precedes (after : ExpenseHistoryPosition) (e : Expense) : Bool :=
  thenBy e.transactionDate.value after.transactionDate (fun x y => decide (x < y))
    (thenBy e.createdAt after.createdAt.astimezoneUtc (fun x y => decide (x < y))
      (decide (e.id < after.expenseId)))

/-- `ORDER BY transaction_date DESC, created_at DESC, id DESC`. -/
def newestFirst (a b : Expense) : Bool :=
  thenBy b.transactionDate.value a.transactionDate.value (fun x y => decide (x < y))
    (thenBy b.createdAt a.createdAt (fun x y => decide (x < y)) (decide (b.id ≤ a.id)))

/-- The rows below a position. -/
def historyRows (expenses : List Expense) (ownerId : UUID) (historyFilter : ExpenseHistoryFilter)
    (after : Option ExpenseHistoryPosition) : List Expense :=
  (selectActiveExpenses expenses ownerId).filter fun e =>
    historyFilter.admits e && after.all fun position => position.precedes e

/-- `list_history`: one page of active Expenses, newest transaction date first. -/
def listHistory (expenses : List Expense) (ownerId : UUID) (historyFilter : ExpenseHistoryFilter)
    (limit : ℕ) (after : Option ExpenseHistoryPosition) : Checked ExpenseHistoryPage := do
  require (1 ≤ limit ∧ limit ≤ maxHistoryPageSize) "limit must be between 1 and 100"
  let rows := historyRows expenses ownerId historyFilter after
  let records := (orderBy newestFirst rows).take (limit + 1)
  let items := records.take limit
  pure ⟨items, if limit < records.length then items.getLast?.map ExpenseHistoryPosition.after
    else none⟩

/-! ## The order -/

/-- The key of the history order. -/
def Expense.sortKey (e : Expense) : Date ×ₗ Instant ×ₗ ℕ :=
  toLex (e.transactionDate.value, toLex (e.createdAt, e.id.toNat))

/-- The key a position stands for. -/
def ExpenseHistoryPosition.sortKey (position : ExpenseHistoryPosition) : Date ×ₗ Instant ×ₗ ℕ :=
  toLex (position.transactionDate,
    toLex (position.createdAt.astimezoneUtc, position.expenseId.toNat))

@[simp] lemma sortKey_after (e : Expense) : (ExpenseHistoryPosition.after e).sortKey = e.sortKey := by
  simp [ExpenseHistoryPosition.after, ExpenseHistoryPosition.sortKey, Expense.sortKey]

/-- The rows below a position are those with a smaller key. -/
lemma precedes_iff (after : ExpenseHistoryPosition) (e : Expense) :
    after.precedes e = true ↔ e.sortKey < after.sortKey := by
  unfold ExpenseHistoryPosition.precedes Expense.sortKey ExpenseHistoryPosition.sortKey
  have hid : decide (e.id < after.expenseId) = true ↔ e.id.toNat < after.expenseId.toNat := by
    rw [decide_eq_true_eq, BitVec.lt_def]
  have htime : thenBy e.createdAt after.createdAt.astimezoneUtc (fun x y => decide (x < y))
      (decide (e.id < after.expenseId)) = true ↔
        (toLex (e.createdAt, e.id.toNat) : Instant ×ₗ ℕ) <
          toLex (after.createdAt.astimezoneUtc, after.expenseId.toNat) :=
    thenBy_iff_lt decide_eq_true_iff hid
  exact thenBy_iff_lt decide_eq_true_iff htime

/-- The rows stand in descending order of their keys. -/
lemma newestFirst_iff (a b : Expense) : newestFirst a b = true ↔ b.sortKey ≤ a.sortKey := by
  unfold newestFirst Expense.sortKey
  have hid : decide (b.id ≤ a.id) = true ↔ b.id.toNat ≤ a.id.toNat := by
    rw [decide_eq_true_eq, BitVec.le_def]
  have htime : thenBy b.createdAt a.createdAt (fun x y => decide (x < y)) (decide (b.id ≤ a.id)) =
      true ↔ (toLex (b.createdAt, b.id.toNat) : Instant ×ₗ ℕ) ≤ toLex (a.createdAt, a.id.toNat) :=
    thenBy_iff decide_eq_true_iff hid
  exact thenBy_iff decide_eq_true_iff htime

/-- Expenses with one key are one Expense, in a table. -/
lemma eq_of_sortKey_eq {expenses : Table Expense.id} {a b : Expense} (ha : a ∈ expenses)
    (hb : b ∈ expenses) (h : a.sortKey = b.sortKey) : a = b := by
  have hpairs := congrArg (fun k : Date ×ₗ Instant ×ₗ ℕ => (ofLex (ofLex k).2).2) h
  exact expenses.eq_of_key_eq ha hb (BitVec.eq_of_toNat_eq hpairs)

/-! ## What a page shows -/

/-- An Expense that a reader of a history is shown: it is the reader's, active and admitted. -/
def Selected (expenses : Table Expense.id) (ownerId : UUID) (historyFilter : ExpenseHistoryFilter)
    (e : Expense) : Prop :=
  e ∈ expenses ∧ e.ownerId = ownerId ∧ e.isActive ∧ historyFilter.admits e

/-- A page shows the Expenses below a bound: all of them, or so many that the next page starts below
its last. -/
structure ExpenseHistoryPage.Shows (page : ExpenseHistoryPage) (selected : Expense → Prop)
    (limit : ℕ) : Prop where
  /-- Only selected Expenses are shown. -/
  listed : ∀ e ∈ page.items, selected e
  /-- They are in strictly descending order. -/
  descending : page.items.Pairwise fun a b => b.sortKey < a.sortKey
  /-- The last page shows all of them. -/
  last : page.nextPosition = none → ∀ e, selected e → e ∈ page.items
  /-- Another page is full and leaves what is below its last Expense. -/
  full : ∀ position ∈ page.nextPosition, page.items.length = limit ∧
    (∃ e ∈ page.items, position = ExpenseHistoryPosition.after e) ∧
    (∀ e ∈ page.items, position.sortKey ≤ e.sortKey) ∧
    ∀ e, selected e → e ∉ page.items → e.sortKey < position.sortKey

/-- The rows below a position are the selected Expenses with a smaller key. -/
lemma mem_historyRows {expenses : Table Expense.id} {ownerId : UUID}
    {historyFilter : ExpenseHistoryFilter} {after : Option ExpenseHistoryPosition} {e : Expense} :
    e ∈ historyRows expenses.rows ownerId historyFilter after ↔
      Selected expenses ownerId historyFilter e ∧
        ∀ position ∈ after, e.sortKey < position.sortKey := by
  simp only [historyRows, selectActiveExpenses, List.mem_filter, Bool.and_eq_true,
    decide_eq_true_eq, Option.all_eq_true, precedes_iff, Selected, Table.mem_def, Option.mem_def]
  tauto

/-- No row stands twice. -/
lemma nodup_historyRows (expenses : Table Expense.id) (ownerId : UUID)
    (historyFilter : ExpenseHistoryFilter) (after : Option ExpenseHistoryPosition) :
    (historyRows expenses.rows ownerId historyFilter after).Nodup :=
  ((List.Nodup.of_map _ expenses.nodup).filter _).filter _

/-- What a sorted list has behind its first part is below that part. -/
lemma rel_of_not_mem_take {α : Type} {r : α → α → Prop} {xs : List α} (h : xs.Pairwise r) {n : ℕ}
    {x y : α} (hx : x ∈ xs.take n) (hy : y ∈ xs) (hy' : y ∉ xs.take n) : r x y := by
  rw [← List.take_append_drop n xs] at h hy
  exact (List.pairwise_append.mp h).2.2 x hx y ((List.mem_append.mp hy).resolve_left hy')

/-- What a sorted list has is above its last element, or is it. -/
lemma rel_getLast {α : Type} {r : α → α → Prop} (hrefl : ∀ x, r x x) {xs : List α}
    (h : xs.Pairwise r) {last : α} (hlast : last ∈ xs.getLast?) {x : α} (hx : x ∈ xs) :
    r x last := by
  rw [← List.dropLast_append_getLast? last hlast] at h hx
  rcases List.mem_append.mp hx with hx | hx
  · exact (List.pairwise_append.mp h).2.2 x hx last List.mem_cons_self
  · rw [List.mem_singleton.mp hx]
    exact hrefl last

/-- One row more than the page holds tells whether another page follows.

**Proof sketch.** One row more than the limit is queried: if it comes, the page is full and its last
row is where the next one starts. -/
lemma listHistory_eq (expenses : List Expense) (ownerId : UUID)
    (historyFilter : ExpenseHistoryFilter) {limit : ℕ}
    (hlimit : 1 ≤ limit ∧ limit ≤ maxHistoryPageSize) (after : Option ExpenseHistoryPosition)
    {rows : List Expense}
    (hrows : rows = orderBy newestFirst (historyRows expenses ownerId historyFilter after)) :
    listHistory expenses ownerId historyFilter limit after =
      .ok ⟨rows.take limit,
        if limit < rows.length then (rows.take limit).getLast?.map ExpenseHistoryPosition.after
        else none⟩ := by
  have htake : (rows.take (limit + 1)).take limit = rows.take limit := by
    rw [List.take_take, Nat.min_eq_left (Nat.le_succ limit)]
  have hmore : (limit < (rows.take (limit + 1)).length) = (limit < rows.length) := by
    rw [List.length_take]
    simp
  unfold listHistory
  rw [require_eq_ok (u := ()) |>.mpr hlimit, Checked.bind_ok]
  simp only [← hrows]
  show Except.ok (ExpenseHistoryPage.mk ((rows.take (limit + 1)).take limit)
    (if limit < (rows.take (limit + 1)).length then
      ((rows.take (limit + 1)).take limit).getLast?.map ExpenseHistoryPosition.after
    else none)) = _
  rw [htake]
  simp only [hmore]

/-- **One page.** A page shows what is selected below its bound.

**Proof sketch.** The rows are sorted, and no two have one key. If there is no row more than the
page holds, the page is all of them; otherwise the rows it leaves stand behind its last. -/
theorem listHistory_shows (expenses : Table Expense.id) (ownerId : UUID)
    (historyFilter : ExpenseHistoryFilter) {limit : ℕ}
    (hlimit : 1 ≤ limit ∧ limit ≤ maxHistoryPageSize) (after : Option ExpenseHistoryPosition) :
    ∃ page, listHistory expenses.rows ownerId historyFilter limit after = .ok page ∧
      page.Shows (fun e => Selected expenses ownerId historyFilter e ∧
        ∀ position ∈ after, e.sortKey < position.sortKey) limit := by
  have hperm := perm_orderBy newestFirst (historyRows expenses.rows ownerId historyFilter after)
  have hpage := listHistory_eq expenses.rows ownerId historyFilter hlimit after rfl
  have hle : (orderBy newestFirst (historyRows expenses.rows ownerId historyFilter
      after)).Pairwise fun a b => OrderDual.toDual a.sortKey ≤ OrderDual.toDual b.sortKey :=
    pairwise_orderBy newestFirst_iff _
  have hnodup := hperm.nodup_iff.mpr (nodup_historyRows expenses ownerId historyFilter after)
  have hselected : ∀ e, e ∈ orderBy newestFirst (historyRows expenses.rows ownerId historyFilter
      after) ↔ Selected expenses ownerId historyFilter e ∧
        ∀ position ∈ after, e.sortKey < position.sortKey := by
    intro e
    rw [hperm.mem_iff, mem_historyRows]
  generalize orderBy newestFirst (historyRows expenses.rows ownerId historyFilter after) = rows
    at hpage hle hnodup hselected
  have hsorted : rows.Pairwise fun a b => b.sortKey < a.sortKey := by
    refine (hle.and hnodup).imp_of_mem fun {a b} ha hb h => lt_of_le_of_ne h.1 fun heq => h.2 ?_
    exact eq_of_sortKey_eq ((hselected a).mp ha).1.1 ((hselected b).mp hb).1.1 heq.symm
  refine ⟨_, hpage, ?_⟩
  constructor
  case listed =>
    exact fun e he => (hselected e).mp (List.mem_of_mem_take he)
  case descending =>
    exact hsorted.sublist (List.take_sublist _ _)
  case last =>
    intro hnone e he
    have hall : rows.length ≤ limit := by
      by_contra hmore
      rw [if_pos (Nat.not_le.mp hmore)] at hnone
      have hempty := List.getLast?_eq_none_iff.mp (Option.map_eq_none_iff.mp hnone)
      rcases List.take_eq_nil_iff.mp hempty with hzero | hzero
      · omega
      · rw [hzero] at hmore
        exact hmore (Nat.zero_le _)
    rw [List.take_of_length_le hall]
    exact (hselected e).mpr he
  case full =>
    intro position hposition
    by_cases hmore : limit < rows.length
    · simp only [if_pos hmore] at hposition
      obtain ⟨e, he, rfl⟩ := Option.map_eq_some_iff.mp hposition
      have hmem := List.mem_of_getLast? he
      refine ⟨List.length_take_of_le hmore.le, ⟨e, hmem, rfl⟩, fun a ha => ?_, fun e' he' hnot => ?_⟩
      · rw [sortKey_after]
        exact rel_getLast (r := fun a b => b.sortKey ≤ a.sortKey) (fun _ => le_refl _)
          (hle.sublist (List.take_sublist limit _)) he ha
      · rw [sortKey_after]
        exact rel_of_not_mem_take hsorted hmem ((hselected e').mpr he') hnot
    · simp only [if_neg hmore] at hposition
      cases hposition

end MintFlow
