import MintFlow.Analytics.Dashboard
import MintFlow.Application.Alone

set_option relaxedAutoImplicit false
set_option autoImplicit false

/-!
# The dashboard of one currency reconciles

The summary, the buckets, the categories, the merchants and the comparison come from different
queries. On one state of the database they agree: each is the exact sum of the Expenses that belong
to it, and each grouping adds up to the summary.

## Main definitions

* `MintFlow.Reconciled` — the figures of a dashboard's detail are those of some Expenses.

## Main results

* `MintFlow.bucketTotals_eq_ok`, `MintFlow.rankCategories_order`, `MintFlow.topMerchants_sum` — what
  the parts of a dashboard are, from any rows.
* `MintFlow.own_dashboard_reconciles` — **Reconciliation** of the dashboard of one currency.
-/

namespace MintFlow

open Transact Transact.Prog

/-! ## Figures -/

def TimeBucket.figures (b : TimeBucket) : ℤ × ℕ := (b.totalMinorUnits, b.count)

def CategorySpending.figures (c : CategorySpending) : ℤ × ℕ := (c.totalMinorUnits, c.count)

def MerchantSpending.figures (m : MerchantSpending) : ℤ × ℕ := (m.totalMinorUnits, m.count)

def Summary.figures (s : Summary) : ℤ × ℕ := (s.totalMinorUnits, s.count)

/-- Totals and counts add up side by side. -/
lemma sum_pairs {α : Type} (total : α → ℤ) (count : α → ℕ) (rows : List α) :
    (rows.map fun r => (total r, count r)).sum = (sumTotals total rows, sumCounts count rows) := by
  induction rows with
  | nil => rfl
  | cons r rows ih =>
    rw [List.map_cons, List.sum_cons, ih]
    rfl

/-! ## Buckets -/

/-- The items of each of some tiles, added up.

**Proof sketch.** Induction on the tiles: what is in the first is before the second begins. -/
lemma Tiles.sum {α M : Type} [AddCommMonoid M] (f : α → M) (date : α → Date) (xs : List α) {n stop : ℕ}
    {bs : List DashboardPeriod} (h : Tiles n bs stop) :
    (bs.map fun b => sumWhere f (fun x => b.contains (date x)) xs).sum =
      sumWhere f (fun x => decide (n ≤ (date x).ordinal) && decide ((date x).ordinal < stop)) xs := by
  induction h with
  | nil n =>
    rw [List.map_nil, List.sum_nil, sumWhere, List.filter_eq_nil_iff.mpr]
    · rfl
    · intro x _ hx
      simp only [Bool.and_eq_true, decide_eq_true_eq] at hx
      omega
  | @cons n stop b bs hb hbs ih =>
    have hle := b.ordinal_le
    have hstop := hbs.bounds.1
    rw [List.map_cons, List.sum_cons, ih, ← sumWhere_or]
    · refine sumWhere_congr fun x _ => ?_
      rw [Bool.eq_iff_iff]
      simp only [DashboardPeriod.contains, Bool.or_eq_true, Bool.and_eq_true, decide_eq_true_eq]
      show b.dateFrom.ordinal ≤ _ ∧ _ ≤ b.dateTo.ordinal ∨ _ ↔ _
      omega
    · rintro x - ⟨hin, hafter⟩
      simp only [DashboardPeriod.contains, Bool.and_eq_true, decide_eq_true_eq] at hin hafter
      have hto : (date x).ordinal ≤ b.dateTo.ordinal := hin.2
      omega

/-- **Buckets.** Every period has its buckets: they tile it, and each has the figures of the rows
that are in it. -/
lemma bucketTotals_eq_ok (period : DashboardPeriod) (daily : List DailyTotal) :
    ∃ s, bucketTotals period daily = .ok s ∧
      Tiles period.dateFrom.ordinal (s.buckets.map TimeBucket.period) (period.dateTo.ordinal + 1) ∧
      ∀ b ∈ s.buckets, b.figures =
        sumWhere DailyTotal.figures (fun day => b.period.contains day.transactionDate) daily := by
  obtain ⟨layout, hlayout, htiles⟩ := chartBuckets_eq_ok period
  refine ⟨_, by rw [bucketTotals, hlayout]; rfl, ?_, ?_⟩
  · rw [List.map_map]
    exact (List.map_id'' (fun _ => rfl) layout.buckets).symm ▸ htiles
  · intro b hb
    obtain ⟨bucket, -, rfl⟩ := List.mem_map.mp hb
    exact (sum_pairs _ _ _).symm

/-- The buckets add up to the rows that are in the period. -/
lemma bucketTotals_sum {s : SpendingOverTime} {daily : List DailyTotal} {n stop : ℕ}
    (htiles : Tiles n (s.buckets.map TimeBucket.period) stop)
    (hbucket : ∀ b ∈ s.buckets, b.figures =
      sumWhere DailyTotal.figures (fun day => b.period.contains day.transactionDate) daily) :
    (s.buckets.map TimeBucket.figures).sum =
      sumWhere DailyTotal.figures (fun day => decide (n ≤ day.transactionDate.ordinal) &&
        decide (day.transactionDate.ordinal < stop)) daily := by
  rw [← htiles.sum DailyTotal.figures DailyTotal.transactionDate daily, List.map_map]
  exact congrArg List.sum (List.map_congr_left hbucket)

/-! ## Categories -/

/-- Descending totals, and ascending keys where totals are equal. -/
def Ranked {α κ : Type} [LT κ] (total : α → ℤ) (key : α → κ) (rows : List α) : Prop :=
  rows.Pairwise fun a b => total b < total a ∨ total a = total b ∧ key a < key b

/-- Rows with different keys, ordered by rank, are ranked.

**Proof sketch.** The comparison is the lexicographic order on totals, downwards, and keys, and rows
with different keys are never equal in it. -/
lemma ranked_orderBy {α κ : Type} [LinearOrder κ] {total : α → ℤ} {key : α → κ} {rows : List α}
    {le : α → α → Bool} (hle : ∀ a b, le a b =
      thenBy (total b) (total a) (fun x y => decide (x < y)) (decide (key a ≤ key b)))
    (hnodup : (rows.map key).Nodup) : Ranked total key (orderBy le rows) := by
  have hrank : ∀ a b, le a b = true ↔
      toLex (OrderDual.toDual (total a), key a) ≤ toLex (OrderDual.toDual (total b), key b) := by
    intro a b
    rw [hle, thenBy, Prod.Lex.toLex_le_toLex]
    by_cases h : total b = total a
    · rw [if_pos h, decide_eq_true_eq]
      simp [h]
    · rw [if_neg h, decide_eq_true_eq]
      have h' : OrderDual.toDual (total a) ≠ OrderDual.toDual (total b) := fun heq => h heq.symm
      simp [h']
  have hpair := pairwise_orderBy hrank rows
  have hkeys : ((orderBy le rows).map key).Nodup :=
    ((perm_orderBy le rows).map key).nodup_iff.mpr hnodup
  have hne : (orderBy le rows).Pairwise fun a b => key a ≠ key b := List.pairwise_map.mp hkeys
  refine (hpair.and hne).imp ?_
  rintro a b ⟨h, hne⟩
  rcases Prod.Lex.toLex_le_toLex.mp h with h | ⟨h, hkey⟩
  · exact .inl h
  · exact .inr ⟨congrArg OrderDual.ofDual h, lt_of_le_of_ne hkey hne⟩

/-- The ranked categories are the totals there are. -/
lemma rankCategories_perm (totals : List CategoryTotal) (grandTotal : ℤ) :
    (rankCategories totals grandTotal).Perm (totals.map fun t =>
      ⟨t.categoryKey, t.categoryName, t.totalMinorUnits, t.count,
        shareBasisPoints t.totalMinorUnits grandTotal⟩) :=
  (perm_orderBy _ totals).map _

/-- The categories add up to their totals. -/
lemma rankCategories_sum (totals : List CategoryTotal) (grandTotal : ℤ) :
    ((rankCategories totals grandTotal).map CategorySpending.figures).sum =
      (totals.map CategoryTotal.figures).sum := by
  rw [((rankCategories_perm totals grandTotal).map _).sum_eq, List.map_map]
  rfl

/-- The categories are in order of rank. -/
lemma rankCategories_ranked {totals : List CategoryTotal} (grandTotal : ℤ)
    (hnodup : (totals.map CategoryTotal.categoryKey).Nodup) :
    Ranked CategorySpending.totalMinorUnits CategorySpending.categoryKey
      (rankCategories totals grandTotal) :=
  List.pairwise_map.mpr (ranked_orderBy (fun _ _ => rfl) hnodup)

/-! ## Merchants -/

/-- The name of a merchant group, where it has one. -/
def MerchantSpending.name (m : MerchantSpending) : String := m.merchant.getD ""

section Merchants

variable {totals : List MerchantTotal} (grandTotal : ℤ)

/-- The ranked merchants are those with a name. -/
lemma rankMerchants_perm (totals : List MerchantTotal) :
    (rankMerchants totals).Perm (totals.filter fun t => t.merchant.isSome) :=
  perm_orderBy _ _

/-- The merchants listed are ranked ones, each with its figures. -/
lemma mem_topMerchants {m : MerchantSpending} (h : m ∈ (topMerchants totals grandTotal).merchants) :
    ∃ t ∈ totals, t.merchant.isSome ∧ m.merchant = t.merchant ∧ m.figures = t.figures := by
  obtain ⟨t, ht, rfl⟩ := List.mem_map.mp h
  obtain ⟨ht, hsome⟩ := List.mem_filter.mp
    ((rankMerchants_perm totals).mem_iff.mp (List.mem_of_mem_take ht))
  exact ⟨t, ht, hsome, rfl, rfl⟩

/-- At most five merchants are listed. -/
lemma length_topMerchants : (topMerchants totals grandTotal).merchants.length ≤ topMerchantCount := by
  show (List.map _ (List.take _ _)).length ≤ _
  rw [List.length_map]
  exact List.length_take_le _ _

/-- Merchants with different names are ranked by total, then by name. -/
lemma rankMerchants_ranked (hnodup : (totals.map MerchantTotal.merchant).Nodup) :
    Ranked MerchantTotal.totalMinorUnits (fun t => t.merchant.getD "") (rankMerchants totals) := by
  refine ranked_orderBy (fun _ _ => rfl) ?_
  have hnames : ((totals.filter fun t => t.merchant.isSome).map MerchantTotal.merchant).Nodup :=
    hnodup.sublist (List.filter_sublist.map _)
  rw [show (fun t : MerchantTotal => t.merchant.getD "") = (fun o => Option.getD o "") ∘
    MerchantTotal.merchant from rfl, ← List.map_map]
  refine List.Nodup.map_on ?_ hnames
  intro o ho o' ho' heq
  obtain ⟨t, ht, rfl⟩ := List.mem_map.mp ho
  obtain ⟨t', ht', rfl⟩ := List.mem_map.mp ho'
  obtain ⟨n, hn⟩ := Option.isSome_iff_exists.mp (List.mem_filter.mp ht).2
  obtain ⟨n', hn'⟩ := Option.isSome_iff_exists.mp (List.mem_filter.mp ht').2
  rw [hn, hn'] at heq ⊢
  exact congrArg some heq

/-- The merchants listed are in order of rank. -/
lemma topMerchants_ranked (hnodup : (totals.map MerchantTotal.merchant).Nodup) :
    Ranked MerchantSpending.totalMinorUnits MerchantSpending.name
      (topMerchants totals grandTotal).merchants :=
  List.pairwise_map.mpr ((rankMerchants_ranked hnodup).sublist (List.take_sublist _ _))

/-- The totals that are in "Other": those without a name, and those beyond the first five. -/
def restOf (totals : List MerchantTotal) : List MerchantTotal :=
  (rankMerchants totals).drop topMerchantCount ++ totals.filter fun t => t.merchant.isNone

/-- The merchants listed and those in "Other" are the merchants there are. -/
lemma take_restOf_perm (totals : List MerchantTotal) :
    ((rankMerchants totals).take topMerchantCount ++ restOf totals).Perm totals := by
  have hsplit : ((totals.filter fun t => t.merchant.isSome) ++
      totals.filter fun t => !t.merchant.isSome).Perm totals :=
    List.filter_append_perm _ totals
  have hnone : (totals.filter fun t => t.merchant.isNone) =
      totals.filter fun t => !t.merchant.isSome :=
    List.filter_congr fun t _ => by cases t.merchant <;> rfl
  rw [restOf, ← List.append_assoc, List.take_append_drop, hnone]
  exact ((rankMerchants_perm totals).append_right _).trans hsplit

/-- "Other" has the figures of its totals, and is left out when they have no Expenses. -/
lemma topMerchants_other (totals : List MerchantTotal) :
    (topMerchants totals grandTotal).other.map MerchantSpending.figures =
      if sumCounts MerchantTotal.count (restOf totals) = 0 then none
      else some ((restOf totals).map MerchantTotal.figures).sum := by
  show Option.map _ (if sumCounts MerchantTotal.count (restOf totals) = 0 then _ else _) = _
  split_ifs with h
  · rfl
  · rw [Option.map_some, show ((restOf totals).map MerchantTotal.figures).sum = _ from
      sum_pairs _ _ _]
    rfl

/-- The names of the merchants listed. -/
def listedMerchants (m : TopMerchants) : List (Option String) :=
  m.merchants.map MerchantSpending.merchant

/-- "Other" has the totals whose merchant is not listed. -/
lemma restOf_perm (hnodup : (totals.map MerchantTotal.merchant).Nodup) :
    (restOf totals).Perm (totals.filter fun t =>
      decide (t.merchant ∉ listedMerchants (topMerchants totals grandTotal))) := by
  have hlisted : listedMerchants (topMerchants totals grandTotal) =
      ((rankMerchants totals).take topMerchantCount).map MerchantTotal.merchant := by
    show List.map _ (List.map _ _) = _
    rw [List.map_map]
    rfl
  have hperm := take_restOf_perm totals
  have hnodup' := ((hperm.map MerchantTotal.merchant).nodup_iff.mpr hnodup)
  rw [List.map_append, List.nodup_append] at hnodup'
  refine List.Perm.trans ?_ (hperm.filter _)
  rw [List.filter_append, hlisted, List.filter_eq_nil_iff.mpr, List.nil_append,
    List.filter_eq_self.mpr]
  · intro t ht
    refine decide_eq_true fun hmem => ?_
    exact hnodup'.2.2 _ hmem _ (List.mem_map_of_mem ht) rfl
  · intro t ht h
    exact of_decide_eq_true h (List.mem_map_of_mem ht)

/-- Totals that are not empty are left out of "Other" only when there are none. -/
lemma sumCounts_restOf (hpos : ∀ t ∈ totals, 0 < t.count) :
    sumCounts MerchantTotal.count (restOf totals) = 0 ↔ restOf totals = [] := by
  constructor
  · intro h
    by_contra hne
    obtain ⟨t, ht⟩ := List.exists_mem_of_ne_nil _ hne
    have hmem : t ∈ totals :=
      (take_restOf_perm totals).mem_iff.mp (List.mem_append_right _ ht)
    have hle : t.count ≤ sumCounts MerchantTotal.count (restOf totals) :=
      List.le_sum_of_mem (List.mem_map_of_mem ht)
    have := hpos t hmem
    omega
  · intro h
    rw [h]
    rfl

/-- **Merchants.** The merchants listed and "Other" add up to the totals. -/
theorem topMerchants_sum (hpos : ∀ t ∈ totals, 0 < t.count) :
    ((topMerchants totals grandTotal).merchants.map MerchantSpending.figures).sum +
        ((topMerchants totals grandTotal).other.map MerchantSpending.figures).getD 0 =
      (totals.map MerchantTotal.figures).sum := by
  have hlisted : (topMerchants totals grandTotal).merchants.map MerchantSpending.figures =
      ((rankMerchants totals).take topMerchantCount).map MerchantTotal.figures := by
    show List.map _ (List.map _ _) = _
    rw [List.map_map]
    rfl
  have hother : ((topMerchants totals grandTotal).other.map MerchantSpending.figures).getD 0 =
      ((restOf totals).map MerchantTotal.figures).sum := by
    rw [topMerchants_other]
    split_ifs with h
    · rw [(sumCounts_restOf hpos).mp h]
      rfl
    · rfl
  rw [hlisted, hother, ← List.sum_append, ← List.map_append,
    ((take_restOf_perm totals).map _).sum_eq]

end Merchants

/-! ## What the program reads -/

section Reading

variable {s : Alone Database}

/-- A statement that only reads. -/
lemma reads_execute {o : Stmt} {r : o.Resp}
    (h : evaluate o (fun _ => false) s.view = .ok (r, [])) :
    ReadsAs postgres s (execute o) (.ok r) :=
  ReadsAs.perform h

/-- Code that does not raise. -/
lemma reads_checked {α : Type} {x : Checked α} {a : α} (h : x = .ok a) :
    ReadsAs postgres s (checked x) (.ok a) := by
  rw [h]
  exact ReadsAs.pure a

/-- Code that does not raise more than a `ValueError` either. -/
lemma reads_raising {α : Type} {x : Except Raised α} {a : α} (h : x = .ok a) :
    ReadsAs postgres s (raising x) (.ok a) := by
  rw [h]
  exact ReadsAs.pure a

/-- The totals of two windows, compared. -/
def compareTotals (windows : ComparisonWindows) (current previous : ℤ) : Comparison where
  currentPeriod := windows.current
  currentTotalMinorUnits := current
  previousPeriod := windows.previous
  previousTotalMinorUnits := previous
  changeMinorUnits := current - previous
  changeBasisPoints :=
    if 0 < previous then some (shareBasisPoints (current - previous) previous) else none

/-- A comparison, from what a window's total is. -/
def comparisonFrom (windowTotal : DashboardPeriod → UsedCodes → Except Error ((ℤ × ℕ) × UsedCodes))
    (used : UsedCodes) : Option ComparisonWindows → Except Error (Option Comparison × UsedCodes)
  | none => .ok (none, used)
  | some windows => do
    let previous ← windowTotal windows.previous used
    if previous.1.2 = 0 then .ok (none, previous.2)
    else do
      let current ← windowTotal windows.current previous.2
      .ok (some (compareTotals windows current.1.1 previous.1.1), current.2)

/-- The comparison reads the totals of its windows.

**Proof sketch.** Without windows nothing is read; with them two totals are, one after the other. -/
lemma reads_comparisonOf {period : DashboardPeriod} {today : Date}
    {windowTotal : DashboardPeriod → UsedCodes → Program ((ℤ × ℕ) × UsedCodes)}
    {total : DashboardPeriod → UsedCodes → Except Error ((ℤ × ℕ) × UsedCodes)}
    {w : Option ComparisonWindows} (used : UsedCodes)
    (htotal : ∀ window used, ReadsAs postgres s (windowTotal window used) (total window used))
    (hw : comparisonWindows period today = .ok w) :
    ReadsAs postgres s (comparisonOf period windowTotal today used)
      (comparisonFrom total used w) := by
  refine ReadsAs.bind (g := fun w => comparisonFrom total used w) (reads_checked hw) fun w' hw' => ?_
  cases w' with
  | none => exact ReadsAs.pure _
  | some windows =>
    refine ReadsAs.bind (htotal _ _) fun previous _ => ?_
    obtain ⟨⟨previousTotal, previousCount⟩, used'⟩ := previous
    show ReadsAs postgres s (if previousCount = 0 then _ else _)
      (if previousCount = 0 then _ else _)
    by_cases hcount : previousCount = 0
    · rw [if_pos hcount, if_pos hcount]
      exact ReadsAs.pure _
    · rw [if_neg hcount, if_neg hcount]
      exact ReadsAs.bind (htotal _ _) fun current _ => ReadsAs.pure _

/-- What the own-currency comparison gives: there is none, or it has the totals of its windows. -/
def ownComparison (expenses : List Expense) (ownerId : UUID) (currency : CurrencyCode) :
    Option ComparisonWindows → Option Comparison
  | none => none
  | some windows =>
    let total := fun window => totalIn currency (currencyTotals expenses ownerId window)
    if (total windows.previous).2 = 0 then none
    else some (compareTotals windows (total windows.current).1 (total windows.previous).1)

/-- The dashboard of one currency, as a function of the stored rows. -/
def ownDetailOn (db : Database) (ownerId : UUID) (period : DashboardPeriod) (currency : CurrencyCode)
    (spending : SpendingOverTime) (w : Option ComparisonWindows) : DashboardDetail :=
  let expenses := db.expenses.rows
  let total := totalIn currency (currencyTotals expenses ownerId period)
  assembleDetail total.1 total.2 (ownComparison expenses ownerId currency w) spending
    (categoryTotals db.categories.rows expenses ownerId period (some currency))
    (merchantTotals expenses ownerId period (some currency))
    ((largestExpense expenses ownerId period currency).map fun e => largestExpenseOf e none)

/-- A window's total reads the stored rows. -/
lemma reads_ownWindow (ownerId : UUID) (currency : CurrencyCode) (window : DashboardPeriod)
    (used : UsedCodes) :
    ReadsAs postgres s (ownWindow ownerId currency window used)
      (.ok (totalIn currency (currencyTotals s.view.expenses.rows ownerId window), used)) :=
  ReadsAs.andThen (reads_execute rfl) (ReadsAs.pure _)

/-- The dashboard of one currency reads the stored rows.

**Proof sketch.** Each query of the detail reads the stored rows, in the order of the source, and
the comparison reads its windows (`reads_comparisonOf`). -/
lemma reads_ownDetail {ownerId : UUID} {period : DashboardPeriod} {currency : CurrencyCode}
    {today : Date} {spending : SpendingOverTime} {w : Option ComparisonWindows}
    (hspending : bucketTotals period
      (dailyTotals s.view.expenses.rows ownerId period (some currency)) = .ok spending)
    (hw : comparisonWindows period today = .ok w) :
    ReadsAs postgres s (ownDetail ownerId period currency
        (currencyTotals s.view.expenses.rows ownerId period) today)
      (.ok (ownDetailOn s.view ownerId period currency spending w)) := by
  have hcomparison : ReadsAs postgres s
      (comparisonOf period (ownWindow ownerId currency) today [])
      (.ok (ownComparison s.view.expenses.rows ownerId currency w, [])) := by
    have h := reads_comparisonOf [] (reads_ownWindow (s := s) ownerId currency) hw
    convert h using 1
    cases w with
    | none => rfl
    | some windows =>
      simp only [ownComparison, comparisonFrom, Checked.bind_ok]
      split_ifs <;> rfl
  refine ReadsAs.andThen (reads_execute rfl) ?_
  refine ReadsAs.andThen hcomparison ?_
  refine ReadsAs.andThen (reads_execute rfl) ?_
  refine ReadsAs.andThen (reads_checked hspending) ?_
  refine ReadsAs.andThen (reads_execute rfl) ?_
  exact ReadsAs.andThen (reads_execute rfl) (ReadsAs.pure _)

end Reading

/-! ## Reconciliation -/

/-- The Expenses whose merchant is not listed, or that have none. -/
def unlisted (es : List Expense) (m : TopMerchants) : List Expense :=
  es.filter fun e => decide (e.merchant.map MerchantName.value ∉ listedMerchants m)

/-- The figures of a dashboard's detail are those of the Expenses `es`, in a period that is looked
at on the day `today`. -/
structure Reconciled (es : List Expense) (period : DashboardPeriod) (today : Date)
    (detail : DashboardDetail) : Prop where
  /-- The summary has the exact sum and count. -/
  summary : detail.summary.figures = figuresOf es
  /-- The buckets follow each other from the first day of the period to the last. -/
  tiles : Tiles period.dateFrom.ordinal (detail.spendingOverTime.buckets.map TimeBucket.period)
    (period.dateTo.ordinal + 1)
  /-- A bucket has the exact sum and count of its days. -/
  bucket : ∀ b ∈ detail.spendingOverTime.buckets,
    b.figures = figuresOf (es.filter fun e => b.period.contains e.transactionDate.value)
  buckets_sum : (detail.spendingOverTime.buckets.map TimeBucket.figures).sum = detail.summary.figures
  /-- A category has the exact sum and count of its Expenses, of which there are some. -/
  category : ∀ c ∈ detail.categories,
    c.figures = figuresOf (es.filter fun e => decide (e.categoryKey = c.categoryKey)) ∧ 0 < c.count
  categories_sum : (detail.categories.map CategorySpending.figures).sum = detail.summary.figures
  categories_ranked :
    Ranked CategorySpending.totalMinorUnits CategorySpending.categoryKey detail.categories
  /-- A merchant has a name, and the exact sum and count of its Expenses, of which there are some. -/
  merchant : ∀ m ∈ detail.topMerchants.merchants, m.merchant.isSome ∧
    m.figures = figuresOf (es.filter fun e =>
      decide (e.merchant.map MerchantName.value = m.merchant)) ∧ 0 < m.count
  merchants_ranked :
    Ranked MerchantSpending.totalMinorUnits MerchantSpending.name detail.topMerchants.merchants
  merchants_length : detail.topMerchants.merchants.length ≤ topMerchantCount
  /-- "Other" is there when some Expense has no listed merchant, and has the exact sum and count of
  those that do not. -/
  other : detail.topMerchants.other.map MerchantSpending.figures =
    if unlisted es detail.topMerchants = [] then none
    else some (figuresOf (unlisted es detail.topMerchants))
  merchants_sum : (detail.topMerchants.merchants.map MerchantSpending.figures).sum +
    (detail.topMerchants.other.map MerchantSpending.figures).getD 0 = detail.summary.figures
  /-- The comparison of a period that is over by today is about its total. -/
  comparison : ∀ c ∈ detail.summary.comparison, period.dateTo ≤ today →
    c.currentTotalMinorUnits = detail.summary.totalMinorUnits

/-- A period that is over by today is its own current window. -/
lemma current_eq {period : DashboardPeriod} {today : Date} {w : Option ComparisonWindows}
    (hw : comparisonWindows period today = .ok w) (h : period.dateTo ≤ today) :
    ∀ windows ∈ w, windows.current = period := by
  intro windows hwindows
  obtain ⟨w', hw', hcurrent⟩ := comparisonWindows_eq_ok period today
  obtain rfl := Except.ok.inj (hw.symm.trans hw')
  obtain ⟨hfrom, hto⟩ := hcurrent windows hwindows
  exact DashboardPeriod.ext' hfrom (hto.trans (min_eq_left h))

/-- The total of a currency is that of its Expenses. -/
lemma totalIn_currencyTotals (expenses : List Expense) (ownerId : UUID) (period : DashboardPeriod)
    (c : CurrencyCode) : totalIn c (currencyTotals expenses ownerId period) =
      figuresOf (activeIn expenses ownerId period (some c)) := by
  have h := (currencyTotals_groups expenses ownerId period).find? c
  rw [sumWhere_figures, ← activeIn_some] at h
  rw [← h, totalIn]
  cases (currencyTotals expenses ownerId period).find? fun t => decide (t.currency = c) <;> rfl

/-- The Expenses a query is about are in its period. -/
lemma mem_activeIn {expenses : List Expense} {ownerId : UUID} {period : DashboardPeriod}
    {currency : Option CurrencyCode} {e : Expense} (h : e ∈ activeIn expenses ownerId period currency) :
    e ∈ expenses ∧ e.ownerId = ownerId ∧ e.isActive = true ∧
      period.dateFrom ≤ e.transactionDate.value ∧ e.transactionDate.value ≤ period.dateTo ∧
      ∀ c ∈ currency, e.money.currency = c := by
  obtain ⟨hmem, h⟩ := List.mem_filter.mp h
  simp only [DashboardPeriod.contains, Bool.and_eq_true, decide_eq_true_eq] at h
  obtain ⟨⟨⟨howner, hactive⟩, hfrom, hto⟩, hcurrency⟩ := h
  refine ⟨hmem, howner, hactive, hfrom, hto, ?_⟩
  rintro c ⟨⟩
  simpa using hcurrency

/-- The Expenses a query is about are those that are in its period and currency. -/
lemma mem_activeIn_iff {expenses : List Expense} {ownerId : UUID} {period : DashboardPeriod}
    {currency : Option CurrencyCode} {e : Expense} :
    e ∈ activeIn expenses ownerId period currency ↔
      e ∈ expenses ∧ e.ownerId = ownerId ∧ e.isActive = true ∧
        period.dateFrom ≤ e.transactionDate.value ∧ e.transactionDate.value ≤ period.dateTo ∧
        ∀ c ∈ currency, e.money.currency = c := by
  refine ⟨mem_activeIn, ?_⟩
  rintro ⟨hmem, howner, hactive, hfrom, hto, hcurrency⟩
  refine List.mem_filter.mpr ⟨hmem, ?_⟩
  simp only [DashboardPeriod.contains, Bool.and_eq_true, decide_eq_true_eq]
  refine ⟨⟨⟨howner, hactive⟩, hfrom, hto⟩, ?_⟩
  cases currency with
  | none => rfl
  | some c => exact decide_eq_true (hcurrency c rfl)

/-- A group that has Expenses counts them. -/
lemma count_pos_of_groups {κ ρ : Type} [DecidableEq κ] {key : Expense → κ} {es : List Expense}
    {rowKey : ρ → κ} {figures : ρ → ℤ × ℕ} {rows : List ρ}
    (h : Groups Expense.figures key es rowKey figures rows) {row : ρ} (hrow : row ∈ rows) :
    0 < (figures row).2 := by
  obtain ⟨e, he, hkey⟩ := h.inhabited row hrow
  rw [h.exact row hrow, sumWhere_figures]
  exact List.length_pos_of_mem (List.mem_filter.mpr ⟨he, decide_eq_true hkey⟩)

/-- Every Expense has a stored category, as the foreign key of `expenses` demands. -/
def Database.CategoriesStored (db : Database) : Prop :=
  ∀ e ∈ db.expenses.rows, ∃ c ∈ db.categories.rows, c.key = e.categoryKey

/-- **One currency.** The dashboard of a currency reconciles with its Expenses.

**Proof sketch.** Each list of the detail is the groups of the period's Expenses by one key: the
buckets tile the period, the categories are ranked groups, and the merchants are the groups of
which five are shown and the rest is "Other". Groups of one list of Expenses have the same sum
and count. -/
lemma ownDetailOn_reconciled {db : Database} (hstored : db.CategoriesStored) {ownerId : UUID}
    {period : DashboardPeriod} {currency : CurrencyCode} {today : Date} {spending : SpendingOverTime}
    {w : Option ComparisonWindows}
    (hspending : bucketTotals period
      (dailyTotals db.expenses.rows ownerId period (some currency)) = .ok spending)
    (hw : comparisonWindows period today = .ok w) :
    Reconciled (activeIn db.expenses.rows ownerId period (some currency)) period today
      (ownDetailOn db ownerId period currency spending w) := by
  let es := activeIn db.expenses.rows ownerId period (some currency)
  have hes : ∀ e ∈ es, e.money.currency = currency := fun e he =>
    (mem_activeIn he).2.2.2.2.2 currency rfl
  -- The rows of one currency are the groups by what is left of their keys.
  have hdaily : Groups Expense.figures (fun e => e.transactionDate.value) es
      DailyTotal.transactionDate DailyTotal.figures
      (dailyTotals db.expenses.rows ownerId period (some currency)) :=
    (dailyTotals_groups _ _ _ _).rekey Prod.snd fun e he e' he' h =>
      Prod.ext ((hes e he).trans (hes e' he').symm) h
  have hcategory : Groups Expense.figures Expense.categoryKey es
      CategoryTotal.categoryKey CategoryTotal.figures
      (categoryTotals db.categories.rows db.expenses.rows ownerId period (some currency)) :=
    (categoryTotals_groups _ _ _ _ hstored).rekey Prod.snd fun e he e' he' h =>
      Prod.ext ((hes e he).trans (hes e' he').symm) h
  have hmerchant : Groups Expense.figures (fun e => e.merchant.map MerchantName.value) es
      MerchantTotal.merchant MerchantTotal.figures
      (merchantTotals db.expenses.rows ownerId period (some currency)) :=
    (merchantTotals_groups _ _ _ _).rekey Prod.snd fun e he e' he' h =>
      Prod.ext ((hes e he).trans (hes e' he').symm) h
  obtain ⟨spending', hspending', htiles, hbucket⟩ := bucketTotals_eq_ok period
    (dailyTotals db.expenses.rows ownerId period (some currency))
  obtain rfl := Except.ok.inj (hspending.symm.trans hspending')
  have hsummary : (ownDetailOn db ownerId period currency spending w).summary.figures =
      figuresOf es := totalIn_currencyTotals _ _ _ _
  constructor
  case summary => exact hsummary
  case tiles => exact htiles
  case bucket =>
    intro b hb
    rw [hbucket b hb, hdaily.sum_filter b.period.contains, sumWhere_figures]
  case buckets_sum =>
    rw [hsummary]
    refine (bucketTotals_sum htiles hbucket).trans ?_
    rw [← sum_figures, ← sumWhere_true, hdaily.sum_filter fun d => decide (period.dateFrom.ordinal ≤ d.ordinal) &&
        decide (d.ordinal < period.dateTo.ordinal + 1)]
    refine sumWhere_congr fun e he => ?_
    obtain ⟨-, -, -, hfrom, hto, -⟩ := mem_activeIn he
    have hto' : e.transactionDate.value.ordinal ≤ period.dateTo.ordinal := hto
    simp only [Bool.and_eq_true, decide_eq_true_eq]
    exact ⟨hfrom, by omega⟩
  case category =>
    intro c hc
    obtain ⟨t, ht, rfl⟩ := List.mem_map.mp ((rankCategories_perm _ _).mem_iff.mp hc)
    exact ⟨(hcategory.exact t ht).trans (sumWhere_figures _ _), count_pos_of_groups hcategory ht⟩
  case categories_sum =>
    rw [hsummary]
    exact (rankCategories_sum _ _).trans (hcategory.sum.trans (sum_figures es))
  case categories_ranked => exact rankCategories_ranked _ hcategory.nodup
  case merchant =>
    intro m hm
    obtain ⟨t, ht, hsome, hname, hfigures⟩ := mem_topMerchants _ hm
    rw [hname]
    refine ⟨hsome, hfigures.trans ((hmerchant.exact t ht).trans (sumWhere_figures _ _)), ?_⟩
    have hpos := count_pos_of_groups hmerchant ht
    rw [← hfigures] at hpos
    exact hpos
  case merchants_ranked => exact topMerchants_ranked _ hmerchant.nodup
  case merchants_length => exact length_topMerchants _
  case other =>
    have hrest : ((restOf (merchantTotals db.expenses.rows ownerId period (some currency))).map
        MerchantTotal.figures).sum = figuresOf (unlisted es
          (ownDetailOn db ownerId period currency spending w).topMerchants) := by
      rw [((restOf_perm _ hmerchant.nodup).map _).sum_eq]
      exact (hmerchant.sum_filter fun k => decide (k ∉ listedMerchants _)).trans
        (sumWhere_figures _ _)
    have hcount := congrArg Prod.snd ((sum_pairs _ _ _).symm.trans hrest)
    refine (topMerchants_other _ _).trans ?_
    rw [hrest]
    exact if_congr (by rw [show sumCounts _ _ = _ from hcount]; exact List.length_eq_zero_iff)
      rfl rfl
  case merchants_sum =>
    rw [hsummary]
    refine (topMerchants_sum _ fun t ht => count_pos_of_groups hmerchant ht).trans ?_
    exact hmerchant.sum.trans (sum_figures es)
  case comparison =>
    intro c hc hpast
    cases w with
    | none => cases hc
    | some windows =>
      have hcurrent := current_eq hw hpast windows rfl
      have hc' : c ∈ (if _ = 0 then none else some (compareTotals windows _ _)) := hc
      split_ifs at hc' with hcount
      · cases hc'
      · obtain rfl := Option.some.inj hc'
        show (totalIn currency (currencyTotals _ ownerId windows.current)).1 = _
        rw [hcurrent]
        rfl

/-- Without a currency there is nothing to show, and the empty dashboard shows that. -/
lemma emptyDetail_reconciled (period : DashboardPeriod) (today : Date) :
    ∃ detail, emptyDetail period = .ok detail ∧ Reconciled [] period today detail := by
  obtain ⟨spending, hspending, htiles, hbucket⟩ := bucketTotals_eq_ok period []
  refine ⟨_, by rw [emptyDetail, hspending]; rfl, ?_⟩
  constructor
  case summary => rfl
  case tiles => exact htiles
  case bucket => exact fun b hb => hbucket b hb
  case buckets_sum => exact bucketTotals_sum htiles hbucket
  case category => exact fun c hc => absurd hc List.not_mem_nil
  case categories_sum => rfl
  case categories_ranked => exact List.Pairwise.nil
  case merchant => exact fun m hm => absurd hm List.not_mem_nil
  case merchants_ranked => exact List.Pairwise.nil
  case merchants_length => exact Nat.zero_le _
  case other => rfl
  case merchants_sum => rfl
  case comparison => exact fun c hc => by cases hc

/-- The Expenses a dashboard is about: one owner's active ones of the period, in its currency. -/
def Dashboard.expensesOn (d : Dashboard) (db : Database) (ownerId : UUID) : List Expense :=
  activeIn db.expenses.rows ownerId d.period d.currency

/-- A currency is left unselected only if a selection is required or nothing is there to show. -/
lemma present_eq_nil {requested default : Option CurrencyCode} {present : List CurrencyCode}
    (h : resolveCurrency requested present default = (none, false)) : present = [] := by
  unfold resolveCurrency at h
  split at h
  · cases h
  · split at h
    · cases h
    · rfl
    · split at h
      · split_ifs at h <;> cases h
      · cases h

section Execute

variable [PythonRuntime] {db : Database} {callerId : UUID} {user : User} {tape : Stream' Reading}
  {period : Option DashboardPeriod} {p : DashboardPeriod} {today : Date}

/-- The user, the clock, the period, the totals by currency and today come first.

**Proof sketch.** The user is read, and the period and today are dates; the next statement is the
one for the totals by currency. -/
lemma exec_buildDashboard_totals {currency : Option CurrencyCode} {convertTo : Option ConvertTo}
    (hone : ¬ (currency.isSome ∧ convertTo.isSome)) (huser : db.users.find callerId = some user)
    (hperiod : periodFor period tape.head.now user.timezone = .ok p) :
    ((buildDashboard callerId period currency convertTo).exec postgres tape ⟨db, db⟩) =
      (raising (user.localToday tape.head.now) >>= fun today =>
        dashboardOf callerId p currency convertTo user
          (currencyTotals db.expenses.rows callerId p) today).exec postgres tape.tail ⟨db, db⟩ := by
  have hget : ReadsAs postgres ⟨db, db⟩ (execute (.getUser callerId)) (.ok (some user)) :=
    reads_execute (by rw [← huser]; rfl)
  have hchecked : ReadsAs postgres ⟨db, db⟩
      (raising (periodFor period tape.head.now user.timezone)) (.ok p) := reads_raising hperiod
  have htotals : ReadsAs postgres ⟨db, db⟩ (execute (.currencyTotals callerId p))
      (.ok (currencyTotals db.expenses.rows callerId p)) := reads_execute rfl
  unfold buildDashboard
  rw [if_neg hone]
  refine (hget _ _ tape).trans ?_
  show (Prog.bind (raising (periodFor period tape.head.now user.timezone)) _).exec postgres
    tape.tail ⟨db, db⟩ = _
  refine (hchecked _ _ tape.tail).trans ?_
  exact htotals _ _ tape.tail

/-- From today on, what is left to do is to build the dashboard that was asked for. -/
lemma exec_buildDashboard {currency : Option CurrencyCode} {convertTo : Option ConvertTo}
    (hone : ¬ (currency.isSome ∧ convertTo.isSome)) (huser : db.users.find callerId = some user)
    (hperiod : periodFor period tape.head.now user.timezone = .ok p)
    (htoday : user.localToday tape.head.now = .ok today) :
    ((buildDashboard callerId period currency convertTo).exec postgres tape ⟨db, db⟩) =
      (dashboardOf callerId p currency convertTo user (currencyTotals db.expenses.rows callerId p)
        today).exec postgres tape.tail ⟨db, db⟩ :=
  (exec_buildDashboard_totals hone huser hperiod).trans
    (reads_raising htoday _ _ tape.tail)

/-- Without a today there is no dashboard. -/
lemma exec_buildDashboard_noToday {currency : Option CurrencyCode} {convertTo : Option ConvertTo}
    {r : Raised} (hone : ¬ (currency.isSome ∧ convertTo.isSome))
    (huser : db.users.find callerId = some user)
    (hperiod : periodFor period tape.head.now user.timezone = .ok p)
    (htoday : user.localToday tape.head.now = .error r) :
    ((buildDashboard callerId period currency convertTo).exec postgres tape ⟨db, db⟩).result =
      .error (.ofRaised r) := by
  rw [exec_buildDashboard_totals hone huser hperiod, htoday]
  rfl

/-- **The dashboard of one currency** is built, converts nothing, and has a detail that reconciles
with its Expenses unless a currency has to be selected.

**Proof sketch.** What is left after the totals by currency is to read the detail of the currency
that was resolved, or the empty one when there is nothing to show. -/
lemma exec_ownDashboard_reconciled (hstored : db.CategoriesStored)
    (huser : db.users.find callerId = some user) (currency : Option CurrencyCode)
    (hperiod : periodFor period tape.head.now user.timezone = .ok p)
    (htoday : user.localToday tape.head.now = .ok today) :
    ∃ d : Dashboard,
      ((buildDashboard callerId period currency none).exec postgres tape ⟨db, db⟩).result = .ok d ∧
      d.conversion = none ∧ d.period = p ∧ (currency.isSome → d.currency = currency) ∧
      (d.detail = none ↔ d.currencySelectionRequired = true) ∧
      ∀ detail ∈ d.detail, Reconciled (d.expensesOn db callerId) p today detail := by
  have hone : ¬ (currency.isSome ∧ (none : Option ConvertTo).isSome) := fun h => by cases h.2
  let currencies := currencyTotals db.expenses.rows callerId p
  obtain ⟨w, hw, -⟩ := comparisonWindows_eq_ok p today
  rw [exec_buildDashboard hone huser hperiod htoday]
  show ∃ d : Dashboard, ((ownDashboard callerId p _ _ currencies today).exec postgres tape.tail
    ⟨db, db⟩).result = .ok d ∧ _
  cases hselection : resolveCurrency currency (currencies.map CurrencyTotal.currency)
    user.defaultCurrency with
  | mk selected required =>
    -- What is left to do is to read the detail.
    obtain ⟨detail, hreads, hnone, hreconciled⟩ : ∃ detail,
        ReadsAs postgres ⟨db, db⟩
          (ownDashboard.detailOf callerId p selected required currencies today) (.ok detail) ∧
        (detail = none ↔ required = true) ∧
        ∀ x ∈ detail, Reconciled (activeIn db.expenses.rows callerId p selected) p today x := by
      unfold ownDashboard.detailOf
      cases required with
      | true => exact ⟨none, ReadsAs.pure _, by simp, by simp⟩
      | false =>
        cases selected with
        | none =>
          have hpresent := present_eq_nil hselection
          have hes : activeIn db.expenses.rows callerId p none = [] := by
            by_contra hne
            obtain ⟨e, he⟩ := List.exists_mem_of_ne_nil _ hne
            have hmem := (currencyTotals_groups db.expenses.rows callerId p).covers e he
            rw [show (currencyTotals db.expenses.rows callerId p).map CurrencyTotal.currency = []
              from hpresent] at hmem
            exact List.not_mem_nil hmem
          obtain ⟨detail, hdetail, hreconciled⟩ := emptyDetail_reconciled p today
          refine ⟨some detail, ReadsAs.andThen (reads_checked hdetail) (ReadsAs.pure _), by simp, ?_⟩
          rintro x ⟨⟩
          rw [hes]
          exact hreconciled
        | some c =>
          obtain ⟨spending, hspending, -⟩ := bucketTotals_eq_ok p
            (dailyTotals db.expenses.rows callerId p (some c))
          refine ⟨some (ownDetailOn db callerId p c spending w),
            ReadsAs.andThen (reads_ownDetail hspending hw) (ReadsAs.pure _), by simp, ?_⟩
          rintro x ⟨⟩
          exact ownDetailOn_reconciled hstored hspending hw
    have hread : ReadsAs postgres ⟨db, db⟩
        (ownDashboard callerId p selected required currencies today)
        (.ok ⟨p, currencies, selected, required, detail, none⟩) :=
      ReadsAs.andThen hreads (ReadsAs.pure _)
    refine ⟨_, congrArg Outcome.result (hread.exec tape.tail), rfl, rfl, ?_, hnone, hreconciled⟩
    intro hsome
    obtain ⟨c, rfl⟩ := Option.isSome_iff_exists.mp hsome
    exact (congrArg Prod.fst hselection).symm

/-- **Reconciliation.** On any stored rows and any day, the dashboard in one currency is built, and
what it shows is the exact sum and count of the owner's active Expenses of its period and currency,
bucket by bucket, category by category and merchant by merchant.

**Proof sketch.** Each query answers groups of the same Expenses, by different keys, and the groups
of one key add up to the whole. The buckets tile the period, and the merchants listed and "Other"
are a permutation of the merchant groups. -/
theorem own_dashboard_reconciles (hstored : db.CategoriesStored)
    (huser : db.users.find callerId = some user) (currency : Option CurrencyCode)
    (hperiod : periodFor period tape.head.now user.timezone = .ok p)
    (htoday : user.localToday tape.head.now = .ok today) :
    ∃ d : Dashboard,
      ((buildDashboard callerId period currency none).exec postgres tape ⟨db, db⟩).result = .ok d ∧
      d.period = p ∧ (currency.isSome → d.currency = currency) ∧
      (d.detail = none ↔ d.currencySelectionRequired = true) ∧
      ∀ detail ∈ d.detail, Reconciled (d.expensesOn db callerId) p today detail := by
  obtain ⟨d, hbuilt, -, hperiod', hcurrency, hnone, hreconciled⟩ :=
    exec_ownDashboard_reconciled hstored huser currency hperiod htoday
  exact ⟨d, hbuilt, hperiod', hcurrency, hnone, hreconciled⟩

end Execute

/-- July 2021. -/
def july : DashboardPeriod :=
  ⟨⟨737972, by decide⟩, ⟨738002, by decide⟩, by decide, by decide, by decide⟩

/-- An Expense of the user 7. -/
def spending (id : UUID) (money : Money) (day : TransactionDate) (merchant : Option String)
    (categoryKey : String) : Expense :=
  ⟨id, 7, money, day, merchant.bind fun name => (MerchantName.new name).toOption, categoryKey, none,
    .webManual, id, none, 0, 0, none⟩

/-- The 30th of June 2021. -/
def june30 : TransactionDate := ⟨⟨737971, by decide⟩, by decide⟩

/-- The 3rd of July 2021. -/
def july3 : TransactionDate := ⟨⟨737974, by decide⟩, by decide⟩

/-- A store with Expenses of July 2021 in three currencies and three categories: in euros at six
merchants and at none, one of June, one that is deleted and one of another user. -/
def Database.spent : Database :=
  { Database.small with
    categories := ⟨[⟨1, "uncategorized", "Uncategorized", true⟩, ⟨2, "food", "Food", true⟩,
      ⟨3, "travel", "Travel", true⟩], by decide⟩
    expenses := ⟨[spending 9 twelveFifty july29 (some "Corner Shop") "food",
      spending 10 ⟨3000, euro, by decide, by decide⟩ july3 (some "Railways") "travel",
      spending 11 ⟨700, euro, by decide, by decide⟩ july3 (some "Bakery") "food",
      spending 12 ⟨999, euro, by decide, by decide⟩ july29 (some "Cinema") "uncategorized",
      spending 13 ⟨1500, euro, by decide, by decide⟩ july29 (some "Pharmacy") "uncategorized",
      spending 14 ⟨420, euro, by decide, by decide⟩ july29 (some "Kiosk") "uncategorized",
      spending 15 ⟨200, euro, by decide, by decide⟩ july3 none "food",
      spending 16 ⟨2000, dollar, by decide, by decide⟩ july29 (some "Bakery") "food",
      spending 17 ⟨640, yen, by decide, by decide⟩ july29 none "travel",
      spending 18 ⟨1000, euro, by decide, by decide⟩ june30 (some "Kiosk") "food",
      { spending 19 ⟨9900, euro, by decide, by decide⟩ july29 (some "Cinema") "food" with
        deletedAt := some 1 },
      { spending 20 ⟨100, euro, by decide, by decide⟩ july29 (some "Kiosk") "food" with
        ownerId := 8 }], by decide⟩ }

lemma categoriesStored_spent : Database.spent.CategoriesStored := by
  have h : ∀ e ∈ Database.spent.expenses.rows, ∃ c ∈ Database.spent.categories.rows,
      c.key = e.categoryKey := by decide +kernel
  exact h

/-- The readings of the last day of July 2021. -/
def endOfJuly : Stream' Reading := fun _ => ⟨1627689600000000, 0, none, 0, none⟩

/-- The dashboard in euros lists five merchants, puts the other two amounts in "Other", and compares
July with June. -/
theorem own_dashboard_reconciles_spent :
    letI := PythonRuntime.ascii
    ∃ (d : Dashboard) (detail : DashboardDetail),
      ((buildDashboard 7 (some july) none none).exec postgres endOfJuly
        ⟨.spent, .spent⟩).result = .ok d ∧
      d.currencies.length = 3 ∧ d.currency = some euro ∧ d.detail = some detail ∧
      detail.summary.totalMinorUnits = 8069 ∧
      detail.categories.map CategorySpending.totalMinorUnits = [3000, 2919, 2150] ∧
      detail.topMerchants.merchants.length = 5 ∧
      detail.topMerchants.other.map MerchantSpending.totalMinorUnits = some 620 ∧
      detail.summary.comparison.isSome ∧
      Reconciled (d.expensesOn .spent 7) july july.dateTo detail := by
  obtain ⟨d, hd, -, -, -, hdetail⟩ := @own_dashboard_reconciles PythonRuntime.ascii .spent 7
    ⟨7, .active, "UTC", some ⟨"EUR", by decide⟩⟩ endOfJuly (some july) july july.dateTo
    categoriesStored_spent rfl none rfl rfl
  have hrun : ((@buildDashboard PythonRuntime.ascii 7 (some july) none none).exec postgres endOfJuly
      ⟨.spent, .spent⟩).result.toOption.any (fun d =>
        decide (d.currencies.length = 3 ∧ d.currency = some euro) && d.detail.any fun detail =>
          decide (detail.summary.totalMinorUnits = 8069 ∧
            detail.categories.map CategorySpending.totalMinorUnits = [3000, 2919, 2150] ∧
            detail.topMerchants.merchants.length = 5 ∧
            detail.topMerchants.other.map MerchantSpending.totalMinorUnits = some 620 ∧
            detail.summary.comparison.isSome = true)) = true := by
    decide +kernel
  rw [hd] at hrun
  obtain ⟨hcurrencies, hrun⟩ := Bool.and_eq_true_iff.mp hrun
  obtain ⟨hcurrencies, hcurrency⟩ := of_decide_eq_true hcurrencies
  obtain ⟨detail, hsome, hrun⟩ := (Option.any_eq_true _ _).mp hrun
  obtain ⟨htotal, hcategories, hmerchants, hother, hcomparison⟩ := of_decide_eq_true hrun
  exact ⟨d, detail, hd, hcurrencies, hcurrency, hsome, htotal, hcategories, hmerchants, hother,
    hcomparison, hdetail detail hsome⟩

end MintFlow
