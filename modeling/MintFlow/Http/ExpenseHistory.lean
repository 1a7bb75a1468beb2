import MintFlow.Persistence.Database
import MintFlow.Persistence.ExpenseHistory

set_option relaxedAutoImplicit false
set_option autoImplicit false

/-!
# Reading a whole history

A client asks for page after page, each time with the cursor of the page before, until a page has
none. Between two pages anything may be committed.

## Main definitions

* `MintFlow.listExpenses` — the endpoint, for a query whose filter and limit were read.
* `MintFlow.followHistory` — the pages a client gets, one from each state of the store.
* `MintFlow.HistoryWalk.Faithful` — what the pages say of the states they were read from.

## Main results

* `MintFlow.history_walk` — nothing is lost and nothing repeated, and the walk ends.
-/

namespace MintFlow

open Transact

/-! ## The walk -/

/-- The answers of `list_expenses`. -/
inductive HistoryResponse
  | page (items : List Expense) (nextCursor : Option String)
  | invalidQuery

/-- `list_expenses`, on the state its one query reads. -/
def listExpenses (db : Database) (caller : UUID) (historyFilter : ExpenseHistoryFilter) (limit : ℕ)
    (cursor : Option String) : Checked HistoryResponse :=
  match cursor.mapM decodeHistoryCursor with
  | .error _ => .ok .invalidQuery
  | .ok after => do
    let page ← listHistory db.expenses.rows caller historyFilter limit after
    pure (.page page.items (page.nextPosition.map encodeHistoryCursor))

/-- The pages a client got, and what it asks for next: nothing when the last page had no cursor. -/
structure HistoryWalk where
  pages : List (List Expense)
  next : Option (Option String)

/-- The Expenses of all pages. -/
def HistoryWalk.items (walk : HistoryWalk) : List Expense := walk.pages.flatten

/-- Follow the cursors, reading one page from each state. -/
def followHistory (caller : UUID) (historyFilter : ExpenseHistoryFilter) (limit : ℕ) :
    Option String → List Database → Checked HistoryWalk
  | cursor, [] => .ok ⟨[], some cursor⟩
  | cursor, db :: dbs =>
    match listExpenses db caller historyFilter limit cursor with
    | .error message => .error message
    | .ok .invalidQuery => .error "invalid query"
    | .ok (.page items none) => .ok ⟨[items], none⟩
    | .ok (.page items (some cursor)) =>
      (followHistory caller historyFilter limit (some cursor) dbs).map fun walk =>
        ⟨items :: walk.pages, walk.next⟩

/-! ## What it shows -/

section Walk

variable (caller : UUID) (historyFilter : ExpenseHistoryFilter) (limit : ℕ)

/-- The times of all Expenses are times of Python. -/
def Database.Timed (db : Database) : Prop :=
  ∀ e ∈ db.expenses, (Instant.toDateTime e.createdAt).Representable

/-- What the pages from a position on say of the states they were read from. -/
structure HistoryWalk.Faithful (walk : HistoryWalk) (dbs : List Database)
    (after : Option ExpenseHistoryPosition) : Prop where
  /-- A page shows what was selected in the state it was read from. -/
  shown : List.Forall₂ (fun page db => ∀ e ∈ page, Selected db.expenses caller historyFilter e ∧
    ∀ position ∈ after, e.sortKey < position.sortKey) walk.pages (dbs.take walk.pages.length)
  /-- The Expenses are in strictly descending order over all pages. -/
  descending : walk.items.Pairwise fun a b => b.sortKey < a.sortKey
  /-- Every page but the last is full. -/
  full : ∀ page ∈ walk.pages.dropLast, page.length = limit
  /-- What was selected all the time is shown, when the walk is over. -/
  complete : walk.next = none → ∀ e, (∀ position ∈ after, e.sortKey < position.sortKey) →
    (∀ db ∈ dbs.take walk.pages.length, Selected db.expenses caller historyFilter e) →
    e ∈ walk.items

variable {caller : UUID} {historyFilter : ExpenseHistoryFilter} {limit : ℕ}

/-- The endpoint shows a page of the state it reads.

**Proof sketch.** The cursor reads back as the position it was issued for, and the query shows its
page (`listHistory_shows`). -/
lemma listExpenses_shows (hlimit : 1 ≤ limit ∧ limit ≤ maxHistoryPageSize) (db : Database)
    {after : Option ExpenseHistoryPosition}
    (hafter : ∀ position ∈ after, position.createdAt.Representable) :
    ∃ page : ExpenseHistoryPage, page.Shows (fun e =>
        Selected db.expenses caller historyFilter e ∧
          ∀ position ∈ after, e.sortKey < position.sortKey) limit ∧
      listExpenses db caller historyFilter limit (after.map encodeHistoryCursor) =
        .ok (.page page.items (page.nextPosition.map encodeHistoryCursor)) := by
  obtain ⟨page, hpage, hshows⟩ :=
    listHistory_shows db.expenses caller historyFilter hlimit after
  refine ⟨page, hshows, ?_⟩
  have hcursor : (after.map encodeHistoryCursor).mapM decodeHistoryCursor = .ok after := by
    cases after with
    | none => rfl
    | some position =>
      rw [Option.map_some, Option.mapM_some,
        decodeHistoryCursor_encodeHistoryCursor (hafter position rfl)]
      rfl
  unfold listExpenses
  rw [hcursor]
  simp only [hpage]
  rfl

/-- An Expense of a walk was selected in one of the states read. -/
lemma HistoryWalk.Faithful.selected {walk : HistoryWalk} {dbs : List Database}
    {after : Option ExpenseHistoryPosition}
    (h : walk.Faithful caller historyFilter limit dbs after) {e : Expense} (he : e ∈ walk.items) :
    ∃ db ∈ dbs.take walk.pages.length, Selected db.expenses caller historyFilter e ∧
      ∀ position ∈ after, e.sortKey < position.sortKey := by
  obtain ⟨page, hpage, he⟩ := List.mem_flatten.mp he
  obtain ⟨n, hn, rfl⟩ := List.getElem_of_mem hpage
  obtain ⟨hlength, hshown⟩ := List.forall₂_iff_get.mp h.shown
  exact ⟨_, List.get_mem _ ⟨n, hlength ▸ hn⟩, hshown n hn (hlength ▸ hn) e he⟩

/-- **The walk from a position.** Following the cursors never fails, and the pages are faithful.

**Proof sketch.** By induction on the states read. The first page shows what is selected below the
position; what it leaves is below its last Expense, where the next page starts. -/
theorem followHistory_faithful (hlimit : 1 ≤ limit ∧ limit ≤ maxHistoryPageSize)
    {dbs : List Database} (hdbs : ∀ db ∈ dbs, db.Timed) {after : Option ExpenseHistoryPosition}
    (hafter : ∀ position ∈ after, position.createdAt.Representable) :
    ∃ walk, followHistory caller historyFilter limit (after.map encodeHistoryCursor) dbs = .ok walk ∧
      walk.Faithful caller historyFilter limit dbs after := by
  induction dbs generalizing after with
  | nil =>
    refine ⟨_, rfl, ?_⟩
    constructor
    case shown => exact .nil
    case descending => simp [HistoryWalk.items]
    case full => simp
    case complete => exact fun h => (by cases h)
  | cons db dbs ih =>
    obtain ⟨page, hpage, hresponse⟩ := listExpenses_shows hlimit db hafter
    cases hnext : page.nextPosition with
    | none =>
      rw [hnext] at hresponse
      refine ⟨⟨[page.items], none⟩, by rw [followHistory, hresponse]; rfl, ?_⟩
      constructor
      case shown => exact .cons hpage.listed .nil
      case descending => simpa [HistoryWalk.items] using hpage.descending
      case full => simp
      case complete =>
        intro _ e hbelow hselected
        have he := hpage.last hnext e ⟨hselected db (by simp), hbelow⟩
        simpa [HistoryWalk.items] using he
    | some position =>
      obtain ⟨hlength, ⟨lastItem, hlast, hposition⟩, habove, hrest⟩ := hpage.full position hnext
      have hrepresentable : ∀ p ∈ some position, p.createdAt.Representable := by
        rintro _ ⟨⟩
        rw [hposition]
        exact hdbs db List.mem_cons_self lastItem (hpage.listed lastItem hlast).1.1
      obtain ⟨walk, hwalk, hfaithful⟩ :=
        ih (fun db hdb => hdbs db (List.mem_cons_of_mem _ hdb)) hrepresentable
      have hbelow : position.sortKey = lastItem.sortKey := by rw [hposition, sortKey_after]
      -- the position lies below the one the page started from
      have hlower : ∀ p ∈ after, position.sortKey < p.sortKey := by
        intro p hp
        rw [hbelow]
        exact (hpage.listed lastItem hlast).2 p hp
      rw [hnext] at hresponse
      refine ⟨⟨page.items :: walk.pages, walk.next⟩, ?_, ?_⟩
      · rw [followHistory, hresponse]
        simp only [Option.map_some] at hwalk ⊢
        rw [hwalk]
        rfl
      constructor
      case shown =>
        refine .cons hpage.listed (hfaithful.shown.imp fun items db' hitems e he => ?_)
        obtain ⟨hselected, hkey⟩ := hitems e he
        exact ⟨hselected, fun q hq => (hkey position rfl).trans (hlower q hq)⟩
      case descending =>
        have hitems : (HistoryWalk.mk (page.items :: walk.pages) walk.next).items =
            page.items ++ walk.items := rfl
        rw [hitems, List.pairwise_append]
        refine ⟨hpage.descending, hfaithful.descending, fun a ha b hb => ?_⟩
        obtain ⟨_, -, -, hkey⟩ := hfaithful.selected hb
        exact (hkey position rfl).trans_le (habove a ha)
      case full =>
        intro items hitems
        cases hpages : walk.pages with
        | nil => simp [hpages] at hitems
        | cons items' pages =>
          simp only [hpages, List.dropLast_cons_cons, List.mem_cons] at hitems
          rcases hitems with rfl | hitems
          · exact hlength
          · exact hfaithful.full items (hpages ▸ hitems)
      case complete =>
        intro hended e hkey hselected
        simp only [List.length_cons, List.take_succ_cons, List.forall_mem_cons] at hselected
        simp only [HistoryWalk.items, List.flatten_cons, List.mem_append]
        by_cases hmem : e ∈ page.items
        · exact .inl hmem
        · right
          refine hfaithful.complete hended e ?_ hselected.2
          rintro _ ⟨⟩
          exact hrest e ⟨hselected.1, hkey⟩ hmem

/-- An Expense that stays as it is while the walk is read is on it exactly once.

**Proof sketch.** It is there by completeness. The walk descends strictly, so no item of it occurs
twice, and whatever has its identifier is the same row of the state that page was read from. -/
lemma HistoryWalk.Faithful.once {walk : HistoryWalk} {dbs : List Database}
    (h : walk.Faithful caller historyFilter limit dbs none) (hended : walk.next = none) {e : Expense}
    (he : ∀ db ∈ dbs.take walk.pages.length, Selected db.expenses caller historyFilter e) :
    walk.items.filter (fun x => decide (x.id = e.id)) = [e] := by
  have hmem := h.complete hended e (fun _ hp => by cases hp) he
  have hnodup : walk.items.Nodup := h.descending.imp fun {a b} hab heq => by
    rw [heq] at hab
    exact lt_irrefl _ hab
  have honly : ∀ x ∈ walk.items.filter fun x => decide (x.id = e.id), x = e := by
    intro x hx
    rw [List.mem_filter, decide_eq_true_eq] at hx
    obtain ⟨db, hdb, hselected, -⟩ := h.selected hx.1
    exact db.expenses.eq_of_key_eq hselected.1 (he db hdb).1 hx.2
  have hin : e ∈ walk.items.filter fun x => decide (x.id = e.id) :=
    List.mem_filter.mpr ⟨hmem, decide_eq_true rfl⟩
  have hreplicate := List.eq_replicate_of_mem honly
  have hlength := List.length_pos_of_mem hin
  have hone := List.nodup_replicate.mp (hreplicate ▸ hnodup.filter _)
  rw [hreplicate, Nat.le_antisymm hone hlength]
  rfl

/-! ## The end of the walk -/

/-- No Expense of the caller is inserted, edited or restored between two states. -/
def NothingNew (caller : UUID) (db db' : Database) : Prop :=
  ∀ e ∈ db'.expenses, e.ownerId = caller → e.isActive → e ∈ db.expenses

/-- Nothing new is selected below a lower position. -/
lemma historyRows_subset {db db' : Database} (hnew : NothingNew caller db db')
    {after : Option ExpenseHistoryPosition} {position : ExpenseHistoryPosition}
    (hlower : ∀ p ∈ after, position.sortKey < p.sortKey) {e : Expense}
    (he : e ∈ historyRows db'.expenses.rows caller historyFilter (some position)) :
    e ∈ historyRows db.expenses.rows caller historyFilter after ∧ e.sortKey < position.sortKey := by
  obtain ⟨⟨hmem, hcaller, hactive, hadmits⟩, hkey⟩ := mem_historyRows.mp he
  have hbelow := hkey position rfl
  exact ⟨mem_historyRows.mpr ⟨⟨hnew e hmem hcaller hactive, hcaller, hactive, hadmits⟩,
    fun p hp => hbelow.trans (hlower p hp)⟩, hbelow⟩

/-- The walk over the first states of a sequence begins with the first of them. -/
lemma map_range_succ (states : ℕ → Database) (n : ℕ) :
    (List.range (n + 1)).map states =
      states 0 :: (List.range n).map fun i => states (i + 1) := by
  rw [List.range_succ_eq_map, List.map_cons, List.map_map]
  rfl

/-- One page: the walk is over, or it goes on below a lower position of a time of Python.

**Proof sketch.** If the page has no next position, the walk is over. Otherwise the position is that
of a listed Expense, below the one the page was read from, and the rest of the walk is put behind
this page. -/
lemma followHistory_step (hlimit : 1 ≤ limit ∧ limit ≤ maxHistoryPageSize) {db : Database}
    (hdb : db.Timed) {after : Option ExpenseHistoryPosition}
    (hafter : ∀ position ∈ after, position.createdAt.Representable) :
    (∀ dbs, ∃ walk, walk.next = none ∧ followHistory caller historyFilter limit
      (after.map encodeHistoryCursor) (db :: dbs) = .ok walk) ∨
    ∃ position : ExpenseHistoryPosition, position.createdAt.Representable ∧
      (∀ p ∈ after, position.sortKey < p.sortKey) ∧
      (∃ e ∈ historyRows db.expenses.rows caller historyFilter after,
        position.sortKey = e.sortKey) ∧
      ∀ dbs walk, walk.next = none → followHistory caller historyFilter limit
        ((some position).map encodeHistoryCursor) dbs = .ok walk →
        ∃ walk, walk.next = none ∧ followHistory caller historyFilter limit
          (after.map encodeHistoryCursor) (db :: dbs) = .ok walk := by
  obtain ⟨page, hpage, hresponse⟩ := listExpenses_shows hlimit db hafter
  cases hnext : page.nextPosition with
  | none =>
    rw [hnext] at hresponse
    exact .inl fun dbs => ⟨⟨[page.items], none⟩, rfl, by rw [followHistory, hresponse]; rfl⟩
  | some position =>
    obtain ⟨-, ⟨e, he, rfl⟩, -, -⟩ := hpage.full position hnext
    obtain ⟨hselected, hkey⟩ := hpage.listed e he
    rw [hnext] at hresponse
    refine .inr ⟨_, hdb e hselected.1, ?_, ⟨e, mem_historyRows.mpr ⟨hselected, hkey⟩,
      sortKey_after e⟩, fun dbs walk hended hwalk => ?_⟩
    · simpa using hkey
    · refine ⟨⟨page.items :: walk.pages, walk.next⟩, hended, ?_⟩
      rw [followHistory, hresponse]
      simp only [Option.map_some] at hwalk ⊢
      rw [hwalk]
      rfl

/-- While nothing new comes, a walk is over after one page more than there are rows below it.

**Proof sketch.** By induction on the number of rows: the next position is the key of a row, which
is not below it any more. -/
lemma followHistory_ends_of_nothingNew (hlimit : 1 ≤ limit ∧ limit ≤ maxHistoryPageSize)
    (count : ℕ) {states : ℕ → Database} (hstates : ∀ i, (states i).Timed)
    (hnew : ∀ i, NothingNew caller (states i) (states (i + 1)))
    {after : Option ExpenseHistoryPosition}
    (hafter : ∀ position ∈ after, position.createdAt.Representable)
    (hcount : (historyRows (states 0).expenses.rows caller historyFilter after).length ≤ count) :
    ∃ walk, walk.next = none ∧ followHistory caller historyFilter limit
      (after.map encodeHistoryCursor) ((List.range (count + 1)).map states) = .ok walk := by
  induction count generalizing states after with
  | zero =>
    rw [map_range_succ]
    rcases followHistory_step hlimit (hstates 0) hafter with hended | ⟨_, -, -, ⟨e, he, -⟩, -⟩
    · exact hended _
    · have hempty := List.eq_nil_of_length_eq_zero (Nat.le_zero.mp hcount)
      rw [hempty] at he
      exact absurd he List.not_mem_nil
  | succ count ih =>
    rw [map_range_succ]
    rcases followHistory_step hlimit (hstates 0) hafter with
      hended | ⟨position, hposition, hlower, ⟨e, he, hkey⟩, hrest⟩
    · exact hended _
    · have hfewer : (historyRows (states 1).expenses.rows caller historyFilter
          (some position)).length ≤ count := by
        have hsubset : ∀ e' ∈ historyRows (states 1).expenses.rows caller historyFilter
            (some position), e' ∈ historyRows (states 0).expenses.rows caller historyFilter after ∧
              e'.sortKey < position.sortKey := fun e' he' => historyRows_subset (hnew 0) hlower he'
        have hnot : e ∉ historyRows (states 1).expenses.rows caller historyFilter
            (some position) := fun hmem => by
          have hlt := (hsubset e hmem).2
          rw [hkey] at hlt
          exact lt_irrefl _ hlt
        have hnodup := nodup_historyRows (states 1).expenses caller historyFilter (some position)
        have hperm := List.subperm_of_subset (List.nodup_cons.mpr ⟨hnot, hnodup⟩)
          (List.cons_subset.mpr ⟨he, fun e' he' => (hsubset e' he').1⟩)
        have hle := hperm.length_le
        rw [List.length_cons] at hle
        omega
      obtain ⟨walk, hended, hwalk⟩ := @ih (fun i => states (i + 1)) (fun i => hstates (i + 1))
        (fun i => hnew (i + 1)) (some position) (by rintro _ ⟨⟩; exact hposition) hfewer
      exact hrest _ walk hended hwalk

/-- A walk is over at some time, if from some time on nothing new comes.

**Proof sketch.** Induction on the time from which on nothing new comes. Until then each page only
takes the walk to another position (`followHistory_step`), and from then on it is over by
`followHistory_ends_of_nothingNew`. -/
lemma followHistory_ends (hlimit : 1 ≤ limit ∧ limit ≤ maxHistoryPageSize) (start : ℕ)
    {states : ℕ → Database} (hstates : ∀ i, (states i).Timed)
    (hnew : ∀ i, start ≤ i → NothingNew caller (states i) (states (i + 1)))
    {after : Option ExpenseHistoryPosition}
    (hafter : ∀ position ∈ after, position.createdAt.Representable) :
    ∃ n walk, walk.next = none ∧ followHistory caller historyFilter limit
      (after.map encodeHistoryCursor) ((List.range n).map states) = .ok walk := by
  induction start generalizing states after with
  | zero =>
    exact ⟨_, followHistory_ends_of_nothingNew hlimit _ hstates (fun i => hnew i (Nat.zero_le i))
      hafter le_rfl⟩
  | succ start ih =>
    rcases followHistory_step hlimit (hstates 0) hafter with
      hended | ⟨position, hposition, -, -, hrest⟩
    · refine ⟨1, ?_⟩
      rw [map_range_succ]
      exact hended _
    · obtain ⟨n, walk, hended, hwalk⟩ := @ih (fun i => states (i + 1)) (fun i => hstates (i + 1))
        (fun i hi => hnew (i + 1) (Nat.succ_le_succ hi)) (some position)
        (by rintro _ ⟨⟩; exact hposition)
      refine ⟨n + 1, ?_⟩
      rw [map_range_succ]
      exact hrest _ walk hended hwalk

/-- **The history.** A client that follows the cursors, whatever is committed between its reads,
gets one page after the other without an error. The Expenses stand in strictly descending order over
all pages; each was the caller's, active and admitted when its page was read; every page but the
last is full; one that stays as it is from the first read to the last is there exactly once, when
the walk is over; and the walk is over at some time, if from some time on no Expense is inserted,
edited or restored.

**Proof sketch.** The pages are faithful by induction on the states read; the walk ends since there
are fewer and fewer rows below its position. -/
theorem history_walk (caller : UUID) (historyFilter : ExpenseHistoryFilter)
    (hlimit : 1 ≤ limit ∧ limit ≤ maxHistoryPageSize) {states : ℕ → Database}
    (hstates : ∀ i, (states i).Timed) :
    (∀ n, ∃ walk, followHistory caller historyFilter limit none ((List.range n).map states) =
        .ok walk ∧
      walk.items.Pairwise (fun a b => b.sortKey < a.sortKey) ∧
      List.Forall₂ (fun page db => ∀ e ∈ page, Selected db.expenses caller historyFilter e)
        walk.pages (((List.range n).map states).take walk.pages.length) ∧
      (∀ page ∈ walk.pages.dropLast, page.length = limit) ∧
      (walk.next = none → ∀ e,
        (∀ i < walk.pages.length, Selected (states i).expenses caller historyFilter e) →
          walk.items.filter (fun x => decide (x.id = e.id)) = [e])) ∧
    ((∃ start, ∀ i, start ≤ i → NothingNew caller (states i) (states (i + 1))) →
      ∃ n walk, walk.next = none ∧
        followHistory caller historyFilter limit none ((List.range n).map states) = .ok walk) := by
  constructor
  · intro n
    have hdbs : ∀ db ∈ (List.range n).map states, db.Timed := by
      intro db hdb
      obtain ⟨i, -, rfl⟩ := List.mem_map.mp hdb
      exact hstates i
    have hstart : ∀ position ∈ (none : Option ExpenseHistoryPosition),
        position.createdAt.Representable := fun _ hp => (by cases hp)
    obtain ⟨walk, hwalk, hfaithful⟩ := followHistory_faithful hlimit hdbs hstart
    refine ⟨walk, hwalk, hfaithful.descending, hfaithful.shown.imp fun page db h e he => (h e he).1,
      hfaithful.full, fun hended e he => hfaithful.once hended fun db hdb => ?_⟩
    rw [← List.map_take, List.take_range] at hdb
    obtain ⟨i, hi, rfl⟩ := List.mem_map.mp hdb
    exact he i (lt_of_lt_of_le (List.mem_range.mp hi) (Nat.min_le_left _ _))
  · rintro ⟨start, hnew⟩
    have hstart : ∀ position ∈ (none : Option ExpenseHistoryPosition),
        position.createdAt.Representable := fun _ hp => (by cases hp)
    exact followHistory_ends hlimit start hstates hnew hstart

end Walk

/-! ## A walk during a deletion -/

/-- An Expense of user 7; all of these have one date and one time. -/
def tiedExpense (id : UUID) (deletedAt : Option Instant) : Expense :=
  ⟨id, 7, twelveFifty, july29, none,
    "uncategorized", none, .webManual, id, none, 0, 0, deletedAt⟩

/-- Three Expenses, of which the middle one is deleted after the first read. -/
def duringDeletion (i : ℕ) : Database :=
  { Database.small with
    expenses := ⟨[tiedExpense 9 none, tiedExpense 10 (if i = 0 then none else some 4),
      tiedExpense 11 none], by simp [tiedExpense]⟩ }

/-- The filter of a reader who asks for everything. -/
def everything : ExpenseHistoryFilter := ⟨none, none, [], [], fun _ h => (by cases h)⟩

/-- Page by page of one Expense each, the walk during the deletion is over at some time, and the
Expense that was not touched is there once. -/
theorem history_walk_deletion :
    ∃ n walk, walk.next = none ∧
      followHistory 7 everything 1 none ((List.range n).map duringDeletion) = .ok walk ∧
      walk.items.filter (fun x => decide (x.id = 9)) = [tiedExpense 9 none] := by
  have htimes : ∀ i, (duringDeletion i).Timed := by
    intro i e he
    have hmem : e ∈ [tiedExpense 9 none, tiedExpense 10 (if i = 0 then none else some 4),
      tiedExpense 11 none] := he
    have hcreated : e.createdAt = 0 := by
      simp only [List.mem_cons, List.not_mem_nil, or_false] at hmem
      rcases hmem with rfl | rfl | rfl <;> rfl
    rw [hcreated]
    decide
  have hselected : ∀ i, Selected (duringDeletion i).expenses 7 everything (tiedExpense 9 none) :=
    fun i => ⟨List.mem_cons_self, rfl, rfl, rfl⟩
  have hquiet : ∀ i, 1 ≤ i → NothingNew 7 (duringDeletion i) (duringDeletion (i + 1)) := by
    intro i hi e he _ _
    have hsame : duringDeletion (i + 1) = duringDeletion i := by
      simp only [duringDeletion, if_neg (show i ≠ 0 by omega), if_neg (Nat.succ_ne_zero i)]
    exact hsame ▸ he
  obtain ⟨hwalks, hends⟩ := @history_walk 1 7 everything ⟨le_rfl, by decide⟩ duringDeletion htimes
  obtain ⟨n, walk, hended, hwalk⟩ := hends ⟨1, hquiet⟩
  obtain ⟨walk', hwalk', -, -, -, honce⟩ := hwalks n
  obtain rfl : walk = walk' := Except.ok.inj (hwalk.symm.trans hwalk')
  exact ⟨n, walk, hended, hwalk, honce hended (tiedExpense 9 none) fun i _ => hselected i⟩

end MintFlow
