import MintFlow.Lib.Outbox
import MintFlow.Lib.UniqueIndex
import MintFlow.Persistence.Footprint
import MintFlow.Sessions.Requests

set_option relaxedAutoImplicit false
set_option autoImplicit false

/-!
# Unique columns of the tables

Three unique constraints tie a receipt to what becomes of it: one draft for a receipt, one Expense for
a draft, one recognition result for an attempt. Each is checked by the statements that insert, and
the value is locked as the row is written, so each holds of every committed state. Drafts and
Expenses are never deleted, and no statement rewrites where they come from.

## Main definitions

* `MintFlow.draftIndex`, `MintFlow.expenseIndex`, `MintFlow.resultIndex` — the constraints.
* `MintFlow.Expense.SameOrigin`, `MintFlow.CaptureDraft.SameRow` — what no statement rewrites.

## Main results

* `MintFlow.draftIndex_of_stmt` and its like — every statement keeps them for its session.
* `MintFlow.originOfExpense_of_stmt`, `MintFlow.originOfDraft_of_stmt` — rows are never deleted, and
  keep where they come from.
-/

namespace MintFlow

open Transact

/-! ## Constraints -/

/-- The Expenses, unique by the draft they came from. -/
def expenseIndex : UniqueIndex postgres Write.keys Expense UUID where
  rows := fun db => {e | e ∈ db.expenses}
  writes := fun w e => w = .expense e
  keeps := fun w e => ∀ e', w = .expense e' → e.id ≠ e'.id
  mem_apply := fun w db x => by
    cases w with
    | expense e =>
      show x ∈ db.expenses.upsert e ↔ _
      rw [Table.mem_upsert]
      simp [eq_comm]
    | _ => simp [postgres, Database.apply]
  column := fun e => some e.captureDraftId
  lock := Key.expenseOfDraft
  locked := by
    rintro _ e v rfl ⟨⟩
    exact List.mem_cons_of_mem _ List.mem_cons_self

/-- The drafts, unique by their receipt if they have one. -/
def draftIndex : UniqueIndex postgres Write.keys CaptureDraft UUID where
  rows := fun db => {d | d ∈ db.drafts}
  writes := fun w d => w = .draft d
  keeps := fun w d => ∀ d', w = .draft d' → d.id ≠ d'.id
  mem_apply := fun w db x => by
    cases w with
    | draft d =>
      show x ∈ db.drafts.upsert d ↔ _
      rw [Table.mem_upsert]
      simp [eq_comm]
    | _ => simp [postgres, Database.apply]
  column := CaptureDraft.receiptId
  lock := Key.draftOfReceipt
  locked := by
    rintro _ d v rfl hv
    show _ ∈ Key.draft d.id :: (d.receiptId.map Key.draftOfReceipt).toList
    rw [hv]
    exact List.mem_cons_of_mem _ List.mem_cons_self

/-- The recognition results, unique by their attempt. -/
def resultIndex : UniqueIndex postgres Write.keys RecognitionResult (UUID × UUID) where
  rows := fun db => {x | x ∈ db.results}
  writes := fun w x => w = .result x
  keeps := fun w x => (∀ x', w = .result x' → x.id ≠ x'.id) ∧
    ∀ r, w = .removeResults r → x.receiptId ≠ r
  mem_apply := fun w db x => by
    cases w with
    | result x' =>
      show x ∈ db.results.upsert x' ↔ _
      rw [Table.mem_upsert]
      simp [eq_comm]
    | removeResults r =>
      show x ∈ db.results.discard _ ↔ _
      rw [Table.mem_discard]
      simp
    | _ => simp [postgres, Database.apply]
  column := fun x => some (x.receiptId, x.attemptId)
  lock := fun v => .results v.1
  locked := by
    rintro _ x v rfl ⟨⟩
    exact List.mem_cons_self

/-! ## Statements keep them -/

section Statements

variable {o : Stmt} {busy : Key → Bool} {db : Database} {r : o.Resp} {ws : List Write}

/-- **One Expense for a draft**, in the eyes of the session whose statement it is.

**Proof sketch.** A new Expense is of a draft that has none, or the statement raises; an update
keeps the draft of the row it finds. -/
lemma expenseIndex_of_stmt (h : evaluate o busy db = .ok (r, ws)) (hdb : expenseIndex.Holds db) :
    expenseIndex.Holds (postgres.applyAll ws db) := by
  by_cases hwrites : .expenses ∈ o.writes
  swap
  · show (postgres.applyAll ws db).expenses.UniqueOn _
    rw [expenses_applyAll (table_ne_of_not_mem h hwrites)]
    exact hdb
  have hunique : db.expenses.UniqueOn fun e => some e.captureDraftId := hdb
  cases o
  case createExpense e =>
    obtain ⟨-, -, -, hnone, -, -, -, -, rfl⟩ := Database.createExpense_eq_ok h
    refine hunique.upsert fun e' he' v hv hv' => absurd hnone ?_
    have hdraft : e'.captureDraftId = e.captureDraftId := Option.some.inj (hv.trans hv'.symm)
    exact List.ne_nil_of_mem (List.mem_map.mpr
      ⟨e', List.mem_filter.mpr ⟨he', decide_eq_true hdraft⟩, rfl⟩)
  case updateExpense e =>
    rcases Database.updateExpense_eq_ok h with ⟨-, rfl⟩ | ⟨row, hrow, -, -, -, rfl⟩
    · exact hdb
    · refine hunique.upsert fun e' he' v hv hv' => ?_
      rw [hunique e' he' row (Table.mem_of_find hrow) v hv hv']
      rfl
  all_goals exact absurd hwrites (by simp [Stmt.writes])

/-- **One draft for a receipt**, in the eyes of the session whose statement it is.

**Proof sketch.** A new draft is of a receipt that has none, or the statement raises; updates,
expiry and the deletion of receipt data keep the receipt of the rows they find. -/
lemma draftIndex_of_stmt (h : evaluate o busy db = .ok (r, ws)) (hdb : draftIndex.Holds db) :
    draftIndex.Holds (postgres.applyAll ws db) := by
  have hunique : db.drafts.UniqueOn CaptureDraft.receiptId := hdb
  by_cases hwrites : .captureDrafts ∈ o.writes
  swap
  · have hsame : (postgres.applyAll ws db).drafts = db.drafts :=
      applyAll_frame (t := .captureDrafts)
        (fun w _ hw => by cases w <;> first | rfl | exact absurd rfl hw)
        (table_ne_of_not_mem h hwrites)
    show (postgres.applyAll ws db).drafts.UniqueOn _
    rw [hsame]
    exact hunique
  cases o
  case createDraft d =>
    obtain ⟨-, -, -, hreceipt, -, -, -, rfl⟩ := Database.createDraft_eq_ok h
    refine hunique.upsert fun d' hd' v hv hv' => ?_
    obtain ⟨hnone, -⟩ := hreceipt v hv'
    exact absurd (decide_eq_true hv) (List.find?_eq_none.mp hnone d' hd')
  case updateDraft d =>
    rcases Database.updateDraft_eq_ok h with ⟨-, rfl⟩ | ⟨row, hrow, -, -, -, -, -, rfl⟩
    · exact hdb
    · refine hunique.upsert fun d' hd' v hv hv' => ?_
      rw [hunique d' hd' row (Table.mem_of_find hrow) v hv hv']
      exact Table.key_of_find hrow
  case expireAbandonedDrafts cutoff now size =>
    obtain ⟨-, rfl⟩ := Prod.mk.inj (Except.ok.inj h)
    show (db.expired busy cutoff now size).drafts.UniqueOn _
    rw [Database.expired_eq]
    refine hunique.upsertAll fun d hd => ?_
    obtain ⟨d', hd', rfl⟩ := List.mem_map.mp hd
    exact ⟨d', (Database.mem_abandonedDrafts hd').1, rfl, rfl⟩
  case deleteReceiptData cutoff now size =>
    obtain ⟨-, rfl⟩ := Prod.mk.inj (Except.ok.inj h)
    show (db.cleared busy cutoff now size).drafts.UniqueOn _
    rw [Database.cleared_eq]
    refine hunique.upsertAll fun d hd => ?_
    obtain ⟨d', hd', rfl⟩ := List.mem_map.mp hd
    exact ⟨d', (List.mem_filter.mp hd').1, rfl, rfl⟩
  all_goals exact absurd hwrites (by simp [Stmt.writes])

/-- **One result for an attempt**, in the eyes of the session whose statement it is.

**Proof sketch.** A new result is of an attempt that has none, or the statement raises; the deletion
of receipt data only takes results away. -/
lemma resultIndex_of_stmt (h : evaluate o busy db = .ok (r, ws)) (hdb : resultIndex.Holds db) :
    resultIndex.Holds (postgres.applyAll ws db) := by
  have hunique : db.results.UniqueOn fun x => some (x.receiptId, x.attemptId) := hdb
  by_cases hwrites : .recognitionResults ∈ o.writes
  swap
  · show (postgres.applyAll ws db).results.UniqueOn _
    rw [results_applyAll (table_ne_of_not_mem h hwrites)]
    exact hunique
  cases o
  case saveResult x =>
    obtain ⟨-, hnone, -, -, rfl⟩ := Database.saveResult_eq_ok h
    refine hunique.upsert fun x' hx' v hv hv' => absurd ?_ (hnone x' hx')
    exact Prod.mk.inj (Option.some.inj (hv.trans hv'.symm))
  case deleteReceiptData cutoff now size =>
    obtain ⟨-, rfl⟩ := Prod.mk.inj (Except.ok.inj h)
    show (db.cleared busy cutoff now size).results.UniqueOn _
    rw [Database.cleared_eq]
    intro x hx y hy
    exact hunique x (Database.mem_resultsWithout.mp hx).1 y (Database.mem_resultsWithout.mp hy).1
  all_goals exact absurd hwrites (by simp [Stmt.writes])

end Statements

/-! ## Where rows come from -/

/-- A row that is there stays there, related to what it was. -/
def Stays {ρ : Type} (R : ρ → ρ → Prop) (x y : Option ρ) : Prop :=
  ∀ r, x = some r → ∃ r', y = some r' ∧ R r r'

namespace Stays

variable {ρ : Type} {R : ρ → ρ → Prop} {x y z : Option ρ}

lemma refl (hR : ∀ r, R r r) (x : Option ρ) : Stays R x x := fun r h => ⟨r, h, hR r⟩

lemma trans (hR : ∀ r r' r'', R r r' → R r' r'' → R r r'') (h : Stays R x y) (h' : Stays R y z) :
    Stays R x z := by
  intro r hr
  obtain ⟨r', hr', hrr'⟩ := h r hr
  obtain ⟨r'', hr'', hrr''⟩ := h' r' hr'
  exact ⟨r'', hr'', hR r r' r'' hrr' hrr''⟩

end Stays

/-- What an Expense keeps: its owner, its draft, its receipt, its source and when it was created. -/
structure Expense.SameOrigin (e e' : Expense) : Prop where
  id : e'.id = e.id
  owner : e'.ownerId = e.ownerId
  draft : e'.captureDraftId = e.captureDraftId
  receipt : e'.receiptId = e.receiptId
  source : e'.source = e.source
  created : e'.createdAt = e.createdAt

/-- What a draft keeps: its receipt and when it was created. -/
structure CaptureDraft.SameRow (d d' : CaptureDraft) : Prop where
  id : d'.id = d.id
  receipt : d'.receiptId = d.receiptId
  created : d'.createdAt = d.createdAt

lemma Expense.SameOrigin.refl (e : Expense) : e.SameOrigin e := ⟨rfl, rfl, rfl, rfl, rfl, rfl⟩

lemma Expense.SameOrigin.trans (e e' e'' : Expense) (h : e.SameOrigin e') (h' : e'.SameOrigin e'') :
    e.SameOrigin e'' :=
  ⟨h'.id.trans h.id, h'.owner.trans h.owner, h'.draft.trans h.draft, h'.receipt.trans h.receipt,
    h'.source.trans h.source, h'.created.trans h.created⟩

lemma CaptureDraft.SameRow.refl (d : CaptureDraft) : d.SameRow d := ⟨rfl, rfl, rfl⟩

lemma CaptureDraft.SameRow.trans (d d' d'' : CaptureDraft) (h : d.SameRow d')
    (h' : d'.SameRow d'') : d.SameRow d'' :=
  ⟨h'.id.trans h.id, h'.receipt.trans h.receipt, h'.created.trans h.created⟩

section Origins

variable {o : Stmt} {busy : Key → Bool} {db : Database} {r : o.Resp} {ws : List Write}

/-- No statement deletes an Expense, or rewrites where it comes from.

**Proof sketch.** Only two statements write Expenses: one adds a new identifier, the other keeps the
origin of the row it finds. -/
lemma originOfExpense_of_stmt (h : evaluate o busy db = .ok (r, ws)) (id : UUID) :
    Stays Expense.SameOrigin (db.expenses.find id) ((postgres.applyAll ws db).expenses.find id) := by
  by_cases hwrites : .expenses ∈ o.writes
  swap
  · rw [expenses_applyAll (table_ne_of_not_mem h hwrites)]
    exact .refl .refl _
  intro e he
  cases o
  case createExpense e' =>
    obtain ⟨-, -, hnone, -, -, -, -, -, rfl⟩ := Database.createExpense_eq_ok h
    refine ⟨e, ?_, .refl e⟩
    show (db.apply (.expense e')).expenses.find id = _
    rw [Database.find_expense_apply]
    dsimp only
    split_ifs with hid
    · rw [← hid, he] at hnone
      cases hnone
    · exact he
  case updateExpense e' =>
    rcases Database.updateExpense_eq_ok h with ⟨-, rfl⟩ | ⟨row, hrow, -, -, -, rfl⟩
    · exact ⟨e, he, .refl e⟩
    · show ∃ e'', (db.apply (.expense _)).expenses.find id = some e'' ∧ _
      rw [Database.find_expense_apply]
      dsimp only
      split_ifs with hid
      · have hrowid : row.id = e'.id := Table.key_of_find hrow
        rw [show id = e'.id from hid.trans hrowid, hrow] at he
        obtain rfl := Option.some.inj he
        exact ⟨_, rfl, ⟨rfl, rfl, rfl, rfl, rfl, rfl⟩⟩
      · exact ⟨e, he, .refl e⟩
  all_goals exact absurd hwrites (by simp [Stmt.writes])

/-- No statement deletes a draft, or rewrites where it comes from.

**Proof sketch.** By the statement. A new draft has a new identifier, and every other write of a
draft is made from the row it finds. -/
lemma originOfDraft_of_stmt (h : evaluate o busy db = .ok (r, ws)) (id : UUID) :
    Stays CaptureDraft.SameRow (db.drafts.find id)
      ((postgres.applyAll ws db).drafts.find id) := by
  by_cases hwrites : .captureDrafts ∈ o.writes
  swap
  · have hsame : (postgres.applyAll ws db).drafts = db.drafts :=
      applyAll_frame (t := .captureDrafts)
        (fun w _ hw => by cases w <;> first | rfl | exact absurd rfl hw)
        (table_ne_of_not_mem h hwrites)
    rw [hsame]
    exact .refl .refl _
  intro d hd
  cases o
  case createDraft d' =>
    obtain ⟨-, -, hnone, -, -, -, -, rfl⟩ := Database.createDraft_eq_ok h
    refine ⟨d, ?_, .refl d⟩
    show (db.apply (.draft d')).drafts.find id = _
    rw [Database.find_draft_apply]
    dsimp only
    split_ifs with hid
    · rw [← hid, hd] at hnone
      cases hnone
    · exact hd
  case updateDraft d' =>
    rcases Database.updateDraft_eq_ok h with ⟨-, rfl⟩ | ⟨row, hrow, -, -, -, -, -, rfl⟩
    · exact ⟨d, hd, .refl d⟩
    · show ∃ d'', (db.apply (.draft _)).drafts.find id = some d'' ∧ _
      rw [Database.find_draft_apply]
      dsimp only
      split_ifs with hid
      · rw [show id = d'.id from hid, hrow] at hd
        obtain rfl := Option.some.inj hd
        exact ⟨_, rfl, ⟨(Table.key_of_find hrow).symm, rfl, rfl⟩⟩
      · exact ⟨d, hd, .refl d⟩
  case expireAbandonedDrafts cutoff now size =>
    obtain ⟨-, rfl⟩ := Prod.mk.inj (Except.ok.inj h)
    show ∃ d', (db.expired busy cutoff now size).drafts.find id = some d' ∧ _
    rw [Database.find_draft_expired, hd, Option.map_some]
    refine ⟨_, rfl, ?_⟩
    split_ifs
    · exact ⟨rfl, rfl, rfl⟩
    · exact .refl d
  case deleteReceiptData cutoff now size =>
    obtain ⟨-, rfl⟩ := Prod.mk.inj (Except.ok.inj h)
    show ∃ d', (db.cleared busy cutoff now size).drafts.find id = some d' ∧ _
    rw [Database.find_draft_cleared, hd, Option.map_some]
    refine ⟨_, rfl, ?_⟩
    split_ifs
    · exact ⟨rfl, rfl, rfl⟩
    · exact .refl d
  all_goals exact absurd hwrites (by simp [Stmt.writes])

end Origins

/-! ## In every run -/

variable {ι : Type} [DecidableEq ι]

/-- **What every step keeps** of drafts, Expenses and results. -/
structure RowsKept (c : System ι) : Prop where
  sound : c.Sound Write.keys
  expenses : expenseIndex.Holds c.db ∧ ∀ i, expenseIndex.Holds (c.view postgres i)
  drafts : draftIndex.Holds c.db ∧ ∀ i, draftIndex.Holds (c.view postgres i)
  results : resultIndex.Holds c.db ∧ ∀ i, resultIndex.Holds (c.view postgres i)
  expensesStay : ∀ id i, Stays Expense.SameOrigin (c.db.expenses.find id)
    ((c.view postgres i).expenses.find id)
  draftsStay : ∀ id i, Stays CaptureDraft.SameRow (c.db.drafts.find id)
    ((c.view postgres i).drafts.find id)

namespace RowsKept

variable {c c' : System ι} {l : Label ι}

/-- An Expense stays where it was. -/
lemma expense_step (h : RowsKept c) (hstep : step postgres c l = some c') (id : UUID) :
    (∀ i, Stays Expense.SameOrigin (c'.db.expenses.find id)
      ((c'.view postgres i).expenses.find id)) ∧
    Stays Expense.SameOrigin (c.db.expenses.find id) (c'.db.expenses.find id) :=
  persists_of_move h.sound (guarded_expense id) (.refl .refl) (fun _ _ _ => .trans .trans)
    (fun _ _ _ _ _ heval _ => originOfExpense_of_stmt heval id) (h.expensesStay id)
    (move_of_step hstep).2

/-- A draft stays where it was. -/
lemma draft_step (h : RowsKept c) (hstep : step postgres c l = some c') (id : UUID) :
    (∀ i, Stays CaptureDraft.SameRow (c'.db.drafts.find id)
      ((c'.view postgres i).drafts.find id)) ∧
    Stays CaptureDraft.SameRow (c.db.drafts.find id) (c'.db.drafts.find id) :=
  persists_of_move h.sound (guarded_draft id) (.refl .refl) (fun _ _ _ => .trans .trans)
    (fun _ _ _ _ _ heval _ => originOfDraft_of_stmt heval id) (h.draftsStay id)
    (move_of_step hstep).2

/-- **Every step** keeps the rows. -/
lemma step (h : RowsKept c) (hstep : Transact.step postgres c l = some c') : RowsKept c' := by
  obtain ⟨-, hm⟩ := move_of_step hstep
  exact {
    sound := sound_of_move postgres_covers h.sound hm
    expenses := UniqueIndex.holds_of_move h.sound
      (fun _ _ _ _ _ heval => expenseIndex_of_stmt heval (h.expenses.2 _)) h.expenses.1
      h.expenses.2 hm
    drafts := UniqueIndex.holds_of_move h.sound
      (fun _ _ _ _ _ heval => draftIndex_of_stmt heval (h.drafts.2 _)) h.drafts.1 h.drafts.2 hm
    results := UniqueIndex.holds_of_move h.sound
      (fun _ _ _ _ _ heval => resultIndex_of_stmt heval (h.results.2 _)) h.results.1 h.results.2 hm
    expensesStay := fun id => (h.expense_step hstep id).1
    draftsStay := fun id => (h.draft_step hstep id).1 }

/-- From one configuration to a later one, Expenses and drafts stay. -/
lemma stay (h : RowsKept c) (hreach : Reaches postgres c c') : RowsKept c' ∧
    (∀ id, Stays Expense.SameOrigin (c.db.expenses.find id) (c'.db.expenses.find id)) ∧
    ∀ id, Stays CaptureDraft.SameRow (c.db.drafts.find id) (c'.db.drafts.find id) := by
  refine hreach.induction (P := fun c' => RowsKept c' ∧
    (∀ id, Stays Expense.SameOrigin (c.db.expenses.find id) (c'.db.expenses.find id)) ∧
    ∀ id, Stays CaptureDraft.SameRow (c.db.drafts.find id) (c'.db.drafts.find id))
    (fun c₁ l c₂ hc hstep => ?_) ⟨h, fun _ => .refl .refl _, fun _ => .refl .refl _⟩
  obtain ⟨hkept, he, hd⟩ := hc
  exact ⟨hkept.step hstep, fun id => (he id).trans Expense.SameOrigin.trans
    (hkept.expense_step hstep id).2, fun id => (hd id).trans CaptureDraft.SameRow.trans
      (hkept.draft_step hstep id).2⟩

variable [PythonRuntime]

/-- They are kept before the first step, if the unique constraints hold. -/
lemma begin {db : Database} (hexpenses : expenseIndex.Holds db) (hdrafts : draftIndex.Holds db)
    (hresults : resultIndex.Holds db) (requests : ι → Request) (tapes : ι → Stream' Reading) :
    RowsKept (started db requests tapes) where
  sound := ⟨fun _ _ h => absurd h List.not_mem_nil, fun _ _ h => absurd h List.not_mem_nil⟩
  expenses := ⟨hexpenses, fun _ => hexpenses⟩
  drafts := ⟨hdrafts, fun _ => hdrafts⟩
  results := ⟨hresults, fun _ => hresults⟩
  expensesStay _ _ := .refl .refl _
  draftsStay _ _ := .refl .refl _

end RowsKept

variable [PythonRuntime]

/-- **One Expense for a draft.** Take any database whose unique constraints hold, and any number of
requests, updates, rounds of the worker and batches of retention that run on it at the same time, any
of them stopped at any point.

In every committed state no two Expenses come from one draft, no two drafts from one receipt and no
two recognition results from one attempt. An Expense and a draft that were committed once are in
every later committed state, and the Expense still has its owner, draft, receipt, source and time of
creation; so a draft that has an Expense never gets another one.

**Proof sketch.** An insertion checks the rows that its session sees, and holds the lock on the
value until it commits; what two sessions wrote with one value would be under one lock. -/
theorem one_expense_per_draft (db : Database) (hexpenses : expenseIndex.Holds db)
    (hdrafts : draftIndex.Holds db) (hresults : resultIndex.Holds db) (requests : ι → Request)
    (tapes : ι → Stream' Reading) {ls : List (Label ι)} {c : System ι}
    (h : run postgres (started db requests tapes) ls = some c) :
    (∀ e ∈ c.db.expenses, ∀ e' ∈ c.db.expenses, e.captureDraftId = e'.captureDraftId → e = e') ∧
    (∀ d ∈ c.db.drafts, ∀ d' ∈ c.db.drafts, ∀ r, d.receiptId = some r → d'.receiptId = some r →
      d = d') ∧
    (∀ x ∈ c.db.results, ∀ y ∈ c.db.results, x.receiptId = y.receiptId →
      x.attemptId = y.attemptId → x = y) ∧
    ∀ ls' c', run postgres c ls' = some c' →
      (∀ e ∈ c.db.expenses, ∃ e' ∈ c'.db.expenses, e.SameOrigin e') ∧
      (∀ d ∈ c.db.drafts, ∃ d' ∈ c'.db.drafts, d.SameRow d') ∧
      ∀ e ∈ c.db.expenses, ∀ e' ∈ c'.db.expenses, e.captureDraftId = e'.captureDraftId →
        e'.id = e.id := by
  have hkept : RowsKept c :=
    ((RowsKept.begin hexpenses hdrafts hresults requests tapes).stay ⟨ls, h⟩).1
  refine ⟨fun e he e' he' hd => hkept.expenses.1 e he e' he' _ rfl (congrArg some hd.symm),
    fun d hd d' hd' r hr hr' => hkept.drafts.1 d hd d' hd' r hr hr', ?_, fun ls' c' h' => ?_⟩
  · intro x hx y hy hr ha
    refine hkept.results.1 x hx y hy _ rfl ?_
    show some (y.receiptId, y.attemptId) = some (x.receiptId, x.attemptId)
    rw [hr, ha]
  · obtain ⟨hkept', hstay, hstay'⟩ := hkept.stay ⟨ls', h'⟩
    have hlater : ∀ e ∈ c.db.expenses, ∃ e' ∈ c'.db.expenses, e.SameOrigin e' := by
      intro e he
      obtain ⟨e', he', hsame⟩ := hstay e.id e (Table.find_of_mem he)
      exact ⟨e', Table.mem_of_find he', hsame⟩
    refine ⟨hlater, fun d hd => ?_, fun e he e' he' hdraft => ?_⟩
    · obtain ⟨d', hd', hsame⟩ := hstay' d.id d (Table.find_of_mem hd)
      exact ⟨d', Table.mem_of_find hd', hsame⟩
    · obtain ⟨e₁, he₁, hsame⟩ := hlater e he
      have hone : e₁ = e' := hkept'.expenses.1 e₁ he₁ e' he' _ rfl
        (congrArg some (hdraft.symm.trans hsame.draft.symm))
      rw [← hone]
      exact hsame.id

/-- A draft that was reviewed. -/
def reviewedDraft : CaptureDraft :=
  ⟨5, 7, .telegramManual, .readyForReview, 1, some twelveFifty, some .user, some july29, some .user,
    none, none, some "food", some .user, none, none, 0, 0, none, none, none⟩

/-- The owner may confirm it. -/
def Database.reviewed : Database :=
  { Database.small with drafts := ⟨[reviewedDraft], by decide⟩ }

/-- Two clicks, half a century later. -/
def clickTapes (i : ℕ) : Stream' Reading :=
  fun _ => ⟨1800000000000000, if i = 0 then 8 else 9, none, 0, none⟩

/-- The second request waits for the lock of the first, and then finds the draft confirmed. -/
def twoClicks : List (Label ℕ) := List.replicate 7 (.go 0) ++ List.replicate 3 (.go 1)

omit [PythonRuntime] in
/-- Two confirmations of one draft leave one Expense. -/
theorem one_expense_per_draft_two_clicks :
    letI := PythonRuntime.ascii
    ∃ c, run postgres (started Database.reviewed (fun _ => .confirm 5 7) clickTapes) twoClicks =
        some c ∧ (c.sessions 1).closed = true ∧ (c.db.expenses.rows.map Expense.id) = [8] ∧
      ∀ ls' c', run postgres c ls' = some c' → ∀ e ∈ c'.db.expenses, e.captureDraftId = 5 →
        e.id = 8 := by
  let _ := PythonRuntime.ascii
  have heval : (run postgres (started Database.reviewed (fun _ => .confirm 5 7) clickTapes)
      twoClicks).map (fun c => ((c.sessions 1).closed,
        c.db.expenses.rows.map fun e => (e.id, e.captureDraftId))) = some (true, [(8, 5)]) := by
    decide +kernel
  obtain ⟨c, hrun, heval⟩ := Option.map_eq_some_iff.mp heval
  obtain ⟨hclosed, hrows⟩ := Prod.mk.inj heval
  have hnone : ∀ x : RecognitionResult, x ∉ Database.reviewed.results := by
    intro x hx
    cases hx
  have hexpense : ∀ e : Expense, e ∉ Database.reviewed.expenses := by
    intro e he
    cases he
  have hdrafts : draftIndex.Holds Database.reviewed := by
    intro d hd d' hd' _ _ _
    exact (List.mem_singleton.mp hd).trans (List.mem_singleton.mp hd').symm
  obtain ⟨-, -, -, hlater⟩ := one_expense_per_draft Database.reviewed
    (fun e he => absurd he (hexpense e)) hdrafts (fun x hx => absurd hx (hnone x)) _ _ hrun
  have hids : c.db.expenses.rows.map Expense.id = [8] := by
    have hfst := congrArg (List.map Prod.fst) hrows
    rwa [List.map_map] at hfst
  refine ⟨c, hrun, hclosed, hids, fun ls' c' hrun' e' he' hdraft => ?_⟩
  obtain ⟨e, he, heq⟩ := List.mem_map.mp (hrows ▸ List.mem_singleton.mpr rfl :
    ((8, 5) : UUID × UUID) ∈ c.db.expenses.rows.map fun e => (e.id, e.captureDraftId))
  obtain ⟨hid, hdraft'⟩ := Prod.mk.inj heq
  rw [← hid]
  exact (hlater ls' c' hrun').2.2 e he e' he' (hdraft'.trans hdraft.symm)

end MintFlow
