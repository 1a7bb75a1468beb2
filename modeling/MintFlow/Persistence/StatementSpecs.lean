import MintFlow.Persistence.Statements

set_option relaxedAutoImplicit false
set_option autoImplicit false

/-!
# What the statements do

One lemma for each statement that checks before it writes: what holds when it answers, and which
rows it wrote. Everything proved about the programs rests on these and never looks inside a
statement again.

## Main results

* `MintFlow.checkDraft_eq_ok` — the CHECK constraints let exactly the consistent drafts pass.
* `MintFlow.Database.createDraft_eq_ok`, `updateDraft_eq_ok`, `createExpense_eq_ok` and the like.
-/

namespace MintFlow

open Transact

variable {db : Database} {ws : List Write}

/-! ## Constraints -/

@[simp] lemma demand_eq_ok {c : Prop} [Decidable c] {e : Error} {u : Unit} :
    demand c e = .ok u ↔ c := by
  unfold demand
  split_ifs with h <;> simp [h]

@[simp] lemma demandReference_eq_ok {reference : Option UUID} {target : UUID → Bool}
    {table column : String} {u : Unit} :
    demandReference reference target table column = .ok u ↔ ∀ i ∈ reference, target i = true := by
  unfold demandReference
  rw [demand_eq_ok]
  cases reference <;> simp

/-- The CHECK constraints let exactly the consistent drafts pass. -/
@[simp] lemma checkDraft_eq_ok {d : CaptureDraft} {u : Unit} :
    checkDraft d = .ok u ↔ d.Consistent := by
  rw [← CaptureDraft.satisfiesChecks_iff]
  unfold checkDraft CaptureDraftRecord.violated CaptureDraftRecord.SatisfiesChecks
  cases h : d.toRecord.checks.find? fun c => !c.2 with
  | none => simpa using h
  | some c =>
    have hmem := List.mem_of_find?_eq_some h
    have hbad : c.2 = false := by simpa using List.find?_some h
    simp only [Option.map_some, reduceCtorEq, false_iff, not_forall]
    exact ⟨c, hmem, by simp [hbad]⟩

/-- The CHECK constraints of a receipt's row. -/
lemma checkReceipt_eq_ok {r : Receipt} {u : Unit} :
    Database.checkReceipt r = .ok u ↔
      (r.state = .queued ↔ r.attemptId = none) ∧
        (r.state = .processing ↔ r.leaseExpiresAt.isSome = true) := by
  unfold Database.checkReceipt
  rw [Checked.bind_eq_ok]
  simp only [demand_eq_ok, exists_and_left, exists_const]

namespace Database

/-! ## Writing many rows -/

lemma applyAll_drafts (ds : List CaptureDraft) (db : Database) :
    postgres.applyAll (ds.map Write.draft) db = { db with drafts := db.drafts.upsertAll ds } := by
  induction ds generalizing db with
  | nil => rfl
  | cons d ds ih => exact ih _

lemma applyAll_conversations (cs : List TelegramConversation) (db : Database) :
    postgres.applyAll (cs.map Write.conversation) db =
      { db with conversations := db.conversations.upsertAll cs } := by
  induction cs generalizing db with
  | nil => rfl
  | cons c cs ih => exact ih _

lemma applyAll_receipts (rs : List ReceiptRow) (db : Database) :
    postgres.applyAll (rs.map Write.receipt) db =
      { db with receipts := db.receipts.upsertAll rs } := by
  induction rs generalizing db with
  | nil => rfl
  | cons r rs ih => exact ih _

/-! ## Drafts -/

/-- A draft of an owner is the row with its id, and the owner's. -/
lemma ownedDraft_eq_some {id owner : UUID} {d : CaptureDraft} :
    db.ownedDraft id owner = some d ↔ db.drafts.find id = some d ∧ d.ownerId = owner := by
  simp [ownedDraft, Option.filter_eq_some_iff]

/-- The draft of a receipt is a row that refers to it. -/
lemma mem_of_draftOfReceipt {r : UUID} {d : CaptureDraft} (h : db.draftOfReceipt r = some d) :
    d ∈ db.drafts ∧ d.receiptId = some r :=
  ⟨List.mem_of_find?_eq_some h, by simpa using List.find?_some h⟩

/-- What the insertion of a draft needs and writes. -/
lemma createDraft_eq_ok {d : CaptureDraft} {u : Unit} (h : db.createDraft d = .ok (u, ws)) :
    d.TextsFit ∧ d.Consistent ∧ db.drafts.find d.id = none ∧
      (∀ r ∈ d.receiptId, db.draftOfReceipt r = none ∧ db.hasReceipt r = true) ∧
      db.hasUser d.ownerId = true ∧ (∀ e ∈ d.expenseId, db.hasExpense e = true) ∧
      (∀ r ∈ d.recognitionResultId, db.hasResult r = true) ∧ ws = [.draft d] := by
  simp only [createDraft, Checked.bind_eq_ok, demand_eq_ok, demandReference_eq_ok,
    checkDraft_eq_ok, Checked.pure_eq_ok, Prod.mk.injEq, true_and, exists_const] at h
  obtain ⟨htexts, hc, hid, hr, hu, hrr, he, hres, rfl⟩ := h
  refine ⟨htexts, hc, hid, fun r hmem => ⟨?_, hrr r hmem⟩, hu, he, hres, rfl⟩
  rw [Option.mem_def.mp hmem] at hr
  simpa using hr

/-- The row an update of a draft leaves. -/
def updatedDraft (row d : CaptureDraft) : CaptureDraft :=
  { d with createdAt := row.createdAt, receiptId := row.receiptId }

/-- What an update of a draft needs and writes.

**Proof sketch.** Each check before the write holds, in the order of the statement; without a row
nothing is written. -/
lemma updateDraft_eq_ok {d : CaptureDraft} {u : Unit} (h : db.updateDraft d = .ok (u, ws)) :
    (db.drafts.find d.id = none ∧ ws = []) ∨
      ∃ row, db.drafts.find d.id = some row ∧ d.TextsFit ∧ (updatedDraft row d).Consistent ∧
        db.hasUser d.ownerId = true ∧ (∀ e ∈ d.expenseId, db.hasExpense e = true) ∧
        (∀ r ∈ d.recognitionResultId, db.hasResult r = true) ∧
        ws = [.draft (updatedDraft row d)] := by
  unfold updateDraft at h
  obtain ⟨_, htexts, h⟩ := Checked.bind_eq_ok.mp h
  rw [demand_eq_ok] at htexts
  cases hf : db.drafts.find d.id with
  | none =>
    rw [hf] at h
    obtain ⟨-, rfl⟩ := Prod.mk.inj (Except.ok.inj h)
    exact .inl ⟨rfl, rfl⟩
  | some row =>
    rw [hf] at h
    simp only [Checked.bind_eq_ok, demand_eq_ok, demandReference_eq_ok, checkDraft_eq_ok,
      Checked.pure_eq_ok, Prod.mk.injEq, true_and, exists_const] at h
    obtain ⟨hc, hu, he, hres, rfl⟩ := h
    exact .inr ⟨row, rfl, htexts, hc, hu, he, hres, rfl⟩

/-! ## Expenses -/

/-- An Expense of an owner is the row with its id, and the owner's. -/
lemma ownedExpense_eq_some {id owner : UUID} {e : Expense} :
    db.ownedExpense id owner = some e ↔ db.expenses.find id = some e ∧ e.ownerId = owner := by
  simp [ownedExpense, Option.filter_eq_some_iff]

/-- An active Expense of an owner is its row, and not deleted. -/
lemma activeExpense_eq_some {id owner : UUID} {e : Expense} :
    db.activeExpense id owner = some e ↔
      db.ownedExpense id owner = some e ∧ e.isActive = true := by
  simp [activeExpense, Option.filter_eq_some_iff]

/-- What the insertion of an Expense needs and writes. -/
lemma createExpense_eq_ok {e : Expense} {u : Unit} (h : db.createExpense e = .ok (u, ws)) :
    e.Storable ∧ 0 < e.money.minorUnits ∧ db.expenses.find e.id = none ∧
      db.expensesOfDraft e.captureDraftId = [] ∧ db.hasUser e.ownerId = true ∧
      db.hasCategory e.categoryKey = true ∧ db.hasDraft e.captureDraftId = true ∧
      (∀ r ∈ e.receiptId, db.hasReceipt r = true) ∧ ws = [.expense e] := by
  simp only [createExpense, Checked.bind_eq_ok, demand_eq_ok, demandReference_eq_ok,
    Checked.pure_eq_ok, Prod.mk.injEq, true_and, exists_const] at h
  obtain ⟨h₁, h₂, h₃, h₄, h₅, h₆, h₇, h₈, rfl⟩ := h
  exact ⟨h₁, h₂, h₃, h₄, h₅, h₆, h₇, h₈, rfl⟩

/-- The row an update of an Expense leaves. -/
def updatedExpense (row e : Expense) : Expense :=
  { row with
    money := e.money, transactionDate := e.transactionDate, merchant := e.merchant
    categoryKey := e.categoryKey, note := e.note, modifiedAt := e.modifiedAt
    deletedAt := e.deletedAt }

/-- What an update of an Expense needs and writes. -/
lemma updateExpense_eq_ok {e : Expense} {u : Unit} (h : db.updateExpense e = .ok (u, ws)) :
    (db.expenses.find e.id = none ∧ ws = []) ∨
      ∃ row, db.expenses.find e.id = some row ∧ e.Storable ∧ 0 < e.money.minorUnits ∧
        db.hasCategory e.categoryKey = true ∧ ws = [.expense (updatedExpense row e)] := by
  unfold updateExpense at h
  obtain ⟨_, hstorable, h⟩ := Checked.bind_eq_ok.mp h
  rw [demand_eq_ok] at hstorable
  cases hf : db.expenses.find e.id with
  | none =>
    rw [hf] at h
    obtain ⟨-, rfl⟩ := Prod.mk.inj (Except.ok.inj h)
    exact .inl ⟨rfl, rfl⟩
  | some row =>
    rw [hf] at h
    simp only [Checked.bind_eq_ok, demand_eq_ok, Checked.pure_eq_ok, Prod.mk.injEq, true_and,
      exists_const] at h
    obtain ⟨hpos, hcat, rfl⟩ := h
    exact .inr ⟨row, rfl, hstorable, hpos, hcat, rfl⟩

/-- What the insertion of a change record needs and writes. -/
lemma appendChangeRecord_eq_ok {r : ExpenseChangeRecord} {u : Unit}
    (h : db.appendChangeRecord r = .ok (u, ws)) :
    db.changeRecords.find r.id = none ∧ db.hasExpense r.expenseId = true ∧
      db.hasUser r.actorUserId = true ∧ ws = [.changeRecord r] := by
  simp only [appendChangeRecord, Checked.bind_eq_ok, demand_eq_ok, Checked.pure_eq_ok,
    Prod.mk.injEq, true_and, exists_const] at h
  obtain ⟨h₁, h₂, h₃, rfl⟩ := h
  exact ⟨h₁, h₂, h₃, rfl⟩

/-! ## Conversations -/

/-- What locking a conversation answers and writes. -/
lemma lockConversation_eq_ok {user : UUID} {now : Instant} {c : TelegramConversation}
    (h : db.lockConversation user now = .ok (c, ws)) :
    (db.conversations.find user = some c ∧ ws = []) ∨
      (db.conversations.find user = none ∧ db.hasUser user = true ∧
        c = .idle user now ∧ ws = [.conversation c]) := by
  unfold lockConversation at h
  cases hf : db.conversations.find user with
  | some c' =>
    rw [hf] at h
    obtain ⟨rfl, rfl⟩ := Prod.mk.inj (Except.ok.inj h)
    exact .inl ⟨rfl, rfl⟩
  | none =>
    rw [hf] at h
    simp only [Checked.bind_eq_ok, demand_eq_ok, Checked.pure_eq_ok, Prod.mk.injEq,
      exists_const] at h
    obtain ⟨hu, rfl, rfl⟩ := h
    exact .inr ⟨rfl, hu, rfl, rfl⟩

/-- What saving a conversation needs and writes. -/
lemma saveConversation_eq_ok {c : TelegramConversation} {u : Unit}
    (h : db.saveConversation c = .ok (u, ws)) :
    db.hasUser c.userId = true ∧ (∀ d ∈ c.activeDraftId, db.hasDraft d = true) ∧
      ws = [.conversation c] := by
  simp only [saveConversation, Checked.bind_eq_ok, demand_eq_ok, demandReference_eq_ok,
    Checked.pure_eq_ok, Prod.mk.injEq, true_and, exists_const] at h
  obtain ⟨h₁, h₂, rfl⟩ := h
  exact ⟨h₁, h₂, rfl⟩

/-! ## The receipt queue -/

/-- What the insertion of a receipt needs and writes. -/
lemma createReceipt_eq_ok {r : Receipt} {f : Option String} {u : Unit}
    (h : db.createReceipt r f = .ok (u, ws)) :
    db.receipts.find r.id = none ∧ db.hasUser r.ownerId = true ∧ ws = [.receipt ⟨r, f, none⟩] := by
  simp only [createReceipt, Checked.bind_eq_ok, demand_eq_ok, Checked.pure_eq_ok, Prod.mk.injEq,
    true_and, exists_const] at h
  obtain ⟨-, -, h₁, h₂, rfl⟩ := h
  exact ⟨h₁, h₂, rfl⟩

/-- A receipt selected for a claim is a row that can be claimed and that nobody else locks. -/
lemma selectClaimable_eq_some {busy : Key → Bool} {now : Instant} {r : Receipt}
    (h : db.selectClaimable busy now = some r) :
    (∃ row, db.receipts.find r.id = some row ∧ row.receipt = r) ∧ r.isClaimable now = true ∧
      busy (.receipt r.id) = false := by
  obtain ⟨row, hrow, rfl⟩ := Option.map_eq_some_iff.mp h
  have hmem := (List.mem_insertionSort _).mp (List.mem_of_mem_head? hrow)
  obtain ⟨hmem, hp⟩ := List.mem_filter.mp hmem
  simp only [Bool.and_eq_true, Bool.not_eq_true'] at hp
  exact ⟨⟨row, Table.find_of_mem hmem, rfl⟩, hp.1, hp.2⟩

/-- The receipt an update of a claim leaves. -/
def claimedReceipt (row : ReceiptRow) (r : Receipt) : ReceiptRow :=
  { row with receipt := { row.receipt with
    state := r.state, attemptId := r.attemptId, leaseExpiresAt := r.leaseExpiresAt
    modifiedAt := r.modifiedAt } }

/-- What the update of a claim writes. -/
lemma updateClaimed_eq_ok {r : Receipt} {u : Unit} (h : db.updateClaimed r = .ok (u, ws)) :
    (db.receipts.find r.id = none ∧ ws = []) ∨
      ∃ row, db.receipts.find r.id = some row ∧ ws = [.receipt (claimedReceipt row r)] := by
  unfold updateClaimed at h
  cases hf : db.receipts.find r.id with
  | none =>
    rw [hf] at h
    obtain ⟨-, rfl⟩ := Prod.mk.inj (Except.ok.inj h)
    exact .inl ⟨rfl, rfl⟩
  | some row =>
    rw [hf] at h
    simp only [Checked.bind_eq_ok, Checked.pure_eq_ok, Prod.mk.injEq, true_and] at h
    obtain ⟨-, -, rfl⟩ := h
    exact .inr ⟨row, rfl, rfl⟩

/-- The receipts overdue for a delay notice. -/
def overdueReceipts (db : Database) (busy : Key → Bool) (receivedBefore : Instant) (limit : ℕ) :
    List ReceiptRow :=
  (orderBy queueOrder (db.receipts.rows.filter fun row =>
    !row.receipt.isFinished && row.receipt.imageRemovedAt.isNone &&
      row.delayNoticeSentAt.isNone && decide (row.receipt.createdAt ≤ receivedBefore) &&
      !busy (.receipt row.receipt.id))).take limit

/-- A receipt that was claimed for its delay notice. -/
def noticedReceipt (now : Instant) (row : ReceiptRow) : ReceiptRow :=
  { row with delayNoticeSentAt := some now }

/-- **Claiming delay notices** rewrites the overdue receipts and nothing else. -/
lemma claimDelayNotices_eq {busy : Key → Bool} {now before : Instant} {limit : ℕ} :
    postgres.applyAll (db.claimDelayNotices busy now before limit).2 db = { db with
      receipts := db.receipts.upsertAll
        ((db.overdueReceipts busy before limit).map (noticedReceipt now)) } := by
  have h : (db.claimDelayNotices busy now before limit).2 =
      ((db.overdueReceipts busy before limit).map (noticedReceipt now)).map Write.receipt := by
    rw [List.map_map]
    rfl
  rw [h, applyAll_receipts]

/-- An overdue receipt is unfinished, has its image, was received by the time and is claimed for the
first time. -/
lemma mem_overdueReceipts {busy : Key → Bool} {before : Instant} {limit : ℕ} {row : ReceiptRow}
    (h : row ∈ db.overdueReceipts busy before limit) :
    row ∈ db.receipts ∧ row.receipt.isFinished = false ∧ row.receipt.imageRemovedAt = none ∧
      row.delayNoticeSentAt = none ∧ row.receipt.createdAt ≤ before := by
  obtain ⟨hmem, hp⟩ := List.mem_filter.mp ((List.mem_insertionSort _).mp (List.mem_of_mem_take h))
  simp only [Bool.and_eq_true, Bool.not_eq_true', Option.isNone_iff_eq_none,
    decide_eq_true_eq] at hp
  exact ⟨hmem, hp.1.1.1.1, hp.1.1.1.2, hp.1.1.2, hp.1.2⟩

/-- No receipt is overdue twice. -/
lemma nodup_overdueReceipts (db : Database) (busy : Key → Bool) (before : Instant) (limit : ℕ) :
    ((db.overdueReceipts busy before limit).map fun row => row.receipt.id).Nodup := by
  have hperm := List.perm_insertionSort (fun a b => queueOrder a b = true)
    (db.receipts.rows.filter fun row =>
      !row.receipt.isFinished && row.receipt.imageRemovedAt.isNone &&
        row.delayNoticeSentAt.isNone && decide (row.receipt.createdAt ≤ before) &&
        !busy (.receipt row.receipt.id))
  refine List.Nodup.sublist ((List.take_sublist _ _).map _) ?_
  exact (hperm.map _).nodup_iff.mpr (db.receipts.nodup.sublist (List.filter_sublist.map _))

/-- A receipt after delay notices were claimed. -/
lemma find_receipt_noticed {busy : Key → Bool} {now before : Instant} {limit : ℕ} (id : UUID) :
    (postgres.applyAll (db.claimDelayNotices busy now before limit).2 db).receipts.find id =
      (db.receipts.find id).map fun row =>
        if row ∈ db.overdueReceipts busy before limit then noticedReceipt now row else row := by
  rw [claimDelayNotices_eq]
  exact Table.find_upsertAll_map (f := noticedReceipt now) (fun _ => rfl)
    (fun row hrow => (mem_overdueReceipts hrow).1) (nodup_overdueReceipts db busy before limit) id

/-- The receipt a finish leaves. -/
def finishedReceipt (row : ReceiptRow) (r : Receipt) : ReceiptRow :=
  { row with receipt := { row.receipt with
    state := r.state, leaseExpiresAt := r.leaseExpiresAt, modifiedAt := r.modifiedAt } }

/-- What a finish answers and writes: it takes effect only for the current attempt of a receipt
that is being processed.

**Proof sketch.** Cases on the row: the update has an effect exactly where its condition on state
and attempt holds. -/
lemma saveFinished_eq_ok {r : Receipt} {current : Bool}
    (h : db.saveFinished r = .ok (current, ws)) :
    (current = false ∧ ws = []) ∨
      ∃ row, current = true ∧ db.receipts.find r.id = some row ∧ r.attemptId.isSome = true ∧
        row.receipt.attemptId = r.attemptId ∧ row.receipt.state = .processing ∧
        ws = [.receipt (finishedReceipt row r)] := by
  unfold saveFinished at h
  cases hf : db.receipts.find r.id with
  | none =>
    rw [hf] at h
    obtain ⟨rfl, rfl⟩ := Prod.mk.inj (Except.ok.inj h)
    exact .inl ⟨rfl, rfl⟩
  | some row =>
    rw [hf] at h
    dsimp only at h
    split_ifs at h with hcur
    · simp only [Checked.bind_eq_ok, Checked.pure_eq_ok, Prod.mk.injEq] at h
      obtain ⟨-, -, rfl, rfl⟩ := h
      exact .inr ⟨row, rfl, rfl, hcur.1, hcur.2.1, hcur.2.2, rfl⟩
    · obtain ⟨rfl, rfl⟩ := Prod.mk.inj (Except.ok.inj h)
      exact .inl ⟨rfl, rfl⟩

/-- The row a finish leaves satisfies the CHECK constraints. -/
lemma checks_of_saveFinished {r : Receipt} {row : ReceiptRow} {current : Bool}
    (h : db.saveFinished r = .ok (current, ws)) (hrow : db.receipts.find r.id = some row)
    (hcur : current = true) : checkReceipt (finishedReceipt row r).receipt = .ok () := by
  unfold saveFinished at h
  rw [hrow] at h
  dsimp only at h
  split_ifs at h
  · simp only [Checked.bind_eq_ok, Checked.pure_eq_ok, Prod.mk.injEq] at h
    obtain ⟨_, hc, -, -⟩ := h
    exact hc
  · rw [hcur] at h
    cases h

/-- What the insertion of a recognition result needs and writes. -/
lemma saveResult_eq_ok {r : RecognitionResult} {u : Unit} (h : db.saveResult r = .ok (u, ws)) :
    db.results.find r.id = none ∧
      (∀ s ∈ db.results, ¬ (s.receiptId = r.receiptId ∧ s.attemptId = r.attemptId)) ∧
      db.hasReceipt r.receiptId = true ∧ db.hasUser r.ownerId = true ∧ ws = [.result r] := by
  simp only [saveResult, Checked.bind_eq_ok, demand_eq_ok, Checked.pure_eq_ok, Prod.mk.injEq,
    true_and, exists_const] at h
  obtain ⟨h₁, h₂, h₃, h₄, rfl⟩ := h
  refine ⟨h₁, fun s hs => ?_, h₃, h₄, rfl⟩
  simpa using List.find?_eq_none.mp h₂ s hs

/-- What the insertion of an image writes. -/
lemma createImage_eq_ok {i : ReceiptImage} {u : Unit} (h : db.createImage i = .ok (u, ws)) :
    db.images.find i.receiptId = none ∧ ws = [.image i] := by
  simp only [createImage, Checked.bind_eq_ok, demand_eq_ok, Checked.pure_eq_ok, Prod.mk.injEq,
    true_and, exists_const] at h
  obtain ⟨-, -, h₁, -, rfl⟩ := h
  exact ⟨h₁, rfl⟩

end Database

end MintFlow
