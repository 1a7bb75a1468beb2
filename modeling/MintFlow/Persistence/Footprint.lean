import MintFlow.Persistence.Schema
import MintFlow.Telegram.Handling

set_option relaxedAutoImplicit false
set_option autoImplicit false

/-!
# What statements write

Which tables a statement may write, what writes on other tables leave alone, and which rows are
guarded by their own locks.

## Main definitions

* `MintFlow.Write.table`, `MintFlow.Stmt.writes` — the table of a write, and those of a statement.

## Main results

* `MintFlow.table_mem_writes` — a statement writes its own tables only.
* `MintFlow.guarded_receipt` and its like — a row changes only under its lock.
-/

namespace MintFlow

open Transact

/-- The table a write is on. -/
def Write.table : Write → TableName
  | .draft _ => .captureDrafts
  | .expense _ => .expenses
  | .changeRecord _ => .expenseChangeRecords
  | .conversation _ => .telegramConversations
  | .receipt _ => .receipts
  | .image _ | .removeImage _ => .receiptImages
  | .result _ | .removeResults _ => .recognitionResults
  | .processedUpdate _ => .telegramProcessedUpdates
  | .challenge _ => .telegramLinkChallenges
  | .auditRecord _ => .authenticationAuditRecords

/-- The tables a statement may write. -/
def Stmt.writes : Stmt → List TableName
  | .createDraft _ | .updateDraft _ => [.captureDrafts]
  | .createExpense _ | .updateExpense _ => [.expenses]
  | .appendChangeRecord _ => [.expenseChangeRecords]
  | .lockConversation _ _ | .saveConversation _ => [.telegramConversations]
  | .createReceipt _ _ | .updateClaimed _ | .claimDelayNotices _ _ _ | .saveFinished _ => [.receipts]
  | .saveResult _ => [.recognitionResults]
  | .createImage _ => [.receiptImages]
  | .beginUpdate _ _ => [.telegramProcessedUpdates]
  | .claimChallenge _ _ _ _ => [.telegramLinkChallenges]
  | .addAuditRecord _ => [.authenticationAuditRecords]
  | .expireAbandonedDrafts _ _ _ => [.captureDrafts, .telegramConversations]
  | .deleteReceiptData _ _ _ =>
    [.receiptImages, .recognitionResults, .captureDrafts, .receipts]
  | _ => []

/-- Statements that only read write nothing. -/
lemma Stmt.writes_of_reads {o : Stmt} (h : o.reads = true) : o.writes = [] := by
  cases o <;> first | rfl | exact absurd h Bool.false_ne_true

/-- **Footprints.** A statement writes its own tables only.

**Proof sketch.** By the statement. What it writes when it succeeds is given by the lemma of its
operation: mostly nothing or a single row of the one table that it names. -/
lemma table_mem_writes {o : Stmt} {busy : Key → Bool} {db : Database} {r : o.Resp}
    {ws : List Write} (h : evaluate o busy db = .ok (r, ws)) : ∀ w ∈ ws, w.table ∈ o.writes := by
  have hnil : ∀ {ws' : List Write} {l : List TableName}, ws' = [] → ∀ w ∈ ws', w.table ∈ l := by
    rintro _ l rfl w hw
    cases hw
  have hone : ∀ {w : Write} {l : List TableName}, w.table ∈ l → ∀ w' ∈ [w], w'.table ∈ l := by
    intro w l hw w' hw'
    rw [List.mem_singleton.mp hw']
    exact hw
  cases o
  case createDraft d =>
    obtain ⟨-, -, -, -, -, -, -, rfl⟩ := Database.createDraft_eq_ok h
    exact hone (.head _)
  case updateDraft d =>
    rcases Database.updateDraft_eq_ok h with ⟨-, rfl⟩ | ⟨_, -, -, -, -, -, -, rfl⟩
    · exact hnil rfl
    · exact hone (.head _)
  case createExpense e =>
    obtain ⟨-, -, -, -, -, -, -, -, rfl⟩ := Database.createExpense_eq_ok h
    exact hone (.head _)
  case updateExpense e =>
    rcases Database.updateExpense_eq_ok h with ⟨-, rfl⟩ | ⟨_, -, -, -, -, rfl⟩
    · exact hnil rfl
    · exact hone (.head _)
  case appendChangeRecord c =>
    obtain ⟨-, -, -, rfl⟩ := Database.appendChangeRecord_eq_ok h
    exact hone (.head _)
  case lockConversation user now =>
    rcases Database.lockConversation_eq_ok h with ⟨-, rfl⟩ | ⟨-, -, -, rfl⟩
    · exact hnil rfl
    · exact hone (.head _)
  case saveConversation c =>
    obtain ⟨-, -, rfl⟩ := Database.saveConversation_eq_ok h
    exact hone (.head _)
  case createReceipt c f =>
    obtain ⟨-, -, rfl⟩ := Database.createReceipt_eq_ok h
    exact hone (.head _)
  case updateClaimed c =>
    rcases Database.updateClaimed_eq_ok h with ⟨-, rfl⟩ | ⟨_, -, rfl⟩
    · exact hnil rfl
    · exact hone (.head _)
  case claimDelayNotices now before limit =>
    obtain ⟨-, rfl⟩ := Prod.mk.inj (Except.ok.inj h)
    intro w hw
    obtain ⟨row, -, rfl⟩ := List.mem_map.mp hw
    exact .head _
  case saveFinished c =>
    rcases Database.saveFinished_eq_ok h with ⟨-, rfl⟩ | ⟨_, -, -, -, -, -, rfl⟩
    · exact hnil rfl
    · exact hone (.head _)
  case saveResult c =>
    obtain ⟨-, -, -, -, rfl⟩ := Database.saveResult_eq_ok h
    exact hone (.head _)
  case createImage i =>
    obtain ⟨-, rfl⟩ := Database.createImage_eq_ok h
    exact hone (.head _)
  case beginUpdate id now =>
    have h' : db.beginUpdate id now = (r, ws) := Except.ok.inj h
    unfold Database.beginUpdate at h'
    split at h'
    · exact hnil (Prod.mk.inj h').2.symm
    · rw [← (Prod.mk.inj h').2]
      exact hone (.head _)
  case claimChallenge hash t name now =>
    have h' : db.claimChallenge hash t name now = (r, ws) := Except.ok.inj h
    unfold Database.claimChallenge at h'
    split at h'
    · exact hnil (Prod.mk.inj h').2.symm
    · rw [← (Prod.mk.inj h').2]
      exact hone (.head _)
  case addAuditRecord a =>
    obtain ⟨-, rfl⟩ := Prod.mk.inj (Except.ok.inj h)
    exact hone (.head _)
  case expireAbandonedDrafts cutoff now size =>
    obtain ⟨-, rfl⟩ := Prod.mk.inj (Except.ok.inj h)
    intro w hw
    rcases List.mem_append.mp hw with hw | hw
    · obtain ⟨d, -, rfl⟩ := List.mem_map.mp hw
      exact .head _
    · obtain ⟨c, -, rfl⟩ := List.mem_map.mp hw
      exact .tail _ (.head _)
  case deleteReceiptData cutoff now size =>
    obtain ⟨-, rfl⟩ := Prod.mk.inj (Except.ok.inj h)
    intro w hw
    rcases List.mem_append.mp hw with hw | hw
    · rcases List.mem_append.mp hw with hw | hw
      · rcases List.mem_append.mp hw with hw | hw
        · obtain ⟨row, -, rfl⟩ := List.mem_map.mp hw
          exact .head _
        · obtain ⟨row, -, rfl⟩ := List.mem_map.mp hw
          exact .tail _ (.head _)
      · obtain ⟨d, -, rfl⟩ := List.mem_map.mp hw
        exact .tail _ (.tail _ (.head _))
    · obtain ⟨row, -, rfl⟩ := List.mem_map.mp hw
      exact .tail _ (.tail _ (.tail _ (.head _)))
  all_goals exact hnil (Prod.mk.inj (Except.ok.inj h)).2.symm

/-! ## Frames -/

section Frames

variable {ws : List Write} {db : Database} {α : Type} {proj : Database → α}

/-- What writes on other tables leave alone, a list of them does. -/
lemma applyAll_frame {t : TableName} (hframe : ∀ w db, w.table ≠ t → proj (db.apply w) = proj db)
    (h : ∀ w ∈ ws, w.table ≠ t) : proj (postgres.applyAll ws db) = proj db := by
  induction ws generalizing db with
  | nil => rfl
  | cons w ws ih =>
    show proj (postgres.applyAll ws (db.apply w)) = _
    rw [ih fun w' hw' => h w' (List.mem_cons_of_mem _ hw'), hframe w db (h w List.mem_cons_self)]

lemma receipts_applyAll (h : ∀ w ∈ ws, w.table ≠ .receipts) :
    (postgres.applyAll ws db).receipts = db.receipts :=
  applyAll_frame (t := .receipts) (fun w _ hw => by cases w <;> first | rfl | exact absurd rfl hw) h

lemma images_applyAll (h : ∀ w ∈ ws, w.table ≠ .receiptImages) :
    (postgres.applyAll ws db).images = db.images :=
  applyAll_frame (t := .receiptImages)
    (fun w _ hw => by cases w <;> first | rfl | exact absurd rfl hw) h

lemma results_applyAll (h : ∀ w ∈ ws, w.table ≠ .recognitionResults) :
    (postgres.applyAll ws db).results = db.results :=
  applyAll_frame (t := .recognitionResults)
    (fun w _ hw => by cases w <;> first | rfl | exact absurd rfl hw) h

lemma expenses_applyAll (h : ∀ w ∈ ws, w.table ≠ .expenses) :
    (postgres.applyAll ws db).expenses = db.expenses :=
  applyAll_frame (t := .expenses) (fun w _ hw => by cases w <;> first | rfl | exact absurd rfl hw) h

/-- A statement that may not write a table leaves it alone. -/
lemma table_ne_of_not_mem {o : Stmt} {busy : Key → Bool} {r : o.Resp} {t : TableName}
    (h : evaluate o busy db = .ok (r, ws)) (ht : t ∉ o.writes) : ∀ w ∈ ws, w.table ≠ t :=
  fun w hw heq => ht (heq ▸ table_mem_writes h w hw)

end Frames

/-! ## Rows and their locks -/

/-- A receipt changes only under its lock. -/
lemma guarded_receipt (id : UUID) :
    Guarded postgres Write.keys (.receipt id) fun db => db.receipts.find id where
  frame w db h := by
    show (db.apply w).receipts.find id = db.receipts.find id
    rw [Database.find_receipt_apply]
    cases w with
    | receipt r => exact if_neg fun (heq : id = _) => h (heq ▸ List.mem_singleton.mpr rfl)
    | _ => rfl
  local_ w db db' h := by
    show (db.apply w).receipts.find id = (db'.apply w).receipts.find id
    simp only [Database.find_receipt_apply, h]

/-- A draft changes only under its lock. -/
lemma guarded_draft (id : UUID) :
    Guarded postgres Write.keys (.draft id) fun db => db.drafts.find id where
  frame w db h := by
    show (db.apply w).drafts.find id = db.drafts.find id
    rw [Database.find_draft_apply]
    cases w with
    | draft d => exact if_neg fun (heq : id = _) => h (heq ▸ List.mem_cons_self)
    | _ => rfl
  local_ w db db' h := by
    show (db.apply w).drafts.find id = (db'.apply w).drafts.find id
    simp only [Database.find_draft_apply, h]

/-- A conversation changes only under its lock. -/
lemma guarded_conversation (user : UUID) :
    Guarded postgres Write.keys (.conversation user) fun db => db.conversations.find user where
  frame w db h := by
    show (db.apply w).conversations.find user = db.conversations.find user
    rw [Database.find_conversation_apply]
    cases w with
    | conversation c => exact if_neg fun (heq : user = _) => h (heq ▸ List.mem_singleton.mpr rfl)
    | _ => rfl
  local_ w db db' h := by
    show (db.apply w).conversations.find user = (db'.apply w).conversations.find user
    simp only [Database.find_conversation_apply, h]

/-- An Expense changes only under its lock. -/
lemma guarded_expense (id : UUID) :
    Guarded postgres Write.keys (.expense id) fun db => db.expenses.find id where
  frame w db h := by
    show (db.apply w).expenses.find id = db.expenses.find id
    rw [Database.find_expense_apply]
    cases w with
    | expense e => exact if_neg fun (heq : id = _) => h (heq ▸ List.mem_cons_self)
    | _ => rfl
  local_ w db db' h := by
    show (db.apply w).expenses.find id = (db'.apply w).expenses.find id
    simp only [Database.find_expense_apply, h]

end MintFlow
