import MintFlow.Lib.ReadCommitted
import MintFlow.Persistence.Database
import MintFlow.Analytics.Aggregates
import MintFlow.Receipts.Recognition
import MintFlow.Telegram.Outgoing

set_option relaxedAutoImplicit false
set_option autoImplicit false

/-!
# Statements

The statements of the repositories, what each answers, what it writes, and which rows it locks:
those it selects for locking, those it writes, and those that foreign keys it sets point at. Primary
keys, unique constraints, foreign keys and CHECK constraints are enforced where the statement runs.

## Main definitions

* `MintFlow.Stmt`, `MintFlow.Stmt.Resp` — the statements and their responses.
* `MintFlow.Reading` — what the environment hands over: the clock, `uuid4`, a download, a
  recognizer's answer.
* `MintFlow.Error` — everything that is raised.
* `MintFlow.evaluate`, `MintFlow.postgres` — the outcome of a statement, and the database.

## Implementation notes

A violated foreign key is named by its table and column. Keys are exact but for recognition results,
whose rows are locked by their receipt. `SKIP LOCKED` skips the rows that could not be locked
`FOR UPDATE` at once. Of what may not fit its column, the merchant, the category and the note of a
draft and of an Expense are checked: no revision reaches the end of its integers.
-/

namespace MintFlow

open Transact

/-- Everything the program or the database raises. -/
inductive Error
  | valueError (message : String)
  | captureDraftAccessDenied (message : String)
  | captureDraftNotConfirmable (message : String)
  | expenseNotFound (message : String)
  | expenseEditRejected (message : String)
  | dashboardUserNotFound (message : String)
  | invalidOperation
  | decimalOverflow
  | overflowError
  | unicodeEncodeError
  | dataError
  | http (status : ℕ) (detail : String)
  | uniqueViolation (constraint : String)
  | checkViolation (constraint : String)
  | foreignKeyViolation (table column : String)
  | interrupted
deriving DecidableEq

/-- What the environment hands over when the program asks. -/
structure Reading where
  /-- The clock, which is aware and in UTC. -/
  now : Instant
  /-- What `uuid4` gives. -/
  uuid : UUID
  /-- The bytes of a Telegram file, unless the Bot API fails. -/
  download : Option (List UInt8)
  /-- How many times a running recognition is interrupted for delay notices. -/
  slices : ℕ
  /-- What the recognizer gives within the time limit, if anything. -/
  recognition : Option (RecognitionOutput Binary64)

/-- The statements of the repositories. -/
inductive Stmt
  | getUser (userId : UUID)
  | getCategory (key : String)
  | listActiveCategories
  | createDraft (draft : CaptureDraft)
  | getDraft (draftId ownerId : UUID)
  | getDraftForUpdate (draftId ownerId : UUID)
  | getDraftForUpdateByReceipt (receiptId : UUID)
  | updateDraft (draft : CaptureDraft)
  | createExpense (expense : Expense)
  | getExpense (expenseId ownerId : UUID)
  | getActiveExpenseForUpdate (expenseId ownerId : UUID)
  | getOwnedExpenseForUpdate (expenseId ownerId : UUID)
  | updateExpense (expense : Expense)
  | listRecentExpenses (ownerId : UUID) (limit : ℕ)
  | appendChangeRecord (record : ExpenseChangeRecord)
  | lockConversation (userId : UUID) (now : Instant)
  | saveConversation (conversation : TelegramConversation)
  | createReceipt (receipt : Receipt) (telegramFileId : Option String)
  | telegramFileId (receiptId : UUID)
  | selectClaimableForUpdate (now : Instant)
  | updateClaimed (receipt : Receipt)
  | claimDelayNotices (now receivedBefore : Instant) (limit : ℕ)
  | saveFinished (receipt : Receipt)
  | saveResult (result : RecognitionResult)
  | lockReceipt (receiptId : UUID)
  | createImage (image : ReceiptImage)
  | getImage (receiptId : UUID)
  | beginUpdate (updateId : ℤ) (now : Instant)
  | activeConnectionForTelegramUser (telegramUserId : ℤ)
  | activeConnectionForUser (userId : UUID)
  | claimChallenge (tokenHash : String) (telegramUserId : ℤ) (displayName : Option String)
      (now : Instant)
  | addAuditRecord (record : AuditRecord)
  | expireAbandonedDrafts (inactiveCutoff now : Instant) (batchSize : ℕ)
  | deleteReceiptData (finishedCutoff now : Instant) (batchSize : ℕ)
  | currencyTotals (ownerId : UUID) (period : DashboardPeriod)
  | dailyTotals (ownerId : UUID) (period : DashboardPeriod) (currency : Option CurrencyCode)
  | categoryTotals (ownerId : UUID) (period : DashboardPeriod) (currency : Option CurrencyCode)
  | merchantTotals (ownerId : UUID) (period : DashboardPeriod) (currency : Option CurrencyCode)
  | largestExpense (ownerId : UUID) (period : DashboardPeriod) (currency : CurrencyCode)

/-- What a statement answers. -/
def Stmt.Resp : Stmt → Type
  | .getUser _ => Option User
  | .getCategory _ => Option Category
  | .listActiveCategories => List Category
  | .createDraft _ | .updateDraft _ | .createExpense _ | .updateExpense _ => Unit
  | .getDraft _ _ | .getDraftForUpdate _ _ | .getDraftForUpdateByReceipt _ => Option CaptureDraft
  | .getExpense _ _ | .getActiveExpenseForUpdate _ _ | .getOwnedExpenseForUpdate _ _ =>
    Option Expense
  | .listRecentExpenses _ _ => List Expense
  | .appendChangeRecord _ => Unit
  | .lockConversation _ _ => TelegramConversation
  | .saveConversation _ => Unit
  | .createReceipt _ _ => Unit
  | .telegramFileId _ => Option String
  | .selectClaimableForUpdate _ => Option Receipt
  | .updateClaimed _ => Unit
  | .claimDelayNotices _ _ _ => List (UUID × UUID)
  | .saveFinished _ => Bool
  | .saveResult _ => Unit
  | .lockReceipt _ => Bool
  | .createImage _ => Unit
  | .getImage _ => Option ReceiptImage
  | .beginUpdate _ _ => Bool
  | .activeConnectionForTelegramUser _ | .activeConnectionForUser _ => Option TelegramConnection
  | .claimChallenge _ _ _ _ => Option TelegramLinkChallenge
  | .addAuditRecord _ => Unit
  | .expireAbandonedDrafts _ _ _ | .deleteReceiptData _ _ _ => ℕ
  | .currencyTotals _ _ => List CurrencyTotal
  | .dailyTotals _ _ _ => List DailyTotal
  | .categoryTotals _ _ _ => List CategoryTotal
  | .merchantTotals _ _ _ => List MerchantTotal
  | .largestExpense _ _ _ => Option Expense

/-- The actions of MintFlow's programs. -/
abbrev signature : Signature := ⟨Stmt, Stmt.Resp, Reading, Outgoing, Error, .interrupted⟩

/-- A MintFlow program. -/
abbrev Program := Prog signature

/-! ## Constraints -/

/-- Raise unless a condition holds. -/
def demand (c : Prop) [Decidable c] (e : Error) : Except Error Unit :=
  if c then .ok () else .error e

/-- A foreign key: a reference that is set points at something. -/
def demandReference (reference : Option UUID) (target : UUID → Bool) (table column : String) :
    Except Error Unit :=
  demand (reference.all target) (.foreignKeyViolation table column)

/-- The CHECK constraints of a draft's row. -/
def checkDraft (d : CaptureDraft) : Except Error Unit :=
  match d.toRecord.violated with
  | some c => .error (.checkViolation c)
  | none => .ok ()

/-- What of an Expense its columns may not take: a long key, zero characters. -/
structure Expense.Storable (e : Expense) : Prop where
  merchant : ∀ m ∈ e.merchant, hasNoNul m.value = true
  category : textFits 32 e.categoryKey = true
  note : ∀ note ∈ e.note, hasNoNul note = true

instance Expense.decidableStorable (e : Expense) : Decidable e.Storable :=
  decidable_of_iff ((∀ m ∈ e.merchant, hasNoNul m.value = true) ∧
    textFits 32 e.categoryKey = true ∧ ∀ note ∈ e.note, hasNoNul note = true)
    ⟨fun h => ⟨h.1, h.2.1, h.2.2⟩, fun h => ⟨h.merchant, h.category, h.note⟩⟩

namespace Database

variable (db : Database)

/-- The draft a receipt belongs to. -/
def draftOfReceipt (receiptId : UUID) : Option CaptureDraft :=
  db.drafts.rows.find? fun d => decide (d.receiptId = some receiptId)

/-- The Expenses that carry a draft's id. -/
def expensesOfDraft (draftId : UUID) : List UUID :=
  (db.expenses.rows.filter fun e => decide (e.captureDraftId = draftId)).map Expense.id

/-- Whether there is such a user. -/
def hasUser (id : UUID) : Bool := (db.users.find id).isSome

/-- Whether there is such a draft. -/
def hasDraft (id : UUID) : Bool := (db.drafts.find id).isSome

/-- Whether there is such an Expense. -/
def hasExpense (id : UUID) : Bool := (db.expenses.find id).isSome

/-- Whether there is such a receipt. -/
def hasReceipt (id : UUID) : Bool := (db.receipts.find id).isSome

/-- Whether there is such a recognition result. -/
def hasResult (id : UUID) : Bool := (db.results.find id).isSome

/-- Whether there is such a category. -/
def hasCategory (key : String) : Bool := (db.categories.find key).isSome

/-! ## Drafts -/

/-- A draft of the given owner. -/
def ownedDraft (draftId ownerId : UUID) : Option CaptureDraft :=
  (db.drafts.find draftId).filter fun d => decide (d.ownerId = ownerId)

/-- `SqlAlchemyCaptureDraftRepository.create`. -/
def createDraft (d : CaptureDraft) : Except Error (Unit × List Write) := do
  demand d.TextsFit .dataError
  checkDraft d
  demand (db.drafts.find d.id = none) (.uniqueViolation "capture_drafts_pkey")
  demand (d.receiptId.all fun r => (db.draftOfReceipt r).isNone)
    (.uniqueViolation "uq_capture_drafts_receipt_id")
  demand (db.hasUser d.ownerId) (.foreignKeyViolation "capture_drafts" "owner_id")
  demandReference d.receiptId db.hasReceipt "capture_drafts" "receipt_id"
  demandReference d.expenseId db.hasExpense "capture_drafts" "expense_id"
  demandReference d.recognitionResultId db.hasResult "capture_drafts" "recognition_result_id"
  return ((), [.draft d])

/-- `SqlAlchemyCaptureDraftRepository.update`: every column but the id, the creation time and the
receipt is written back. -/
def updateDraft (d : CaptureDraft) : Except Error (Unit × List Write) := do
  demand d.TextsFit .dataError
  match db.drafts.find d.id with
  | none => return ((), [])
  | some row => do
    let d := { d with createdAt := row.createdAt, receiptId := row.receiptId }
    checkDraft d
    demand (db.hasUser d.ownerId) (.foreignKeyViolation "capture_drafts" "owner_id")
    demandReference d.expenseId db.hasExpense "capture_drafts" "expense_id"
    demandReference d.recognitionResultId db.hasResult "capture_drafts" "recognition_result_id"
    return ((), [.draft d])

/-! ## Expenses -/

/-- An Expense of the given owner. -/
def ownedExpense (expenseId ownerId : UUID) : Option Expense :=
  (db.expenses.find expenseId).filter fun e => decide (e.ownerId = ownerId)

/-- An active Expense of the given owner. -/
def activeExpense (expenseId ownerId : UUID) : Option Expense :=
  (db.ownedExpense expenseId ownerId).filter Expense.isActive

/-- `SqlAlchemyExpenseRepository.create`. -/
def createExpense (e : Expense) : Except Error (Unit × List Write) := do
  demand e.Storable .dataError
  demand (0 < e.money.minorUnits) (.checkViolation "ck_expenses_amount_positive")
  demand (db.expenses.find e.id = none) (.uniqueViolation "expenses_pkey")
  demand (db.expensesOfDraft e.captureDraftId = [])
    (.uniqueViolation "uq_expenses_capture_draft_id")
  demand (db.hasUser e.ownerId) (.foreignKeyViolation "expenses" "owner_id")
  demand (db.hasCategory e.categoryKey) (.foreignKeyViolation "expenses" "category_key")
  demand (db.hasDraft e.captureDraftId) (.foreignKeyViolation "expenses" "capture_draft_id")
  demandReference e.receiptId db.hasReceipt "expenses" "receipt_id"
  return ((), [.expense e])

/-- `SqlAlchemyExpenseRepository.update`: only the editable columns and the two times are
written. -/
def updateExpense (e : Expense) : Except Error (Unit × List Write) := do
  demand e.Storable .dataError
  match db.expenses.find e.id with
  | none => return ((), [])
  | some row => do
    demand (0 < e.money.minorUnits) (.checkViolation "ck_expenses_amount_positive")
    demand (db.hasCategory e.categoryKey) (.foreignKeyViolation "expenses" "category_key")
    return ((), [.expense { row with
      money := e.money, transactionDate := e.transactionDate, merchant := e.merchant
      categoryKey := e.categoryKey, note := e.note, modifiedAt := e.modifiedAt
      deletedAt := e.deletedAt }])

/-- `SqlAlchemyExpenseChangeRecordAppender.append`. -/
def appendChangeRecord (r : ExpenseChangeRecord) : Except Error (Unit × List Write) := do
  demand (db.changeRecords.find r.id = none) (.uniqueViolation "expense_change_records_pkey")
  demand (db.hasExpense r.expenseId) (.foreignKeyViolation "expense_change_records" "expense_id")
  demand (db.hasUser r.actorUserId)
    (.foreignKeyViolation "expense_change_records" "actor_user_id")
  return ((), [.changeRecord r])

/-! ## Conversations -/

/-- `SqlAlchemyTelegramConversationRepository.lock`: insert if missing, then select `FOR UPDATE`.
Both statements concern one row, which is locked from the first of them on. -/
def lockConversation (userId : UUID) (now : Instant) : Except Error (TelegramConversation × List Write) :=
  match db.conversations.find userId with
  | some c => .ok (c, [])
  | none => do
    demand (db.hasUser userId) (.foreignKeyViolation "telegram_conversations" "user_id")
    let c := TelegramConversation.idle userId now
    return (c, [.conversation c])

/-- `SqlAlchemyTelegramConversationRepository.save`. -/
def saveConversation (c : TelegramConversation) : Except Error (Unit × List Write) := do
  demand (db.hasUser c.userId) (.foreignKeyViolation "telegram_conversations" "user_id")
  demandReference c.activeDraftId db.hasDraft "telegram_conversations" "active_draft_id"
  return ((), [.conversation c])

/-! ## The receipt queue -/

/-- `ORDER BY created_at, id`. -/
def queueOrder (a b : ReceiptRow) : Bool :=
  thenBy a.receipt.createdAt b.receipt.createdAt (fun x y => decide (x < y))
    (decide (a.receipt.id ≤ b.receipt.id))

/-- The CHECK constraints of a receipt's row. -/
def checkReceipt (r : Receipt) : Except Error Unit := do
  demand (r.state = .queued ↔ r.attemptId = none)
    (.checkViolation "ck_receipts_attempt_after_queue")
  demand (r.state = .processing ↔ r.leaseExpiresAt.isSome)
    (.checkViolation "ck_receipts_lease_while_processing")

/-- `SqlAlchemyReceiptRepository.create`. -/
def createReceipt (r : Receipt) (telegramFileId : Option String) :
    Except Error (Unit × List Write) := do
  checkReceipt r
  demand (db.receipts.find r.id = none) (.uniqueViolation "receipts_pkey")
  demand (db.hasUser r.ownerId) (.foreignKeyViolation "receipts" "owner_id")
  return ((), [.receipt ⟨r, telegramFileId, none⟩])

/-- The first `SELECT` of `claim_next`: the oldest claimable receipt whose row is not locked. -/
def selectClaimable (busy : Key → Bool) (now : Instant) : Option Receipt :=
  (orderBy queueOrder (db.receipts.rows.filter fun row =>
    row.receipt.isClaimable now && !busy (.receipt row.receipt.id))).head?.map
      ReceiptRow.receipt

/-- The `UPDATE` of `claim_next`. -/
def updateClaimed (r : Receipt) : Except Error (Unit × List Write) :=
  match db.receipts.find r.id with
  | none => .ok ((), [])
  | some row => do
    let receipt := { row.receipt with
      state := r.state, attemptId := r.attemptId, leaseExpiresAt := r.leaseExpiresAt
      modifiedAt := r.modifiedAt }
    checkReceipt receipt
    return ((), [.receipt { row with receipt := receipt }])

/-- `claim_delay_notices`. -/
def claimDelayNotices (busy : Key → Bool) (now receivedBefore : Instant) (limit : ℕ) :
    List (UUID × UUID) × List Write :=
  let overdue := (orderBy queueOrder (db.receipts.rows.filter fun row =>
    !row.receipt.isFinished && row.receipt.imageRemovedAt.isNone &&
      row.delayNoticeSentAt.isNone && decide (row.receipt.createdAt ≤ receivedBefore) &&
      !busy (.receipt row.receipt.id))).take limit
  (overdue.map fun row => (row.receipt.id, row.receipt.ownerId),
    overdue.map fun row => .receipt { row with delayNoticeSentAt := some now })

/-- `save_finished`: only if the attempt is still the current one. -/
def saveFinished (r : Receipt) : Except Error (Bool × List Write) :=
  match db.receipts.find r.id with
  | none => .ok (false, [])
  | some row =>
    if r.attemptId.isSome ∧ row.receipt.attemptId = r.attemptId ∧
        row.receipt.state = .processing then do
      let receipt := { row.receipt with
        state := r.state, leaseExpiresAt := r.leaseExpiresAt, modifiedAt := r.modifiedAt }
      checkReceipt receipt
      return (true, [.receipt { row with receipt := receipt }])
    else .ok (false, [])

/-- `save_result`. -/
def saveResult (r : RecognitionResult) : Except Error (Unit × List Write) := do
  demand (db.results.find r.id = none) (.uniqueViolation "recognition_results_pkey")
  demand ((db.results.rows.find? fun s =>
      decide (s.receiptId = r.receiptId ∧ s.attemptId = r.attemptId)) = none)
    (.uniqueViolation "uq_recognition_results_attempt")
  demand (db.hasReceipt r.receiptId) (.foreignKeyViolation "recognition_results" "receipt_id")
  demand (db.hasUser r.ownerId) (.foreignKeyViolation "recognition_results" "owner_id")
  return ((), [.result r])

/-- The largest stored image. -/
def maxReceiptImageBytes : ℕ := 10 * 1024 * 1024

/-- The `INSERT` of the image store. -/
def createImage (i : ReceiptImage) : Except Error (Unit × List Write) := do
  demand (i.mediaType ∈ ["image/jpeg", "image/png", "image/webp"])
    (.checkViolation "ck_receipt_images_media_type")
  demand (1 ≤ i.content.length ∧ i.content.length ≤ maxReceiptImageBytes)
    (.checkViolation "ck_receipt_images_size")
  demand (db.images.find i.receiptId = none) (.uniqueViolation "receipt_images_pkey")
  demand (db.hasReceipt i.receiptId) (.foreignKeyViolation "receipt_images" "receipt_id")
  return ((), [.image i])

/-! ## Updates and links -/

/-- `SqlAlchemyTelegramUpdateLedger.begin`. -/
def beginUpdate (updateId : ℤ) (now : Instant) : Bool × List Write :=
  match db.processedUpdates.find updateId with
  | some _ => (false, [])
  | none => (true, [.processedUpdate ⟨updateId, now⟩])

/-- The active connection of a Telegram user. -/
def connectionOfTelegramUser (telegramUserId : ℤ) : Option TelegramConnection :=
  db.connections.rows.find? fun c =>
    decide (c.telegramUserId = telegramUserId) && c.unlinkedAt.isNone

/-- The active connection of a user. -/
def connectionOfUser (userId : UUID) : Option TelegramConnection :=
  db.connections.rows.find? fun c => decide (c.userId = userId) && c.unlinkedAt.isNone

/-- Whether a user is active. -/
def isActiveUser (userId : UUID) : Bool :=
  (db.users.find userId).any fun u => decide (u.status = .active)

/-- The conditional `UPDATE` of `claim`. -/
def claimChallenge (tokenHash : String) (telegramUserId : ℤ) (displayName : Option String)
    (now : Instant) : Option TelegramLinkChallenge × List Write :=
  match db.challenges.rows.find? fun c =>
      decide (c.tokenHash = tokenHash) && c.claimedAt.isNone && c.confirmedAt.isNone &&
        decide (now < c.expiresAt) && db.isActiveUser c.initiatingUserId &&
        (db.connectionOfTelegramUser telegramUserId).isNone with
  | none => (none, [])
  | some c =>
    let c := { c with
      claimedAt := some now, claimedTelegramUserId := some telegramUserId
      claimedTelegramDisplayName := displayName }
    (some c, [.challenge c])

/-! ## Retention -/

/-- The conversation released from an expired draft. -/
def releaseConversation (c : TelegramConversation) (now : Instant) : TelegramConversation :=
  { c with
    activeDraftId := none, awaiting := .nothing, pendingReceiptFileId := none, updatedAt := now
    waiting_needs_draft := TelegramConversation.nothing_waiting
    pending_needs_draft := TelegramConversation.nothing_pending }

/-- The open drafts idle since the cutoff whose rows are not locked, oldest first. -/
def abandonedDrafts (busy : Key → Bool) (inactiveCutoff : Instant) (batchSize : ℕ) :
    List CaptureDraft :=
  (orderBy (fun a b => thenBy a.modifiedAt b.modifiedAt (fun x y => decide (x < y))
    (decide (a.id ≤ b.id))) (db.drafts.rows.filter fun d =>
      d.isOpen && decide (d.modifiedAt ≤ inactiveCutoff) && !busy (.draft d.id))).take batchSize

/-- `expire_abandoned_drafts`. -/
def expireAbandonedDrafts (busy : Key → Bool) (inactiveCutoff now : Instant) (batchSize : ℕ) :
    ℕ × List Write :=
  let expired := db.abandonedDrafts busy inactiveCutoff batchSize
  let released := db.conversations.rows.filter fun c =>
    c.activeDraftId.any fun a => expired.any fun d => decide (d.id = a)
  (expired.length,
    (expired.map fun d => .draft { d with state := .expired, modifiedAt := now }) ++
      released.map fun c => .conversation (releaseConversation c now))

/-- When a draft finished, if it did. -/
def finishedAt (d : CaptureDraft) : Option Instant :=
  if d.state = .confirmed ∨ d.state = .cancelled ∨ d.state = .expired then
    some (d.confirmedAt.getD d.modifiedAt)
  else none

/-- The receipts whose draft finished by the cutoff, with that draft, oldest first. -/
def finishedReceipts (busy : Key → Bool) (finishedCutoff : Instant) (batchSize : ℕ) :
    List (ReceiptRow × Instant) :=
  (orderBy (fun a b => thenBy a.2 b.2 (fun x y => decide (x < y))
    (decide (a.1.receipt.id ≤ b.1.receipt.id))) (db.receipts.rows.filterMap fun row =>
      if row.receipt.imageRemovedAt.isNone && decide (row.receipt.state ≠ .processing) &&
          !busy (.receipt row.receipt.id) then
        (((db.draftOfReceipt row.receipt.id).bind finishedAt).filter fun t =>
          decide (t ≤ finishedCutoff)).map fun t => (row, t)
      else none)).take batchSize

/-- `delete_receipt_data`; a draft whose recognition result goes loses its reference to it. -/
def deleteReceiptData (busy : Key → Bool) (finishedCutoff now : Instant) (batchSize : ℕ) :
    ℕ × List Write :=
  let cleared := (db.finishedReceipts busy finishedCutoff batchSize).map Prod.fst
  let results := db.results.rows.filter fun r =>
    cleared.any fun row => decide (row.receipt.id = r.receiptId)
  let drafts := db.drafts.rows.filter fun d =>
    d.recognitionResultId.any fun i => results.any fun r => decide (r.id = i)
  (cleared.length,
    (cleared.map fun row => .removeImage row.receipt.id) ++
      (cleared.map fun row => .removeResults row.receipt.id) ++
      (drafts.map fun d => .draft { d with recognitionResultId := none }) ++
      cleared.map fun row => .receipt
        { row with
          receipt := { row.receipt with imageRemovedAt := some now, modifiedAt := now }
          telegramFileId := none })

end Database

/-! ## The database -/

/-- The outcome of a statement. -/
def evaluate : (o : Stmt) → (Key → Bool) → Database → Except Error (o.Resp × List Write)
  | .getUser id, _, db => .ok (db.users.find id, [])
  | .getCategory key, _, db => .ok (db.categories.find key, [])
  | .listActiveCategories, _, db => .ok
      (orderBy (fun a b => decide (a.key ≤ b.key)) (db.categories.rows.filter Category.isActive),
        [])
  | .createDraft d, _, db => db.createDraft d
  | .getDraft id owner, _, db => .ok (db.ownedDraft id owner, [])
  | .getDraftForUpdate id owner, _, db => .ok (db.ownedDraft id owner, [])
  | .getDraftForUpdateByReceipt r, _, db => .ok (db.draftOfReceipt r, [])
  | .updateDraft d, _, db => db.updateDraft d
  | .createExpense e, _, db => db.createExpense e
  | .getExpense id owner, _, db => .ok (db.ownedExpense id owner, [])
  | .getActiveExpenseForUpdate id owner, _, db => .ok (db.activeExpense id owner, [])
  | .getOwnedExpenseForUpdate id owner, _, db => .ok (db.ownedExpense id owner, [])
  | .updateExpense e, _, db => db.updateExpense e
  | .listRecentExpenses owner limit, _, db => .ok (recentExpenses db.expenses.rows owner limit, [])
  | .appendChangeRecord r, _, db => db.appendChangeRecord r
  | .lockConversation user now, _, db => db.lockConversation user now
  | .saveConversation c, _, db => db.saveConversation c
  | .createReceipt r f, _, db => db.createReceipt r f
  | .telegramFileId r, _, db => .ok ((db.receipts.find r).bind ReceiptRow.telegramFileId, [])
  | .selectClaimableForUpdate now, busy, db => .ok (db.selectClaimable busy now, [])
  | .updateClaimed r, _, db => db.updateClaimed r
  | .claimDelayNotices now before limit, busy, db => .ok (db.claimDelayNotices busy now before limit)
  | .saveFinished r, _, db => db.saveFinished r
  | .saveResult r, _, db => db.saveResult r
  | .lockReceipt r, _, db => .ok (db.hasReceipt r, [])
  | .createImage i, _, db => db.createImage i
  | .getImage r, _, db => .ok (db.images.find r, [])
  | .beginUpdate id now, _, db => .ok (db.beginUpdate id now)
  | .activeConnectionForTelegramUser t, _, db => .ok (db.connectionOfTelegramUser t, [])
  | .activeConnectionForUser u, _, db => .ok (db.connectionOfUser u, [])
  | .claimChallenge h t n now, _, db => .ok (db.claimChallenge h t n now)
  | .addAuditRecord a, _, _ => .ok ((), [.auditRecord a])
  | .expireAbandonedDrafts cutoff now size, busy, db =>
    .ok (db.expireAbandonedDrafts busy cutoff now size)
  | .deleteReceiptData cutoff now size, busy, db =>
    .ok (db.deleteReceiptData busy cutoff now size)
  | .currencyTotals owner p, _, db => .ok (MintFlow.currencyTotals db.expenses.rows owner p, [])
  | .dailyTotals owner p c, _, db => .ok (MintFlow.dailyTotals db.expenses.rows owner p c, [])
  | .categoryTotals owner p c, _, db =>
    .ok (MintFlow.categoryTotals db.categories.rows db.expenses.rows owner p c, [])
  | .merchantTotals owner p c, _, db => .ok (MintFlow.merchantTotals db.expenses.rows owner p c, [])
  | .largestExpense owner p c, _, db => .ok (MintFlow.largestExpense db.expenses.rows owner p c, [])

/-- The rows a statement selects `FOR UPDATE`, or `FOR KEY SHARE`. -/
def rowLocks : Stmt → (Key → Bool) → Database → List (Key × Strength)
  | .getDraftForUpdate id owner, _, db =>
    ((db.ownedDraft id owner).map fun d => (Key.draft d.id, .update)).toList
  | .getDraftForUpdateByReceipt r, _, db =>
    ((db.draftOfReceipt r).map fun d => (Key.draft d.id, .update)).toList
  | .getActiveExpenseForUpdate id owner, _, db =>
    ((db.activeExpense id owner).map fun e => (Key.expense e.id, .update)).toList
  | .getOwnedExpenseForUpdate id owner, _, db =>
    ((db.ownedExpense id owner).map fun e => (Key.expense e.id, .update)).toList
  | .lockConversation user _, _, _ => [(.conversation user, .update)]
  | .selectClaimableForUpdate now, busy, db =>
    ((db.selectClaimable busy now).map fun r => (Key.receipt r.id, .update)).toList
  | .claimDelayNotices now before limit, busy, db =>
    (db.claimDelayNotices busy now before limit).1.map fun claimed => (.receipt claimed.1, .update)
  | .lockReceipt r, _, db => if db.hasReceipt r then [(.receipt r, .keyShare)] else []
  | .expireAbandonedDrafts cutoff _ size, busy, db =>
    (db.abandonedDrafts busy cutoff size).map fun d => (.draft d.id, .update)
  | .deleteReceiptData cutoff _ size, busy, db =>
    (db.finishedReceipts busy cutoff size).map fun row => (.receipt row.1.receipt.id, .update)
  | _, _, _ => []

/-- The locks of a write: on the rows it writes, and on those its foreign keys point at. -/
def writeLocks (db : Database) (w : Write) : List (Key × Strength) :=
  (w.keys.map fun k => (k, w.strength)) ++ (w.references db).map fun k => (k, .keyShare)

/-- The locks a statement takes: on the rows it selects for locking, and those of its writes. -/
def statementLocks (o : Stmt) (busy : Key → Bool) (db : Database) : List (Key × Strength) :=
  rowLocks o busy db ++
    match evaluate o busy db with
    | .ok (_, ws) => ws.flatMap (writeLocks db)
    | .error _ => []

/-- The database that answers MintFlow's statements. -/
def postgres : Backend signature Database Write Key where
  apply w db := db.apply w
  eval := evaluate
  locks := statementLocks

/-- Every row a write changes is locked by its statement. -/
lemma mem_statementLocks {o : Stmt} {busy : Key → Bool} {db : Database} {r : o.Resp}
    {ws : List Write} (h : evaluate o busy db = .ok (r, ws)) {w : Write} (hw : w ∈ ws) {k : Key}
    (hk : k ∈ w.keys) : (k, w.strength) ∈ statementLocks o busy db := by
  refine List.mem_append_right _ ?_
  simp only [h]
  exact List.mem_flatMap.mpr ⟨w, hw, List.mem_append_left _ (List.mem_map_of_mem hk)⟩

/-- Every write is on keys its statement locks. -/
lemma postgres_covers : postgres.Covers Write.keys := by
  intro o busy db r ws h w hw k hk
  exact ⟨w.strength, mem_statementLocks h hw hk, w.noKeyUpdate_le_strength⟩

end MintFlow
