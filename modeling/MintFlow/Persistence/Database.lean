import MintFlow.Lib.Program
import MintFlow.Lib.Table
import MintFlow.Persistence.DraftRecord
import MintFlow.Domain.Expense
import MintFlow.Telegram.Conversation

set_option relaxedAutoImplicit false
set_option autoImplicit false

/-!
# The database

The tables the capture paths use, and the writes their statements make. A write is the row as it is
afterwards: the statement that makes it holds the row's lock, so the row cannot change in between.

## Main definitions

* `MintFlow.Database` — the tables.
* `MintFlow.Write`, `MintFlow.Database.apply` — a row written or rows removed.
* `MintFlow.Key`, `MintFlow.Write.keys` — rows and unique values as locks, and those a write needs.
* `MintFlow.Write.strength`, `MintFlow.Write.references` — how strongly a write needs them, and the
  rows its foreign keys point at.

## Main results

* `MintFlow.Database.find_draft_apply` and its like — what a lookup returns after a write.
-/

namespace MintFlow

open Transact

/-- A row of `receipts`: the receipt and what only the queue keeps. -/
structure ReceiptRow where
  receipt : Receipt
  telegramFileId : Option String
  delayNoticeSentAt : Option Instant
deriving DecidableEq

/-- A row of `receipt_images`. -/
structure ReceiptImage where
  receiptId : UUID
  mediaType : String
  content : List UInt8
  storedAt : Instant
deriving DecidableEq

/-- A row of `telegram_processed_updates`. -/
structure ProcessedUpdate where
  updateId : ℤ
  processedAt : Instant
deriving DecidableEq

/-- A row of `authentication_audit_records`, as the link ceremony writes it. -/
structure AuditRecord where
  occurredAt : Instant
  eventType : String
  userId : UUID
  subjectRecordId : UUID
deriving DecidableEq

/-- The tables. -/
structure Database where
  users : Table User.id
  categories : Table Category.key
  drafts : Table CaptureDraft.id
  expenses : Table Expense.id
  changeRecords : Table ExpenseChangeRecord.id
  conversations : Table TelegramConversation.userId
  receipts : Table fun row : ReceiptRow => row.receipt.id
  images : Table ReceiptImage.receiptId
  results : Table RecognitionResult.id
  processedUpdates : Table ProcessedUpdate.updateId
  challenges : Table TelegramLinkChallenge.id
  connections : Table TelegramConnection.id
  auditRecords : List AuditRecord

/-- What a statement wrote. -/
inductive Write
  | draft (d : CaptureDraft)
  | expense (e : Expense)
  | changeRecord (r : ExpenseChangeRecord)
  | conversation (c : TelegramConversation)
  | receipt (r : ReceiptRow)
  | image (i : ReceiptImage)
  | removeImage (receiptId : UUID)
  | result (r : RecognitionResult)
  | removeResults (receiptId : UUID)
  | processedUpdate (u : ProcessedUpdate)
  | challenge (c : TelegramLinkChallenge)
  | auditRecord (a : AuditRecord)

/-- A row, or a value of a unique column. -/
inductive Key
  | draft (id : UUID)
  | draftOfReceipt (receiptId : UUID)
  | expense (id : UUID)
  | expenseOfDraft (draftId : UUID)
  | changeRecord (id : UUID)
  | conversation (userId : UUID)
  | receipt (id : UUID)
  | image (receiptId : UUID)
  | results (receiptId : UUID)
  | processedUpdate (updateId : ℤ)
  | challenge (id : UUID)
  | user (id : UUID)
  | category (key : String)
deriving DecidableEq

namespace Database

/-- A write. -/
def apply (db : Database) : Write → Database
  | .draft d => { db with drafts := db.drafts.upsert d }
  | .expense e => { db with expenses := db.expenses.upsert e }
  | .changeRecord r => { db with changeRecords := db.changeRecords.upsert r }
  | .conversation c => { db with conversations := db.conversations.upsert c }
  | .receipt r => { db with receipts := db.receipts.upsert r }
  | .image i => { db with images := db.images.upsert i }
  | .removeImage r => { db with images := db.images.discard fun i => decide (i.receiptId = r) }
  | .result r => { db with results := db.results.upsert r }
  | .removeResults r => { db with results := db.results.discard fun s => decide (s.receiptId = r) }
  | .processedUpdate u => { db with processedUpdates := db.processedUpdates.upsert u }
  | .challenge c => { db with challenges := db.challenges.upsert c }
  | .auditRecord a => { db with auditRecords := db.auditRecords ++ [a] }

end Database

/-- The locks a write needs. -/
def Write.keys : Write → List Key
  | .draft d => .draft d.id :: (d.receiptId.map Key.draftOfReceipt).toList
  | .expense e => [.expense e.id, .expenseOfDraft e.captureDraftId]
  | .changeRecord r => [.changeRecord r.id]
  | .conversation c => [.conversation c.userId]
  | .receipt r => [.receipt r.receipt.id]
  | .image i => [.image i.receiptId]
  | .removeImage r => [.image r]
  | .result r => [.results r.receiptId]
  | .removeResults r => [.results r]
  | .processedUpdate u => [.processedUpdate u.updateId]
  | .challenge c => [.challenge c.id]
  | .auditRecord _ => []

/-- How strongly a write locks its rows. -/
def Write.strength : Write → Strength
  | .removeImage _ | .removeResults _ => .update
  | _ => .noKeyUpdate

/-- A write locks its rows for writing. -/
lemma Write.noKeyUpdate_le_strength (w : Write) : .noKeyUpdate ≤ w.strength := by
  unfold Write.strength
  split <;> decide

/-- The rows that a written row points at by a foreign key the write sets. -/
def Write.references (db : Database) : Write → List Key
  | .draft d =>
    let row := db.drafts.find d.id
    (if row.isNone then .user d.ownerId :: (d.receiptId.map Key.receipt).toList else []) ++
      (if row.bind CaptureDraft.expenseId = d.expenseId then []
      else (d.expenseId.map Key.expense).toList) ++
      if row.bind CaptureDraft.recognitionResultId = d.recognitionResultId then []
      else ((d.recognitionResultId.bind db.results.find).map fun r => Key.results r.receiptId).toList
  | .expense e =>
    let row := db.expenses.find e.id
    (if row.isNone then
      .user e.ownerId :: .draft e.captureDraftId :: (e.receiptId.map Key.receipt).toList
    else []) ++
      if row.map Expense.categoryKey = some e.categoryKey then [] else [.category e.categoryKey]
  | .changeRecord r => [.expense r.expenseId, .user r.actorUserId]
  | .conversation c =>
    let row := db.conversations.find c.userId
    (if row.isNone then [.user c.userId] else []) ++
      if row.bind TelegramConversation.activeDraftId = c.activeDraftId then []
      else (c.activeDraftId.map Key.draft).toList
  | .receipt r => if (db.receipts.find r.receipt.id).isNone then [.user r.receipt.ownerId] else []
  | .image i => [.receipt i.receiptId]
  | .result r => [.receipt r.receiptId, .user r.ownerId]
  | .auditRecord a => [.user a.userId]
  | .removeImage _ | .removeResults _ | .processedUpdate _ | .challenge _ => []

namespace Database

variable (db : Database) (w : Write)

/-! ## Lookups after a write -/

/-- A draft after a write. -/
lemma find_draft_apply (id : UUID) : (db.apply w).drafts.find id =
    match w with
    | .draft d => if id = d.id then some d else db.drafts.find id
    | _ => db.drafts.find id := by
  cases w <;> simp [apply, Table.find_upsert]

/-- An Expense after a write. -/
lemma find_expense_apply (id : UUID) : (db.apply w).expenses.find id =
    match w with
    | .expense e => if id = e.id then some e else db.expenses.find id
    | _ => db.expenses.find id := by
  cases w <;> simp [apply, Table.find_upsert]

/-- A conversation after a write. -/
lemma find_conversation_apply (user : UUID) : (db.apply w).conversations.find user =
    match w with
    | .conversation c => if user = c.userId then some c else db.conversations.find user
    | _ => db.conversations.find user := by
  cases w <;> simp [apply, Table.find_upsert]

/-- A receipt after a write. -/
lemma find_receipt_apply (id : UUID) : (db.apply w).receipts.find id =
    match w with
    | .receipt r => if id = r.receipt.id then some r else db.receipts.find id
    | _ => db.receipts.find id := by
  cases w <;> simp [apply, Table.find_upsert]

/-- A receipt's image after a write. -/
lemma find_image_apply (id : UUID) : (db.apply w).images.find id =
    match w with
    | .image i => if id = i.receiptId then some i else db.images.find id
    | .removeImage r => if id = r then none else db.images.find id
    | _ => db.images.find id := by
  cases w <;> simp [apply, Table.find_upsert, Table.find_discard_key]

/-! ## A small store -/

/-- No rows. -/
def empty : Database :=
  ⟨.empty, .empty, .empty, .empty, .empty, .empty, .empty, .empty, .empty, .empty, .empty, .empty,
    []⟩

/-- One user, linked to one Telegram account, and two categories. -/
def small : Database :=
  { empty with
    users := ⟨[⟨7, .active, "UTC", some euro⟩], by decide⟩
    categories := ⟨[⟨1, "uncategorized", "Uncategorized", true⟩, ⟨2, "food", "Food", true⟩],
      by decide⟩
    connections := ⟨[⟨3, 7, 70, none⟩], by decide⟩ }

end Database

end MintFlow
