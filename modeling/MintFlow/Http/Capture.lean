import MintFlow.Application.EditExpense

set_option relaxedAutoImplicit false
set_option autoImplicit false

/-!
# The HTTP draft requests

The endpoints that start, edit, review, cancel and confirm a draft. All but the confirmation read
the draft without a lock and write the whole row back.

## Main definitions

* `MintFlow.EditCaptureDraftRequest` — an accepted PATCH body; the schema's rules are its fields.
* `MintFlow.startDraft`, `editDraft`, `markDraftReadyForReview`, `cancelDraft`, `confirmDraft`.
-/

namespace MintFlow

open Transact

/-- An accepted body of `PATCH /drafts/{draft_id}`. -/
structure EditCaptureDraftRequest where
  amountMinorUnits : Option ℤ
  currency : Option String
  transactionDate : Option Date
  merchant : Option String
  categoryKey : Option String
  note : Option String
  /-- Amounts are not negative. -/
  amount_nonneg : ∀ n ∈ amountMinorUnits, 0 ≤ n
  /-- Currencies have three characters. -/
  currency_length : ∀ c ∈ currency, c.length = 3
  /-- Merchants have between 1 and 140 characters. -/
  merchant_length : ∀ m ∈ merchant, 1 ≤ m.length ∧ m.length ≤ MerchantName.maxLength
  /-- Category keys have between 1 and 32 characters. -/
  categoryKey_length : ∀ k ∈ categoryKey, 1 ≤ k.length ∧ k.length ≤ 32
  /-- Notes have at most 2000 characters. -/
  note_length : ∀ n ∈ note, n.length ≤ 2000
  /-- Amount and currency come together. -/
  together : amountMinorUnits.isSome = currency.isSome

/-- `_not_found`. -/
def draftNotFound : Error := .http 404 "Draft not found."

/-- `_rejected`. -/
def draftRejected : Error := .http 409 "The request could not be applied."

variable [PythonRuntime]

/-- Set a field of the draft when the request has one. -/
def editWhen {α : Type} (value : Option α) (set : α → CaptureDraft → Checked CaptureDraft)
    (draft : CaptureDraft) : Checked CaptureDraft :=
  match value with
  | none => .ok draft
  | some value => set value draft

/-- The amount a request sets. -/
def setRequestedAmount (caller : UUID) (now : DateTime) (request : EditCaptureDraftRequest)
    (draft : CaptureDraft) : Checked CaptureDraft :=
  match request.amountMinorUnits, request.currency with
  | some minorUnits, some currency => do
    let currency ← CurrencyCode.new currency
    let money ← Money.new minorUnits currency
    draft.setAmount caller money now .user
  | _, _ => .ok draft

/-- The edits of a request, in the endpoint's order. -/
def applyDraftEdit (caller : UUID) (now : DateTime) (request : EditCaptureDraftRequest)
    (draft : CaptureDraft) : Checked CaptureDraft := do
  let draft ← setRequestedAmount caller now request draft
  let draft ← editWhen request.transactionDate (fun date draft => do
    let date ← TransactionDate.new date
    draft.setTransactionDate caller date now .user) draft
  let draft ← editWhen request.merchant (fun merchant draft => do
    let merchant ← MerchantName.new merchant
    draft.setMerchant caller merchant now .user) draft
  let draft ← editWhen request.categoryKey (fun key draft =>
    draft.setCategoryKey caller key now .user) draft
  editWhen request.note (fun note draft => draft.setNote caller (some note) now) draft

/-- Run domain code whose `ValueError` is a 409. -/
def rejectingDraft {α : Type} (x : Checked α) : Program α := Prog.lift (fun _ => draftRejected) x

/-- `_get_owned_draft`. -/
def getOwnedDraft (draftId caller : UUID) : Program CaptureDraft := do
  match ← execute (.getDraft draftId caller) with
  | none => raise draftNotFound
  | some draft => return draft

/-- `repository.update(draft)`, which commits. -/
def updateDraftAndCommit (draft : CaptureDraft) : Program Unit := do
  execute (.updateDraft draft)
  commit

/-- `POST /drafts`. -/
def startDraft (caller : UUID) : Program CaptureDraft := do
  let now ← clock
  let id ← uuid4
  let draft ← checked (CaptureDraft.start id caller .webManual (Instant.toDateTime now))
  execute (.createDraft draft)
  commit
  return draft

/-- The endpoints that read a draft without a lock, change it and write it back. -/
def changeDraft (draftId caller : UUID)
    (change : DateTime → CaptureDraft → Checked CaptureDraft) : Program CaptureDraft := do
  let draft ← getOwnedDraft draftId caller
  let now ← clock
  let draft ← rejectingDraft (change (Instant.toDateTime now) draft)
  updateDraftAndCommit draft
  return draft

/-- `PATCH /drafts/{draft_id}`. -/
def editDraft (draftId caller : UUID) (request : EditCaptureDraftRequest) :
    Program CaptureDraft :=
  changeDraft draftId caller fun now draft => applyDraftEdit caller now request draft

/-- `POST /drafts/{draft_id}/ready`. -/
def markDraftReadyForReview (draftId caller : UUID) : Program CaptureDraft :=
  changeDraft draftId caller fun now draft => draft.markReadyForReview caller now

/-- `POST /drafts/{draft_id}/cancel`. -/
def cancelDraft (draftId caller : UUID) : Program CaptureDraft :=
  changeDraft draftId caller fun now draft => draft.cancel caller now

/-- `POST /drafts/{draft_id}/confirm`. -/
def confirmDraft (draftId caller : UUID) : Program Expense :=
  (confirmCaptureDraft draftId caller).handle fun e =>
    match e with
    | .captureDraftAccessDenied _ => raise draftNotFound
    | .captureDraftNotConfirmable _ => raise draftRejected
    | e => raise e

end MintFlow
