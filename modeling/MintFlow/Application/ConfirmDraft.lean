import MintFlow.Persistence.Statements

set_option relaxedAutoImplicit false
set_option autoImplicit false

/-!
# Confirming a draft

The actions programs are written in, and the use case that turns one draft into exactly one
Expense: lock the draft, recognize an outcome that is already there, and otherwise write the
Expense and the confirmed draft in one transaction.

## Main definitions

* `MintFlow.clock`, `uuid4`, `checked`, `raising`, `execute`, `commit` — the actions.
* `MintFlow.confirmCaptureDraft` — `ConfirmCaptureDraft.execute`.
-/

namespace MintFlow

open Transact

/-! ## Actions -/

/-- Read the clock. -/
def clock : Program Instant := do
  let reading ← Prog.input
  return reading.now

/-- `uuid4()`. -/
def uuid4 : Program UUID := do
  let reading ← Prog.input
  return reading.uuid

/-- Raise. -/
def raise {α : Type} (e : Error) : Program α := Prog.fail e

/-- Run code that may raise `ValueError`. -/
def checked {α : Type} (x : Checked α) : Program α := Prog.lift Error.valueError x

/-- The error of a raised value. -/
def Error.ofRaised : Raised → Error
  | .valueError message => .valueError message
  | .invalidOperation => .invalidOperation
  | .decimalOverflow => .decimalOverflow
  | .overflowError => .overflowError

/-- Run code that may raise more than `ValueError`. -/
def raising {α : Type} (x : Except Raised α) : Program α := Prog.lift Error.ofRaised x

/-- Execute a statement. -/
def execute (o : Stmt) : Program o.Resp := Prog.perform (S := signature) o

/-- Commit the open transaction. -/
def commit : Program Unit := Prog.commits

/-- Roll the open transaction back. -/
def rollback : Program Unit := Prog.rollbacks

variable [PythonRuntime]

/-! ## The use case -/

/-- `_existing_expense_for`. -/
def existingExpenseFor (draft : CaptureDraft) (callerId : UUID) : Program Expense := do
  match draft.expenseId with
  | none =>
    raise (.captureDraftNotConfirmable "confirmed draft is missing its resulting expense id")
  | some expenseId =>
    match ← execute (.getExpense expenseId callerId) with
    | none => raise (.captureDraftNotConfirmable "confirmed draft has no linked expense")
    | some existing =>
      if existing.isActive then return existing
      else raise (.captureDraftNotConfirmable "confirmed draft's expense has been deleted")

/-- The part of `execute` that creates the Expense of a locked, confirmable draft. -/
def createExpenseFor (draft : CaptureDraft) (callerId : UUID) (amount : Money)
    (transactionDate : TransactionDate) : Program Expense := do
  let now ← clock
  match ← execute (.getUser callerId) with
  | none => raise (.captureDraftAccessDenied "owner not found")
  | some user =>
    if ← raising (isWithinFutureTolerance transactionDate now user.timezone) then do
      let expenseId ← uuid4
      let expense ← checked (Expense.create expenseId draft.ownerId amount transactionDate
        (draft.categoryKey.getD uncategorizedKey) draft.id draft.merchant draft.note draft.source
        draft.receiptId (Instant.toDateTime now))
      execute (.createExpense expense)
      let confirmedDraft ← checked (draft.confirm callerId expense.id (Instant.toDateTime now))
      execute (.updateDraft confirmedDraft)
      commit
      return expense
    else
      raise (.captureDraftNotConfirmable "transaction date is more than one day in the future")

/-- `ConfirmCaptureDraft.execute`. -/
def confirmCaptureDraft (draftId callerId : UUID) : Program Expense := do
  match ← execute (.getDraftForUpdate draftId callerId) with
  | none => raise (.captureDraftAccessDenied "draft not found or not owned by caller")
  | some draft =>
    if draft.state = .confirmed then existingExpenseFor draft callerId
    else if draft.isConfirmable then
      match draft.amount, draft.transactionDate with
      | some amount, some transactionDate => createExpenseFor draft callerId amount transactionDate
      | _, _ => raise (.captureDraftNotConfirmable "draft is missing a mandatory field")
    else raise (.captureDraftNotConfirmable "draft is not confirmable")

end MintFlow
