import MintFlow.Application.ConfirmDraft

set_option relaxedAutoImplicit false
set_option autoImplicit false

/-!
# Correcting, deleting and restoring an Expense

Each use case locks the owner's Expense, decides, appends one change record for what changed, and
commits both together. A request that changes nothing writes nothing.

## Main definitions

* `MintFlow.ExpenseEdit` — the fields of an edit; a field that is not supplied is unchanged.
* `MintFlow.editExpense`, `deleteExpense`, `restoreExpense` — the use cases.
-/

namespace MintFlow

open Transact

/-- An edit command. The outer option tells whether a field was supplied, the inner one clears it. -/
structure ExpenseEdit where
  money : Option Money
  transactionDate : Option TransactionDate
  merchant : Option (Option MerchantName)
  categoryKey : Option String
  note : Option (Option String)

variable [PythonRuntime]

/-- Run code whose `ValueError` rejects the edit. -/
def rejecting {α : Type} (x : Checked α) : Program α := Prog.lift Error.expenseEditRejected x

/-- `_require_acceptable_date`. -/
def requireAcceptableDate (date : TransactionDate) (callerId : UUID) (now : Instant) :
    Program Unit := do
  match ← execute (.getUser callerId) with
  | none => raise (.expenseNotFound "owner not found")
  | some user =>
    if ← raising (isWithinFutureTolerance date now user.timezone) then return ()
    else raise (.expenseEditRejected "transaction date is more than one day in the future")

/-- `_require_active_category`. -/
def requireActiveCategory (categoryKey : String) : Program Unit := do
  match ← execute (.getCategory categoryKey) with
  | none => raise (.expenseEditRejected "category does not exist")
  | some category =>
    if category.isActive then return ()
    else raise (.expenseEditRejected "category does not exist")

/-- The money of an edit. -/
def applyMoney (expense : Expense) (money : Option Money) (now : Instant) : Program Expense :=
  match money with
  | none => return expense
  | some money => rejecting (expense.editMoney money (Instant.toDateTime now))

/-- The date of an edit; an unchanged date is not checked against today again. -/
def applyTransactionDate (expense : Expense) (date : Option TransactionDate) (callerId : UUID)
    (now : Instant) : Program Expense :=
  match date with
  | none => return expense
  | some date => do
    if date = expense.transactionDate then pure ()
    else requireAcceptableDate date callerId now
    rejecting (expense.editTransactionDate date (Instant.toDateTime now))

/-- The merchant of an edit. -/
def applyMerchant (expense : Expense) (merchant : Option (Option MerchantName)) (now : Instant) :
    Program Expense :=
  match merchant with
  | none => return expense
  | some merchant => rejecting (expense.editMerchant merchant (Instant.toDateTime now))

/-- The category of an edit; an unchanged category need not be active. -/
def applyCategory (expense : Expense) (categoryKey : Option String) (now : Instant) :
    Program Expense :=
  match categoryKey with
  | none => return expense
  | some categoryKey => do
    if categoryKey = expense.categoryKey then pure ()
    else requireActiveCategory categoryKey
    rejecting (expense.editCategory categoryKey (Instant.toDateTime now))

/-- The note of an edit. -/
def applyNote (expense : Expense) (note : Option (Option String)) (now : Instant) :
    Program Expense :=
  match note with
  | none => return expense
  | some note => rejecting (expense.editNote note (Instant.toDateTime now))

/-- `EditExpense._apply`. -/
def applyEdit (expense : Expense) (edit : ExpenseEdit) (callerId : UUID) (now : Instant) :
    Program Expense := do
  let expense ← applyMoney expense edit.money now
  let expense ← applyTransactionDate expense edit.transactionDate callerId now
  let expense ← applyMerchant expense edit.merchant now
  let expense ← applyCategory expense edit.categoryKey now
  applyNote expense edit.note now

/-- `EditExpense.execute`. -/
def editExpense (expenseId callerId : UUID) (edit : ExpenseEdit) : Program Expense := do
  match ← execute (.getActiveExpenseForUpdate expenseId callerId) with
  | none => raise (.expenseNotFound "expense not found, not owned by caller, or deleted")
  | some before => do
    let now ← clock
    let after ← applyEdit before edit callerId now
    if h : fieldChanges before after = [] then return before
    else do
      let recordId ← uuid4
      execute (.appendChangeRecord
        (ExpenseChangeRecord.edited recordId callerId (Instant.toDateTime now) before after h))
      execute (.updateExpense after)
      commit
      return after

/-- `_DeletionStateChange.execute`, for the deletion or the restoration. -/
def changeDeletionState (changeType : ExpenseChangeType) (hType : changeType ≠ .edited)
    (alreadyInEffect : Expense → Bool) (transition : Expense → DateTime → Checked Expense)
    (expenseId callerId : UUID) : Program Expense := do
  match ← execute (.getOwnedExpenseForUpdate expenseId callerId) with
  | none => raise (.expenseNotFound "expense not found or not owned by caller")
  | some expense =>
    if alreadyInEffect expense then return expense
    else do
      let now ← clock
      let changed ← checked (transition expense (Instant.toDateTime now))
      let recordId ← uuid4
      execute (.appendChangeRecord (ExpenseChangeRecord.ofDeletionState recordId callerId
        (Instant.toDateTime now) expense.id changeType hType))
      execute (.updateExpense changed)
      commit
      return changed

/-- `DeleteExpense.execute`. -/
def deleteExpense (expenseId callerId : UUID) : Program Expense :=
  changeDeletionState .deleted (by decide) (fun e => !e.isActive) Expense.delete expenseId callerId

/-- `RestoreExpense.execute`. -/
def restoreExpense (expenseId callerId : UUID) : Program Expense :=
  changeDeletionState .restored (by decide) Expense.isActive Expense.restore expenseId callerId

end MintFlow
