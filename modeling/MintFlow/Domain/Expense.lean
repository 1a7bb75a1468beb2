import MintFlow.Domain.CaptureDraft

set_option relaxedAutoImplicit false
set_option autoImplicit false

/-!
# Expenses and their change records

A confirmed financial fact, and the record written for every effective edit, deletion or
restoration of one. The domain operations only produce the new state; whether a value actually
changed is decided when the change record is built.

## Main definitions

* `MintFlow.Expense` with `create`, the edits, `delete` and `restore`.
* `MintFlow.ExpenseOperation`, `MintFlow.Expense.performAll` — an operation with its arguments, and
  the Expense after a sequence of them.
* `MintFlow.ExpenseField`, `MintFlow.FieldValue` — the editable fields as stored in records.
* `MintFlow.ExpenseChangeRecord` — a change record; its rules are its fields.

## Main results

* `MintFlow.Expense.create_eq_ok` — what creation gives, and when.
* `MintFlow.Expense.keeps_performAll` — what no sequence of operations changes.
-/

namespace MintFlow

open Transact

/-- A confirmed financial fact. -/
structure Expense where
  id : UUID
  ownerId : UUID
  money : Money
  transactionDate : TransactionDate
  merchant : Option MerchantName
  categoryKey : String
  note : Option String
  source : CaptureSource
  captureDraftId : UUID
  receiptId : Option UUID
  createdAt : Instant
  modifiedAt : Instant
  deletedAt : Option Instant
deriving DecidableEq

namespace Expense

/-- Whether the Expense is not soft-deleted. -/
def isActive (e : Expense) : Bool := e.deletedAt.isNone

/-- `_require_positive`. -/
def requirePositive (money : Money) : Checked Unit :=
  require (0 < money.minorUnits) "Expense money must be strictly positive"

/-- `Expense.create`, with the id that `uuid4` gave. -/
def create [PythonRuntime] (id ownerId : UUID) (money : Money) (transactionDate : TransactionDate)
    (categoryKey : String) (captureDraftId : UUID) (merchant : Option MerchantName)
    (note : Option String) (source : CaptureSource) (receiptId : Option UUID) (now : DateTime) :
    Checked Expense := do
  requireAware now
  requirePositive money
  requireStableKey categoryKey
  let createdAt := now.astimezoneUtc
  return {
    id := id
    ownerId := ownerId
    money := money
    transactionDate := transactionDate
    merchant := merchant
    categoryKey := categoryKey
    note := note
    source := source
    captureDraftId := captureDraftId
    receiptId := receiptId
    createdAt := createdAt
    modifiedAt := createdAt
    deletedAt := none }

/-- `edit_money`. -/
def editMoney (e : Expense) (money : Money) (now : DateTime) : Checked Expense := do
  requireAware now
  requirePositive money
  return { e with money := money, modifiedAt := now.astimezoneUtc }

/-- `edit_merchant`. -/
def editMerchant (e : Expense) (merchant : Option MerchantName) (now : DateTime) :
    Checked Expense := do
  requireAware now
  return { e with merchant := merchant, modifiedAt := now.astimezoneUtc }

/-- `edit_category`. -/
def editCategory [PythonRuntime] (e : Expense) (categoryKey : String) (now : DateTime) :
    Checked Expense := do
  requireAware now
  requireStableKey categoryKey
  return { e with categoryKey := categoryKey, modifiedAt := now.astimezoneUtc }

/-- `edit_note`. -/
def editNote (e : Expense) (note : Option String) (now : DateTime) : Checked Expense := do
  requireAware now
  return { e with note := note, modifiedAt := now.astimezoneUtc }

/-- `edit_transaction_date`. -/
def editTransactionDate (e : Expense) (date : TransactionDate) (now : DateTime) :
    Checked Expense := do
  requireAware now
  return { e with transactionDate := date, modifiedAt := now.astimezoneUtc }

/-- `delete`. -/
def delete (e : Expense) (now : DateTime) : Checked Expense := do
  requireAware now
  if e.deletedAt.isSome then pure e
  else
    let deletedAt := now.astimezoneUtc
    pure { e with deletedAt := some deletedAt, modifiedAt := deletedAt }

/-- `restore`. -/
def restore (e : Expense) (now : DateTime) : Checked Expense := do
  requireAware now
  if e.deletedAt.isNone then pure e
  else pure { e with deletedAt := none, modifiedAt := now.astimezoneUtc }

/-- What creation gives, and when. -/
lemma create_eq_ok [PythonRuntime] {id ownerId : UUID} {money : Money} {date : TransactionDate}
    {key : String} {draftId : UUID} {merchant : Option MerchantName} {note : Option String}
    {source : CaptureSource} {receiptId : Option UUID} {now : DateTime} {e : Expense}
    (h : create id ownerId money date key draftId merchant note source receiptId now = .ok e) :
    0 < money.minorUnits ∧ requireStableKey key = .ok () ∧ e = {
      id := id, ownerId := ownerId, money := money, transactionDate := date
      merchant := merchant, categoryKey := key, note := note, source := source
      captureDraftId := draftId, receiptId := receiptId, createdAt := now.astimezoneUtc
      modifiedAt := now.astimezoneUtc, deletedAt := none } := by
  obtain ⟨_, -, h⟩ := Checked.bind_eq_ok.mp h
  obtain ⟨_, hpos, h⟩ := Checked.bind_eq_ok.mp h
  obtain ⟨_, hkey, h⟩ := Checked.bind_eq_ok.mp h
  exact ⟨require_eq_ok.mp hpos, hkey, (Checked.pure_eq_ok.mp h).symm⟩

end Expense

/-! ## Sequences of operations -/

/-- An operation on an Expense, with its arguments. -/
inductive ExpenseOperation
  | editMoney (money : Money) (now : DateTime)
  | editMerchant (merchant : Option MerchantName) (now : DateTime)
  | editCategory (categoryKey : String) (now : DateTime)
  | editNote (note : Option String) (now : DateTime)
  | editTransactionDate (date : TransactionDate) (now : DateTime)
  | delete (now : DateTime)
  | restore (now : DateTime)

namespace Expense

variable [PythonRuntime]

/-- The Expenses that `Expense.create` gives. -/
def Created (e : Expense) : Prop :=
  ∃ id owner money date key draftId merchant note source receiptId now,
    create id owner money date key draftId merchant note source receiptId now = .ok e

/-- What an operation returns or raises. -/
def apply (e : Expense) : ExpenseOperation → Checked Expense
  | .editMoney money now => e.editMoney money now
  | .editMerchant merchant now => e.editMerchant merchant now
  | .editCategory key now => e.editCategory key now
  | .editNote note now => e.editNote note now
  | .editTransactionDate date now => e.editTransactionDate date now
  | .delete now => e.delete now
  | .restore now => e.restore now

/-- The Expense after an operation: an operation that raises leaves it as it was. -/
def perform (e : Expense) (o : ExpenseOperation) : Expense :=
  match e.apply o with
  | .ok e' => e'
  | .error _ => e

/-- The Expense after a sequence of operations. -/
def performAll (e : Expense) (os : List ExpenseOperation) : Expense := os.foldl perform e

omit [PythonRuntime] in
/-- What no operation changes, and the amount that every operation keeps positive. -/
structure Keeps (e e' : Expense) : Prop where
  id : e'.id = e.id
  ownerId : e'.ownerId = e.ownerId
  source : e'.source = e.source
  captureDraftId : e'.captureDraftId = e.captureDraftId
  receiptId : e'.receiptId = e.receiptId
  createdAt : e'.createdAt = e.createdAt
  positive : 0 < e.money.minorUnits → 0 < e'.money.minorUnits

omit [PythonRuntime] in
lemma Keeps.refl (e : Expense) : e.Keeps e := ⟨rfl, rfl, rfl, rfl, rfl, rfl, fun hpos => hpos⟩

omit [PythonRuntime] in
lemma Keeps.trans {e e' e'' : Expense} (h : e.Keeps e') (h' : e'.Keeps e'') : e.Keeps e'' :=
  ⟨h'.id.trans h.id, h'.ownerId.trans h.ownerId, h'.source.trans h.source,
    h'.captureDraftId.trans h.captureDraftId, h'.receiptId.trans h.receiptId,
    h'.createdAt.trans h.createdAt, fun hpos => h'.positive (h.positive hpos)⟩

/-- What one operation keeps.

**Proof sketch.** Cases on the operation: each changes the fields of its own only, and an amount is
set only if it is positive. -/
lemma keeps_apply {e e' : Expense} {o : ExpenseOperation} (h : e.apply o = .ok e') :
    e.Keeps e' := by
  cases o with
  | editMoney money now =>
    obtain ⟨_, -, h⟩ := Checked.bind_eq_ok.mp h
    obtain ⟨_, hpos, h⟩ := Checked.bind_eq_ok.mp h
    obtain rfl := Checked.pure_eq_ok.mp h
    exact ⟨rfl, rfl, rfl, rfl, rfl, rfl, fun _ => require_eq_ok.mp hpos⟩
  | editMerchant merchant now =>
    obtain ⟨_, -, h⟩ := Checked.bind_eq_ok.mp h
    obtain rfl := Checked.pure_eq_ok.mp h
    exact ⟨rfl, rfl, rfl, rfl, rfl, rfl, fun hpos => hpos⟩
  | editCategory key now =>
    obtain ⟨_, -, h⟩ := Checked.bind_eq_ok.mp h
    obtain ⟨_, -, h⟩ := Checked.bind_eq_ok.mp h
    obtain rfl := Checked.pure_eq_ok.mp h
    exact ⟨rfl, rfl, rfl, rfl, rfl, rfl, fun hpos => hpos⟩
  | editNote note now =>
    obtain ⟨_, -, h⟩ := Checked.bind_eq_ok.mp h
    obtain rfl := Checked.pure_eq_ok.mp h
    exact ⟨rfl, rfl, rfl, rfl, rfl, rfl, fun hpos => hpos⟩
  | editTransactionDate date now =>
    obtain ⟨_, -, h⟩ := Checked.bind_eq_ok.mp h
    obtain rfl := Checked.pure_eq_ok.mp h
    exact ⟨rfl, rfl, rfl, rfl, rfl, rfl, fun hpos => hpos⟩
  | delete now =>
    obtain ⟨_, -, h⟩ := Checked.bind_eq_ok.mp h
    split_ifs at h <;> obtain rfl := Checked.pure_eq_ok.mp h
    · exact .refl e
    · exact ⟨rfl, rfl, rfl, rfl, rfl, rfl, fun hpos => hpos⟩
  | restore now =>
    obtain ⟨_, -, h⟩ := Checked.bind_eq_ok.mp h
    split_ifs at h <;> obtain rfl := Checked.pure_eq_ok.mp h
    · exact .refl e
    · exact ⟨rfl, rfl, rfl, rfl, rfl, rfl, fun hpos => hpos⟩

/-- **What every sequence of operations keeps.** -/
lemma keeps_performAll (e : Expense) (os : List ExpenseOperation) : e.Keeps (e.performAll os) := by
  induction os generalizing e with
  | nil => exact .refl e
  | cons o os ih =>
    have hstep : e.Keeps (e.perform o) := by
      unfold perform
      cases h : e.apply o with
      | ok e' => exact keeps_apply h
      | error _ => exact .refl e
    exact hstep.trans (ih (e.perform o))

/-- A created Expense has a positive amount. -/
lemma Created.positive {e : Expense} (h : e.Created) : 0 < e.money.minorUnits := by
  obtain ⟨_, _, _, _, _, _, _, _, _, _, _, h⟩ := h
  obtain ⟨hpos, -, rfl⟩ := create_eq_ok h
  exact hpos

end Expense

/-! ## Change records -/

/-- The kinds of change record. -/
inductive ExpenseChangeType
  | edited
  | deleted
  | restored
deriving DecidableEq, Repr

/-- The user-editable Expense fields, as named in stored change records. -/
inductive ExpenseField
  | amountMinorUnits
  | currency
  | transactionDate
  | merchant
  | categoryKey
  | note
deriving DecidableEq, Repr

/-- The editable fields, in the order records list them. -/
def ExpenseField.all : List ExpenseField :=
  [.amountMinorUnits, .currency, .transactionDate, .merchant, .categoryKey, .note]

/-- A stored field value: text, an integer, a date in ISO form, or nothing. -/
inductive FieldValue
  | null
  | int (n : ℤ)
  | str (s : String)
  | isoDate (d : Date)
deriving DecidableEq

/-- An optional text as a stored value. -/
def FieldValue.ofOption : Option String → FieldValue
  | none => .null
  | some s => .str s

lemma FieldValue.ofOption_injective : Function.Injective FieldValue.ofOption := by
  rintro (_ | a) (_ | b) h <;> simp_all [FieldValue.ofOption]

/-- `expense_field_values`: an Expense's editable fields in stored form. -/
def expenseFieldValues (e : Expense) : ExpenseField → FieldValue
  | .amountMinorUnits => .int e.money.minorUnits
  | .currency => .str e.money.currency.value
  | .transactionDate => .isoDate e.transactionDate.value
  | .merchant => .ofOption (e.merchant.map MerchantName.value)
  | .categoryKey => .str e.categoryKey
  | .note => .ofOption e.note

/-- One field's change. -/
structure ExpenseFieldChange where
  field : ExpenseField
  old : FieldValue
  new : FieldValue
  /-- A field change changes the value. -/
  changes : old ≠ new
deriving DecidableEq

/-- A change record. -/
structure ExpenseChangeRecord where
  id : UUID
  expenseId : UUID
  actorUserId : UUID
  occurredAt : Instant
  changeType : ExpenseChangeType
  changes : List ExpenseFieldChange
  /-- Exactly the edited records list field changes. -/
  listed : changeType = .edited ↔ changes ≠ []
  /-- Each field changes at most once. -/
  nodup : (changes.map ExpenseFieldChange.field).Nodup
deriving DecidableEq

/-- The fields whose stored values differ, with both values. -/
def fieldChanges (before after : Expense) : List ExpenseFieldChange :=
  ExpenseField.all.filterMap fun f =>
    if h : expenseFieldValues before f = expenseFieldValues after f then none
    else some ⟨f, _, _, h⟩

/-- The fields a comparison lists are those whose values differ. -/
lemma map_field_fieldChanges (before after : Expense) :
    (fieldChanges before after).map ExpenseFieldChange.field =
      ExpenseField.all.filter fun f =>
        decide (expenseFieldValues before f ≠ expenseFieldValues after f) := by
  unfold fieldChanges
  induction ExpenseField.all with
  | nil => rfl
  | cons f fs ih =>
    by_cases h : expenseFieldValues before f = expenseFieldValues after f
    · rw [List.filterMap_cons_none (by simp [h]), List.filter_cons_of_neg (by simp [h]), ih]
    · rw [List.filterMap_cons_some (b := ⟨f, _, _, h⟩) (by simp [h]),
        List.filter_cons_of_pos (by simp [h]), List.map_cons, ih]

/-- The changes between two Expenses name no field twice. -/
lemma nodup_fieldChanges (before after : Expense) :
    ((fieldChanges before after).map ExpenseFieldChange.field).Nodup := by
  rw [map_field_fieldChanges]
  exact List.Nodup.filter _ (by decide)

/-- The record of an edit that changed something. -/
def ExpenseChangeRecord.edited (id actor : UUID) (now : DateTime) (before after : Expense)
    (h : fieldChanges before after ≠ []) : ExpenseChangeRecord where
  id := id
  expenseId := before.id
  actorUserId := actor
  occurredAt := now.astimezoneUtc
  changeType := .edited
  changes := fieldChanges before after
  listed := ⟨fun _ => h, fun _ => rfl⟩
  nodup := nodup_fieldChanges before after

/-- The record of a deletion or a restoration. -/
def ExpenseChangeRecord.ofDeletionState (id actor : UUID) (now : DateTime) (expenseId : UUID)
    (type : ExpenseChangeType) (h : type ≠ .edited) : ExpenseChangeRecord where
  id := id
  expenseId := expenseId
  actorUserId := actor
  occurredAt := now.astimezoneUtc
  changeType := type
  changes := []
  listed := ⟨fun he => absurd he h, fun hn => absurd rfl hn⟩
  nodup := List.nodup_nil

end MintFlow
