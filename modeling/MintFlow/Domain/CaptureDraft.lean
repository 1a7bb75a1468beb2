import MintFlow.Domain.Receipt

set_option relaxedAutoImplicit false
set_option autoImplicit false

/-!
# Capture drafts

Mutable, unconfirmed expense information. Every operation returns a new draft or raises
`ValueError`. The setters share one shape: the caller owns the draft, the draft is open, the time
is aware, the field's own rule holds, and then the field is set, the revision grows and the draft
is stamped.

## Main definitions

* `MintFlow.CaptureDraft` — the draft.
* `MintFlow.CaptureDraft.editField` — the shape of the setters, and the setters.
* `MintFlow.CaptureDraft.applyRecognition` — fill what the user has not supplied.

## Main results

* `MintFlow.CaptureDraft.editField_eq_ok`, `applyRecognition_eq_ok`, `confirm_eq_ok` and the like —
  what each operation gives, and when.
-/

namespace MintFlow

open Transact

/-- A capture draft. -/
structure CaptureDraft where
  id : UUID
  ownerId : UUID
  source : CaptureSource
  state : CaptureDraftState
  revision : ℤ
  amount : Option Money
  amountSource : Option DraftFieldSource
  transactionDate : Option TransactionDate
  transactionDateSource : Option DraftFieldSource
  merchant : Option MerchantName
  merchantSource : Option DraftFieldSource
  categoryKey : Option String
  categoryKeySource : Option DraftFieldSource
  note : Option String
  expenseId : Option UUID
  createdAt : Instant
  modifiedAt : Instant
  confirmedAt : Option Instant
  receiptId : Option UUID
  recognitionResultId : Option UUID
deriving DecidableEq

namespace CaptureDraft

/-! ## Checks -/

/-- States from which the draft may still be edited, cancelled, or expired. -/
def openStates : List CaptureDraftState := [.collecting, .awaitingRecognition, .readyForReview]

/-- Whether the draft may still be edited, cancelled, or expired. -/
def isOpen (d : CaptureDraft) : Bool := decide (d.state ∈ openStates)

/-- Fields a recognition result may fill: never one the user has supplied. -/
def recognitionMayFill (s : Option DraftFieldSource) : Bool :=
  decide (s = none ∨ s = some .default)

/-- `_reject_recognition_provenance`. -/
def rejectRecognitionProvenance (source : DraftFieldSource) : Checked Unit :=
  require (source ≠ .recognition) "recognition provenance is set only by apply_recognition"

/-- `_ensure_owner`. -/
def ensureOwner (d : CaptureDraft) (callerId : UUID) : Checked Unit :=
  require (callerId = d.ownerId) "caller is not the owner of this draft"

/-- `_ensure_editable`. -/
def ensureEditable (d : CaptureDraft) : Checked Unit :=
  require d.isOpen ("draft cannot be edited from state '" ++ d.state.value ++ "'")

/-! ## Creation -/

/-- `CaptureDraft.start`, with the id that `uuid4` gave. -/
def start (id ownerId : UUID) (source : CaptureSource) (now : DateTime) :
    Checked CaptureDraft := do
  requireAware now
  let createdAt := now.astimezoneUtc
  return {
    id := id
    ownerId := ownerId
    source := source
    state := .collecting
    revision := 0
    amount := none
    amountSource := none
    transactionDate := none
    transactionDateSource := none
    merchant := none
    merchantSource := none
    categoryKey := none
    categoryKeySource := none
    note := none
    expenseId := none
    createdAt := createdAt
    modifiedAt := createdAt
    confirmedAt := none
    receiptId := none
    recognitionResultId := none }

/-- `CaptureDraft.start_from_receipt`. -/
def startFromReceipt (id ownerId receiptId : UUID) (now : DateTime) : Checked CaptureDraft := do
  let draft ← start id ownerId .telegramReceipt now
  return { draft with state := .awaitingRecognition, receiptId := some receiptId }

/-! ## Recognition -/

/-- A value with its provenance after recognition: the recognized one, where there is one and
nobody supplied the value. -/
def recognized {α : Type} (value : Option α) (current : Option α × Option DraftFieldSource) :
    Option α × Option DraftFieldSource :=
  match value with
  | some value =>
    if recognitionMayFill current.2 then (some value, some .recognition) else current
  | none => current

/-- Fill in the recognized amount. -/
def fillAmount (d : CaptureDraft) (total : Option Money) : CaptureDraft :=
  let filled := recognized total (d.amount, d.amountSource)
  { d with amount := filled.1, amountSource := filled.2 }

/-- Fill in the recognized date. -/
def fillTransactionDate (d : CaptureDraft) (date : Option TransactionDate) : CaptureDraft :=
  let filled := recognized date (d.transactionDate, d.transactionDateSource)
  { d with transactionDate := filled.1, transactionDateSource := filled.2 }

/-- Fill in the recognized merchant. -/
def fillMerchant (d : CaptureDraft) (merchant : Option MerchantName) : CaptureDraft :=
  let filled := recognized merchant (d.merchant, d.merchantSource)
  { d with merchant := filled.1, merchantSource := filled.2 }

/-- Fill in the fallback category, where there is none. -/
def fillCategory (d : CaptureDraft) (fallbackCategoryKey : String) : CaptureDraft :=
  let filled :=
    if d.categoryKey = none then (some fallbackCategoryKey, some .default)
    else (d.categoryKey, d.categoryKeySource)
  { d with categoryKey := filled.1, categoryKeySource := filled.2 }

/-- The draft with the recognized values filled in, before its state moves on. -/
def filled (d : CaptureDraft) (result : RecognitionResult) (fallbackCategoryKey : String) :
    CaptureDraft :=
  (((d.fillAmount result.total).fillTransactionDate result.transactionDate).fillMerchant
    result.merchant).fillCategory fallbackCategoryKey

/-- The state after recognition: review when amount and date are known, else collecting. -/
def stateAfterRecognition (d : CaptureDraft) : CaptureDraftState :=
  if d.state = .awaitingRecognition then
    if d.amount.isSome && d.transactionDate.isSome then .readyForReview else .collecting
  else d.state

/-- `apply_recognition`. -/
def applyRecognition [PythonRuntime] (d : CaptureDraft) (result : RecognitionResult)
    (fallbackCategoryKey : String) (now : DateTime) : Checked CaptureDraft := do
  requireAware now
  require (result.ownerId = d.ownerId ∧ some result.receiptId = d.receiptId)
    "result belongs to another draft"
  d.ensureEditable
  requireStableKey fallbackCategoryKey
  let draft := d.filled result fallbackCategoryKey
  return { draft with
    state := draft.stateAfterRecognition
    recognitionResultId := some result.id
    revision := d.revision + 1
    modifiedAt := now.astimezoneUtc }

/-- `continue_manually`. -/
def continueManually (d : CaptureDraft) (callerId : UUID) (now : DateTime) :
    Checked CaptureDraft := do
  d.ensureOwner callerId
  requireAware now
  if d.state ≠ .awaitingRecognition then pure d
  else pure { d with state := .collecting, modifiedAt := now.astimezoneUtc }

/-! ## Setters -/

/-- The shape of the setters: `guard` is the field's own rule and `put` sets the field. -/
def editField (d : CaptureDraft) (callerId : UUID) (now : DateTime) (guard : Checked Unit)
    (put : CaptureDraft → CaptureDraft) : Checked CaptureDraft := do
  d.ensureOwner callerId
  d.ensureEditable
  requireAware now
  guard
  return { put d with revision := d.revision + 1, modifiedAt := now.astimezoneUtc }

/-- `set_amount`. -/
def setAmount (d : CaptureDraft) (callerId : UUID) (amount : Money) (now : DateTime)
    (source : DraftFieldSource) : Checked CaptureDraft :=
  d.editField callerId now (rejectRecognitionProvenance source) fun d =>
    { d with amount := some amount, amountSource := some source }

/-- `set_transaction_date`. -/
def setTransactionDate (d : CaptureDraft) (callerId : UUID) (date : TransactionDate)
    (now : DateTime) (source : DraftFieldSource) : Checked CaptureDraft :=
  d.editField callerId now (rejectRecognitionProvenance source) fun d =>
    { d with transactionDate := some date, transactionDateSource := some source }

/-- `set_merchant`. -/
def setMerchant (d : CaptureDraft) (callerId : UUID) (merchant : MerchantName) (now : DateTime)
    (source : DraftFieldSource) : Checked CaptureDraft :=
  d.editField callerId now (rejectRecognitionProvenance source) fun d =>
    { d with merchant := some merchant, merchantSource := some source }

/-- `set_category_key`. -/
def setCategoryKey [PythonRuntime] (d : CaptureDraft) (callerId : UUID) (categoryKey : String)
    (now : DateTime) (source : DraftFieldSource) : Checked CaptureDraft :=
  d.editField callerId now
    (do rejectRecognitionProvenance source; requireStableKey categoryKey) fun d =>
      { d with categoryKey := some categoryKey, categoryKeySource := some source }

/-- `set_note`. -/
def setNote (d : CaptureDraft) (callerId : UUID) (note : Option String) (now : DateTime) :
    Checked CaptureDraft :=
  d.editField callerId now (.ok ()) fun d => { d with note := note }

/-! ## Transitions -/

/-- `mark_ready_for_review`. -/
def markReadyForReview (d : CaptureDraft) (callerId : UUID) (now : DateTime) :
    Checked CaptureDraft := do
  d.ensureOwner callerId
  require (d.state = .collecting)
    ("cannot mark ready for review from state '" ++ d.state.value ++ "'")
  requireAware now
  return { d with state := .readyForReview, modifiedAt := now.astimezoneUtc }

/-- `is_confirmable`. -/
def isConfirmable (d : CaptureDraft) : Bool :=
  d.state = .readyForReview && d.amount.isSome && d.transactionDate.isSome

/-- `confirm`. -/
def confirm (d : CaptureDraft) (callerId expenseId : UUID) (now : DateTime) :
    Checked CaptureDraft := do
  d.ensureOwner callerId
  require d.isConfirmable "draft is not confirmable"
  requireAware now
  let confirmedAt := now.astimezoneUtc
  return { d with
    state := .confirmed
    expenseId := some expenseId
    confirmedAt := some confirmedAt
    modifiedAt := confirmedAt }

/-- `cancel`. -/
def cancel (d : CaptureDraft) (callerId : UUID) (now : DateTime) : Checked CaptureDraft := do
  d.ensureOwner callerId
  require d.isOpen ("cannot cancel from state '" ++ d.state.value ++ "'")
  requireAware now
  return { d with state := .cancelled, modifiedAt := now.astimezoneUtc }

/-- `expire`. -/
def expire (d : CaptureDraft) (now : DateTime) : Checked CaptureDraft := do
  require d.isOpen ("cannot expire from state '" ++ d.state.value ++ "'")
  requireAware now
  return { d with state := .expired, modifiedAt := now.astimezoneUtc }

/-! ## What the operations do -/

section Specs

variable {d d' : CaptureDraft} {caller : UUID} {now : DateTime}

@[simp] lemma ensureOwner_eq_ok {u : Unit} : d.ensureOwner caller = .ok u ↔ caller = d.ownerId := by
  simp [ensureOwner]

@[simp] lemma ensureEditable_eq_ok {u : Unit} : d.ensureEditable = .ok u ↔ d.isOpen = true := by
  simp [ensureEditable]

/-- What a start gives. -/
lemma start_eq_ok {id : UUID} {source : CaptureSource}
    (h : start id caller source now = .ok d) :
    now.utcoffset ≠ none ∧ d = {
      id := id, ownerId := caller, source := source, state := .collecting, revision := 0
      amount := none, amountSource := none, transactionDate := none
      transactionDateSource := none, merchant := none, merchantSource := none
      categoryKey := none, categoryKeySource := none, note := none, expenseId := none
      createdAt := now.astimezoneUtc, modifiedAt := now.astimezoneUtc, confirmedAt := none
      receiptId := none, recognitionResultId := none } := by
  obtain ⟨_, haware, h⟩ := Checked.bind_eq_ok.mp h
  exact ⟨requireAware_eq_ok.mp haware, (Checked.pure_eq_ok.mp h).symm⟩

/-- What a start from a receipt gives. -/
lemma startFromReceipt_eq_ok {id receiptId : UUID}
    (h : startFromReceipt id caller receiptId now = .ok d) :
    ∃ d₀, start id caller .telegramReceipt now = .ok d₀ ∧
      d = { d₀ with state := .awaitingRecognition, receiptId := some receiptId } := by
  obtain ⟨d₀, h₀, h⟩ := Checked.bind_eq_ok.mp h
  exact ⟨d₀, h₀, (Checked.pure_eq_ok.mp h).symm⟩

/-- What a setter gives, and when. -/
lemma editField_eq_ok {guard : Checked Unit} {put : CaptureDraft → CaptureDraft}
    (h : d.editField caller now guard put = .ok d') :
    caller = d.ownerId ∧ d.isOpen = true ∧ now.utcoffset ≠ none ∧ guard = .ok () ∧
      d' = { put d with revision := d.revision + 1, modifiedAt := now.astimezoneUtc } := by
  obtain ⟨_, howner, h⟩ := Checked.bind_eq_ok.mp h
  obtain ⟨_, hopen, h⟩ := Checked.bind_eq_ok.mp h
  obtain ⟨_, haware, h⟩ := Checked.bind_eq_ok.mp h
  obtain ⟨_, hguard, h⟩ := Checked.bind_eq_ok.mp h
  exact ⟨ensureOwner_eq_ok.mp howner, ensureEditable_eq_ok.mp hopen, requireAware_eq_ok.mp haware,
    hguard, (Checked.pure_eq_ok.mp h).symm⟩

/-- What `set_amount` gives, and when. -/
lemma setAmount_eq_ok {m : Money} {s : DraftFieldSource}
    (h : d.setAmount caller m now s = .ok d') :
    caller = d.ownerId ∧ d.isOpen = true ∧ d' = { d with
      amount := some m, amountSource := some s
      revision := d.revision + 1, modifiedAt := now.astimezoneUtc } := by
  obtain ⟨howner, hopen, -, -, h⟩ := editField_eq_ok h
  exact ⟨howner, hopen, h⟩

/-- What `set_transaction_date` gives, and when. -/
lemma setTransactionDate_eq_ok {v : TransactionDate} {s : DraftFieldSource}
    (h : d.setTransactionDate caller v now s = .ok d') :
    caller = d.ownerId ∧ d.isOpen = true ∧ d' = { d with
      transactionDate := some v, transactionDateSource := some s
      revision := d.revision + 1, modifiedAt := now.astimezoneUtc } := by
  obtain ⟨howner, hopen, -, -, h⟩ := editField_eq_ok h
  exact ⟨howner, hopen, h⟩

/-- What `set_merchant` gives, and when. -/
lemma setMerchant_eq_ok {v : MerchantName} {s : DraftFieldSource}
    (h : d.setMerchant caller v now s = .ok d') :
    caller = d.ownerId ∧ d.isOpen = true ∧ d' = { d with
      merchant := some v, merchantSource := some s
      revision := d.revision + 1, modifiedAt := now.astimezoneUtc } := by
  obtain ⟨howner, hopen, -, -, h⟩ := editField_eq_ok h
  exact ⟨howner, hopen, h⟩

/-- What `set_category_key` gives, and when. -/
lemma setCategoryKey_eq_ok [PythonRuntime] {k : String} {s : DraftFieldSource}
    (h : d.setCategoryKey caller k now s = .ok d') :
    caller = d.ownerId ∧ d.isOpen = true ∧ requireStableKey k = .ok () ∧ d' = { d with
      categoryKey := some k, categoryKeySource := some s
      revision := d.revision + 1, modifiedAt := now.astimezoneUtc } := by
  obtain ⟨howner, hopen, -, hguard, h⟩ := editField_eq_ok h
  obtain ⟨_, -, hkey⟩ := Checked.bind_eq_ok.mp hguard
  exact ⟨howner, hopen, hkey, h⟩

/-- What `set_note` gives, and when. -/
lemma setNote_eq_ok {n : Option String} (h : d.setNote caller n now = .ok d') :
    caller = d.ownerId ∧ d.isOpen = true ∧ d' = { d with
      note := n, revision := d.revision + 1, modifiedAt := now.astimezoneUtc } := by
  obtain ⟨howner, hopen, -, -, h⟩ := editField_eq_ok h
  exact ⟨howner, hopen, h⟩

/-- Recognition leaves a value the user supplied. -/
lemma recognized_user {α : Type} (value current : Option α) {s : Option DraftFieldSource}
    (h : s = some .user) : recognized value (current, s) = (current, s) := by
  subst h
  cases value <;> rfl

/-- Recognition keeps a value and its provenance present together. -/
lemma recognized_isSome {α : Type} {value current : Option α} {s : Option DraftFieldSource}
    (h : current.isSome = s.isSome) :
    (recognized value (current, s)).1.isSome = (recognized value (current, s)).2.isSome := by
  unfold recognized
  split
  · split_ifs
    · rfl
    · exact h
  · exact h

/-- What recognition gives, and when. -/
lemma applyRecognition_eq_ok [PythonRuntime] {result : RecognitionResult} {fallback : String}
    (h : d.applyRecognition result fallback now = .ok d') :
    now.utcoffset ≠ none ∧ result.ownerId = d.ownerId ∧ some result.receiptId = d.receiptId ∧
      d.isOpen = true ∧ requireStableKey fallback = .ok () ∧
      d' = { d.filled result fallback with
        state := (d.filled result fallback).stateAfterRecognition
        recognitionResultId := some result.id
        revision := d.revision + 1
        modifiedAt := now.astimezoneUtc } := by
  obtain ⟨_, haware, h⟩ := Checked.bind_eq_ok.mp h
  obtain ⟨_, hown, h⟩ := Checked.bind_eq_ok.mp h
  obtain ⟨_, hopen, h⟩ := Checked.bind_eq_ok.mp h
  obtain ⟨_, hkey, h⟩ := Checked.bind_eq_ok.mp h
  obtain ⟨howner, hreceipt⟩ := require_eq_ok.mp hown
  exact ⟨requireAware_eq_ok.mp haware, howner, hreceipt, ensureEditable_eq_ok.mp hopen, hkey,
    (Checked.pure_eq_ok.mp h).symm⟩

/-- What stopping to wait gives, and when. -/
lemma continueManually_eq_ok (h : d.continueManually caller now = .ok d') :
    caller = d.ownerId ∧ now.utcoffset ≠ none ∧
      d' = if d.state ≠ .awaitingRecognition then d
        else { d with state := .collecting, modifiedAt := now.astimezoneUtc } := by
  obtain ⟨_, howner, h⟩ := Checked.bind_eq_ok.mp h
  obtain ⟨_, haware, h⟩ := Checked.bind_eq_ok.mp h
  refine ⟨ensureOwner_eq_ok.mp howner, requireAware_eq_ok.mp haware, ?_⟩
  split_ifs at h ⊢ <;> exact (Checked.pure_eq_ok.mp h).symm

/-- What a move to review gives, and when. -/
lemma markReadyForReview_eq_ok (h : d.markReadyForReview caller now = .ok d') :
    caller = d.ownerId ∧ d.state = .collecting ∧ now.utcoffset ≠ none ∧
      d' = { d with state := .readyForReview, modifiedAt := now.astimezoneUtc } := by
  obtain ⟨_, howner, h⟩ := Checked.bind_eq_ok.mp h
  obtain ⟨_, hstate, h⟩ := Checked.bind_eq_ok.mp h
  obtain ⟨_, haware, h⟩ := Checked.bind_eq_ok.mp h
  exact ⟨ensureOwner_eq_ok.mp howner, require_eq_ok.mp hstate, requireAware_eq_ok.mp haware,
    (Checked.pure_eq_ok.mp h).symm⟩

/-- A confirmable draft is in review and has an amount and a date. -/
lemma isConfirmable_iff : d.isConfirmable = true ↔
    d.state = .readyForReview ∧ (∃ m, d.amount = some m) ∧ ∃ t, d.transactionDate = some t := by
  simp [isConfirmable, Option.isSome_iff_exists, and_assoc]

/-- What a confirmation gives, and when. -/
lemma confirm_eq_ok {expenseId : UUID} (h : d.confirm caller expenseId now = .ok d') :
    caller = d.ownerId ∧ d.isConfirmable = true ∧ now.utcoffset ≠ none ∧
      d' = { d with
        state := .confirmed, expenseId := some expenseId
        confirmedAt := some now.astimezoneUtc, modifiedAt := now.astimezoneUtc } := by
  obtain ⟨_, howner, h⟩ := Checked.bind_eq_ok.mp h
  obtain ⟨_, hconf, h⟩ := Checked.bind_eq_ok.mp h
  obtain ⟨_, haware, h⟩ := Checked.bind_eq_ok.mp h
  exact ⟨ensureOwner_eq_ok.mp howner, require_eq_ok.mp hconf, requireAware_eq_ok.mp haware,
    (Checked.pure_eq_ok.mp h).symm⟩

/-- What a cancellation gives, and when. -/
lemma cancel_eq_ok (h : d.cancel caller now = .ok d') :
    caller = d.ownerId ∧ d.isOpen = true ∧ now.utcoffset ≠ none ∧
      d' = { d with state := .cancelled, modifiedAt := now.astimezoneUtc } := by
  obtain ⟨_, howner, h⟩ := Checked.bind_eq_ok.mp h
  obtain ⟨_, hopen, h⟩ := Checked.bind_eq_ok.mp h
  obtain ⟨_, haware, h⟩ := Checked.bind_eq_ok.mp h
  exact ⟨ensureOwner_eq_ok.mp howner, require_eq_ok.mp hopen, requireAware_eq_ok.mp haware,
    (Checked.pure_eq_ok.mp h).symm⟩

/-- What an expiry gives, and when. -/
lemma expire_eq_ok (h : d.expire now = .ok d') :
    d.isOpen = true ∧ now.utcoffset ≠ none ∧
      d' = { d with state := .expired, modifiedAt := now.astimezoneUtc } := by
  obtain ⟨_, hopen, h⟩ := Checked.bind_eq_ok.mp h
  obtain ⟨_, haware, h⟩ := Checked.bind_eq_ok.mp h
  exact ⟨require_eq_ok.mp hopen, requireAware_eq_ok.mp haware, (Checked.pure_eq_ok.mp h).symm⟩

end Specs

end CaptureDraft

end MintFlow
