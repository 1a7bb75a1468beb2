import MintFlow.Domain.Values

set_option relaxedAutoImplicit false
set_option autoImplicit false

/-!
# Receipts and recognition results

A receipt is processed by attempts. Each attempt has its own id and a lease, so an attempt that is
no longer the receipt's current one can never finish it. A recognition result is the snapshot of
the values selected from one attempt. The clock of whoever processes receipts is aware, so times are
instants here.

## Main definitions

* `MintFlow.Receipt` with `receive`, `claim`, `complete`, `fail`, `removeImage`.
* `MintFlow.RecognitionResult` — any of its values may be missing; its total is positive.

## Main results

* `MintFlow.Receipt.claim_eq_ok`, `MintFlow.Receipt.finish_eq_ok` — what a claim and a finish do.
-/

namespace MintFlow

open Transact

/-- Where a receipt is in its processing. -/
inductive ReceiptState
  | queued
  | processing
  | recognized
  | recognitionFailed
deriving DecidableEq, Repr

/-- A receipt. -/
structure Receipt where
  id : UUID
  ownerId : UUID
  state : ReceiptState
  attemptId : Option UUID
  leaseExpiresAt : Option Instant
  imageRemovedAt : Option Instant
  createdAt : Instant
  modifiedAt : Instant
deriving DecidableEq

namespace Receipt

/-- `Receipt.receive`, with the id that `uuid4` gave. -/
def receive (id ownerId : UUID) (now : Instant) : Receipt where
  id := id
  ownerId := ownerId
  state := .queued
  attemptId := none
  leaseExpiresAt := none
  imageRemovedAt := none
  createdAt := now
  modifiedAt := now

/-- `is_claimable`. -/
def isClaimable (r : Receipt) (now : Instant) : Bool :=
  if r.imageRemovedAt.isSome then false
  else if r.state = .queued then true
  else
    match r.leaseExpiresAt with
    | none => false
    | some t => r.state = .processing && decide (t ≤ now)

/-- `Receipt.claim`, with the attempt id that `uuid4` gave. -/
def claim (r : Receipt) (attemptId : UUID) (now : Instant) (lease : ℤ) : Checked Receipt :=
  if !r.isClaimable now then .error "receipt is not available for processing"
  else if lease ≤ 0 then .error "lease must be positive"
  else .ok { r with
    state := .processing
    attemptId := some attemptId
    leaseExpiresAt := some (now + lease)
    modifiedAt := now }

/-- `_finish`. -/
def finish (r : Receipt) (attemptId : UUID) (now : Instant) (state : ReceiptState) :
    Checked Receipt :=
  if r.state ≠ .processing ∨ r.attemptId ≠ some attemptId then
    .error "attempt is not the receipt's current attempt"
  else .ok { r with state := state, leaseExpiresAt := none, modifiedAt := now }

/-- `Receipt.complete`. -/
def complete (r : Receipt) (attemptId : UUID) (now : Instant) : Checked Receipt :=
  r.finish attemptId now .recognized

/-- `Receipt.fail`. -/
def fail (r : Receipt) (attemptId : UUID) (now : Instant) : Checked Receipt :=
  r.finish attemptId now .recognitionFailed

/-- `remove_image`. -/
def removeImage (r : Receipt) (now : Instant) : Receipt :=
  if r.imageRemovedAt.isSome then r
  else { r with imageRemovedAt := some now, modifiedAt := now }

/-- Whether processing has ended. -/
def isFinished (r : Receipt) : Bool :=
  r.state = .recognized || r.state = .recognitionFailed

/-- A claimable receipt has its image, and is queued or its lease has expired. -/
lemma isClaimable_iff {r : Receipt} {now : Instant} : r.isClaimable now = true ↔
    r.imageRemovedAt = none ∧ (r.state = .queued ∨
      r.state = .processing ∧ ∃ t, r.leaseExpiresAt = some t ∧ t ≤ now) := by
  unfold isClaimable
  cases r.imageRemovedAt with
  | some t => simp
  | none =>
    by_cases hs : r.state = .queued
    · simp [hs]
    · cases r.leaseExpiresAt with
      | none => simp [hs]
      | some t => simp [hs]

/-- What a claim gives, and when. -/
lemma claim_eq_ok {r r' : Receipt} {a : UUID} {now : Instant} {lease : ℤ}
    (h : r.claim a now lease = .ok r') :
    r.isClaimable now = true ∧ 0 < lease ∧
      r' = { r with
        state := .processing, attemptId := some a, leaseExpiresAt := some (now + lease),
        modifiedAt := now } := by
  unfold claim at h
  split_ifs at h with h₁ h₂
  cases h
  exact ⟨by simpa using h₁, not_le.mp h₂, rfl⟩

/-- What a finish gives, and when. -/
lemma finish_eq_ok {r r' : Receipt} {a : UUID} {now : Instant} {s : ReceiptState}
    (h : r.finish a now s = .ok r') :
    r.state = .processing ∧ r.attemptId = some a ∧
      r' = { r with state := s, leaseExpiresAt := none, modifiedAt := now } := by
  unfold finish at h
  split_ifs at h with h₁
  cases h
  exact ⟨by tauto, by tauto, rfl⟩

end Receipt

/-- The values selected from one attempt. -/
structure RecognitionResult where
  id : UUID
  receiptId : UUID
  attemptId : UUID
  ownerId : UUID
  merchant : Option MerchantName
  transactionDate : Option TransactionDate
  total : Option Money
  createdAt : Instant
  /-- A recognized total is positive. -/
  total_pos : ∀ m ∈ total, 0 < m.minorUnits
deriving DecidableEq

/-- `RecognitionResult.for_attempt`, with the id that `uuid4` gave. -/
def RecognitionResult.forAttempt (id : UUID) (receipt : Receipt) (attemptId : UUID)
    (merchant : Option MerchantName) (transactionDate : Option TransactionDate)
    (total : Option Money) (now : Instant) : Checked RecognitionResult :=
  if h : ∀ m ∈ total, 0 < m.minorUnits then .ok {
    id := id
    receiptId := receipt.id
    attemptId := attemptId
    ownerId := receipt.ownerId
    merchant := merchant
    transactionDate := transactionDate
    total := total
    createdAt := now
    total_pos := h }
  else .error "a recognized total must be positive"

/-- Whether nothing was recognized. -/
def RecognitionResult.isEmpty (r : RecognitionResult) : Bool :=
  r.merchant.isNone && r.transactionDate.isNone && r.total.isNone

end MintFlow
