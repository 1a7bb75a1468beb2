import MintFlow.Domain.User

set_option relaxedAutoImplicit false
set_option autoImplicit false

/-!
# Telegram conversations

What the bot remembers of one user between updates: the active draft, the input it waits for, and a
receipt photo kept behind another draft. The two rules of the constructor are fields, so that every
conversation that exists satisfies them.

## Main definitions

* `MintFlow.TelegramConversation` with `idle`, `withDraft`, `waitingFor`, `withPendingReceipt` and
  `finished`.

## Main results

* `MintFlow.TelegramConversation.waitingFor_eq_ok`, `withPendingReceipt_eq_ok` — what the checked
  operations give.
-/

namespace MintFlow

open Transact

/-- The input the bot waits for. -/
inductive AwaitingInput
  | nothing
  | amount
  | currency
  | merchant
  | category
  | date
deriving DecidableEq, Repr

/-- The conversation with one user. -/
structure TelegramConversation where
  userId : UUID
  activeDraftId : Option UUID
  awaiting : AwaitingInput
  currencyIsDefault : Bool
  updatedAt : Instant
  /-- A receipt photo sent while another draft was active. -/
  pendingReceiptFileId : Option String
  /-- A conversation without a draft cannot wait for input. -/
  waiting_needs_draft : activeDraftId = none → awaiting = .nothing
  /-- A pending receipt only waits behind an active draft. -/
  pending_needs_draft : activeDraftId = none → pendingReceiptFileId = none
deriving DecidableEq

namespace TelegramConversation

/-- Nothing is waited for, with a draft or without. -/
lemma nothing_waiting : (none : Option UUID) = none → AwaitingInput.nothing = .nothing :=
  fun _ => rfl

/-- No receipt is pending, with a draft or without. -/
lemma nothing_pending : (none : Option UUID) = none → (none : Option String) = none :=
  fun _ => rfl

/-- `idle`. -/
def idle (userId : UUID) (now : Instant) : TelegramConversation where
  userId := userId
  activeDraftId := none
  awaiting := .nothing
  currencyIsDefault := false
  updatedAt := now
  pendingReceiptFileId := none
  waiting_needs_draft := nothing_waiting
  pending_needs_draft := nothing_pending

/-- `with_pending_receipt`. -/
def withPendingReceipt (c : TelegramConversation) (fileId : Option String) (now : Instant) :
    Checked TelegramConversation :=
  if h : c.activeDraftId = none → fileId = none then
    .ok { c with pendingReceiptFileId := fileId, updatedAt := now, pending_needs_draft := h }
  else .error "a pending receipt only waits behind an active draft"

/-- `waiting_for`. -/
def waitingFor (c : TelegramConversation) (awaiting : AwaitingInput) (now : Instant) :
    Checked TelegramConversation :=
  if h : c.activeDraftId = none → awaiting = .nothing then
    .ok { c with awaiting := awaiting, updatedAt := now, waiting_needs_draft := h }
  else .error "a conversation without a draft cannot wait for input"

/-- `with_draft`. -/
def withDraft (c : TelegramConversation) (draftId : UUID) (awaiting : AwaitingInput)
    (currencyIsDefault : Bool) (now : Instant) : TelegramConversation where
  userId := c.userId
  activeDraftId := some draftId
  awaiting := awaiting
  currencyIsDefault := currencyIsDefault
  updatedAt := now
  pendingReceiptFileId := none
  waiting_needs_draft := nofun
  pending_needs_draft := nofun

/-- `finished`. -/
def finished (c : TelegramConversation) (now : Instant) : TelegramConversation :=
  idle c.userId now

/-- What waiting for an input gives. -/
lemma waitingFor_eq_ok {c c' : TelegramConversation} {a : AwaitingInput} {now : Instant}
    (h : c.waitingFor a now = .ok c') :
    c'.userId = c.userId ∧ c'.activeDraftId = c.activeDraftId ∧ c'.awaiting = a ∧
      c'.pendingReceiptFileId = c.pendingReceiptFileId ∧ c'.updatedAt = now ∧
      c'.currencyIsDefault = c.currencyIsDefault := by
  unfold waitingFor at h
  split_ifs at h
  cases h
  exact ⟨rfl, rfl, rfl, rfl, rfl, rfl⟩

/-- What keeping or dropping a photo gives. -/
lemma withPendingReceipt_eq_ok {c c' : TelegramConversation} {f : Option String} {now : Instant}
    (h : c.withPendingReceipt f now = .ok c') :
    c'.userId = c.userId ∧ c'.activeDraftId = c.activeDraftId ∧ c'.awaiting = c.awaiting ∧
      c'.pendingReceiptFileId = f ∧ c'.updatedAt = now ∧
      c'.currencyIsDefault = c.currencyIsDefault := by
  unfold withPendingReceipt at h
  split_ifs at h
  cases h
  exact ⟨rfl, rfl, rfl, rfl, rfl, rfl⟩

/-- With an active draft, the conversation may wait for anything. -/
lemma exists_waitingFor {c : TelegramConversation} {d : UUID} (h : c.activeDraftId = some d)
    (a : AwaitingInput) (now : Instant) : ∃ c', c.waitingFor a now = .ok c' := by
  simp [waitingFor, h]

end TelegramConversation

end MintFlow
