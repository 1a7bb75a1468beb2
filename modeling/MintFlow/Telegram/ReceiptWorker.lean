import MintFlow.Telegram.CaptureFlow

set_option relaxedAutoImplicit false
set_option autoImplicit false

/-!
# The receipt worker

Claim a receipt, obtain its image, recognize it, and in one transaction finish the attempt, store
the result, apply it to the draft and move the conversation on. Only after that commit does the
user hear of it. An attempt that is no longer current changes nothing and sends nothing.

## Main definitions

* `MintFlow.claimNext` — claim a receipt and commit at once.
* `MintFlow.sendDelayNotices` — the "taking longer" messages.
* `MintFlow.finishReceipt` — `ReceiptWorker._finish`.
* `MintFlow.processNext` — one round of the worker.
-/

namespace MintFlow

open Transact

variable [PythonRuntime]

/-- The lease of a claim: two minutes. -/
def receiptLease : ℤ := 120000000

/-- When a receipt is overdue: after thirty seconds. -/
def delayNoticeAfter : ℤ := 30000000

/-- How a round of the worker ended. -/
inductive ReceiptOutcome
  | readyForReview
  | needsAmount
  | failed
  | lateResult
  | draftClosed
  | stale
deriving DecidableEq, Repr

/-- `claim_next`. -/
def claimNext : Program (Option Receipt) := do
  let now ← clock
  match ← execute (.selectClaimableForUpdate now) with
  | none => do
    commit
    return none
  | some receipt => do
    let attemptId ← uuid4
    let claimed ← checked (receipt.claim attemptId now receiptLease)
    execute (.updateClaimed claimed)
    commit
    return some claimed

/-- The chat of a user's active connection. -/
def chatFor (userId : UUID) : Program (Option ℤ) := do
  let connection ← execute (.activeConnectionForUser userId)
  return (connection : Option TelegramConnection).map TelegramConnection.telegramUserId

/-- The delay notices of the receipts claimed for one. -/
def delayNotices (now : Instant) : List (UUID × UUID) → Program (List Outgoing)
  | [] => return []
  | (receiptId, ownerId) :: rest => do
    let conversation : TelegramConversation ← execute (.lockConversation ownerId now)
    let draft : Option CaptureDraft ← execute (.getDraftForUpdateByReceipt receiptId)
    let waiting := draft.filter fun d =>
      decide (d.state = .awaitingRecognition) && decide (conversation.activeDraftId = some d.id)
    match waiting with
    | none => delayNotices now rest
    | some draft => do
      let chatId ← chatFor ownerId
      let notices ← delayNotices now rest
      match chatId with
      | none => return notices
      | some chatId => return delayNotice chatId draft :: notices

/-- Send messages one after another. -/
def sendMessages : List Outgoing → Program Unit
  | [] => return ()
  | item :: rest => do
    Prog.send (S := signature) item
    sendMessages rest

/-- `send_delay_notices`. -/
def sendDelayNotices : Program Unit := do
  let now ← clock
  let claimed ← execute (.claimDelayNotices now (now - delayNoticeAfter) 20)
  let notices ← delayNotices now claimed
  commit
  sendMessages notices

/-- An image in the worker's hands, or why there is none. -/
inductive ImageResult
  | image
  | unreadable
  | vanished
deriving DecidableEq, Repr

/-- `sniff_media_type`. -/
def sniffMediaType (content : List UInt8) : Option String :=
  if [0xff, 0xd8, 0xff] <+: content then some "image/jpeg"
  else if [0x89, 0x50, 0x4e, 0x47, 0x0d, 0x0a, 0x1a, 0x0a] <+: content then some "image/png"
  else if 12 ≤ content.length ∧ content.take 4 = [0x52, 0x49, 0x46, 0x46] ∧
      (content.drop 8).take 4 = [0x57, 0x45, 0x42, 0x50] then some "image/webp"
  else none

/-- `_image_for`; what the recognizer makes of the image is the environment's. -/
def imageFor (receipt : Receipt) : Program ImageResult := do
  match ← execute (.getImage receipt.id) with
  | some _ => return .image
  | none =>
    match ← execute (.telegramFileId receipt.id) with
    | none => return .unreadable
    | some _ => do
      let reading : Reading ← Prog.input (S := signature)
      match reading.download.bind fun content =>
          (sniffMediaType content).map fun mediaType => (mediaType, content) with
      | none => return .unreadable
      | some (mediaType, content) => do
        let now ← clock
        let present : Bool ← execute (.lockReceipt receipt.id)
        if present then do
          execute (.createImage ⟨receipt.id, mediaType, content, now⟩)
          commit
          return .image
        else do
          commit
          return .vanished

/-- Wait for the recognizer, looking for overdue receipts between slices of time. -/
def waitSlices : ℕ → Program Unit
  | 0 => return ()
  | slices + 1 => do
    sendDelayNotices
    waitSlices slices

/-- `_recognize`: the recognizer's answer within the time limit, if any. -/
def recognize : Program (Option (RecognitionOutput Binary64)) := do
  let reading : Reading ← Prog.input (S := signature)
  waitSlices reading.slices
  return reading.recognition

/-- `_notify`. -/
def notify (ownerId : UUID) (outcome : ReceiptOutcome) (conversation : TelegramConversation)
    (draft : CaptureDraft) : Program Unit := do
  match ← chatFor ownerId with
  | none => return ()
  | some chatId =>
    if outcome = .readyForReview then do
      let card ← reviewReply chatId conversation draft
      Prog.send (S := signature) card
    else if outcome = .needsAmount then
      Prog.send (S := signature) (.reply chatId .receiptNeedsAmount none)
    else Prog.send (S := signature) (.reply chatId .receiptFailed none)

omit [PythonRuntime] in
/-- A name as the driver sends it: in an encoding, and without NUL. -/
def sentName (name : RecognizedMerchant) : Except Error MerchantName :=
  match name.encode with
  | none => .error .unicodeEncodeError
  | some name => if Char.ofNat 0 ∈ name.value.toList then .error .dataError else .ok name

/-- The result of an attempt, stored; nothing without an output or an owner. -/
def storeResult (receipt : Receipt) (attemptId : UUID) (output : Option (RecognitionOutput Binary64))
    (user : Option User) (now : Instant) : Program (Option RecognitionResult) :=
  match output, user with
  | some output, some user => do
    let values ← raising (selectValues output now user.timezone)
    let resultId ← uuid4
    let sent := values.merchant.map sentName
    let result ← checked (RecognitionResult.forAttempt resultId receipt attemptId
      (sent.bind Except.toOption) values.transactionDate values.total now)
    match sent with
    -- The driver refuses the name when the result is saved.
    | some (.error e) => raise e
    | _ => do
      execute (.saveResult result)
      return some result
  | _, _ => return none

/-- The draft after the result of an attempt, or after its failure. -/
def applyOutcome (draft : CaptureDraft) (result : Option RecognitionResult) (now : Instant) :
    Checked CaptureDraft :=
  match result with
  | some result => draft.applyRecognition result uncategorizedKey (Instant.toDateTime now)
  | none => draft.continueManually draft.ownerId (Instant.toDateTime now)

/-- How the round ends for an open draft. -/
def outcomeFor (result : Option RecognitionResult) (wasWaiting : Bool) (draft : CaptureDraft) :
    ReceiptOutcome :=
  if result.isNone then .failed
  else if !wasWaiting then .lateResult
  else if draft.state = .readyForReview then .readyForReview
  else .needsAmount

/-- The messages after a late result. -/
def lateReplies (receipt : Receipt) (user : Option User) (conversation : TelegramConversation)
    (before draft : CaptureDraft) : Program (List Outgoing) :=
  match user with
  | none => return []
  | some user => do
    match ← chatFor receipt.ownerId with
    | none => return []
    | some chatId => afterLateResult user chatId conversation before draft

/-- The end of `_finish` for an open draft: apply the outcome, move the conversation on, commit,
and only then send. -/
def finishDraft (receipt : Receipt) (user : Option User) (conversation : TelegramConversation)
    (before : CaptureDraft) (result : Option RecognitionResult) (now : Instant) :
    Program ReceiptOutcome := do
  let wasWaiting := decide (before.state = .awaitingRecognition)
  let draft ← checked (applyOutcome before result now)
  execute (.updateDraft draft)
  let isActive := decide (conversation.activeDraftId = some draft.id)
  let outcome := outcomeFor result wasWaiting draft
  let replies ←
    if outcome = .lateResult then lateReplies receipt user conversation before draft
    else pure []
  let conversation ←
    if isActive ∧ wasWaiting ∧ outcome ≠ .readyForReview then do
      let conversation ← checked (conversation.waitingFor .amount now)
      execute (.saveConversation conversation)
      pure conversation
    else pure conversation
  commit
  if isActive ∧ wasWaiting then notify receipt.ownerId outcome conversation draft
  else pure ()
  sendMessages replies
  return outcome

/-- `_finish`: finish the attempt, and with it everything that depends on it. -/
def finishReceipt (receipt : Receipt) (attemptId : UUID)
    (output : Option (RecognitionOutput Binary64)) : Program ReceiptOutcome := do
  let now ← clock
  let user : Option User ← execute (.getUser receipt.ownerId)
  let finished ← checked
    (if output.isNone ∨ user.isNone then receipt.fail attemptId now
    else receipt.complete attemptId now)
  let current : Bool ← execute (.saveFinished finished)
  if current then do
    let conversation : TelegramConversation ← execute (.lockConversation receipt.ownerId now)
    let draft : Option CaptureDraft ← execute (.getDraftForUpdateByReceipt receipt.id)
    let result ← storeResult receipt attemptId output user now
    match draft.filter CaptureDraft.isOpen with
    | none => do
      commit
      return .draftClosed
    | some draft => finishDraft receipt user conversation draft result now
  else do
    rollback
    return .stale

/-- The work on a claimed receipt. -/
def processReceipt (receipt : Receipt) (attemptId : UUID) : Program ReceiptOutcome := do
  match ← imageFor receipt with
  | .vanished => return .stale
  | .unreadable => finishReceipt receipt attemptId none
  | .image => do
    let output ← recognize
    finishReceipt receipt attemptId output

/-- `process_next`: nothing when the queue is empty. -/
def processNext : Program (Option ReceiptOutcome) := do
  sendDelayNotices
  match ← claimNext with
  | none => return none
  | some receipt =>
    match receipt.attemptId with
    | none => return none
    | some attemptId => do
      let outcome ← processReceipt receipt attemptId
      return some outcome

end MintFlow
