import MintFlow.Application.ConfirmDraft
import MintFlow.Telegram.Updates

set_option relaxedAutoImplicit false
set_option autoImplicit false

/-!
# Capture in Telegram

The flow of one user's draft: `/add` and receipt photos open one, typed answers and buttons fill
it, the review card edits, confirms or cancels it. Every entry point first locks the user's
conversation. Nothing here commits but the confirmation.

## Main definitions

* `MintFlow.onCommand`, `onText`, `onMedia`, `onCallback` — the entry points.
* `MintFlow.advance`, `showReview` — save an edited draft and ask for what comes next.
* `MintFlow.afterLateResult` — what to show after a late recognition result.

## Implementation notes

A branch of the source that returns a list of messages returns it here too; texts are named, not
spelled out.
-/

namespace MintFlow

open Transact

/-- What the bot is configured with. -/
structure BotSettings where
  /-- The origin of the Web application. -/
  webOrigin : String
  /-- `telegram_accepts_link` of that origin. -/
  acceptsLink : Bool

variable [PythonRuntime]

/-! ## Keyboards -/

/-- `_open_web_rows`. -/
def openWebRows (settings : BotSettings) : InlineKeyboard :=
  if settings.acceptsLink then [[⟨"Open MintFlow", .url settings.webOrigin⟩]] else []

/-- `_after_save_keyboard`. -/
def afterSaveKeyboard (settings : BotSettings) : InlineKeyboard :=
  [⟨"Add another", .action "add"⟩, ⟨"Recent", .action "recent"⟩] :: openWebRows settings

/-- `_conflict_keyboard`. -/
def conflictKeyboard (draft : CaptureDraft) (discardLabel : String) : InlineKeyboard :=
  [[⟨"Continue", .draftAction draft.id "continue"⟩],
    [⟨discardLabel, .draftAction draft.id "discard"⟩]]

/-- `_date_keyboard`. -/
def dateKeyboard (draft : CaptureDraft) : InlineKeyboard :=
  [[⟨"Today", .draftAction draft.id "date:today"⟩,
    ⟨"Yesterday", .draftAction draft.id "date:yesterday"⟩]]

/-- `_rows` with two buttons in a row. -/
def rowsOfTwo : List InlineButton → InlineKeyboard
  | a :: b :: rest => [a, b] :: rowsOfTwo rest
  | [a] => [[a]]
  | [] => []

/-- `_category_keyboard`; a key too long for callback data raises. -/
def categoryKeyboard (draft : CaptureDraft) : Program InlineKeyboard := do
  let categories ← execute .listActiveCategories
  let buttons ← checked (categories.mapM fun category =>
    draftButton category.name draft.id ("cat:" ++ category.key))
  return rowsOfTwo buttons

/-! ## The review card -/

/-- `review_reply`: the text and the keyboard of the review card. -/
def reviewCard (conversation : TelegramConversation) (draft : CaptureDraft) :
    Program (Text × InlineKeyboard) := do
  let categories ← execute .listActiveCategories
  let amountNote :=
    if draft.amountSource = some .recognition then some ValueNote.fromReceipt
    else if conversation.currencyIsDefault then some .defaultCurrency
    else none
  let dateNote :=
    if draft.transactionDateSource = some .recognition then some ValueNote.fromReceipt
    else if draft.transactionDateSource = some .default then some .default
    else none
  let merchantNote :=
    if draft.merchantSource = some .recognition then some ValueNote.fromReceipt else none
  let name := ((categories.find? fun c => decide (some c.key = draft.categoryKey)).map
    Category.name).getD (draft.categoryKey.getD "—")
  let edit (label field : String) : InlineButton :=
    ⟨label, .draftAction draft.id ("edit:" ++ field)⟩
  return (.reviewCard (draft.merchant.map MerchantName.value) merchantNote
      (draft.transactionDate.map TransactionDate.value) dateNote draft.amount amountNote name,
    [[edit "Edit amount" "amount", edit "Edit currency" "currency"],
      [edit "Edit date" "date", edit "Edit merchant" "merchant"],
      [edit "Edit category" "category"],
      [⟨"Confirm", .draftAction draft.id "confirm"⟩, ⟨"Cancel", .draftAction draft.id "cancel"⟩]])

/-- The review card as a new message. -/
def reviewReply (chatId : ℤ) (conversation : TelegramConversation) (draft : CaptureDraft) :
    Program Outgoing := do
  let (text, keyboard) ← reviewCard conversation draft
  return .reply chatId text (some keyboard)

/-! ## Steps -/

/-- `_lock`. -/
def lockConversation (user : User) : Program TelegramConversation := do
  let now ← clock
  execute (.lockConversation user.id now)

/-- `_active_draft`: a conversation that points at no open draft is finished. -/
def activeDraft (user : User) (conversation : TelegramConversation) :
    Program (Option CaptureDraft) := do
  match conversation.activeDraftId with
  | none => return none
  | some draftId =>
    let draft ← execute (.getDraft draftId user.id)
    match draft.filter CaptureDraft.isOpen with
    | some draft => return some draft
    | none => do
      let now ← clock
      execute (.saveConversation (conversation.finished now))
      return none

/-- `_prompt_for`. -/
def promptFor (chatId : ℤ) (conversation : TelegramConversation) (draft : CaptureDraft) :
    Program (List Outgoing) := do
  if draft.state = .awaitingRecognition then return [.reply chatId .receiptStillReading none]
  else
    match conversation.awaiting with
    | .amount => return [.reply chatId .askAmount none]
    | .currency => return [.reply chatId .askCurrency none]
    | .merchant =>
      return [.reply chatId .askMerchant
        (if draft.state = .collecting then
          some [[⟨"Skip", .draftAction draft.id "skip"⟩]]
        else none)]
    | .category => do
      let keyboard ← categoryKeyboard draft
      return [.reply chatId .askCategory (some keyboard)]
    | .date => return [.reply chatId .askDate (some (dateKeyboard draft))]
    | .nothing => do
      let card ← reviewReply chatId conversation draft
      return [card]

/-- `_show_review`. -/
def showReview (chatId : ℤ) (conversation : TelegramConversation) (draft : CaptureDraft)
    (messageId : Option ℤ) : Program (List Outgoing) := do
  let now ← clock
  let conversation ← checked (conversation.waitingFor .nothing now)
  execute (.updateDraft draft)
  execute (.saveConversation conversation)
  let (text, keyboard) ← reviewCard conversation draft
  match messageId with
  | none => return [.reply chatId text (some keyboard)]
  | some messageId => return [.editMessage chatId messageId text (some keyboard)]

/-- The question to ask next of a draft that is still collecting: a receipt draft skips what
recognition filled in, and needs nothing more once it has a category. -/
def nextForReceipt (draft : CaptureDraft) (next : AwaitingInput) : AwaitingInput × Bool :=
  if draft.state = .collecting ∧ draft.receiptId.isSome then
    let next := if next = .merchant ∧ draft.merchant.isSome then .category else next
    (next, next = .category && draft.categoryKey.isSome)
  else (next, false)

/-- `_advance`: save the edited draft, then ask for the next field or show the review card. -/
def advance (user : User) (chatId : ℤ) (conversation : TelegramConversation)
    (draft : CaptureDraft) (nextWhenCollecting : AwaitingInput)
    (currencyIsDefault : Option Bool) : Program (List Outgoing) := do
  let now ← clock
  let conversation :=
    match currencyIsDefault with
    | some flag => conversation.withDraft draft.id conversation.awaiting flag now
    | none => conversation
  let (next, complete) := nextForReceipt draft nextWhenCollecting
  let draft ←
    if complete then checked (draft.markReadyForReview user.id (Instant.toDateTime now))
    else pure draft
  if draft.state = .collecting then do
    execute (.updateDraft draft)
    let conversation ← checked (conversation.waitingFor next now)
    execute (.saveConversation conversation)
    promptFor chatId conversation draft
  else showReview chatId conversation draft none

/-- `_cancel`. -/
def cancelActive (user : User) (conversation : TelegramConversation) (draft : CaptureDraft) :
    Program Text := do
  let now ← clock
  let cancelled ← checked (draft.cancel user.id (Instant.toDateTime now))
  execute (.updateDraft cancelled)
  execute (.saveConversation (conversation.finished now))
  return .draftCancelled

/-! ## Opening a draft -/

/-- `_create_receipt_draft`. -/
def createReceiptDraft (user : User) (chatId : ℤ) (conversation : TelegramConversation)
    (fileId : String) : Program (List Outgoing) := do
  let now ← clock
  let receiptId ← uuid4
  let receipt := Receipt.receive receiptId user.id now
  execute (.createReceipt receipt (some fileId))
  let today ← raising (user.localToday now)
  let draftId ← uuid4
  let draft ← checked
    (CaptureDraft.startFromReceipt draftId user.id receipt.id (Instant.toDateTime now))
  let date ← checked (TransactionDate.new today)
  let draft ← checked (draft.setTransactionDate user.id date (Instant.toDateTime now) .default)
  execute (.createDraft draft)
  execute (.saveConversation (conversation.withDraft draft.id .nothing false now))
  return [.reply chatId .receiptReceived none]

/-- `_create_draft`. -/
def createManualDraft (user : User) (chatId : ℤ) (conversation : TelegramConversation) :
    Program (List Outgoing) := do
  let now ← clock
  let today ← raising (user.localToday now)
  let draftId ← uuid4
  let draft ← checked (CaptureDraft.start draftId user.id .telegramManual (Instant.toDateTime now))
  let date ← checked (TransactionDate.new today)
  let draft ← checked (draft.setTransactionDate user.id date (Instant.toDateTime now) .default)
  execute (.createDraft draft)
  execute (.saveConversation (conversation.withDraft draft.id .amount false now))
  return [.reply chatId .askAmount none]

/-- `_start`. -/
def startCapture (user : User) (chatId : ℤ) : Program (List Outgoing) := do
  let conversation ← lockConversation user
  match ← activeDraft user conversation with
  | some existing => do
    if conversation.pendingReceiptFileId.isSome then do
      let now ← clock
      let conversation ← checked (conversation.withPendingReceipt none now)
      execute (.saveConversation conversation)
    else pure ()
    return [.reply chatId .draftConflict
      (some (conflictKeyboard existing "Discard and start new"))]
  | none => createManualDraft user chatId conversation

/-- `on_media`. -/
def onMedia (user : User) (chatId : ℤ) (fileId : String) : Program (List Outgoing) := do
  let conversation ← lockConversation user
  match ← activeDraft user conversation with
  | some existing => do
    let now ← clock
    let conversation ← checked (conversation.withPendingReceipt (some fileId) now)
    execute (.saveConversation conversation)
    return [.reply chatId .receiptConflict
      (some (conflictKeyboard existing "Discard and use this receipt"))]
  | none => createReceiptDraft user chatId conversation fileId

/-! ## Typed answers -/

/-- `_on_amount`. -/
def onAmount (user : User) (chatId : ℤ) (conversation : TelegramConversation)
    (draft : CaptureDraft) (text : String) : Program (List Outgoing) := do
  match parseAmount text with
  | .error _ => return [.reply chatId .invalidAmount none]
  | .ok typed =>
    match typed.currency.or user.defaultCurrency with
    | none => return [.reply chatId .askAmountWithCurrency none]
    | some currency =>
      match toMoney (.finite false typed.value) currency with
      | .error (.valueError _) => return [.reply chatId .invalidAmount none]
      | .error e => raise (.ofRaised e)
      | .ok money => do
        let now ← clock
        let draft ← checked (draft.setAmount user.id money (Instant.toDateTime now) .user)
        advance user chatId conversation draft .merchant (some typed.currency.isNone)

/-- `_major_units`. -/
def majorUnits (money : Money) : Decimal :=
  (Decimal.mk money.minorUnits.toNat 0).scaleb (-money.currency.minorUnitExponent)

/-- `_on_currency`: the same amount in the new currency's precision, or the amount again. -/
def onCurrency (user : User) (chatId : ℤ) (conversation : TelegramConversation)
    (draft : CaptureDraft) (text : String) : Program (List Outgoing) := do
  match parseCurrency text with
  | .error _ => return [.reply chatId .invalidCurrency none]
  | .ok currency =>
    match draft.amount with
    | none => return [.reply chatId .askAmount none]
    | some amount =>
      match toMoney (.finite false (majorUnits amount)) currency with
      | .error (.valueError _) => do
        let now ← clock
        let conversation ← checked (conversation.waitingFor .amount now)
        execute (.saveConversation conversation)
        return [.reply chatId .askAmount none]
      | .error e => raise (.ofRaised e)
      | .ok money => do
        let now ← clock
        let draft ← checked (draft.setAmount user.id money (Instant.toDateTime now) .user)
        advance user chatId conversation draft .merchant (some false)

/-- `_on_merchant`. -/
def onMerchant (user : User) (chatId : ℤ) (conversation : TelegramConversation)
    (draft : CaptureDraft) (text : String) : Program (List Outgoing) := do
  match MerchantName.new text with
  | .error _ => return [.reply chatId .invalidMerchant none]
  | .ok merchant => do
    let now ← clock
    let draft ← checked (draft.setMerchant user.id merchant (Instant.toDateTime now) .user)
    advance user chatId conversation draft .category none

/-- `_set_date`. -/
def setDate (user : User) (chatId : ℤ) (conversation : TelegramConversation)
    (draft : CaptureDraft) (date : TransactionDate) : Program (List Outgoing) := do
  let now ← clock
  if ← raising (isWithinFutureTolerance date now user.timezone) then do
    let draft ← checked (draft.setTransactionDate user.id date (Instant.toDateTime now) .user)
    advance user chatId conversation draft .merchant none
  else return [.reply chatId .futureDate (some (dateKeyboard draft))]

/-- `_on_date`. -/
def onDate (user : User) (chatId : ℤ) (conversation : TelegramConversation)
    (draft : CaptureDraft) (text : String) : Program (List Outgoing) := do
  match parseDate text with
  | .error _ => return [.reply chatId .invalidDate (some (dateKeyboard draft))]
  | .ok date => setDate user chatId conversation draft date

/-- `on_text`. -/
def onText (user : User) (chatId : ℤ) (text : String) : Program (List Outgoing) := do
  let conversation ← lockConversation user
  match ← activeDraft user conversation with
  | none => return [.reply chatId .noActiveDraft none]
  | some draft =>
    if draft.state = .awaitingRecognition then return [.reply chatId .receiptStillReading none]
    else
      match conversation.awaiting with
      | .amount => onAmount user chatId conversation draft text
      | .currency => onCurrency user chatId conversation draft text
      | .merchant => onMerchant user chatId conversation draft text
      | .date => onDate user chatId conversation draft text
      | .category => do
        let keyboard ← categoryKeyboard draft
        return [.reply chatId .useCategoryButtons (some keyboard)]
      | .nothing => do
        let card ← reviewReply chatId conversation draft
        return [.reply chatId .draftInProgress none, card]

/-! ## Buttons -/

/-- `_confirm_draft`: refusals become replies. -/
def confirmActive (settings : BotSettings) (user : User) (chatId messageId : ℤ)
    (conversation : TelegramConversation) (draft : CaptureDraft) : Program (List Outgoing) := do
  let confirmed ← ((confirmCaptureDraft draft.id user.id).bind
    fun expense => return Sum.inl expense).handle fun e =>
      match e with
      | .captureDraftNotConfirmable _ =>
        return Sum.inr [Outgoing.reply chatId .confirmFailed none]
      | .captureDraftAccessDenied _ =>
        return Sum.inr [Outgoing.reply chatId .draftNotActive none]
      | e => raise e
  match confirmed with
  | .inr replies => return replies
  | .inl expense => do
    let now ← clock
    execute (.saveConversation (conversation.finished now))
    return [.editMessage chatId messageId (.saved expense.money)
      (some (afterSaveKeyboard settings))]

/-- Choosing a category. -/
def chooseCategory (user : User) (chatId messageId : ℤ) (conversation : TelegramConversation)
    (draft : CaptureDraft) (key : String) (now : Instant) : Program (List Outgoing) := do
  let categories ← execute .listActiveCategories
  if key ∈ categories.map Category.key then do
    let draft ← checked (draft.setCategoryKey user.id key (Instant.toDateTime now) .user)
    let draft ←
      if draft.state = .collecting then
        checked (draft.markReadyForReview user.id (Instant.toDateTime now))
      else pure draft
    showReview chatId conversation draft (some messageId)
  else do
    let keyboard ← categoryKeyboard draft
    return [.reply chatId .useCategoryButtons (some keyboard)]

/-- The input an edit button asks for. -/
def editTarget (field : String) : Option AwaitingInput :=
  if field = "amount" then some .amount
  else if field = "currency" then some .currency
  else if field = "merchant" then some .merchant
  else if field = "category" then some .category
  else if field = "date" then some .date
  else none

/-- An edit button of the review card. -/
def editField (chatId : ℤ) (conversation : TelegramConversation) (draft : CaptureDraft)
    (field : String) (now : Instant) : Program (List Outgoing) := do
  match editTarget field with
  | none => return []
  | some awaiting => do
    let conversation ← checked (conversation.waitingFor awaiting now)
    execute (.saveConversation conversation)
    promptFor chatId conversation draft

/-- The date a date button means: days before today. -/
def dateOffset (choice : String) : Option ℤ :=
  if choice = "today" then some 0 else if choice = "yesterday" then some 1 else none

/-- A date button. -/
def chooseDate (user : User) (chatId : ℤ) (conversation : TelegramConversation)
    (draft : CaptureDraft) (choice : String) (now : Instant) : Program (List Outgoing) := do
  let today ← raising (user.localToday now)
  match dateOffset choice with
  | none => return []
  | some offset => do
    let day ← raising (inCalendar (today.addDays? (-offset)))
    let date ← checked (TransactionDate.new day)
    setDate user chatId conversation draft date

/-- The button that stops waiting for recognition. -/
def enterManually (user : User) (chatId : ℤ) (conversation : TelegramConversation)
    (draft : CaptureDraft) (now : Instant) : Program (List Outgoing) := do
  if draft.state = .awaitingRecognition then do
    let draft ← checked (draft.continueManually user.id (Instant.toDateTime now))
    execute (.updateDraft draft)
    let conversation ← checked (conversation.waitingFor .amount now)
    execute (.saveConversation conversation)
    promptFor chatId conversation draft
  else promptFor chatId conversation draft

/-- The button that keeps the active draft and drops a pending photo. -/
def continueDraft (chatId : ℤ) (conversation : TelegramConversation) (draft : CaptureDraft)
    (now : Instant) : Program (List Outgoing) := do
  if conversation.pendingReceiptFileId.isSome then do
    let conversation ← checked (conversation.withPendingReceipt none now)
    execute (.saveConversation conversation)
    promptFor chatId conversation draft
  else promptFor chatId conversation draft

/-- The button that cancels the active draft for a new one, from the pending photo if there is
one. -/
def discardDraft (user : User) (chatId : ℤ) (conversation : TelegramConversation)
    (draft : CaptureDraft) (now : Instant) : Program (List Outgoing) := do
  let _ ← cancelActive user conversation draft
  let fresh := conversation.finished now
  match conversation.pendingReceiptFileId with
  | some fileId => createReceiptDraft user chatId fresh fileId
  | none => createManualDraft user chatId fresh

/-- An action with a prefix, without the prefix. -/
def removePrefix (start action : String) : Option String :=
  if start.toList <+: action.toList then
    some (String.ofList (action.toList.drop start.toList.length))
  else none

/-- `_on_draft_action`. -/
def onDraftAction (settings : BotSettings) (user : User) (chatId messageId : ℤ)
    (conversation : TelegramConversation) (draft : CaptureDraft) (action : String) :
    Program (List Outgoing) := do
  let now ← clock
  if action = "skip" ∧ conversation.awaiting = .merchant then
    advance user chatId conversation draft .category none
  else
    match (removePrefix "cat:" action).filter fun _ => conversation.awaiting = .category with
    | some key => chooseCategory user chatId messageId conversation draft key now
    | none =>
      match (removePrefix "date:" action).filter fun _ => conversation.awaiting = .date with
      | some choice => chooseDate user chatId conversation draft choice now
      | none =>
        match (removePrefix "edit:" action).filter fun _ => draft.state = .readyForReview with
        | some field => editField chatId conversation draft field now
        | none =>
          if action = "confirm" ∧ draft.state = .readyForReview then
            confirmActive settings user chatId messageId conversation draft
          else if action = "cancel" then do
            let text ← cancelActive user conversation draft
            return [.editMessage chatId messageId text none]
          else if action = "manual" then enterManually user chatId conversation draft now
          else if action = "continue" then continueDraft chatId conversation draft now
          else if action = "discard" then discardDraft user chatId conversation draft now
          else return []

/-! ## Entry points -/

/-- `_recent`. -/
def recent (settings : BotSettings) (user : User) (chatId : ℤ) : Program Outgoing := do
  let items : List Expense ← execute (.listRecentExpenses user.id 10)
  let rows := openWebRows settings
  let keyboard := if rows = [] then none else some rows
  if items = [] then return .reply chatId .noRecent keyboard
  else do
    let categories ← execute .listActiveCategories
    let nameOf (key : String) : String :=
      ((categories.find? fun c => decide (c.key = key)).map Category.name).getD key
    return .reply chatId (.recent (items.map fun e =>
      ⟨e.transactionDate.value, e.merchant.map MerchantName.value, e.money,
        nameOf e.categoryKey⟩)) keyboard

/-- `on_command`; nothing for commands the flow does not own. -/
def onCommand (settings : BotSettings) (user : User) (chatId : ℤ) (command : String) :
    Program (Option (List Outgoing)) := do
  if command = "/add" then do
    let replies ← startCapture user chatId
    return some replies
  else if command = "/recent" then do
    let reply ← recent settings user chatId
    return some [reply]
  else if command = "/cancel" then do
    let conversation ← lockConversation user
    match ← activeDraft user conversation with
    | none => return some [.reply chatId .noActiveDraft none]
    | some draft => do
      let text ← cancelActive user conversation draft
      return some [.reply chatId text none]
  else return none

/-- `on_callback`; nothing for data that is not the flow's. -/
def onCallback (settings : BotSettings) (user : User) (chatId messageId : ℤ)
    (callbackQueryId data : String) : Program (Option (List Outgoing)) := do
  if data = "add" then do
    let replies ← startCapture user chatId
    return some (.callbackAnswer callbackQueryId none :: replies)
  else if data = "recent" then do
    let reply ← recent settings user chatId
    return some [.callbackAnswer callbackQueryId none, reply]
  else
    match parseDraftAction data with
    | none => return none
    | some (draftId, action) => do
      let conversation ← lockConversation user
      let active ← activeDraft user conversation
      match active.filter fun draft => decide (draft.id = draftId) with
      | none => do
        let stale ← execute (.getDraft draftId user.id)
        let answer :=
          if stale.any fun d => decide (d.state = .confirmed) then Text.alreadySaved
          else .draftNotActive
        return some [.callbackAnswer callbackQueryId (some answer)]
      | some draft => do
        let replies ← onDraftAction settings user chatId messageId conversation draft action
        return some (.callbackAnswer callbackQueryId none :: replies)

/-! ## Late recognition -/

/-- `_fields`: the values a review card shows. -/
def cardFields (draft : CaptureDraft) :
    Option Money × Option TransactionDate × Option MerchantName × Option String :=
  (draft.amount, draft.transactionDate, draft.merchant, draft.categoryKey)

/-- `delay_notice`. -/
def delayNotice (chatId : ℤ) (draft : CaptureDraft) : Outgoing :=
  .reply chatId .receiptTakingLonger (some [[⟨"Enter manually", .draftAction draft.id "manual"⟩]])

/-- `after_late_result`. -/
def afterLateResult (user : User) (chatId : ℤ) (conversation : TelegramConversation)
    (before draft : CaptureDraft) : Program (List Outgoing) := do
  if conversation.activeDraftId ≠ some draft.id ∨ conversation.pendingReceiptFileId.isSome ∨
      cardFields before = cardFields draft then return []
  else if draft.state = .readyForReview ∧ conversation.awaiting = .nothing then do
    let card ← reviewReply chatId conversation draft
    return [card]
  else if draft.state = .collecting ∧ conversation.awaiting = .amount ∧ draft.amount.isSome then
    advance user chatId conversation draft .merchant (some false)
  else return []

end MintFlow
