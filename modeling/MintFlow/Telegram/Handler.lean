import MintFlow.Telegram.CaptureFlow

set_option relaxedAutoImplicit false
set_option autoImplicit false

/-!
# Handling one update

Deduplication, dispatch, and replies after the commit. The update's id and the database changes of
its handling are meant to commit together; replies are sent only afterwards.

## Main definitions

* `MintFlow.resolveUser`, `MintFlow.claimLink` — the active user behind a sender, and `/start <token>`.
* `MintFlow.dispatch` — what an update does.
* `MintFlow.handleUpdate` — `TelegramUpdateHandler.handle`.
-/

namespace MintFlow

open Transact

variable [PythonRuntime]

/-- `ResolveTelegramUser.execute`. -/
def resolveUser (telegramUserId : ℤ) : Program (Option User) := do
  match ← execute (.activeConnectionForTelegramUser telegramUserId) with
  | none => return none
  | some connection =>
    let user ← execute (.getUser connection.userId)
    return user.filter fun u => decide (u.status = .active)

/-- What Telegram allows in a `/start` payload. -/
def isStartPayload (payload : String) : Bool :=
  let cs := payload.toList
  decide (1 ≤ cs.length) && decide (cs.length ≤ 64) &&
    cs.all fun c => isDigit c || isLetter c || c = '_' || c = '-'

/-- `telegram_display_name`. -/
def telegramDisplayName (firstName : String) (username : Option String) : Option String :=
  let first := strip firstName
  let parts := (if first = "" then [] else [first]) ++
    match username with
    | some name => if name = "" then [] else ["(@" ++ name ++ ")"]
    | none => []
  let label := ((" ".intercalate parts).toList).take 128
  if label = [] then none else some (String.ofList label)

/-- `ClaimTelegramLink.execute`: the claim and its audit record commit at once; without a
challenge to claim the transaction commits too. -/
def claimLink (payload : String) (telegramUserId : ℤ) (displayName : Option String) :
    Program Bool := do
  if isStartPayload payload then do
    let now ← clock
    match ← execute (.claimChallenge (PythonRuntime.tokenHash payload) telegramUserId displayName
      now) with
    | none => do
      commit
      return false
    | some challenge => do
      execute (.addAuditRecord
        ⟨now, "telegram_link_claimed", challenge.initiatingUserId, challenge.id⟩)
      commit
      return true
  else return false

/-- The reply to a media message that is no receipt. -/
def rejectionText : ReceiptRejection → Text
  | .album => .receiptAlbum
  | .unsupported => .receiptUnsupported
  | .tooLarge => .receiptTooLarge

/-- `_on_media`. -/
def onMediaMessage (senderId chatId : ℤ) (message : TelegramMessage) :
    Program (List Outgoing) := do
  match ← resolveUser senderId with
  | none => return [.reply chatId .notLinked none]
  | some user =>
    match receiptUpload message with
    | .error rejection => return [.reply chatId (rejectionText rejection) none]
    | .ok fileId => onMedia user chatId fileId

/-- `_on_linked_text`. -/
def onLinkedText (settings : BotSettings) (user : User) (chatId : ℤ) (text : String) :
    Program (List Outgoing) := do
  if (stripChars text.toList).head? = some '/' then do
    let handled ← onCommand settings user chatId (commandOf text)
    return handled.getD [.reply chatId .unknownInput none]
  else onText user chatId text

/-- `_on_callback`: every callback is answered. -/
def onCallbackQuery (settings : BotSettings) (user : Option User) (chatId : ℤ)
    (messageId : Option ℤ) (callbackQueryId data : String) : Program (List Outgoing) := do
  match user with
  | none => return [.callbackAnswer callbackQueryId none, .reply chatId .notLinked none]
  | some user =>
    match messageId with
    | none => return [.callbackAnswer callbackQueryId (some .unknownInput)]
    | some messageId => do
      let handled ← onCallback settings user chatId messageId callbackQueryId data
      return handled.getD [.callbackAnswer callbackQueryId (some .unknownInput)]

/-- A text message of a private chat. -/
def onTextMessage (settings : BotSettings) (update : TelegramUpdate) (sender : TelegramUser)
    (chatId : ℤ) (text : String) : Program (List Outgoing) := do
  match update.startPayload with
  | some payload => do
    let claimed ← claimLink payload sender.id
      (telegramDisplayName sender.firstName sender.username)
    return [.reply chatId (if claimed then .linkClaimed else .linkFailed) none]
  | none =>
    let command := commandOf text
    if command = "/help" then return [.reply chatId (.helpText settings.webOrigin) none]
    else
      let user ← resolveUser sender.id
      if command = "/start" then
        return [.reply chatId (if user.isSome then .welcomeLinked else .welcomeUnlinked) none]
      else
        match user with
        | none => return [.reply chatId .notLinked none]
        | some user => onLinkedText settings user chatId text

/-- `_dispatch`. -/
def dispatch (settings : BotSettings) (update : TelegramUpdate) : Program (List Outgoing) :=
  match update.sender, update.chat with
  | some sender, some chat =>
    match update.callbackQuery.filter fun _ => update.kind = .callback with
    | some callback => do
      let user ← resolveUser sender.id
      onCallbackQuery settings user chat.id (callback.message.map TelegramMessage.messageId)
        callback.id (callback.data.getD "")
    | none =>
      match update.message with
      | none => return []
      | some message =>
        if update.kind = .mediaMessage then onMediaMessage sender.id chat.id message
        else
          match message.text with
          | none => return []
          | some text => onTextMessage settings update sender chat.id text
  | _, _ => return []

/-- Send what the handling asked for. -/
def sendAll : List Outgoing → Program Unit
  | [] => return ()
  | item :: rest => do
    Prog.send (S := signature) item
    sendAll rest

/-- Whether the bot looks at an update at all. -/
def isHandled (update : TelegramUpdate) : Bool :=
  decide (update.kind ≠ .ignorable) && update.isPrivateChat

/-- `TelegramUpdateHandler.handle`. An error ends the session, which rolls the transaction back. -/
def handleUpdate (settings : BotSettings) (update : TelegramUpdate) : Program Unit := do
  if isHandled update then do
    let now ← clock
    let isNew : Bool ← execute (.beginUpdate update.updateId now)
    if isNew then do
      let outgoing ← dispatch settings update
      commit
      sendAll outgoing
    else rollback
  else return ()

end MintFlow
