import MintFlow.Telegram.Parsing

set_option relaxedAutoImplicit false
set_option autoImplicit false

/-!
# Telegram updates

The part of an update the bot reads. Only the verified numeric sender id is identity; anything the
bot does not handle is ignorable.

## Main definitions

* `MintFlow.TelegramUpdate` with its `kind`, `sender`, `chat`, `isPrivateChat` and `startPayload`.
* `MintFlow.receiptUpload` — whether a media message is an acceptable receipt.
-/

namespace MintFlow

open Transact

/-- Who sent an update. -/
structure TelegramUser where
  id : ℤ
  isBot : Bool
  firstName : String
  username : Option String

/-- Where an update was sent. -/
structure TelegramChat where
  id : ℤ
  type : String

/-- One size of a photo. -/
structure TelegramPhotoSize where
  fileId : String
  width : ℤ
  height : ℤ
  fileSize : Option ℤ

/-- A file. -/
structure TelegramDocument where
  fileId : String
  mimeType : Option String
  fileSize : Option ℤ

/-- `MAX_WEBHOOK_BODY_BYTES`: longer updates are not read. -/
def maxWebhookBodyBytes : ℕ := 256 * 1024

/-- A message. -/
structure TelegramMessage where
  messageId : ℤ
  sender : Option TelegramUser
  chat : TelegramChat
  text : Option String
  /-- The text was in an update that was read. -/
  text_short : ∀ s ∈ text, s.length ≤ maxWebhookBodyBytes
  photo : List TelegramPhotoSize
  document : Option TelegramDocument
  mediaGroupId : Option String
  isForwarded : Bool

/-- A pressed button. -/
structure TelegramCallbackQuery where
  id : String
  sender : TelegramUser
  message : Option TelegramMessage
  data : Option String

/-- What an update is to the bot. -/
inductive UpdateKind
  | textMessage
  | mediaMessage
  | callback
  | ignorable
deriving DecidableEq, Repr

/-- An update. -/
structure TelegramUpdate where
  updateId : ℤ
  message : Option TelegramMessage
  callbackQuery : Option TelegramCallbackQuery

namespace TelegramUpdate

/-- The kind of an update by its message. -/
def messageKind (message : Option TelegramMessage) : UpdateKind :=
  match message with
  | none => .ignorable
  | some message =>
    match message.sender with
    | none => .ignorable
    | some sender =>
      if sender.isBot then .ignorable
      else if message.text.isSome then .textMessage
      else if !message.photo.isEmpty || message.document.isSome then .mediaMessage
      else .ignorable

/-- `kind`. -/
def kind (u : TelegramUpdate) : UpdateKind :=
  if u.callbackQuery.any fun c => c.data.isSome then .callback else messageKind u.message

/-- `sender`. -/
def sender (u : TelegramUpdate) : Option TelegramUser :=
  match u.callbackQuery with
  | some c => some c.sender
  | none => u.message.bind TelegramMessage.sender

/-- `chat`. -/
def chat (u : TelegramUpdate) : Option TelegramChat :=
  match u.callbackQuery with
  | some c => c.message.map TelegramMessage.chat
  | none => u.message.map TelegramMessage.chat

/-- `is_private_chat`: a one-to-one chat with the sender. -/
def isPrivateChat (u : TelegramUpdate) : Bool :=
  match u.chat, u.sender with
  | some chat, some sender => chat.type = "private" && decide (chat.id = sender.id)
  | _, _ => false

/-- `start_payload`: the payload of a typed `/start <payload>`. -/
def startPayload (u : TelegramUpdate) : Option String := do
  let message ← u.message
  let text ← message.text
  if message.isForwarded then none
  else
    let (command, payload) := partition ' ' (stripChars text.toList)
    let payload := stripChars payload
    if command = "/start".toList ∧ payload ≠ [] then some (String.ofList payload) else none

end TelegramUpdate

/-- `_command`: `/help@mintflow_bot extra` is `/help`. -/
def commandOf [PythonRuntime] (text : String) : String :=
  let first := (stripChars text.toList).takeWhile fun c => !isSpace c
  PythonRuntime.lower (String.ofList (partition '@' first).1)

/-! ## Receipts -/

/-- Why a media message is no receipt. -/
inductive ReceiptRejection
  | album
  | unsupported
  | tooLarge
deriving DecidableEq, Repr

/-- The largest accepted image. -/
def maxUploadBytes : ℤ := 10 * 1024 * 1024

/-- Whether a photo size stands after another in the order of sizes. -/
def photoLess (a b : TelegramPhotoSize) : Bool :=
  decide (a.width * a.height < b.width * b.height) ||
    (decide (a.width * a.height = b.width * b.height) &&
      decide (a.fileSize.getD 0 < b.fileSize.getD 0))

/-- `max` of the sizes of a photo; the first of equals wins. -/
def largestPhoto (first : TelegramPhotoSize) (rest : List TelegramPhotoSize) :
    TelegramPhotoSize :=
  rest.foldl (fun best size => if photoLess best size then size else best) first

/-- `receipt_upload`: the file of an acceptable receipt. -/
def receiptUpload (message : TelegramMessage) : Except ReceiptRejection String :=
  if message.mediaGroupId.isSome then .error .album
  else
    match message.photo with
    | first :: rest =>
      let largest := largestPhoto first rest
      if maxUploadBytes < largest.fileSize.getD 0 then .error .tooLarge else .ok largest.fileId
    | [] =>
      match message.document with
      | none => .error .unsupported
      | some document =>
        if document.mimeType ∈ [some "image/jpeg", some "image/png", some "image/webp"] then
          if maxUploadBytes < document.fileSize.getD 0 then .error .tooLarge
          else .ok document.fileId
        else .error .unsupported

end MintFlow
