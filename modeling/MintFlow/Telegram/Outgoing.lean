import MintFlow.Domain.CaptureDraft
import MintFlow.Domain.Expense

set_option relaxedAutoImplicit false
set_option autoImplicit false

/-!
# Outgoing messages

What a handled update, or the receipt worker, asks the bot to send. A text is named by the message
it is, with the values a formatted message shows; wording and number formats are left to the text
layer. A button bound to a draft carries the draft's id and an action, and its callback data has at
most 64 bytes.

## Main definitions

* `MintFlow.Text` — the texts.
* `MintFlow.InlineButton`, `MintFlow.draftButton` — buttons, and the size check of their data.
* `MintFlow.Outgoing` — replies, edits and callback answers.
-/

namespace MintFlow

open Transact

/-- Where a value on a review card comes from. -/
inductive ValueNote
  | fromReceipt
  | default
  | defaultCurrency
deriving DecidableEq, Repr

/-- A line of the list of recent Expenses. -/
structure RecentLine where
  date : Date
  merchant : Option String
  amount : Money
  category : String
deriving DecidableEq

/-- A text of the bot. -/
inductive Text
  | linkClaimed | linkFailed | welcomeLinked | welcomeUnlinked | notLinked | unknownInput
  | helpText (webOrigin : String)
  | askAmount | invalidAmount | askAmountWithCurrency | askCurrency | invalidCurrency
  | askMerchant | invalidMerchant | askCategory | useCategoryButtons | askDate | invalidDate
  | futureDate | noActiveDraft | draftNotActive | alreadySaved | draftCancelled | confirmFailed
  | draftInProgress | draftConflict | noRecent
  | recent (lines : List RecentLine)
  | saved (amount : Money)
  | reviewCard (merchant : Option String) (merchantNote : Option ValueNote) (date : Option Date)
      (dateNote : Option ValueNote) (amount : Option Money) (amountNote : Option ValueNote)
      (category : String)
  | receiptReceived | receiptStillReading | receiptTakingLonger | receiptAlbum
  | receiptUnsupported | receiptTooLarge | receiptConflict | receiptNeedsAmount | receiptFailed
deriving DecidableEq

/-- What a button does. -/
inductive ButtonTarget
  | draftAction (draftId : UUID) (action : String)
  | action (data : String)
  | url (url : String)
deriving DecidableEq

/-- A button. -/
structure InlineButton where
  label : String
  target : ButtonTarget
deriving DecidableEq

/-- Rows of buttons. -/
abbrev InlineKeyboard := List (List InlineButton)

/-- The most bytes of callback data. -/
def maxCallbackDataBytes : ℕ := 64

/-- The bytes of `d:<32 hex>:` before the action. -/
def draftActionPrefixBytes : ℕ := 35

/-- A button bound to a draft: `d:<32 hex>:<action>`, refused when it is too long. -/
def draftButton (label : String) (draftId : UUID) (action : String) : Checked InlineButton := do
  require (draftActionPrefixBytes + action.utf8ByteSize ≤ maxCallbackDataBytes)
    "callback_data must be at most 64 bytes"
  return ⟨label, .draftAction draftId action⟩

/-- What the bot is asked to send. -/
inductive Outgoing
  | reply (chatId : ℤ) (text : Text) (keyboard : Option InlineKeyboard)
  | editMessage (chatId messageId : ℤ) (text : Text) (keyboard : Option InlineKeyboard)
  | callbackAnswer (callbackQueryId : String) (text : Option Text)
deriving DecidableEq

end MintFlow
