import MintFlow.Lib.Tracking
import MintFlow.Telegram.Handler
import MintFlow.Telegram.ReceiptWorker

set_option relaxedAutoImplicit false
set_option autoImplicit false

/-!
# Who sends delay notices

The message that recognition takes longer is built in one place only. The handling of an update
never asks for it, and neither does what the worker does with the receipt it claimed.

## Main definitions

* `MintFlow.Outgoing.isDelayNotice` — the delay messages.
* `MintFlow.Stmt.claimsNotices` — the statement that claims them.
* `MintFlow.Says` — a program claims and sends none of them, and what it returns has a property.

## Main results

* `MintFlow.says_handleUpdate`, `MintFlow.says_claimNext`, `MintFlow.says_imageFor`,
  `MintFlow.says_finishReceipt` — handling, and the steps of the worker, send no delay message.
-/

namespace MintFlow

open Transact Transact.Prog

/-- Whether a message is the one that recognition takes longer. -/
def Outgoing.isDelayNotice : Outgoing → Bool
  | .reply _ .receiptTakingLonger _ => true
  | _ => false

/-- Whether a statement claims receipts for their delay notice. -/
def Stmt.claimsNotices : Stmt → Bool
  | .claimDelayNotices _ _ _ => true
  | _ => false

/-- Messages without a delay notice. -/
def noDelayNotice (items : List Outgoing) : Bool := items.all fun o => !o.isDelayNotice

/-- A reader that watches delay notices only. -/
abbrev noticeFreeLogic : Logic signature Unit :=
  Tracker.usesLogic (fun _ _ => True) (fun o => o.claimsNotices = false)
    fun o => o.isDelayNotice = false

/-- A program claims and sends no delay notice, and what it returns has a property. -/
def Says {α : Type} (P : α → Prop) (p : Program α) : Prop :=
  p.wp noticeFreeLogic (fun a _ => P a) ()

/-! ## Composition -/

section Composition

variable {α β : Type} {P : α → Prop} {R : β → Prop}

namespace Says

lemma pure {a : α} (h : P a) : Says P (Prog.pure a) := h

lemma raise (e : Error) : Says P (MintFlow.raise e) := trivial

lemma bind {p : Program β} {f : β → Program α} (hp : Says R p) (hf : ∀ b, R b → Says P (f b)) :
    Says P (p >>= f) :=
  wp_bind_of hp fun b _ hb => hf b hb

lemma execute {o : Stmt} {f : o.Resp → Program α} (ho : o.claimsNotices = false)
    (hf : ∀ r, Says P (f r)) : Says P (MintFlow.execute o >>= f) :=
  (wp_bind _ _).mpr ⟨ho, fun r _ => hf r⟩

lemma clock {f : Instant → Program α} (hf : ∀ now, Says P (f now)) :
    Says P (MintFlow.clock >>= f) :=
  fun reading => hf reading.now

lemma uuid4 {f : UUID → Program α} (hf : ∀ id, Says P (f id)) : Says P (MintFlow.uuid4 >>= f) :=
  fun reading => hf reading.uuid

lemma input {f : Reading → Program α} (hf : ∀ reading, Says P (f reading)) :
    Says P (Prog.input (S := signature) >>= f) :=
  hf

lemma lift {ε : Type} {g : ε → Error} {x : Except ε β} {f : β → Program α}
    (hf : ∀ b, Says P (f b)) : Says P (Prog.lift g x >>= f) := by
  cases x with
  | ok b => exact hf b
  | error e => trivial

lemma checked {x : Checked β} {f : β → Program α} (hf : ∀ b, Says P (f b)) :
    Says P (MintFlow.checked x >>= f) :=
  lift hf

lemma raising {x : Except Raised β} {f : β → Program α} (hf : ∀ b, Says P (f b)) :
    Says P (MintFlow.raising x >>= f) :=
  lift hf

lemma send {o : Outgoing} {f : Unit → Program α} (ho : o.isDelayNotice = false)
    (hf : Says P (f ())) : Says P (Prog.send (S := signature) o >>= f) :=
  ⟨ho, hf⟩

lemma commit {f : Unit → Program α} (hf : Says P (f ())) : Says P (MintFlow.commit >>= f) := hf

end Says

end Composition

/-- What a part of the flow replies has no delay notice. -/
abbrev Quiet (p : Program (List Outgoing)) : Prop := Says (fun out => noDelayNotice out = true) p

/-! ## The confirmation of a draft -/

/-- The statements of a confirmation. -/
def Stmt.ofConfirmation : Stmt → Bool
  | .getDraftForUpdate _ _ | .getExpense _ _ | .getUser _ | .createExpense _ | .updateDraft _ =>
    true
  | _ => false

/-- The confirmation sends nothing, and whatever becomes of the errors it raises, it executes its
own statements only.

**Proof sketch.** Step by step through the program: each of its statements is one of a confirmation,
and each of its checks may raise. -/
lemma uses_confirmCaptureDraft [PythonRuntime] {answers : (o : Stmt) → o.Resp → Prop}
    {uses : Stmt → Prop} {sends : Outgoing → Prop} {F : Error → Unit → Prop}
    (huses : ∀ o : Stmt, o.ofConfirmation = true → uses o) (hF : ∀ e, F e ())
    (draftId caller : UUID) {Q : Expense → Unit → Prop} (hQ : ∀ e, Q e ()) :
    (confirmCaptureDraft draftId caller).wp
      ((Tracker.usesLogic (S := signature) answers uses sends).withFail F) Q () := by
  have hexecute : ∀ {o : Stmt} {f : o.Resp → Program Expense}, o.ofConfirmation = true →
      (∀ r, (f r).wp ((Tracker.usesLogic answers uses sends).withFail F) Q ()) →
      (execute o >>= f).wp ((Tracker.usesLogic answers uses sends).withFail F) Q () :=
    fun ho hf => (wp_bind _ _).mpr ⟨huses _ ho, fun r _ => hf r⟩
  have hlift : ∀ {α ε : Type} {g : ε → Error} {x : Except ε α} {f : α → Program Expense},
      (∀ a, (f a).wp ((Tracker.usesLogic answers uses sends).withFail F) Q ()) →
      (Prog.lift g x >>= f).wp ((Tracker.usesLogic answers uses sends).withFail F) Q () := by
    intro α ε g x f hf
    cases x with
    | ok a => exact hf a
    | error e => exact hF _
  unfold confirmCaptureDraft
  refine hexecute rfl fun r => ?_
  cases r with
  | none => exact hF _
  | some draft =>
    dsimp only
    split_ifs
    · -- A confirmed draft leads to its Expense.
      unfold existingExpenseFor
      cases draft.expenseId with
      | none => exact hF _
      | some id =>
        refine hexecute rfl fun r => ?_
        cases r with
        | none => exact hF _
        | some e =>
          dsimp only
          split_ifs
          · exact hQ e
          · exact hF _
    · cases draft.amount with
      | none => exact hF _
      | some amount =>
        cases draft.transactionDate with
        | none => exact hF _
        | some date =>
          refine fun reading => hexecute rfl fun r => ?_
          cases r with
          | none => exact hF _
          | some user =>
            refine hlift fun acceptable => ?_
            split_ifs
            · intro reading
              refine hlift fun e => hexecute rfl fun _ => ?_
              exact hlift fun d => hexecute rfl fun _ => hQ e
            · exact hF _
    · exact hF _

/-! ## Replies -/

section Replies

variable {chat message : ℤ} {c : TelegramConversation} {d : CaptureDraft} {user : User}
  {settings : BotSettings}

lemma noDelayNotice_singleton {o : Outgoing} (h : o.isDelayNotice = false) :
    noDelayNotice [o] = true := by
  simp [noDelayNotice, h]

lemma says_categoryKeyboard : Says (fun _ => True) (categoryKeyboard d) :=
  .execute rfl fun _ => .checked fun _ => .pure trivial

lemma says_reviewCard (chat message : ℤ) :
    Says (fun card => ∀ keyboard, (Outgoing.reply chat card.1 keyboard).isDelayNotice = false ∧
      (Outgoing.editMessage chat message card.1 keyboard).isDelayNotice = false) (reviewCard c d) :=
  .execute rfl fun _ => .pure fun _ => ⟨rfl, rfl⟩

lemma says_reviewReply :
    Says (fun card => Outgoing.isDelayNotice card = false) (reviewReply chat c d) :=
  Says.bind (says_reviewCard chat 0) fun _ hcard => .pure (hcard _).1

/-- A prompt is no delay notice. -/
lemma quiet_promptFor : Quiet (promptFor chat c d) := by
  unfold promptFor
  by_cases hs : d.state = .awaitingRecognition
  · rw [if_pos hs]
    exact .pure rfl
  · rw [if_neg hs]
    cases c.awaiting with
    | category => exact .bind says_categoryKeyboard fun _ _ => .pure rfl
    | nothing =>
      exact .bind says_reviewReply fun _ hcard => .pure (noDelayNotice_singleton hcard)
    | _ => exact .pure rfl

/-- A review card is no delay notice. -/
lemma quiet_showReview {messageId : Option ℤ} : Quiet (showReview chat c d messageId) := by
  unfold showReview
  refine .clock fun now => .checked fun c' => .execute rfl fun _ => .execute rfl fun _ => ?_
  cases messageId with
  | none =>
    refine .bind (says_reviewCard chat 0) fun card hcard => ?_
    exact .pure (noDelayNotice_singleton (hcard _).1)
  | some messageId =>
    refine .bind (says_reviewCard chat messageId) fun card hcard => ?_
    exact .pure (noDelayNotice_singleton (hcard _).2)

/-- Asking for what is missing next tells of no delay.

**Proof sketch.** The conversation waits for the next input, or the draft is shown for review;
neither reply is a notice. -/
lemma quiet_advance {next : AwaitingInput} {flag : Option Bool} :
    Quiet (advance user chat c d next flag) := by
  unfold advance
  refine .clock fun now => ?_
  have hlast : ∀ (c' : TelegramConversation) (d' : CaptureDraft) (next' : AwaitingInput),
      Quiet (if d'.state = .collecting then do
        MintFlow.execute (.updateDraft d')
        let c' ← MintFlow.checked (c'.waitingFor next' now)
        MintFlow.execute (.saveConversation c')
        promptFor chat c' d'
      else showReview chat c' d' none) := by
    intro c' d' next'
    split_ifs
    · refine .execute rfl fun _ => .checked fun c'' => .execute rfl fun _ => ?_
      exact quiet_promptFor
    · exact quiet_showReview
  dsimp only
  split_ifs
  · exact .checked fun d' => hlast _ d' _
  · exact hlast _ d _

lemma says_cancelActive (chat message : ℤ) :
    Says (fun text => (Outgoing.reply chat text none).isDelayNotice = false ∧
      (Outgoing.editMessage chat message text none).isDelayNotice = false)
      (cancelActive user c d) :=
  .clock fun _ => .checked fun _ => .execute rfl fun _ => .execute rfl fun _ => .pure ⟨rfl, rfl⟩

lemma quiet_createReceiptDraft [PythonRuntime] {fileId : String} :
    Quiet (createReceiptDraft user chat c fileId) :=
  .clock fun _ => .uuid4 fun _ => .execute rfl fun _ => .raising fun _ => .uuid4 fun _ =>
    .checked fun _ => .checked fun _ => .checked fun _ => .execute rfl fun _ =>
      .execute rfl fun _ => .pure rfl

lemma quiet_createManualDraft [PythonRuntime] : Quiet (createManualDraft user chat c) :=
  .clock fun _ => .raising fun _ => .uuid4 fun _ => .checked fun _ => .checked fun _ =>
    .checked fun _ => .execute rfl fun _ => .execute rfl fun _ => .pure rfl

/-! ## Answers and buttons -/

lemma says_activeDraft : Says (fun _ => True) (activeDraft user c) := by
  unfold activeDraft
  cases c.activeDraftId with
  | none => exact .pure trivial
  | some id =>
    refine .execute rfl fun r => ?_
    cases r.filter CaptureDraft.isOpen with
    | none => exact .clock fun _ => .execute rfl fun _ => .pure trivial
    | some d => exact .pure trivial

/-- Every entry point locks the conversation and looks for the active draft. -/
lemma says_withActiveDraft {α : Type} {P : α → Prop}
    {f : TelegramConversation → Option CaptureDraft → Program α} (hf : ∀ c d, Says P (f c d)) :
    Says P (do
      let c ← lockConversation user
      let d ← activeDraft user c
      f c d) :=
  .bind (R := fun _ => True) (.clock fun _ => .execute rfl fun _ => .pure trivial) fun c _ =>
    .bind says_activeDraft fun d _ => hf c d

lemma quiet_startCapture [PythonRuntime] : Quiet (startCapture user chat) := by
  refine says_withActiveDraft fun c d => ?_
  cases d with
  | none => exact quiet_createManualDraft
  | some existing =>
    dsimp only
    split_ifs
    · exact .clock fun _ => .checked fun _ => .execute rfl fun _ => .pure rfl
    · exact .pure rfl

lemma quiet_onMedia [PythonRuntime] {fileId : String} : Quiet (onMedia user chat fileId) := by
  refine says_withActiveDraft fun c d => ?_
  cases d with
  | none => exact quiet_createReceiptDraft
  | some existing => exact .clock fun _ => .checked fun _ => .execute rfl fun _ => .pure rfl

/-- Neither is what answers an amount. -/
lemma quiet_onAmount [PythonRuntime] {text : String} : Quiet (onAmount user chat c d text) := by
  unfold onAmount
  cases parseAmount text with
  | error e => exact .pure rfl
  | ok typed =>
    dsimp only
    cases typed.currency.or user.defaultCurrency with
    | none => exact .pure rfl
    | some currency =>
      dsimp only
      cases toMoney (.finite false typed.value) currency with
      | ok money => exact .clock fun _ => .checked fun _ => quiet_advance
      | error e =>
        cases e with
        | valueError m => exact .pure rfl
        | _ => exact .raise _

/-- Neither is what answers a currency. -/
lemma quiet_onCurrency [PythonRuntime] {text : String} : Quiet (onCurrency user chat c d text) := by
  unfold onCurrency
  cases parseCurrency text with
  | error e => exact .pure rfl
  | ok currency =>
    dsimp only
    cases d.amount with
    | none => exact .pure rfl
    | some amount =>
      dsimp only
      cases toMoney (.finite false (majorUnits amount)) currency with
      | ok money => exact .clock fun _ => .checked fun _ => quiet_advance
      | error e =>
        cases e with
        | valueError m => exact .clock fun _ => .checked fun _ => .execute rfl fun _ => .pure rfl
        | _ => exact .raise _

lemma quiet_onMerchant [PythonRuntime] {text : String} : Quiet (onMerchant user chat c d text) := by
  unfold onMerchant
  cases MerchantName.new text with
  | error e => exact .pure rfl
  | ok merchant => exact .clock fun _ => .checked fun _ => quiet_advance

lemma quiet_setDate [PythonRuntime] {date : TransactionDate} :
    Quiet (setDate user chat c d date) := by
  unfold setDate
  refine .clock fun now => .raising fun acceptable => ?_
  split_ifs
  · exact .checked fun _ => quiet_advance
  · exact .pure rfl

lemma quiet_onDate [PythonRuntime] {text : String} : Quiet (onDate user chat c d text) := by
  unfold onDate
  cases parseDate text with
  | error e => exact .pure rfl
  | ok date => exact quiet_setDate

/-- Handling a text tells of no delay.

**Proof sketch.** Cases on what the conversation awaits, with one lemma for each. -/
lemma quiet_onText [PythonRuntime] {text : String} : Quiet (onText user chat text) := by
  refine says_withActiveDraft fun c d => ?_
  cases d with
  | none => exact .pure rfl
  | some d =>
    dsimp only
    by_cases hs : d.state = .awaitingRecognition
    · rw [if_pos hs]
      exact .pure rfl
    · rw [if_neg hs]
      cases c.awaiting with
      | amount => exact quiet_onAmount
      | currency => exact quiet_onCurrency
      | merchant => exact quiet_onMerchant
      | date => exact quiet_onDate
      | category => exact .bind says_categoryKeyboard fun _ _ => .pure rfl
      | nothing =>
        refine .bind says_reviewReply fun card hcard => .pure ?_
        have htail := noDelayNotice_singleton hcard
        exact htail

/-- Neither is what answers a confirmation. -/
lemma quiet_confirmActive [PythonRuntime] :
    Quiet (confirmActive settings user chat message c d) := by
  unfold confirmActive
  refine .bind (R := fun
    | .inl _ => True
    | .inr replies => noDelayNotice replies = true) ((wp_handle _ _).mpr ?_) fun confirmed h => ?_
  · refine (wp_bind _ _).mpr ?_
    refine uses_confirmCaptureDraft (fun o ho => ?_) (fun e => ?_) _ _ fun _ => ?_
    · cases o <;> first | rfl | cases ho
    · cases e <;> first | exact (rfl : noDelayNotice _ = true) | trivial
    · trivial
  · cases confirmed with
    | inl expense => exact .clock fun _ => .execute rfl fun _ => .pure rfl
    | inr replies => exact .pure h

/-- Neither is what answers a category. -/
lemma quiet_chooseCategory [PythonRuntime] {key : String} {now : Instant} :
    Quiet (chooseCategory user chat message c d key now) := by
  unfold chooseCategory
  refine .execute rfl fun categories => ?_
  split_ifs
  · refine .checked fun d' => ?_
    split_ifs
    · exact .checked fun _ => quiet_showReview
    · exact .bind (R := fun _ => True) (.pure trivial) fun _ _ => quiet_showReview
  · exact .bind says_categoryKeyboard fun _ _ => .pure rfl

lemma quiet_editField {field : String} {now : Instant} :
    Quiet (editField chat c d field now) := by
  unfold editField
  cases editTarget field with
  | none => exact .pure rfl
  | some awaiting => exact .checked fun _ => .execute rfl fun _ => quiet_promptFor

lemma quiet_chooseDate [PythonRuntime] {choice : String} {now : Instant} :
    Quiet (chooseDate user chat c d choice now) := by
  unfold chooseDate
  refine .raising fun today => ?_
  cases dateOffset choice with
  | none => exact .pure rfl
  | some offset => exact .raising fun _ => .checked fun _ => quiet_setDate

lemma quiet_enterManually {now : Instant} : Quiet (enterManually user chat c d now) := by
  unfold enterManually
  split_ifs
  · exact .checked fun _ => .execute rfl fun _ => .checked fun _ => .execute rfl fun _ =>
      quiet_promptFor
  · exact quiet_promptFor

lemma quiet_continueDraft {now : Instant} : Quiet (continueDraft chat c d now) := by
  unfold continueDraft
  split_ifs
  · exact .checked fun _ => .execute rfl fun _ => quiet_promptFor
  · exact quiet_promptFor

lemma quiet_discardDraft [PythonRuntime] {now : Instant} :
    Quiet (discardDraft user chat c d now) := by
  refine .bind (says_cancelActive chat 0) fun _ _ => ?_
  dsimp only
  cases c.pendingReceiptFileId with
  | none => exact quiet_createManualDraft
  | some fileId => exact quiet_createReceiptDraft

/-- Handling a button of a draft tells of no delay.

**Proof sketch.** Cases on the action in the order of the source: skip, a category, a date, a field,
confirm, cancel, manual. -/
lemma quiet_onDraftAction [PythonRuntime] {action : String} :
    Quiet (onDraftAction settings user chat message c d action) := by
  unfold onDraftAction
  refine .clock fun now => ?_
  by_cases hskip : action = "skip" ∧ c.awaiting = .merchant
  · rw [if_pos hskip]
    exact quiet_advance
  rw [if_neg hskip]
  cases (removePrefix "cat:" action).filter fun _ => decide (c.awaiting = .category) with
  | some key => exact quiet_chooseCategory
  | none =>
  dsimp only
  cases (removePrefix "date:" action).filter fun _ => decide (c.awaiting = .date) with
  | some choice => exact quiet_chooseDate
  | none =>
  dsimp only
  cases (removePrefix "edit:" action).filter fun _ => decide (d.state = .readyForReview) with
  | some field => exact quiet_editField
  | none =>
  dsimp only
  split_ifs
  · exact quiet_confirmActive
  · exact .bind (says_cancelActive chat message) fun text h =>
      .pure (noDelayNotice_singleton h.2)
  · exact quiet_enterManually
  · exact quiet_continueDraft
  · exact quiet_discardDraft
  · exact .pure rfl

/-! ## Entry points -/

/-- What an entry point of the flow replies, if it owns the update, has no delay notice. -/
abbrev QuietIfHandled (p : Program (Option (List Outgoing))) : Prop :=
  Says (fun out => ∀ replies ∈ out, noDelayNotice replies = true) p

lemma quietIfHandled_some {p : Program (List Outgoing)} (h : Quiet p) (before : List Outgoing)
    (hbefore : noDelayNotice before = true) :
    QuietIfHandled (do
      let replies ← p
      return some (before ++ replies)) := by
  refine .bind h fun replies hr => .pure ?_
  rintro _ ⟨⟩
  unfold noDelayNotice at hr hbefore ⊢
  rw [List.all_append, hr, hbefore]
  rfl

lemma says_recent :
    Says (fun o => Outgoing.isDelayNotice o = false) (recent settings user chat) := by
  unfold recent
  refine .execute rfl fun items => ?_
  dsimp only
  split_ifs
  · exact .pure rfl
  · exact .pure rfl
  · exact .execute rfl fun _ => .pure rfl
  · exact .execute rfl fun _ => .pure rfl

/-- Neither is what answers a command. -/
lemma quiet_onCommand [PythonRuntime] {command : String} :
    QuietIfHandled (onCommand settings user chat command) := by
  unfold onCommand
  split_ifs
  · exact quietIfHandled_some quiet_startCapture [] rfl
  · refine .bind says_recent fun o ho => .pure ?_
    rintro _ ⟨⟩
    exact noDelayNotice_singleton ho
  · refine says_withActiveDraft fun c d => ?_
    cases d with
    | none =>
      refine .pure ?_
      rintro _ ⟨⟩
      rfl
    | some d =>
      refine .bind (says_cancelActive chat 0) fun text h => .pure ?_
      rintro _ ⟨⟩
      exact noDelayNotice_singleton h.1
  · exact .pure fun _ h => by cases h

/-- Neither is what answers a button. -/
lemma quiet_onCallback [PythonRuntime] {query data : String} :
    QuietIfHandled (onCallback settings user chat message query data) := by
  have hanswer : noDelayNotice [.callbackAnswer query none] = true := rfl
  unfold onCallback
  split_ifs
  · exact quietIfHandled_some quiet_startCapture _ hanswer
  · refine .bind says_recent fun o ho => .pure ?_
    rintro _ ⟨⟩
    exact noDelayNotice_singleton ho
  cases parseDraftAction data with
  | none => exact .pure fun _ h => by cases h
  | some p =>
    refine says_withActiveDraft fun c active => ?_
    cases active.filter fun draft => decide (draft.id = p.1) with
    | none =>
      refine .execute rfl fun stale => .pure ?_
      rintro _ ⟨⟩
      rfl
    | some d => exact quietIfHandled_some quiet_onDraftAction _ hanswer

lemma says_resolveUser {telegramUser : ℤ} : Says (fun _ => True) (resolveUser telegramUser) := by
  unfold resolveUser
  refine .execute rfl fun r => ?_
  cases r with
  | none => exact .pure trivial
  | some connection => exact .execute rfl fun _ => .pure trivial

lemma says_claimLink [PythonRuntime] {payload : String} {telegramUser : ℤ} {name : Option String} :
    Says (fun _ => True) (claimLink payload telegramUser name) := by
  unfold claimLink
  split_ifs
  · refine .clock fun now => .execute rfl fun r => ?_
    cases r with
    | none => exact .commit (.pure trivial)
    | some challenge => exact .execute rfl fun _ => .commit (.pure trivial)
  · exact .pure trivial

lemma quiet_onMediaMessage [PythonRuntime] {sender : ℤ} {m : TelegramMessage} :
    Quiet (onMediaMessage sender chat m) := by
  refine .bind says_resolveUser fun user _ => ?_
  cases user with
  | none => exact .pure rfl
  | some user =>
    dsimp only
    cases receiptUpload m with
    | error r => cases r <;> exact .pure rfl
    | ok file => exact quiet_onMedia

lemma quiet_onLinkedText [PythonRuntime] {text : String} :
    Quiet (onLinkedText settings user chat text) := by
  unfold onLinkedText
  split_ifs
  · refine .bind quiet_onCommand fun handled h => .pure ?_
    cases handled with
    | none => rfl
    | some replies => exact h replies rfl
  · exact quiet_onText

/-- A text is answered without a delay notice. -/
lemma quiet_onTextMessage [PythonRuntime] {update : TelegramUpdate} {sender : TelegramUser}
    {text : String} :
    Quiet (onTextMessage settings update sender chat text) := by
  unfold onTextMessage
  cases update.startPayload with
  | some payload =>
    refine .bind says_claimLink fun claimed _ => .pure ?_
    cases claimed <;> rfl
  | none =>
    dsimp only
    split_ifs
    · exact .pure rfl
    · refine .bind says_resolveUser fun user _ => .pure ?_
      cases user <;> rfl
    · refine .bind says_resolveUser fun user _ => ?_
      cases user with
      | none => exact .pure rfl
      | some user => exact quiet_onLinkedText

/-- A button is answered without a delay notice. -/
lemma quiet_onCallbackQuery [PythonRuntime] {user : Option User} {messageId : Option ℤ}
    {query data : String} :
    Quiet (onCallbackQuery settings user chat messageId query data) := by
  unfold onCallbackQuery
  cases user with
  | none => exact .pure rfl
  | some user =>
    cases messageId with
    | none => exact .pure rfl
    | some message =>
      refine .bind quiet_onCallback fun handled h => .pure ?_
      cases handled with
      | none => rfl
      | some replies => exact h replies rfl

/-- Handling an update tells of no delay.

**Proof sketch.** Cases on who sent it and on what it holds, as the dispatch itself looks at them.
-/
lemma quiet_dispatch [PythonRuntime] {update : TelegramUpdate} :
    Quiet (dispatch settings update) := by
  unfold dispatch
  cases update.sender with
  | none => exact .pure rfl
  | some sender =>
  cases update.chat with
  | none => exact .pure rfl
  | some chat =>
    dsimp only
    cases update.callbackQuery.filter fun _ => decide (update.kind = .callback) with
    | some callback => exact .bind says_resolveUser fun _ _ => quiet_onCallbackQuery
    | none =>
      dsimp only
      cases update.message with
      | none => exact .pure rfl
      | some m =>
        dsimp only
        split_ifs
        · exact quiet_onMediaMessage
        · cases m.text with
          | none => exact .pure rfl
          | some text => exact quiet_onTextMessage

/-- The first message and the others. -/
lemma noDelayNotice_cons {item : Outgoing} {items : List Outgoing}
    (h : noDelayNotice (item :: items) = true) :
    item.isDelayNotice = false ∧ noDelayNotice items = true := by
  obtain ⟨hitem, hitems⟩ := Bool.and_eq_true_iff.mp (List.all_cons.symm.trans h)
  exact ⟨by simpa using hitem, hitems⟩

lemma says_sendAll {items : List Outgoing} (h : noDelayNotice items = true) :
    Says (fun _ => True) (sendAll items) := by
  induction items with
  | nil => exact .pure trivial
  | cons item items ih =>
    obtain ⟨hitem, hitems⟩ := noDelayNotice_cons h
    exact .send hitem (ih hitems)

/-- **Updates** are handled without a delay notice. -/
theorem says_handleUpdate [PythonRuntime] (settings : BotSettings) (update : TelegramUpdate) :
    Says (fun _ => True) (handleUpdate settings update) := by
  unfold handleUpdate
  split_ifs
  · refine .clock fun now => .execute rfl fun isNew => ?_
    split_ifs
    · exact .bind quiet_dispatch fun outgoing h => .commit (says_sendAll h)
    · exact .pure trivial
  · exact .pure trivial

/-! ## The receipt worker -/

lemma says_sendMessages {items : List Outgoing} (h : noDelayNotice items = true) :
    Says (fun _ => True) (sendMessages items) := by
  induction items with
  | nil => exact .pure trivial
  | cons item items ih =>
    obtain ⟨hitem, hitems⟩ := noDelayNotice_cons h
    exact .send hitem (ih hitems)

/-- **Claiming a receipt** sends nothing. -/
theorem says_claimNext : Says (fun _ => True) claimNext := by
  refine .clock fun now => .execute rfl fun receipt => ?_
  cases receipt with
  | none => exact .commit (.pure trivial)
  | some receipt =>
    exact .uuid4 fun _ => .checked fun _ => .execute rfl fun _ => .commit (.pure trivial)

/-- **Obtaining an image** sends nothing. -/
theorem says_imageFor (receipt : Receipt) : Says (fun _ => True) (imageFor receipt) := by
  refine .execute rfl fun image => ?_
  cases image with
  | some image => exact .pure trivial
  | none =>
    refine .execute rfl fun file => ?_
    cases file with
    | none => exact .pure trivial
    | some file =>
      refine .input fun reading => ?_
      cases reading.download.bind fun content =>
          (sniffMediaType content).map fun mediaType => (mediaType, content) with
      | none => exact .pure trivial
      | some p =>
        refine .clock fun now => .execute rfl fun present => ?_
        split_ifs
        · exact .execute rfl fun _ => .commit (.pure trivial)
        · exact .commit (.pure trivial)

lemma says_chatFor {userId : UUID} : Says (fun _ => True) (chatFor userId) :=
  .execute rfl fun _ => .pure trivial

/-- What a worker tells of an outcome is no delay notice. -/
lemma says_notify {outcome : ReceiptOutcome} {ownerId : UUID} :
    Says (fun _ => True) (notify ownerId outcome c d) := by
  refine .bind says_chatFor fun chat _ => ?_
  cases chat with
  | none => exact .pure trivial
  | some chat =>
    dsimp only
    split_ifs
    · exact .bind says_reviewReply fun _ hcard => .send hcard (.pure trivial)
    · exact .send rfl (.pure trivial)
    · exact .send rfl (.pure trivial)

/-- Storing a result sends no delay notice. -/
lemma says_storeResult [PythonRuntime] {receipt : Receipt} {attemptId : UUID}
    {output : Option (RecognitionOutput Binary64)} {user : Option User} {now : Instant} :
    Says (fun _ => True) (storeResult receipt attemptId output user now) := by
  unfold storeResult
  cases output with
  | none => exact .pure trivial
  | some output =>
    cases user with
    | none => exact .pure trivial
    | some user =>
      refine .lift fun values => .uuid4 fun resultId => .checked fun result => ?_
      generalize values.merchant.map sentName = sent
      rcases sent with _ | (e | name)
      · exact .execute rfl fun _ => .pure trivial
      · exact .raise _
      · exact .execute rfl fun _ => .pure trivial

/-- Late replies are no delay notices. -/
lemma quiet_lateReplies [PythonRuntime] {receipt : Receipt} {user : Option User}
    {before draft : CaptureDraft} :
    Quiet (lateReplies receipt user c before draft) := by
  unfold lateReplies
  cases user with
  | none => exact .pure rfl
  | some user =>
    refine .bind says_chatFor fun chat _ => ?_
    cases chat with
    | none => exact .pure rfl
    | some chat =>
      show Quiet (afterLateResult user chat c before draft)
      unfold afterLateResult
      split_ifs
      · exact .pure rfl
      · exact .bind says_reviewReply fun _ hcard => .pure (noDelayNotice_singleton hcard)
      · exact quiet_advance
      · exact .pure rfl

/-- Finishing a draft sends its own messages only.

**Proof sketch.** Each of its ends commits and then tells the user, with a notification, with the
replies of the conversation or with nothing. -/
lemma says_finishDraft [PythonRuntime] {receipt : Receipt} {user : Option User}
    {result : Option RecognitionResult} {now : Instant} :
    Says (fun _ => True) (finishDraft receipt user c d result now) := by
  unfold finishDraft
  refine .checked fun d' => .execute rfl fun _ => ?_
  have hsilent : ∀ {replies : List Outgoing} (outcome : ReceiptOutcome),
      noDelayNotice replies = true → Says (fun _ => True) (do
        commit
        sendMessages replies
        return outcome : Program ReceiptOutcome) := fun outcome h =>
    .commit (.bind (says_sendMessages h) fun _ _ => .pure trivial)
  have htold : ∀ (c' : TelegramConversation) {replies : List Outgoing} (outcome : ReceiptOutcome),
      noDelayNotice replies = true → Says (fun _ => True) (do
        commit
        notify receipt.ownerId outcome c' d'
        sendMessages replies
        return outcome : Program ReceiptOutcome) := fun c' _ outcome h =>
    .commit (.bind says_notify fun _ _ => .bind (says_sendMessages h) fun _ _ => .pure trivial)
  -- The conversation may be saved before the commit.
  have hsaved : ∀ {p : TelegramConversation → Program ReceiptOutcome},
      (∀ c', Says (fun _ => True) (p c')) → Says (fun _ => True) (do
        let c' ← MintFlow.checked (c.waitingFor .amount now)
        MintFlow.execute (.saveConversation c')
        let c' ← Pure.pure c'
        p c') := fun hp => .checked fun c' => .execute rfl fun _ => hp c'
  generalize outcomeFor result (decide (d.state = .awaitingRecognition)) d' = outcome
  dsimp only
  by_cases hlate : outcome = .lateResult
  · rw [if_pos hlate]
    refine .bind quiet_lateReplies fun replies h => ?_
    split_ifs
    · exact hsaved fun c' => htold c' outcome h
    · exact hsaved fun _ => hsilent outcome h
    · exact htold c outcome h
    · exact hsilent outcome h
  · rw [if_neg hlate, pure_bind]
    split_ifs
    · exact hsaved fun c' => htold c' outcome rfl
    · exact hsaved fun _ => hsilent outcome rfl
    · exact htold c outcome rfl
    · exact hsilent outcome rfl

/-- **Finishing a receipt** sends no delay notice. -/
theorem says_finishReceipt [PythonRuntime] (receipt : Receipt) (attemptId : UUID)
    (output : Option (RecognitionOutput Binary64)) :
    Says (fun _ => True) (finishReceipt receipt attemptId output) := by
  refine .clock fun now => .execute rfl fun user => .checked fun finished => ?_
  refine .execute rfl fun current => ?_
  split_ifs
  · refine .execute rfl fun c => .execute rfl fun draft => ?_
    refine .bind says_storeResult fun result _ => ?_
    cases draft.filter CaptureDraft.isOpen with
    | none => exact .commit (.pure trivial)
    | some d => exact says_finishDraft
  · exact .pure trivial

end Replies

end MintFlow
