import MintFlow.Telegram.Answers
import MintFlow.Telegram.Journey

set_option relaxedAutoImplicit false
set_option autoImplicit false

/-!
# Which recognizer answers finish a receipt

Once an attempt holds a receipt and has an answer, the worker finishes the receipt in one
transaction. Nothing in it can go wrong but the selection of values and the columns they are sent
to; and when one of these goes wrong, nothing is committed, so the receipt is claimed again when its
lease ends, and fails again.

## Main definitions

* `MintFlow.AttemptHolds` — what the worker's statements rely on.
* `MintFlow.AttemptFinished` — the receipt is recognized, and the result of the attempt stored.
* `MintFlow.Finishes` — an answer gives values that are stored, and the worker finishes with it.

## Main results

* `MintFlow.finishReceipt_finishes`, `finishReceipt_drops` — the worker finishes the receipt with
  values that are stored, and otherwise raises and commits nothing.
* `MintFlow.answers_finish_iff` — an answer finishes the receipt exactly when it fits.
-/

namespace MintFlow

open Transact Transact.Prog

/-! ## An attempt and its receipt -/

/-- The receipt is recognized by the attempt, whose result is stored. -/
structure AttemptFinished (db : Database) (receipt : Receipt) (attemptId : UUID) : Prop where
  row : ∃ row, db.receipts.find receipt.id = some row ∧ row.receipt.attemptId = some attemptId ∧
    row.receipt.state = .recognized
  result : ∃ r ∈ db.results, r.receiptId = receipt.id ∧ r.attemptId = attemptId

section Attempts

variable {db db' : Database} {receipt : Receipt} {attemptId : UUID}

/-- Whether an attempt finished its receipt is read off two tables. -/
lemma AttemptFinished.of_eq (h : AttemptFinished db receipt attemptId)
    (hreceipts : db'.receipts = db.receipts) (hresults : db'.results = db.results) :
    AttemptFinished db' receipt attemptId where
  row := hreceipts ▸ h.row
  result := hresults ▸ h.result

end Attempts

variable [PythonRuntime]

/-- An attempt holds its receipt in a coherent store: it is the current attempt of a receipt that is
being processed, the owner is the user, the receipt's draft is the owner's, and the attempt has no
result yet. -/
structure AttemptHolds (db : Database) (receipt : Receipt) (attemptId : UUID) (user : User) :
    Prop where
  coherent : Coherent db
  owner : db.users.find receipt.ownerId = some user
  current : receipt.state = .processing ∧ receipt.attemptId = some attemptId
  row : ∃ row, db.receipts.find receipt.id = some row ∧ row.receipt.attemptId = some attemptId ∧
    row.receipt.state = .processing
  draft : ∀ d, db.draftOfReceipt receipt.id = some d → d.ownerId = receipt.ownerId
  unanswered : ∀ r ∈ db.results, ¬ (r.receiptId = receipt.id ∧ r.attemptId = attemptId)

/-! ## Programs that only read and send -/

section Reading

variable {s : Alone Database}

omit [PythonRuntime] in
lemma wp_chatFor_alone (user : UUID) :
    (chatFor user).wp totalLogic (fun _ s' => s' = s) s := by
  unfold chatFor
  exact (wp_bind _ _).mpr ((wp_read rfl).mpr rfl)

omit [PythonRuntime] in
lemma wp_reviewReply_alone (chat : ℤ) (c : TelegramConversation) (d : CaptureDraft) :
    (reviewReply chat c d).wp totalLogic (fun _ s' => s' = s) s := by
  unfold reviewReply reviewCard
  exact (wp_bind _ _).mpr ((wp_bind _ _).mpr ((wp_read rfl).mpr rfl))

omit [PythonRuntime] in
lemma wp_sendMessages_alone (items : List Outgoing) :
    (sendMessages items).wp totalLogic (fun _ s' => s' = s) s := by
  induction items with
  | nil => rfl
  | cons item items ih => exact (wp_bind _ _).mpr ih

omit [PythonRuntime] in
/-- A notification writes nothing. -/
lemma wp_notify_alone (user : UUID) (outcome : ReceiptOutcome) (c : TelegramConversation)
    (d : CaptureDraft) : (notify user outcome c d).wp totalLogic (fun _ s' => s' = s) s := by
  unfold notify
  refine wp_bind_of (wp_chatFor_alone user) fun chat s₁ h₁ => ?_
  subst h₁
  cases chat with
  | none => rfl
  | some chat =>
    dsimp only
    split_ifs
    · refine wp_bind_of (wp_reviewReply_alone chat c d) fun card s₂ h₂ => ?_
      exact h₂
    · rfl
    · rfl

end Reading

/-! ## Saving the draft and the conversation -/

/-- The attempt is finished, and the draft is stored, in a coherent view. -/
structure InHand (view : Database) (receipt : Receipt) (attemptId : UUID) (d : CaptureDraft) :
    Prop where
  coherent : Coherent view
  finished : AttemptFinished view receipt attemptId
  stored : view.drafts.find d.id = some d

section Saving

variable {s : Alone Database} {receipt : Receipt} {attemptId : UUID} {d d' : CaptureDraft}
  {c : TelegramConversation} {α : Type} {Q : α → Alone Database → Prop}

/-- A revision of the draft is saved. -/
lemma InHand.wp_update (h : InHand s.view receipt attemptId d) (hrev : Revised d d')
    (htexts : d'.TextsFit) (hcons : d'.Consistent) (hres : ∀ r ∈ d'.recognitionResultId, s.view.hasResult r = true)
    {f : Unit → Program α}
    (hf : ∀ view, InHand view receipt attemptId d' → (f ()).wp totalLogic Q ⟨s.db, view⟩) :
    (execute (.updateDraft d') >>= f).wp totalLogic Q s := by
  have hupd := hrev.stored h.coherent h.stored htexts hcons hres
  obtain ⟨hcoherent, hstored⟩ := h.coherent.revise h.stored hrev hupd
  refine (wp_bind _ _).mpr ((wp_answer (o := .updateDraft d') hupd).mpr ?_)
  exact hf _ ⟨hcoherent, h.finished.of_eq rfl rfl, hstored⟩

/-- A conversation of the owner about the draft is saved. -/
lemma InHand.wp_save (h : InHand s.view receipt attemptId d) (hu : c.userId = d.ownerId)
    (ha : c.activeDraftId = some d.id) {f : Unit → Program α}
    (hf : ∀ view, InHand view receipt attemptId d → (f ()).wp totalLogic Q ⟨s.db, view⟩) :
    (execute (.saveConversation c) >>= f).wp totalLogic Q s := by
  have huser : s.view.hasUser c.userId = true := by
    rw [hu]
    exact h.coherent.owner d (Table.mem_of_find h.stored)
  have hdraft : s.view.hasDraft d.id = true := by
    rw [Database.hasDraft, h.stored]
    rfl
  have hsave : s.view.saveConversation c = .ok ((), [.conversation c]) := by
    simp only [Database.saveConversation, Checked.bind_eq_ok, demand_eq_ok,
      demandReference_eq_ok, Checked.pure_eq_ok, exists_const, and_true]
    refine ⟨huser, fun i hi => ?_⟩
    obtain rfl : d.id = i := Option.some.inj (ha.symm.trans hi)
    exact hdraft
  refine (wp_bind _ _).mpr ((wp_answer (o := .saveConversation c) hsave).mpr ?_)
  exact hf _ ⟨h.coherent.apply_besides (w := .conversation c) rfl, h.finished.of_eq rfl rfl,
    h.stored⟩

/-- The conversation waits for something else, and is saved. -/
lemma InHand.wp_wait (h : InHand s.view receipt attemptId d) (hu : c.userId = d.ownerId)
    (ha : c.activeDraftId = some d.id) (awaiting : AwaitingInput) (now : Instant)
    {f : TelegramConversation → Program α}
    (hf : ∀ c' view, c'.awaiting = awaiting → InHand view receipt attemptId d →
      (f c').wp totalLogic Q ⟨s.db, view⟩) :
    (checked (c.waitingFor awaiting now) >>= fun c' =>
      execute (.saveConversation c') >>= fun _ => f c').wp totalLogic Q s := by
  obtain ⟨c', hc⟩ := TelegramConversation.exists_waitingFor ha awaiting now
  obtain ⟨hu', ha', hw, -⟩ := TelegramConversation.waitingFor_eq_ok hc
  rw [hc]
  exact h.wp_save (hu'.trans hu) (ha'.trans ha) fun view hview => hf c' view hw hview

end Saving

/-! ## After the draft -/

section AfterDraft

variable {s : Alone Database} {receipt : Receipt} {attemptId : UUID} {d d' : CaptureDraft}
  {c : TelegramConversation}

/-- The review card is shown. -/
lemma InHand.wp_showReview (h : InHand s.view receipt attemptId d) (hrev : Revised d d')
    (htexts : d'.TextsFit) (hcons : d'.Consistent) (hres : ∀ r ∈ d'.recognitionResultId, s.view.hasResult r = true)
    (hu : c.userId = d.ownerId) (ha : c.activeDraftId = some d.id) (chat : ℤ)
    (messageId : Option ℤ) :
    (showReview chat c d' messageId).wp totalLogic
      (fun _ s' => AttemptFinished s'.view receipt attemptId) s := by
  unfold showReview
  refine (wp_bind _ _).mpr (wp_clock fun now => ?_)
  obtain ⟨c', hc⟩ := TelegramConversation.exists_waitingFor ha .nothing now
  obtain ⟨hu', ha', -⟩ := TelegramConversation.waitingFor_eq_ok hc
  rw [hc]
  refine h.wp_update hrev htexts hcons hres fun view hview => ?_
  refine hview.wp_save (hu'.trans (hu.trans hrev.ownerId.symm))
    (ha'.trans (ha.trans (congrArg some hrev.id.symm))) fun view' hview' => ?_
  unfold reviewCard
  refine (wp_bind _ _).mpr ((wp_bind _ _).mpr ((wp_read (s := ⟨s.db, view'⟩) rfl).mpr ?_))
  cases messageId <;> exact hview'.finished

/-- A draft with a category that collects what else it needs is saved, and the merchant asked for
or the review card shown.

**Proof sketch.** If a merchant is known, nothing is missing: the draft is marked ready, stored and
shown. Otherwise it is stored as it is, and the conversation waits for the merchant. Both can be
stored in a coherent store, and neither touches the receipt or its result. -/
lemma InHand.wp_advance (h : InHand s.view receipt attemptId d) (hstate : d.state = .collecting)
    (hreceipt : d.receiptId.isSome = true) (hcategory : d.categoryKey.isSome = true) {user : User}
    (howner : user.id = d.ownerId) (hu : c.userId = d.ownerId) (chat : ℤ) (flag : Bool) :
    (advance user chat c d .merchant (some flag)).wp totalLogic
      (fun _ s' => AttemptFinished s'.view receipt attemptId) s := by
  have hmem := Table.mem_of_find h.stored
  have hopen : d.isOpen = true := by simp [CaptureDraft.isOpen, CaptureDraft.openStates, hstate]
  unfold advance
  refine (wp_bind _ _).mpr (wp_clock fun now => ?_)
  dsimp only
  by_cases hmerchant : d.merchant.isSome = true
  · -- Nothing is missing: the draft is ready for review.
    have hnext : nextForReceipt d .merchant = (.category, true) := by
      simp [nextForReceipt, hstate, hreceipt, hmerchant, hcategory]
    obtain ⟨d', hd'⟩ : ∃ d', d.markReadyForReview user.id (Instant.toDateTime now) = .ok d' := by
      simp only [CaptureDraft.markReadyForReview, CaptureDraft.ensureOwner, require, if_pos howner,
        if_pos hstate, requireAware_toDateTime]
      exact ⟨_, rfl⟩
    have hrev := markReadyForReview_revised hd'
    have hcons : d'.Consistent := CaptureDraft.consistent_apply
      (o := .markReadyForReview user.id (Instant.toDateTime now)) (h.coherent.consistent d hmem) hd'
    obtain ⟨-, -, -, heq⟩ := CaptureDraft.markReadyForReview_eq_ok hd'
    have hstate' : d'.state = .readyForReview := by rw [heq]
    have htexts : d'.TextsFit := by
      rw [heq]
      exact { h.coherent.texts d hmem with }
    have hres : ∀ r ∈ d'.recognitionResultId, s.view.hasResult r = true := by
      rw [heq]
      exact h.coherent.result d hmem
    rw [hnext]
    dsimp only
    rw [if_pos rfl, hd']
    refine (wp_bind _ _).mpr ?_
    show Prog.wp totalLogic (if d'.state = .collecting then _ else _) _ s
    rw [if_neg (by rw [hstate']; decide)]
    exact h.wp_showReview (c := c.withDraft d.id c.awaiting flag now) hrev htexts hcons hres hu
      rfl chat none
  · have hnext : nextForReceipt d .merchant = (.merchant, false) := by
      simp [nextForReceipt, hstate, hreceipt, hmerchant]
    rw [hnext]
    dsimp only
    rw [if_neg Bool.false_ne_true, pure_bind, if_pos hstate]
    refine h.wp_update (.refl hopen) (h.coherent.texts d hmem) (h.coherent.consistent d hmem)
      (h.coherent.result d hmem) fun view hview => ?_
    refine hview.wp_wait (c := c.withDraft d.id c.awaiting flag now) hu rfl .merchant now fun c' view' hw hview' => ?_
    unfold promptFor
    rw [if_neg (by rw [hstate]; decide), hw]
    exact hview'.finished

/-- After a late result the draft may be saved once more.

**Proof sketch.** Cases as in the source; only moving on from the amount writes anything
(`InHand.wp_advance`). -/
lemma InHand.wp_lateReplies (h : InHand s.view receipt attemptId d)
    (hreceipt : d.receiptId.isSome = true) (hcategory : d.categoryKey.isSome = true) {user : User}
    (howner : user.id = d.ownerId) (hu : c.userId = d.ownerId) (before : CaptureDraft) :
    (lateReplies receipt (some user) c before d).wp totalLogic
      (fun _ s' => AttemptFinished s'.view receipt attemptId) s := by
  unfold lateReplies
  refine wp_bind_of (wp_chatFor_alone receipt.ownerId) fun chat s₁ h₁ => ?_
  subst h₁
  cases chat with
  | none => exact h.finished
  | some chat =>
    show Prog.wp totalLogic (afterLateResult user chat c before d) _ s₁
    unfold afterLateResult
    split_ifs with hactive hready hcollecting
    · exact h.finished
    · refine wp_bind_of (wp_reviewReply_alone chat c d) fun card s₂ h₂ => ?_
      subst h₂
      exact h.finished
    · exact h.wp_advance hcollecting.1 hreceipt hcategory howner hu chat false
    · exact h.finished

omit [PythonRuntime] in
/-- A draft that is filled with a name that was sent, and with a key that fits, has texts that fit.

**Proof sketch.** Field by field: the category is the key, the merchant is the name that was sent or
the one the draft had, and the note is untouched. -/
lemma CaptureDraft.TextsFit.filled (h : d.TextsFit) {result : RecognitionResult} {key : String}
    (hname : ∀ m ∈ result.merchant, hasNoNul m.value = true) (hkey : textFits 32 key = true) :
    (d.filled result key).TextsFit := by
  unfold CaptureDraft.filled CaptureDraft.fillCategory CaptureDraft.fillMerchant
    CaptureDraft.fillTransactionDate CaptureDraft.fillAmount
  refine ⟨?_, ?_, ?_⟩
  · dsimp only
    cases hresult : result.merchant with
    | none => exact h.merchant
    | some name =>
      unfold recognized
      dsimp only
      split_ifs
      · rintro _ ⟨⟩
        exact hname name hresult
      · exact h.merchant
  · dsimp only
    split_ifs
    · rintro _ ⟨⟩
      exact hkey
    · exact h.category
  · exact h.note

omit [PythonRuntime] in
/-- The end of the transaction, and the messages after it.

**Proof sketch.** Messages that follow the commit write nothing. -/
lemma wp_lastOfFinish (h : AttemptFinished s.view receipt attemptId) (user : UUID) (told : Prop)
    [Decidable told] (outcome : ReceiptOutcome) (replies : List Outgoing) :
    (do
      commit
      if told then do
        notify user outcome c d
        sendMessages replies
        return outcome
      else do
        sendMessages replies
        return outcome : Program ReceiptOutcome).wp totalLogic
      (fun _ s' => AttemptFinished s'.db receipt attemptId) s := by
  refine (wp_bind _ _).mpr ⟨trivial, ?_⟩
  split_ifs
  · refine wp_bind_of (wp_notify_alone user outcome c d) fun _ s₁ h₁ => ?_
    refine wp_bind_of (wp_sendMessages_alone replies) fun _ s₂ h₂ => ?_
    rw [h₂, h₁]
    exact h
  · refine wp_bind_of (wp_sendMessages_alone replies) fun _ s₁ h₁ => ?_
    rw [h₁]
    exact h

/-- **The open draft** takes the result, and the transaction ends with a commit.

**Proof sketch.** No check of the draft's operation fails, and the draft it gives is consistent,
fits and refers to a stored result, so it can be stored. What follows is the review card of a draft
that was waiting, or the replies to a late result, and then the commit (`wp_lastOfFinish`). -/
lemma InHand.wp_finishDraft (h : InHand s.view receipt attemptId d) (hopen : d.isOpen = true)
    (howner : d.ownerId = receipt.ownerId) (hreceipt : d.receiptId = some receipt.id)
    {result : RecognitionResult} (hresult : result.ownerId = receipt.ownerId ∧
      result.receiptId = receipt.id) (hname : ∀ m ∈ result.merchant, hasNoNul m.value = true)
    (hstored : s.view.hasResult result.id = true) {user : User}
    (huser : user.id = receipt.ownerId) (hu : c.userId = receipt.ownerId) (now : Instant) :
    (finishDraft receipt (some user) c d (some result) now).wp totalLogic
      (fun _ s' => AttemptFinished s'.db receipt attemptId) s := by
  have hmem := Table.mem_of_find h.stored
  obtain ⟨d', hd'⟩ : ∃ d', d.applyRecognition result uncategorizedKey (Instant.toDateTime now) =
      .ok d' := by
    simp only [CaptureDraft.applyRecognition, CaptureDraft.ensureEditable, require,
      requireAware_toDateTime, if_pos hopen, requireStableKey_uncategorized, hresult.1, hresult.2,
      howner, hreceipt, and_self, if_true]
    exact ⟨_, rfl⟩
  have hcons : d'.Consistent := CaptureDraft.consistent_apply
    (o := .applyRecognition result uncategorizedKey (Instant.toDateTime now))
    (h.coherent.consistent d hmem) hd'
  have happly : applyOutcome d (some result) now = .ok d' := hd'
  have hrec := applyOutcome_recovered hopen happly
  have hrev := hrec.revised
  obtain ⟨-, -, -, -, -, heq⟩ := CaptureDraft.applyRecognition_eq_ok hd'
  have hres : ∀ r ∈ d'.recognitionResultId, s.view.hasResult r = true := by
    rw [heq]
    rintro r ⟨⟩
    exact hstored
  have htexts : d'.TextsFit := by
    rw [heq]
    exact { (h.coherent.texts d hmem).filled hname (by decide) with }
  have hcategory : d'.categoryKey.isSome = true := by
    rw [heq]
    show (d.filled result uncategorizedKey).categoryKey.isSome = true
    by_cases hk : d.categoryKey = none
    · simp [CaptureDraft.filled, CaptureDraft.fillCategory, CaptureDraft.fillMerchant,
        CaptureDraft.fillTransactionDate, CaptureDraft.fillAmount, hk]
    · simp [CaptureDraft.filled, CaptureDraft.fillCategory, CaptureDraft.fillMerchant,
        CaptureDraft.fillTransactionDate, CaptureDraft.fillAmount, hk, Option.isSome_iff_ne_none]
  have hu' : c.userId = d'.ownerId := hu.trans (howner.symm.trans hrev.ownerId.symm)
  have huser' : user.id = d'.ownerId := huser.trans (howner.symm.trans hrev.ownerId.symm)
  have hreceipt' : d'.receiptId.isSome = true := by
    rw [hrev.receiptId, hreceipt]
    rfl
  unfold finishDraft
  refine (wp_bind _ _).mpr ?_
  rw [happly]
  refine h.wp_update hrev htexts hcons hres fun view hview => ?_
  generalize ho : outcomeFor (some result) (decide (d.state = .awaitingRecognition)) d' = outcome
  dsimp only
  by_cases hlate : outcome = .lateResult
  · -- The draft was not waiting, so the conversation stays as it is.
    have hs : d.state ≠ .awaitingRecognition := by
      intro hs
      rw [hlate, outcomeFor] at ho
      simp only [hs, decide_true, Bool.not_true, Bool.false_eq_true, if_false] at ho
      split_ifs at ho
    rw [if_pos hlate]
    refine wp_bind_of (InHand.wp_lateReplies (s := ⟨s.db, view⟩) hview hreceipt' hcategory huser'
      hu' d) fun replies s₂ h₂ => ?_
    rw [if_neg (by simp [hs])]
    exact wp_lastOfFinish h₂ receipt.ownerId _ outcome replies
  · rw [if_neg hlate, pure_bind]
    by_cases hsave : decide (c.activeDraftId = some d'.id) = true ∧
        decide (d.state = .awaitingRecognition) = true ∧ outcome ≠ .readyForReview
    · rw [if_pos hsave]
      refine hview.wp_wait (s := ⟨s.db, view⟩) hu' (of_decide_eq_true hsave.1) .amount now
        fun c' view' _ hview' => ?_
      exact wp_lastOfFinish (s := ⟨s.db, view'⟩) hview'.finished receipt.ownerId _ outcome []
    · rw [if_neg hsave]
      exact wp_lastOfFinish (s := ⟨s.db, view⟩) hview.finished receipt.ownerId _ outcome []

end AfterDraft

/-! ## The transaction -/

/-- The receipt is recognized and its conversation locked, while the result is still missing. -/
structure AttemptLocked (view : Database) (receipt : Receipt) (attemptId : UUID) (user : User)
    (c : TelegramConversation) : Prop where
  coherent : Coherent view
  owner : view.users.find receipt.ownerId = some user
  row : ∃ row, view.receipts.find receipt.id = some row ∧
    row.receipt.attemptId = some attemptId ∧ row.receipt.state = .recognized
  draft : ∀ d, view.draftOfReceipt receipt.id = some d → d.ownerId = receipt.ownerId
  unanswered : ∀ r ∈ view.results, ¬ (r.receiptId = receipt.id ∧ r.attemptId = attemptId)
  conversation : c.userId = receipt.ownerId

/-- What is left of `_finish` once the rows are locked. -/
def finishLocked (receipt : Receipt) (attemptId : UUID) (output : RecognitionOutput Binary64)
    (user : User) (c : TelegramConversation) (draft : Option CaptureDraft) (now : Instant) :
    Program ReceiptOutcome := do
  let result ← storeResult receipt attemptId (some output) (some user) now
  match draft.filter CaptureDraft.isOpen with
  | none => do
    commit
    return .draftClosed
  | some draft => finishDraft receipt (some user) c draft result now

section Transaction

variable {db view : Database} {receipt : Receipt} {attemptId : UUID} {user : User}
  {c : TelegramConversation} {output : RecognitionOutput Binary64} {tape : Stream' Reading}
  {now : Instant}

omit [PythonRuntime] in
/-- The conversation of a user is locked, whether it is stored or not. -/
lemma exists_lockConversation (hu : view.hasUser user.id = true) (now : Instant) :
    ∃ c ws, view.lockConversation user.id now = .ok (c, ws) ∧ c.userId = user.id ∧
      (ws = [] ∨ ws = [.conversation c]) := by
  cases hc : view.conversations.find user.id with
  | some c =>
    exact ⟨c, [], by rw [Database.lockConversation, hc], Table.key_of_find hc, .inl rfl⟩
  | none =>
    refine ⟨.idle user.id now, [.conversation (.idle user.id now)], ?_, rfl, .inr rfl⟩
    rw [Database.lockConversation, hc]
    simp only [Checked.bind_eq_ok, demand_eq_ok, Checked.pure_eq_ok, exists_const, and_true]
    exact hu

/-- The transaction up to the locks goes through, and commits nothing.

**Proof sketch.** The attempt is the current one of a receipt that is being processed, so the
receipt is finished and stored; the conversation of its owner is locked, and made if there is none.
Each statement goes through, and the rest runs on the view they leave. -/
lemma AttemptHolds.exec_finishReceipt (h : AttemptHolds db receipt attemptId user)
    (output : RecognitionOutput Binary64) (tape : Stream' Reading) :
    ∃ c view, AttemptLocked view receipt attemptId user c ∧ view.results = db.results ∧
      (finishReceipt receipt attemptId (some output)).exec postgres tape ⟨db, db⟩ =
        (finishLocked receipt attemptId output user c (view.draftOfReceipt receipt.id)
          tape.head.now).exec postgres tape.tail ⟨db, view⟩ := by
  obtain ⟨hstate, hattempt⟩ := h.current
  obtain ⟨row, hrow, hrowAttempt, hrowState⟩ := h.row
  have hid : user.id = receipt.ownerId := Table.key_of_find h.owner
  set now := tape.head.now
  set finished : Receipt :=
    { receipt with state := .recognized, leaseExpiresAt := none, modifiedAt := now } with hfin
  have hcomplete : receipt.complete attemptId now = .ok finished := by
    simp [Receipt.complete, Receipt.finish, hstate, hattempt, hfin]
  have hsave : db.saveFinished finished =
      .ok (true, [.receipt (Database.finishedReceipt row finished)]) := by
    have hcheck : Database.checkReceipt (Database.finishedReceipt row finished).receipt = .ok () := by
      rw [checkReceipt_eq_ok]
      simp [Database.finishedReceipt, hfin, hrowAttempt]
    unfold Database.saveFinished
    rw [show finished.id = receipt.id from rfl, hrow]
    dsimp only
    rw [if_pos ⟨by simp [hfin, hattempt], by rw [hrowAttempt, hfin, ← hattempt], hrowState⟩]
    simp only [Checked.bind_eq_ok, Checked.pure_eq_ok]
    exact ⟨(), hcheck, rfl⟩
  set view₁ := db.apply (.receipt (Database.finishedReceipt row finished)) with hview₁
  have huser : view₁.hasUser user.id = true := by
    rw [hview₁, hasUser_apply, Database.hasUser, hid, h.owner]
    rfl
  obtain ⟨c, ws, hlock, hc, hws⟩ := exists_lockConversation huser now
  have hrow' : view₁.receipts.find receipt.id = some (Database.finishedReceipt row finished) := by
    have hkey := Table.key_of_find hrow
    rw [← hkey]
    exact Table.find_upsert_self ..
  have hlocked : AttemptLocked (postgres.applyAll ws view₁) receipt attemptId user c := by
    have hcoherent : Coherent view₁ := h.coherent.apply_besides rfl
    rcases hws with rfl | rfl
    · exact ⟨hcoherent, h.owner, ⟨_, hrow', hrowAttempt, rfl⟩, h.draft, h.unanswered,
        hc.trans hid⟩
    · exact ⟨hcoherent.apply_besides (w := .conversation c) rfl, h.owner,
        ⟨_, hrow', hrowAttempt, rfl⟩, h.draft, h.unanswered, hc.trans hid⟩
  refine ⟨c, _, hlocked, by rcases hws with rfl | rfl <;> rfl, ?_⟩
  unfold finishReceipt
  rw [exec_clock]
  have hget : evaluate (.getUser receipt.ownerId) (fun _ => false) db = .ok (some user, []) := by
    rw [← h.owner]
    rfl
  refine (exec_execute (o := .getUser receipt.ownerId) hget).trans ?_
  rw [if_neg (by simp), hcomplete]
  refine (exec_execute (o := .saveFinished finished) (s := ⟨db, db⟩) hsave).trans ?_
  rw [if_pos rfl, ← hid]
  refine (exec_execute (o := .lockConversation user.id now) (s := ⟨db, view₁⟩) hlock).trans ?_
  exact exec_execute (o := .getDraftForUpdateByReceipt receipt.id)
    (s := ⟨db, postgres.applyAll ws view₁⟩) rfl

omit [PythonRuntime] in
/-- A name that was sent has no zero character. -/
lemma hasNoNul_of_sentName {name : RecognizedMerchant} {sent : MerchantName}
    (h : sentName name = .ok sent) : hasNoNul sent.value = true := by
  unfold sentName at h
  cases hencode : name.encode with
  | none =>
    rw [hencode] at h
    cases h
  | some encoded =>
    rw [hencode] at h
    dsimp only at h
    split_ifs at h with hnul
    obtain rfl := Except.ok.inj h
    exact decide_eq_true hnul

/-- The result of values that can be sent is stored.

**Proof sketch.** The values make a result of the attempt, since the total is positive and the name
was sent. Its statement goes through: the receipt and the owner are there, the attempt has no result
yet, and the identifier is new. -/
lemma AttemptLocked.exec_storeResult (h : AttemptLocked view receipt attemptId user c)
    (db : Database) {values : SelectedValues} (hvalues : selectValues output now user.timezone = .ok values)
    (hpositive : ∀ m ∈ values.total, 0 < m.minorUnits)
    (hsent : ∀ name ∈ values.merchant, ∃ sent, sentName name = .ok sent)
    (hfresh : view.results.find tape.head.uuid = none) :
    ∃ result : RecognitionResult, result.id = tape.head.uuid ∧ result.receiptId = receipt.id ∧
      result.attemptId = attemptId ∧ result.ownerId = receipt.ownerId ∧
      (∀ m ∈ result.merchant, hasNoNul m.value = true) ∧
      ∀ {α : Type} (f : Option RecognitionResult → Program α),
        (storeResult receipt attemptId (some output) (some user) now >>= f).exec postgres tape
            ⟨db, view⟩ =
          (f (some result)).exec postgres tape.tail ⟨db, view.apply (.result result)⟩ := by
  obtain ⟨row, hrow, -⟩ := h.row
  set sent := values.merchant.map sentName with hsentDef
  set result : RecognitionResult := ⟨tape.head.uuid, receipt.id, attemptId, receipt.ownerId,
    sent.bind Except.toOption, values.transactionDate, values.total, now, hpositive⟩ with hresult
  have hnew : RecognitionResult.forAttempt tape.head.uuid receipt attemptId
      (sent.bind Except.toOption) values.transactionDate values.total now = .ok result :=
    dif_pos hpositive
  have hsave : view.saveResult result = .ok ((), [.result result]) := by
    have hreceipt : view.hasReceipt receipt.id = true := by
      rw [Database.hasReceipt, hrow]
      rfl
    have huser : view.hasUser receipt.ownerId = true := by
      rw [Database.hasUser, h.owner]
      rfl
    have hunanswered : (view.results.rows.find? fun s =>
        decide (s.receiptId = receipt.id ∧ s.attemptId = attemptId)) = none := by
      rw [List.find?_eq_none]
      intro r hr
      simpa using h.unanswered r hr
    simp only [Database.saveResult, Checked.bind_eq_ok, demand_eq_ok, Checked.pure_eq_ok,
      exists_const, and_true]
    exact ⟨hfresh, hunanswered, hreceipt, huser⟩
  have hname : ∀ m ∈ result.merchant, hasNoNul m.value = true := by
    intro m hm
    obtain ⟨check, hcheck, hok⟩ := Option.bind_eq_some_iff.mp hm
    obtain ⟨name, -, rfl⟩ := Option.map_eq_some_iff.mp hcheck
    cases hsentName : sentName name with
    | error e =>
      rw [hsentName] at hok
      cases hok
    | ok sent =>
      rw [hsentName] at hok
      obtain rfl := Option.some.inj hok
      exact hasNoNul_of_sentName hsentName
  refine ⟨result, rfl, rfl, rfl, rfl, hname, fun {α} f => ?_⟩
  have hgood : ∀ e, sent ≠ some (.error e) := by
    intro e he
    obtain ⟨name, hname, herror⟩ := Option.map_eq_some_iff.mp he
    obtain ⟨name', hname'⟩ := hsent name hname
    rw [hname'] at herror
    cases herror
  unfold storeResult
  dsimp only
  rw [hvalues]
  show ((checked (RecognitionResult.forAttempt tape.head.uuid receipt attemptId
    (sent.bind Except.toOption) values.transactionDate values.total now) >>= _) >>= f).exec
      postgres tape.tail ⟨db, view⟩ = _
  rw [hnew, ← hsentDef]
  clear hname
  clear_value result sent
  have hrun := @exec_execute α (.saveResult result) (fun _ => f (some result)) tape.tail ⟨db, view⟩
    () [.result result] hsave
  rcases sent with _ | (e | name)
  · exact hrun
  · exact absurd rfl (hgood e)
  · exact hrun

/-- **An answer whose values are stored finishes the receipt.**

**Proof sketch.** The transaction runs to the locks (`exec_finishReceipt`) and stores the result
(`exec_storeResult`). What is left depends on the draft of the receipt: an open one takes the result
(`InHand.wp_finishDraft`), and for any other the transaction ends with its commit. -/
theorem finishReceipt_finishes (h : AttemptHolds db receipt attemptId user)
    {values : SelectedValues}
    (hvalues : selectValues output tape.head.now user.timezone = .ok values)
    (hpositive : ∀ m ∈ values.total, 0 < m.minorUnits)
    (hsent : ∀ name ∈ values.merchant, ∃ sent, sentName name = .ok sent)
    (hfresh : db.results.find tape.tail.head.uuid = none) :
    (∃ outcome, ((finishReceipt receipt attemptId (some output)).exec postgres tape
      ⟨db, db⟩).result = .ok outcome) ∧
    AttemptFinished ((finishReceipt receipt attemptId (some output)).exec postgres tape
      ⟨db, db⟩).final.db receipt attemptId := by
  obtain ⟨c, view, hlocked, hresults, hexec⟩ := h.exec_finishReceipt output tape
  rw [← hresults] at hfresh
  obtain ⟨result, hid, hreceipt, hattempt, howner, hname, hstore⟩ :=
    hlocked.exec_storeResult db hvalues hpositive hsent hfresh
  rw [hexec, finishLocked, hstore]
  set view' := view.apply (.result result) with hview'
  have hcoherent : Coherent view' := hlocked.coherent.apply_besides rfl
  have hfinished : AttemptFinished view' receipt attemptId :=
    ⟨hlocked.row, result, Table.mem_upsert.mpr (.inl rfl), hreceipt, hattempt⟩
  cases hdraft : (view.draftOfReceipt receipt.id).filter CaptureDraft.isOpen with
  | none => exact ⟨⟨_, rfl⟩, hfinished⟩
  | some d =>
    obtain ⟨hfind, hopen⟩ := Option.filter_eq_some_iff.mp hdraft
    obtain ⟨hmem, hdReceipt⟩ := Database.mem_of_draftOfReceipt hfind
    have hhand : InHand view' receipt attemptId d :=
      ⟨hcoherent, hfinished, Table.find_of_mem hmem⟩
    have hstored : view'.hasResult result.id = true := by
      have hfind' : view'.results.find result.id = some result := Table.find_upsert_self ..
      rw [Database.hasResult, hfind']
      rfl
    have hwp := InHand.wp_finishDraft (s := ⟨db, view'⟩) hhand hopen (hlocked.draft d hfind) hdReceipt
      ⟨howner, hreceipt⟩ hname hstored (Table.key_of_find hlocked.owner) hlocked.conversation
      tape.head.now
    obtain ⟨hok, herr⟩ := exec_alone _ tape.tail.tail hwp
    dsimp only
    cases hres : ((finishDraft receipt (some user) c d (some result) tape.head.now).exec postgres
        tape.tail.tail ⟨db, view'⟩).result with
    | ok outcome => exact ⟨⟨outcome, rfl⟩, hok outcome hres⟩
    | error e => exact absurd (herr e hres) id

/-- Nothing comes of values that cannot be selected, or not be sent.

**Proof sketch.** Either the selection raises, or the name that it selects cannot be sent, and then
making the result raises; nothing was written before. -/
lemma exec_storeResult_error
    (hbad : ¬ ∃ values, selectValues output now user.timezone = .ok values ∧
      ∀ name ∈ values.merchant, ∃ sent, sentName name = .ok sent) :
    ∃ e, ∀ {α : Type} (f : Option RecognitionResult → Program α),
      (storeResult receipt attemptId (some output) (some user) now >>= f).exec postgres tape
        ⟨db, view⟩ = ⟨.error e, ⟨db, view⟩, [], []⟩ := by
  unfold storeResult
  dsimp only
  cases hvalues : selectValues output now user.timezone with
  | error e => exact ⟨_, fun _ => rfl⟩
  | ok values =>
    obtain ⟨name, hname, hnone⟩ : ∃ name ∈ values.merchant, ¬ ∃ sent, sentName name = .ok sent := by
      by_contra hall
      push Not at hall
      exact hbad ⟨values, hvalues, hall⟩
    obtain ⟨e, he⟩ : ∃ e, values.merchant.map sentName = some (.error e) := by
      rw [Option.mem_def.mp hname]
      cases hsent : sentName name with
      | error e => exact ⟨e, congrArg some hsent⟩
      | ok sent => exact absurd ⟨sent, hsent⟩ hnone
    -- The name is refused at the latest, if the total is not.
    show ∃ e', ∀ {α : Type} (f : Option RecognitionResult → Program α),
      ((checked (RecognitionResult.forAttempt tape.head.uuid receipt attemptId
        ((values.merchant.map sentName).bind Except.toOption) values.transactionDate values.total
        now) >>= fun _ => _) >>= f).exec postgres tape.tail ⟨db, view⟩ =
        ⟨.error e', ⟨db, view⟩, [], []⟩
    rw [he]
    cases RecognitionResult.forAttempt tape.head.uuid receipt attemptId
        ((some (Except.error e : Except Error MerchantName)).bind Except.toOption)
        values.transactionDate values.total now with
    | error message => exact ⟨_, fun _ => rfl⟩
    | ok result => exact ⟨_, fun _ => rfl⟩

/-- **An answer whose values cannot be stored is dropped.** The worker raises and commits nothing,
so that the attempt holds the receipt as before. -/
theorem finishReceipt_drops (h : AttemptHolds db receipt attemptId user)
    (hbad : ¬ ∃ values, selectValues output tape.head.now user.timezone = .ok values ∧
      ∀ name ∈ values.merchant, ∃ sent, sentName name = .ok sent) :
    (∃ e, ((finishReceipt receipt attemptId (some output)).exec postgres tape
      ⟨db, db⟩).result = .error e) ∧
    ((finishReceipt receipt attemptId (some output)).exec postgres tape ⟨db, db⟩).final.db = db := by
  obtain ⟨c, view, -, -, hexec⟩ := h.exec_finishReceipt output tape
  obtain ⟨e, he⟩ := @exec_storeResult_error _ db view receipt attemptId user output tape.tail
    tape.head.now hbad
  rw [hexec, finishLocked, he]
  exact ⟨⟨e, rfl⟩, rfl⟩

end Transaction

/-! ## Answers -/

/-- **What an answer should do** at a time and in a time zone: values are selected that
their columns take, and whatever attempt holds the receipt, the worker returns and leaves the
receipt recognized, with the result of the attempt. -/
structure Finishes (output : RecognitionOutput Binary64) (now : Instant) (timezone : String) :
    Prop where
  values : ∃ values, selectValues output now timezone = .ok values ∧
    (∀ m ∈ values.total, 0 < m.minorUnits) ∧
    ∀ name ∈ values.merchant, ∃ sent, sentName name = .ok sent
  worker : ∀ (db : Database) (tape : Stream' Reading) (receipt : Receipt) (attemptId : UUID)
    (user : User), AttemptHolds db receipt attemptId user → user.timezone = timezone →
    tape.head.now = now → db.results.find tape.tail.head.uuid = none →
    let run := (finishReceipt receipt attemptId (some output)).exec postgres tape ⟨db, db⟩
    (∃ outcome, run.result = .ok outcome) ∧ AttemptFinished run.final.db receipt attemptId

/-- **Recognizer answers.** An answer finishes the receipt exactly when it fits: the calendar has the
user's today, and reaches back a year from it where a date was read; once a currency is foremost, no
total is no number and infinity is not foremost among the totals; and a merchant that is foremost
can be stored.

**Proof sketch.** The selection returns exactly when neither the date nor the total raises, and a
name is sent exactly when it can be stored (`answerFits_iff`): what the selection chooses is what is
foremost among the readings, since confidences of doubles compare linearly and their differences
shrink as they should. The rest of the transaction never raises: the draft takes any result, and the
conversation about it can wait for anything (`finishReceipt_finishes`). -/
theorem answers_finish_iff [TextTables] {body : List (RawText × JsonValue)}
    {output : RecognitionOutput Binary64} (h : parseAnalyzeResult body = some output)
    (now : Instant) (timezone : String) :
    Finishes output now timezone ↔ AnswerFits output now timezone := by
  have hprinted := parseAnalyzeResult_printed h
  rw [← answerFits_iff hprinted (parseAnalyzeResult_nonneg h)]
  constructor
  · rintro ⟨⟨values, hvalues, -, hsent⟩, -⟩
    exact ⟨values, hvalues, hsent⟩
  · rintro ⟨values, hvalues, hsent⟩
    have hpositive := pos_of_selectValues hprinted hvalues
    refine ⟨⟨values, hvalues, hpositive, hsent⟩, ?_⟩
    rintro db tape receipt attemptId user hholds rfl rfl hfresh
    exact finishReceipt_finishes hholds hvalues hpositive hsent hfresh

/-- A response with one document, whose total is printed as `EUR 12.50`. -/
def totalBody (amount : JsonFloat) : List (RawText × JsonValue) :=
  let total : JsonValue := .dict [(RawText.ofString "confidence", .float (.finite ⟨1⟩)),
    (RawText.ofString "content", .str (RawText.ofString "EUR 12.50")),
    (RawText.ofString "valueNumber", .float amount)]
  let document : JsonValue :=
    .dict [(RawText.ofString "fields", .dict [(RawText.ofString "Total", total)])]
  [(RawText.ofString "analyzeResult",
    .dict [(RawText.ofString "documents", .list [document])])]

omit [PythonRuntime] in
/-- A total of 12.50 finishes its receipt. -/
theorem answers_finish_iff_twelve :
    letI := PythonRuntime.ascii
    letI := TextTables.ascii
    ∃ output, parseAnalyzeResult (totalBody (.finite ⟨25 / 2⟩)) = some output ∧
      output.totals.length = 1 ∧ Finishes output 1627516800000000 "UTC" := by
  let _ := PythonRuntime.ascii
  let _ := TextTables.ascii
  obtain ⟨output, houtput, hvalues⟩ : ∃ output,
      parseAnalyzeResult (totalBody (.finite ⟨25 / 2⟩)) = some output ∧
      output.totals.length = 1 ∧
      (selectValues output 1627516800000000 "UTC").toOption.map (fun v => v.merchant.isNone) =
        some true := ⟨_, rfl, by decide +kernel, by decide +kernel⟩
  obtain ⟨hlength, hvalues⟩ := hvalues
  obtain ⟨values, hok, hnone⟩ := Option.map_eq_some_iff.mp hvalues
  refine ⟨output, houtput, hlength, (answers_finish_iff houtput 1627516800000000 "UTC").mpr ?_⟩
  refine (answerFits_iff (parseAnalyzeResult_printed houtput)
    (parseAnalyzeResult_nonneg houtput)).mp ⟨values, ?_, ?_⟩
  · cases hselect : selectValues output 1627516800000000 "UTC" with
    | error e =>
      rw [hselect] at hok
      cases hok
    | ok v =>
      rw [hselect] at hok
      exact congrArg Except.ok (Option.some.inj hok)
  · rw [Option.isNone_iff_eq_none.mp hnone]
    exact nofun

omit [PythonRuntime] in
/-- A total that is no number does not finish its receipt. -/
theorem nanTotal_not_finished :
    letI := PythonRuntime.ascii
    letI := TextTables.ascii
    ∃ output, parseAnalyzeResult (totalBody .nan) = some output ∧
      ¬ Finishes output 1627516800000000 "UTC" := by
  let _ := PythonRuntime.ascii
  let _ := TextTables.ascii
  obtain ⟨output, houtput, hvalues⟩ : ∃ output,
      parseAnalyzeResult (totalBody .nan) = some output ∧
      (selectValues output 1627516800000000 "UTC").toOption.isNone = true :=
    ⟨_, rfl, by decide +kernel⟩
  refine ⟨output, houtput, ?_⟩
  rintro ⟨⟨values, hok, -⟩, -⟩
  rw [hok] at hvalues
  cases hvalues

end MintFlow
