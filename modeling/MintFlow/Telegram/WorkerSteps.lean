import MintFlow.Telegram.HandlingSteps

set_option relaxedAutoImplicit false
set_option autoImplicit false

/-!
# The receipt worker follows the protocol

A round of the worker is a sequence of transactions: bookkeeping that touches no draft, and one that
finishes a receipt and moves its draft and the conversation on.

## Main definitions

* `MintFlow.Recovered` — what the outcome of an attempt makes of an open draft.

## Main results

* `MintFlow.WorkerRules.wp_finishReceipt` — the transaction that finishes a receipt.
* `MintFlow.WorkerRules.wp_processNext` — a whole round.
-/

namespace MintFlow

open Transact Transact.Prog

/-! ## The outcome of an attempt -/

/-- What the outcome of an attempt makes of an open draft. -/
structure Recovered [PythonRuntime] (d d' : CaptureDraft) : Prop where
  revised : Revised d d'
  recognized : d'.state ≠ .awaitingRecognition
  isOpen : d'.isOpen = true
  kept : d.state ≠ .awaitingRecognition → d'.state = d.state
  ready : d.state = .awaitingRecognition → d'.state = .readyForReview → d'.amount.isSome = true
  date : d.transactionDate.isSome = true → d'.transactionDate.isSome = true
  amount : d.amount.isSome = true → d'.amount.isSome = true
  positive : (∀ m ∈ d.amount, 0 < m.minorUnits) → ∀ m ∈ d'.amount, 0 < m.minorUnits

/-- A value that recognition may fill is still there afterwards. -/
lemma recognized_isSome_of_isSome {α : Type} {value current : Option α}
    {s : Option DraftFieldSource} (h : current.isSome = true) :
    (CaptureDraft.recognized value (current, s)).1.isSome = true := by
  unfold CaptureDraft.recognized
  cases value with
  | none => exact h
  | some v =>
    dsimp only
    split_ifs
    · rfl
    · exact h

/-- A value after recognition is the recognized one or the one before. -/
lemma mem_recognized {α : Type} {value current : Option α} {s : Option DraftFieldSource} {a : α}
    (h : a ∈ (CaptureDraft.recognized value (current, s)).1) : a ∈ value ∨ a ∈ current := by
  unfold CaptureDraft.recognized at h
  cases value with
  | none => exact .inr h
  | some v =>
    dsimp only at h
    split_ifs at h
    · exact .inl h
    · exact .inr h

variable [PythonRuntime]

/-- Applying the outcome of an attempt recovers the draft.

**Proof sketch.** A failed attempt lets the user go on by hand, and a result fills the draft in;
both are operations of the draft, and the cases are whether it still awaited the recognition. -/
lemma applyOutcome_recovered {d d' : CaptureDraft} {result : Option RecognitionResult}
    {now : Instant} (hopen : d.isOpen = true) (h : applyOutcome d result now = .ok d') :
    Recovered d d' := by
  cases result with
  | none =>
    have h' : d.continueManually d.ownerId (Instant.toDateTime now) = .ok d' := h
    have hrev := continueManually_revised hopen h'
    obtain ⟨-, -, rfl⟩ := CaptureDraft.continueManually_eq_ok h'
    by_cases hs : d.state = .awaitingRecognition
    · rw [if_neg (by simp [hs])] at hrev ⊢
      exact ⟨hrev, by simp, rfl, fun h => absurd hs h, by simp, id, id, id⟩
    · rw [if_pos hs] at hrev ⊢
      exact ⟨hrev, hs, hopen, fun _ => rfl, fun h => absurd h hs, id, id, id⟩
  | some r =>
    have h' : d.applyRecognition r uncategorizedKey (Instant.toDateTime now) = .ok d' := h
    have hrev := applyRecognition_revised h'
    obtain ⟨-, -, -, -, -, rfl⟩ := CaptureDraft.applyRecognition_eq_ok h'
    have hstate : (d.filled r uncategorizedKey).state = d.state := rfl
    have hamount : (d.filled r uncategorizedKey).amount =
        (CaptureDraft.recognized r.total (d.amount, d.amountSource)).1 := rfl
    have hafter : d.state = .awaitingRecognition →
        ((d.filled r uncategorizedKey).stateAfterRecognition = .readyForReview ∧
          (d.filled r uncategorizedKey).amount.isSome = true) ∨
        (d.filled r uncategorizedKey).stateAfterRecognition = .collecting := by
      intro hs
      unfold CaptureDraft.stateAfterRecognition
      rw [hstate, if_pos hs]
      split_ifs with hb
      · exact .inl ⟨rfl, by simpa using (Bool.and_eq_true _ _ ▸ hb).1⟩
      · exact .inr rfl
    have hkept : d.state ≠ .awaitingRecognition →
        (d.filled r uncategorizedKey).stateAfterRecognition = d.state := by
      intro hs
      unfold CaptureDraft.stateAfterRecognition
      rw [hstate, if_neg hs]
    refine ⟨hrev, ?_, ?_, hkept, ?_, ?_, ?_, ?_⟩
    · show (d.filled r uncategorizedKey).stateAfterRecognition ≠ _
      by_cases hs : d.state = .awaitingRecognition
      · rcases hafter hs with ⟨h, -⟩ | h <;> simp [h]
      · rw [hkept hs]
        exact hs
    · show decide ((d.filled r uncategorizedKey).stateAfterRecognition ∈ _) = true
      by_cases hs : d.state = .awaitingRecognition
      · rcases hafter hs with ⟨h, -⟩ | h <;> simp [h, CaptureDraft.openStates]
      · rw [hkept hs]
        exact hopen
    · intro hs hready
      rcases hafter hs with ⟨-, h⟩ | h
      · exact h
      · have hready' : (d.filled r uncategorizedKey).stateAfterRecognition = .readyForReview :=
          hready
        rw [h] at hready'
        cases hready'
    · exact recognized_isSome_of_isSome
    · exact recognized_isSome_of_isSome
    · intro hpos m hm
      rcases mem_recognized (hamount ▸ hm) with hm | hm
      · exact r.total_pos m hm
      · exact hpos m hm

/-- A draft that was not waiting matches its conversation after recognition too.

**Proof sketch.** A draft that collects has collected before, so its conversation awaits what it
awaited; none awaits the recognition any more; and one that is ready has its amount and its date by
its own checks. -/
lemma Recovered.paired {d d' : CaptureDraft} {c : TelegramConversation} (h : Recovered d d')
    (hp : Paired d c) (hs : d.state ≠ .awaitingRecognition ∨ d'.state = .readyForReview) :
    Paired d' c where
  owner := h.revised.ownerId.trans hp.owner
  active := by rw [hp.active, h.revised.id]
  isOpen := h.isOpen
  date := h.date hp.date
  positive := h.positive hp.positive
  collecting hcol := by
    have hne : d.state ≠ .awaitingRecognition := by
      rcases hs with hs | hs
      · exact hs
      · rw [hs] at hcol
        cases hcol
    rcases hp.collecting ((h.kept hne).symm.trans hcol) with ha | ⟨hw, hamount⟩
    · exact .inl ha
    · exact .inr ⟨hw, h.amount hamount⟩
  waiting hw := absurd hw h.recognized
  ready hready := by
    by_cases hd : d.state = .awaitingRecognition
    · exact h.ready hd hready
    · exact h.amount (hp.ready ((h.kept hd).symm.trans hready))

namespace WorkerRules

open Rules

variable {K : Type} {R : WorkerRules K} {φ : Stage} {k : K}

/-! ## Bookkeeping -/

/-- A bookkeeping statement is followed by the rest of the program. -/
lemma wp_book {α : Type} {o : Stmt} {f : o.Resp → Program α} {Q : α → K → Prop}
    (ho : Bookkeeping o) (h : R.inStage .idle k)
    (hf : ∀ r k', R.inStage .idle k' → (f r).wp R.logic Q k') :
    (execute o >>= f).wp R.logic Q k :=
  wp_then (R.books ho h fun r k' _ hk => hf r k' hk)

/-- The end of a transaction. -/
lemma wp_commit {α : Type} {p : Program α} {Q : α → K → Prop} (hφ : φ.Settled)
    (h : R.inStage φ k) (hp : ∀ k', R.inStage .ended k' → p.wp R.logic Q k') :
    (commit >>= fun _ => p).wp R.logic Q k :=
  (wp_bind _ _).mpr (R.commits hφ h hp)

lemma wp_chatFor (h : R.inStage φ k) (user : UUID) :
    (chatFor user).wp R.logic (fun _ k' => R.inStage φ k') k := by
  unfold chatFor
  exact wp_then (R.reads rfl h fun r k₁ _ h₁ => h₁)

/-- The loop over the receipts of a claim comes back to where it began. -/
lemma wp_delayNotices (now : Instant) (claimed : List (UUID × UUID)) :
    ∀ {k : K}, R.inStage .idle k →
      (delayNotices now claimed).wp R.logic (fun _ k' => R.inStage .idle k') k := by
  induction claimed with
  | nil => exact fun h => h
  | cons p claimed ih =>
    intro k h
    obtain ⟨receiptId, ownerId⟩ := p
    unfold delayNotices
    refine wp_book (.lockConversation ownerId now) h fun c k₁ h₁ => ?_
    refine wp_book (.draftOfReceipt receiptId) h₁ fun d k₂ h₂ => ?_
    dsimp only
    cases Option.filter (fun d => decide (d.state = CaptureDraftState.awaitingRecognition) &&
      decide (TelegramConversation.activeDraftId c = some d.id)) d with
    | none => exact ih h₂
    | some draft =>
      refine wp_bind_of (wp_chatFor h₂ ownerId) fun chat k₃ h₃ => ?_
      refine wp_bind_of (ih h₃) fun notices k₄ h₄ => ?_
      cases chat <;> exact h₄

/-- Messages are sent after the commit. -/
lemma wp_sendMessages (h : R.inStage .ended k) (items : List Outgoing) :
    (sendMessages items).wp R.logic (fun _ k' => R.inStage .ended k') k := by
  induction items with
  | nil => exact h
  | cons item items ih => exact (wp_bind _ _).mpr (R.sends h ih)

lemma wp_sendDelayNotices (h : R.inStage .idle k) :
    sendDelayNotices.wp R.logic (fun _ k' => R.inStage .idle k') k := by
  unfold sendDelayNotices
  refine (wp_bind _ _).mpr (wp_time fun now => ?_)
  refine wp_book (.claimDelayNotices _ _ _) h fun claimed k₁ h₁ => ?_
  refine wp_bind_of (wp_delayNotices now claimed h₁) fun notices k₂ h₂ => ?_
  refine wp_commit .idle h₂ fun k₃ h₃ => ?_
  exact wp_mono _ (fun _ _ hk => R.resumes hk) (wp_sendMessages h₃ notices)

/-- A worker claims what it has selected, and comes back to where it began. -/
lemma wp_claimNext (h : R.inStage .idle k) :
    claimNext.wp R.logic (fun _ k' => R.inStage .idle k') k := by
  unfold claimNext
  refine (wp_bind _ _).mpr (wp_time fun now => ?_)
  refine wp_then (R.selects h (fun receipt k₁ h₁ => ?_) fun k₁ h₁ => ?_)
  · refine (wp_bind _ _).mpr (wp_newId fun attemptId => ?_)
    refine (wp_bind _ _).mpr (wp_checked fun claimed hclaim => ?_)
    refine wp_then (R.claimsReceipt h₁ hclaim fun k₂ h₂ => ?_)
    exact wp_commit .idle h₂ fun k₃ h₃ => R.resumes h₃
  · exact wp_commit .idle h₁ fun k₂ h₂ => R.resumes h₂

/-- Looking for the image of a receipt keeps the invariant.

**Proof sketch.** It reads, or it stores a new image of a receipt that is there, which is
bookkeeping. -/
lemma wp_imageFor (h : R.inStage .idle k) (receipt : Receipt) :
    (imageFor receipt).wp R.logic (fun _ k' => R.inStage .idle k') k := by
  unfold imageFor
  refine wp_then (R.reads rfl h fun image k₁ _ h₁ => ?_)
  cases image with
  | some image => exact h₁
  | none =>
    refine wp_then (R.reads rfl h₁ fun file k₂ _ h₂ => ?_)
    cases file with
    | none => exact h₂
    | some file =>
      refine (wp_bind _ _).mpr (wp_input.mpr fun reading => ?_)
      cases reading.download.bind fun content =>
          (sniffMediaType content).map fun mediaType => (mediaType, content) with
      | none => exact h₂
      | some p =>
        obtain ⟨mediaType, content⟩ := p
        refine (wp_bind _ _).mpr (wp_time fun now => ?_)
        refine wp_book (.lockReceipt receipt.id) h₂ fun present k₃ h₃ => ?_
        split_ifs
        · refine wp_book (.createImage _) h₃ fun _ k₄ h₄ => ?_
          exact wp_commit .idle h₄ fun k₅ h₅ => R.resumes h₅
        · exact wp_commit .idle h₃ fun k₄ h₄ => R.resumes h₄

lemma wp_waitSlices (slices : ℕ) : ∀ {k : K}, R.inStage .idle k →
    (waitSlices slices).wp R.logic (fun _ k' => R.inStage .idle k') k := by
  induction slices with
  | zero => exact fun h => h
  | succ slices ih => exact fun h => wp_bind_of (wp_sendDelayNotices h) fun _ _ hk => ih hk

lemma wp_recognize (h : R.inStage .idle k) :
    recognize.wp R.logic (fun _ k' => R.inStage .idle k') k := by
  unfold recognize
  refine (wp_bind _ _).mpr (wp_input.mpr fun reading => ?_)
  exact wp_bind_of (wp_waitSlices reading.slices h) fun _ _ hk => hk

/-- A notification reads only. -/
lemma wp_notify (h : R.inStage .ended k) (user : UUID) (outcome : ReceiptOutcome)
    (c : TelegramConversation) (d : CaptureDraft) :
    (notify user outcome c d).wp R.logic (fun _ k' => R.inStage .ended k') k := by
  unfold notify
  refine wp_bind_of (wp_chatFor h user) fun chat k₁ h₁ => ?_
  cases chat with
  | none => exact h₁
  | some chat =>
    dsimp only
    split_ifs
    · exact wp_bind_of (wp_reviewReply h₁ chat c d) fun _ _ hk => R.sends hk hk
    · exact R.sends h₁ h₁
    · exact R.sends h₁ h₁

/-! ## Finishing a receipt -/

variable {c : TelegramConversation} {d d' : CaptureDraft}

/-- The result of an attempt is stored for the receipt the attempt finished.

**Proof sketch.** Nothing is stored without an answer or a user; a result that is stored belongs to
the attempt that the receipt was finished by. -/
lemma wp_storeResult {finished receipt : Receipt} (hφ : φ.Looked finished) (h : R.inStage φ k)
    (hid : finished.id = receipt.id) {attemptId : UUID} (hatt : finished.attemptId = some attemptId)
    (output : Option (RecognitionOutput Binary64)) (user : Option User) (now : Instant) :
    (storeResult receipt attemptId output user now).wp R.logic
      (fun _ k' => R.inStage φ k') k := by
  unfold storeResult
  cases output with
  | none => exact h
  | some output =>
    cases user with
    | none => exact h
    | some user =>
      refine (wp_bind _ _).mpr (wp_raising fun values _ => ?_)
      refine (wp_bind _ _).mpr (wp_newId fun resultId => ?_)
      refine (wp_bind _ _).mpr (wp_checked fun result hres => ?_)
      obtain ⟨hr, ha⟩ : result.receiptId = receipt.id ∧ result.attemptId = attemptId := by
        unfold RecognitionResult.forAttempt at hres
        split_ifs at hres
        cases hres
        exact ⟨rfl, rfl⟩
      have hsave : ∀ {F : Unit → Program (Option RecognitionResult)}, (∀ k₁, R.inStage φ k₁ →
          (F ()).wp R.logic (fun _ k' => R.inStage φ k') k₁) →
          (execute (.saveResult result) >>= F).wp R.logic (fun _ k' => R.inStage φ k') k :=
        fun hF => wp_then (R.stores hφ (hr.trans hid.symm) (ha ▸ hatt) h hF)
      generalize values.merchant.map sentName = sent
      rcases sent with _ | (e | name)
      · exact hsave fun k₁ h₁ => h₁
      · exact R.raises _ _
      · exact hsave fun k₁ h₁ => h₁

/-- After a late result the draft may be saved once more, with the next question.

**Proof sketch.** Cases as in the source: the draft is no longer active or unchanged, it is shown
again, or the conversation moves on from the amount, which saves the draft once more
(`wp_advance`). -/
lemma wp_lateReplies (h : R.inStage (.updated c d d') k) (hrec : Recovered d d')
    (hs : d.state ≠ .awaitingRecognition) (receipt : Receipt) (user : Option User) :
    (lateReplies receipt user c d d').wp R.logic (fun _ => R.Ends) k := by
  have hend : ∀ {k'}, R.inStage (.updated c d d') k' → R.Ends k' := fun h' =>
    ⟨.done, .done, R.settles h' fun hp => hrec.paired hp (.inl hs)⟩
  unfold lateReplies
  cases user with
  | none => exact hend h
  | some user =>
    refine wp_bind_of (wp_chatFor h receipt.ownerId) fun chat k₁ h₁ => ?_
    cases chat with
    | none => exact hend h₁
    | some chat =>
      show Prog.wp R.logic (afterLateResult user chat c d d') _ k₁
      unfold afterLateResult
      split_ifs with hactive hready hcol
      · exact hend h₁
      · exact wp_bind_of (wp_reviewReply h₁ chat c d') fun _ _ hk => hend hk
      · have ha : c.activeDraftId = some d'.id := by
          by_contra hne
          exact hactive (.inl hne)
        refine wp_advance h₁ (.inr hrec.revised) (.refl hrec.isOpen) ha (.inl rfl) fun hp => ?_
        exact ⟨hrec.isOpen, hrec.recognized, hrec.date hp.date, hcol.2.2,
          hrec.positive hp.positive⟩
      · exact hend h₁

/-- The outcome of an attempt is applied to the draft, and the conversation moves on with it.

**Proof sketch.** The outcome is applied and the draft saved. What follows depends on whether it
awaited the recognition: then the conversation is settled with it, and otherwise the result is late
(`wp_lateReplies`). Each end commits before it tells anyone (`hlast`). -/
lemma wp_finishDraft {finished : Receipt} (h : R.inStage (.recovering finished c d) k)
    (hopen : d.isOpen = true) (receipt : Receipt) (user : Option User)
    (result : Option RecognitionResult) (now : Instant) :
    (finishDraft receipt user c d result now).wp R.logic (fun _ _ => True) k := by
  unfold finishDraft
  refine (wp_bind _ _).mpr (wp_checked fun d' hd => ?_)
  have hrec := applyOutcome_recovered hopen hd
  refine wp_then (R.applies h hrec.revised hrec.recognized fun k₁ h₁ => ?_)
  -- The end of the transaction, once the conversation is settled.
  have hlast : ∀ {k'} (c' : TelegramConversation) (replies : List Outgoing) (told : Prop)
      [Decidable told] (outcome : ReceiptOutcome), R.Ends k' →
      (do
        commit
        if told then do
          notify receipt.ownerId outcome c' d'
          sendMessages replies
          return outcome
        else do
          sendMessages replies
          return outcome : Program ReceiptOutcome).wp R.logic (fun _ _ => True) k' := by
    rintro k' c' replies told _ outcome ⟨φ, hφ, hk⟩
    refine wp_commit hφ hk fun k₂ h₂ => ?_
    split_ifs
    · refine wp_bind_of (wp_notify h₂ _ _ _ _) fun _ k₃ h₃ => ?_
      exact wp_bind_of (wp_sendMessages h₃ replies) fun _ _ _ => trivial
    · exact wp_bind_of (wp_sendMessages h₂ replies) fun _ _ _ => trivial
  generalize ho : outcomeFor result (decide (d.state = .awaitingRecognition)) d' = outcome
  dsimp only
  by_cases hlate : outcome = .lateResult
  · rw [if_pos hlate]
    have hs : d.state ≠ .awaitingRecognition := by
      intro hs
      rw [hlate, outcomeFor] at ho
      simp only [hs, decide_true, Bool.not_true, Bool.false_eq_true, if_false] at ho
      split_ifs at ho
    refine wp_bind_of (wp_lateReplies h₁ hrec hs receipt user) fun replies k₂ h₂ => ?_
    rw [if_neg (by simp [hs])]
    exact hlast c replies _ outcome h₂
  · rw [if_neg hlate, pure_bind]
    by_cases hsave : decide (c.activeDraftId = some d'.id) = true ∧
        decide (d.state = .awaitingRecognition) = true ∧ outcome ≠ .readyForReview
    · rw [if_pos hsave]
      have hs : d.state = .awaitingRecognition := of_decide_eq_true hsave.2.1
      refine (wp_bind _ _).mpr (wp_checked fun c' hc => ?_)
      obtain ⟨hu, ha, hw, -⟩ := TelegramConversation.waitingFor_eq_ok hc
      refine wp_then (R.saves h₁ hu ha (fun hp => ?_) fun k₂ h₂ => ?_)
      · exact ⟨hrec.revised.ownerId.trans (hp.owner.trans hu.symm),
          by rw [ha, hp.active, hrec.revised.id], hrec.isOpen, hrec.date hp.date,
          hrec.positive hp.positive, fun _ => .inl hw, fun h => absurd h hrec.recognized,
          hrec.ready hs⟩
      · exact hlast c' [] _ outcome ⟨.done, .done, h₂⟩
    · rw [if_neg hsave]
      refine hlast c [] _ outcome ⟨.done, .done, R.settles h₁ fun hp => hrec.paired hp ?_⟩
      -- The conversation stays only if the draft is ready for review.
      by_cases hs : d.state = .awaitingRecognition
      · right
        have ha : decide (c.activeDraftId = some d'.id) = true :=
          decide_eq_true (by rw [hp.active, hrec.revised.id])
        have hready : outcome = .readyForReview := by
          by_contra hne
          exact hsave ⟨ha, decide_eq_true hs, hne⟩
        rw [hready, outcomeFor] at ho
        split_ifs at ho with _ _ hd'
        exact hd'
      · exact .inl hs

omit [PythonRuntime] in
/-- What the worker makes of a receipt it finishes. -/
lemma finished_eq_ok {receipt finished : Receipt} {attemptId : UUID} {now : Instant}
    {failed : Prop} [Decidable failed]
    (h : (if failed then receipt.fail attemptId now else receipt.complete attemptId now) =
      .ok finished) :
    finished.id = receipt.id ∧ finished.ownerId = receipt.ownerId ∧
      finished.attemptId = some attemptId ∧ finished.isFinished = true := by
  split_ifs at h
  · obtain ⟨-, ha, rfl⟩ := Receipt.finish_eq_ok h
    exact ⟨rfl, rfl, ha, rfl⟩
  · obtain ⟨-, ha, rfl⟩ := Receipt.finish_eq_ok h
    exact ⟨rfl, rfl, ha, rfl⟩

/-- **Finishing a receipt.**

**Proof sketch.** The receipt is finished if its attempt is still the current one, and its
conversation and draft are then locked in order; an open draft gets the outcome (`wp_finishDraft`),
and every other end rolls back or commits what it has. -/
lemma wp_finishReceipt (h : R.inStage .idle k) (receipt : Receipt)
    (ht : R.trusted receipt.id receipt.ownerId) (attemptId : UUID)
    (output : Option (RecognitionOutput Binary64)) :
    (finishReceipt receipt attemptId output).wp R.logic (fun _ _ => True) k := by
  unfold finishReceipt
  refine (wp_bind _ _).mpr (wp_time fun now => ?_)
  refine wp_then (R.reads rfl h fun user k₁ _ h₁ => ?_)
  refine (wp_bind _ _).mpr (wp_checked fun finished hfin => ?_)
  obtain ⟨hid, hown, hatt, hdone⟩ := finished_eq_ok hfin
  refine wp_then (R.finishesReceipt h₁ hdone (by rwa [hid, hown]) (fun k₂ h₂ => ?_) fun k₂ h₂ => ?_)
  swap
  · exact (wp_bind _ _).mpr (R.rollbacks h₂ fun _ => trivial)
  rw [if_pos rfl, ← hown]
  refine wp_then (R.locksFinishing h₂ fun c k₃ hu h₃ => ?_)
  rw [← hid]
  refine wp_then (R.recovers h₃ (fun d k₄ hr ho h₄ => ?_) fun x k₄ hx h₄ => ?_)
  · refine wp_bind_of (wp_storeResult (.recovering c d) h₄ hid hatt output user now)
      fun result k₅ h₅ => ?_
    rw [Option.filter_some_pos ho]
    exact wp_finishDraft h₅ ho receipt user result now
  · refine wp_bind_of (wp_storeResult .drained h₄ hid hatt output user now)
      fun result k₅ h₅ => ?_
    rw [hx]
    exact wp_commit (.drained finished) h₅ fun _ _ => trivial

/-- A receipt that was claimed is finished with or without a reading. -/
lemma wp_processReceipt (h : R.inStage .idle k) (receipt : Receipt)
    (ht : R.trusted receipt.id receipt.ownerId) (attemptId : UUID) :
    (processReceipt receipt attemptId).wp R.logic (fun _ _ => True) k := by
  unfold processReceipt
  refine wp_bind_of (wp_imageFor h receipt) fun found k₁ h₁ => ?_
  cases found with
  | vanished => trivial
  | unreadable => exact wp_finishReceipt h₁ receipt ht attemptId none
  | image =>
    exact wp_bind_of (wp_recognize h₁) fun output k₂ h₂ =>
      wp_finishReceipt h₂ receipt ht attemptId output

/-- **A round of the worker** keeps to the protocol. -/
theorem wp_processNext (h : R.inStage .idle k) (ht : ∀ id owner, R.trusted id owner) :
    processNext.wp R.logic (fun _ _ => True) k := by
  unfold processNext
  refine wp_bind_of (wp_sendDelayNotices h) fun _ k₁ h₁ => ?_
  refine wp_bind_of (wp_claimNext h₁) fun receipt k₂ h₂ => ?_
  cases receipt with
  | none => trivial
  | some receipt =>
    dsimp only
    cases receipt.attemptId with
    | none => trivial
    | some attemptId =>
      exact wp_bind_of (wp_processReceipt h₂ receipt (ht _ _) attemptId) fun _ _ _ => trivial

end WorkerRules

end MintFlow
