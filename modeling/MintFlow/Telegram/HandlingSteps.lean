import MintFlow.Telegram.Handling

set_option relaxedAutoImplicit false
set_option autoImplicit false

/-!
# The handlers follow the protocol

Each handler of the capture flow, from the stage it starts at, keeps to the rules and ends at a
stage that may be committed. The proofs follow the handlers; the only facts about them that matter
are how they revise the draft and what the saved conversation waits for.

## Main results

* `MintFlow.Rules.wp_advance`, `wp_showReview` — saving an edited draft.
* `MintFlow.HandlerRules.wp_onText`, `wp_onMedia`, `wp_onCommand`, `wp_onCallback` — the entry
  points.
* `MintFlow.HandlerRules.wp_handleUpdate` — a whole update.
-/

namespace MintFlow

open Transact Transact.Prog

/-! ## Revisions -/

section Revisions

variable [PythonRuntime] {d d' d₁ d₂ d₃ : CaptureDraft} {caller : UUID} {now : DateTime}

omit [PythonRuntime] in
/-- An open draft is not confirmed. -/
lemma ne_confirmed_of_isOpen (h : d.isOpen = true) : d.state ≠ .confirmed := by
  intro hs
  simp [CaptureDraft.isOpen, CaptureDraft.openStates, hs] at h

omit [PythonRuntime] in
/-- An open draft is collecting, waiting for recognition, or in review. -/
lemma isOpen_cases (h : d.isOpen = true) :
    d.state = .collecting ∨ d.state = .awaitingRecognition ∨ d.state = .readyForReview := by
  simpa [CaptureDraft.isOpen, CaptureDraft.openStates] using h

/-- An open draft is a revision of itself. -/
lemma Revised.refl (h : d.isOpen = true) : Revised d d where
  isOpen := h
  id := rfl
  ownerId := rfl
  source := rfl
  receiptId := rfl
  createdAt := rfl
  unconfirmed := ne_confirmed_of_isOpen h
  waits hs := hs
  expenseId := rfl
  confirmedAt := rfl
  category := .inl rfl

/-- A revision of a revision is one of the first draft. -/
lemma Revised.trans (h : Revised d₁ d₂) (h' : Revised d₂ d₃) : Revised d₁ d₃ where
  isOpen := h.isOpen
  id := h'.id.trans h.id
  ownerId := h'.ownerId.trans h.ownerId
  source := h'.source.trans h.source
  receiptId := h'.receiptId.trans h.receiptId
  createdAt := h'.createdAt.trans h.createdAt
  unconfirmed := h'.unconfirmed
  waits hs := h.waits (h'.waits hs)
  expenseId := h'.expenseId.trans h.expenseId
  confirmedAt := h'.confirmedAt.trans h.confirmedAt
  category := by
    rcases h'.category with hc | hc
    · rw [hc]
      exact h.category
    · exact .inr hc

lemma setAmount_revised {m : Money} {s : DraftFieldSource}
    (h : d.setAmount caller m now s = .ok d') : Revised d d' := by
  obtain ⟨-, hopen, rfl⟩ := CaptureDraft.setAmount_eq_ok h
  exact { Revised.refl hopen with }

lemma setTransactionDate_revised {v : TransactionDate} {s : DraftFieldSource}
    (h : d.setTransactionDate caller v now s = .ok d') : Revised d d' := by
  obtain ⟨-, hopen, rfl⟩ := CaptureDraft.setTransactionDate_eq_ok h
  exact { Revised.refl hopen with }

lemma setMerchant_revised {v : MerchantName} {s : DraftFieldSource}
    (h : d.setMerchant caller v now s = .ok d') : Revised d d' := by
  obtain ⟨-, hopen, rfl⟩ := CaptureDraft.setMerchant_eq_ok h
  exact { Revised.refl hopen with }

lemma setCategoryKey_revised {key : String} {s : DraftFieldSource}
    (h : d.setCategoryKey caller key now s = .ok d') : Revised d d' := by
  obtain ⟨-, hopen, hkey, rfl⟩ := CaptureDraft.setCategoryKey_eq_ok h
  exact { Revised.refl hopen with category := .inr ⟨key, rfl, hkey⟩ }

lemma setNote_revised {n : Option String} (h : d.setNote caller n now = .ok d') :
    Revised d d' := by
  obtain ⟨-, hopen, rfl⟩ := CaptureDraft.setNote_eq_ok h
  exact { Revised.refl hopen with }

lemma markReadyForReview_revised (h : d.markReadyForReview caller now = .ok d') :
    Revised d d' := by
  obtain ⟨-, hs, -, rfl⟩ := CaptureDraft.markReadyForReview_eq_ok h
  have hopen : d.isOpen = true := by simp [CaptureDraft.isOpen, CaptureDraft.openStates, hs]
  exact { Revised.refl hopen with unconfirmed := by simp, waits := by simp }

lemma cancel_revised (h : d.cancel caller now = .ok d') : Revised d d' := by
  obtain ⟨-, hopen, -, rfl⟩ := CaptureDraft.cancel_eq_ok h
  exact { Revised.refl hopen with unconfirmed := by simp, waits := by simp }

lemma continueManually_revised (hopen : d.isOpen = true)
    (h : d.continueManually caller now = .ok d') : Revised d d' := by
  obtain ⟨-, -, rfl⟩ := CaptureDraft.continueManually_eq_ok h
  split_ifs
  · exact .refl hopen
  · exact { Revised.refl hopen with unconfirmed := by simp, waits := by simp }

/-- Applying a result revises the draft.

**Proof sketch.** The fields are filled in, and the state that follows is never the confirmed one
and waits for nothing that the draft did not wait for. -/
lemma applyRecognition_revised {r : RecognitionResult} {key : String}
    (h : d.applyRecognition r key now = .ok d') : Revised d d' := by
  obtain ⟨-, -, -, hopen, hkey, rfl⟩ := CaptureDraft.applyRecognition_eq_ok h
  refine { Revised.refl hopen with unconfirmed := ?_, waits := ?_, category := ?_ }
  · intro hs
    have hs' : (d.filled r key).stateAfterRecognition = .confirmed := hs
    unfold CaptureDraft.stateAfterRecognition at hs'
    have hf : (d.filled r key).state = d.state := rfl
    rw [hf] at hs'
    split_ifs at hs'
    exact ne_confirmed_of_isOpen hopen hs'
  · intro hs
    have hs' : (d.filled r key).stateAfterRecognition = .awaitingRecognition := hs
    unfold CaptureDraft.stateAfterRecognition at hs'
    have hf : (d.filled r key).state = d.state := rfl
    rw [hf] at hs'
    split_ifs at hs'
    exact hs'
  · show (d.filled r key).categoryKey = _ ∨ ∃ k, (d.filled r key).categoryKey = some k ∧ _
    unfold CaptureDraft.filled CaptureDraft.fillCategory
    dsimp only
    split_ifs
    · exact .inr ⟨key, rfl, hkey⟩
    · exact .inl rfl

/-- The update of a revised draft writes it as it is. -/
lemma Revised.written {db : Database} {ws : List Write} {u : Unit} (h : Revised d d')
    (hfind : db.drafts.find d.id = some d) (hupd : db.updateDraft d' = .ok (u, ws)) :
    ws = [.draft d'] ∧ d'.TextsFit ∧ d'.Consistent ∧ db.hasUser d'.ownerId = true ∧
      ∀ r ∈ d'.recognitionResultId, db.hasResult r = true := by
  rcases Database.updateDraft_eq_ok hupd with
    ⟨hnone, -⟩ | ⟨row, hrow, htexts, hcons, hu, -, hres, rfl⟩
  · rw [h.id, hfind] at hnone
    cases hnone
  · rw [h.id] at hrow
    obtain rfl : row = d := Option.some.inj (hrow.symm.trans hfind)
    have hd : Database.updatedDraft row d' = d' := by
      have h₁ := h.createdAt
      have h₂ := h.receiptId
      cases d'
      simp_all [Database.updatedDraft]
    rw [hd] at hcons ⊢
    exact ⟨rfl, htexts, hcons, hu, hres⟩

omit [PythonRuntime] in
/-- A matching conversation that waits for anything but the amount has a draft with an amount. -/
lemma Paired.amount_isSome {c : TelegramConversation} (hp : Paired d c)
    (hn : c.awaiting ≠ .nothing) (ha : c.awaiting ≠ .amount) :
    d.state ≠ .awaitingRecognition ∧ d.amount.isSome = true := by
  rcases isOpen_cases hp.isOpen with hs | hs | hs
  · refine ⟨by simp [hs], ?_⟩
    rcases hp.collecting hs with h | ⟨-, h⟩
    · exact absurd h ha
    · exact h
  · exact absurd (hp.waiting hs) hn
  · exact ⟨by simp [hs], hp.ready hs⟩

end Revisions

/-! ## Reading -/

namespace Rules

variable [PythonRuntime] {K : Type} (R : Rules K) {φ : Stage} {k : K}

/-- The transaction is at a stage that may be committed. -/
def Ends (k : K) : Prop := ∃ φ : Stage, φ.Settled ∧ R.inStage φ k

variable {R}

lemma wp_time {Q : Instant → K → Prop} (h : ∀ now, Q now k) :
    clock.wp R.logic Q k :=
  fun reading => h reading.now

lemma wp_newId {Q : UUID → K → Prop} (h : ∀ id, Q id k) : uuid4.wp R.logic Q k :=
  fun reading => h reading.uuid

/-- Code that may raise either returns or raises, and raising is always allowed. -/
lemma wp_checked {α : Type} {x : Checked α} {Q : α → K → Prop} (h : ∀ a, x = .ok a → Q a k) :
    (checked x).wp R.logic Q k := by
  cases x with
  | ok a => exact h a rfl
  | error e => exact R.raises _ _

lemma wp_raising {α : Type} {x : Except Raised α} {Q : α → K → Prop}
    (h : ∀ a, x = .ok a → Q a k) : (raising x).wp R.logic Q k := by
  cases x with
  | ok a => exact h a rfl
  | error e => exact R.raises _ _

/-- A statement is followed by the rest of the program. -/
lemma wp_then {α : Type} {o : Stmt} {f : o.Resp → Program α} {Q : α → K → Prop}
    (h : R.logic.stmt o k fun r k' => (f r).wp R.logic Q k') :
    (execute o >>= f).wp R.logic Q k :=
  (wp_bind _ _).mpr h

lemma wp_categoryKeyboard (h : R.inStage φ k) (d : CaptureDraft) :
    (categoryKeyboard d).wp R.logic (fun _ k' => R.inStage φ k') k := by
  unfold categoryKeyboard
  refine wp_then (R.reads rfl h fun r k' _ hk => ?_)
  exact (wp_bind _ _).mpr (wp_checked fun _ _ => hk)

lemma wp_reviewCard (h : R.inStage φ k) (c : TelegramConversation) (d : CaptureDraft) :
    (reviewCard c d).wp R.logic (fun _ k' => R.inStage φ k') k := by
  unfold reviewCard
  exact wp_then (R.reads rfl h fun r k' _ hk => hk)

lemma wp_reviewReply (h : R.inStage φ k) (chat : ℤ) (c : TelegramConversation)
    (d : CaptureDraft) : (reviewReply chat c d).wp R.logic (fun _ k' => R.inStage φ k') k :=
  wp_bind_of (wp_reviewCard h c d) fun _ _ hk => hk

/-- The prompt for what a draft lacks only reads. -/
lemma wp_promptFor (h : R.inStage φ k) (chat : ℤ) (c : TelegramConversation) (d : CaptureDraft) :
    (promptFor chat c d).wp R.logic (fun _ k' => R.inStage φ k') k := by
  unfold promptFor
  by_cases hs : d.state = .awaitingRecognition
  · rw [if_pos hs]
    exact h
  · rw [if_neg hs]
    cases c.awaiting with
    | category => exact wp_bind_of (wp_categoryKeyboard h d) fun _ _ hk => hk
    | nothing => exact wp_bind_of (wp_reviewReply h chat c d) fun _ _ hk => hk
    | _ => exact h

/-! ## Saving an edited draft -/

variable {c c₁ : TelegramConversation} {d d₁ d₂ : CaptureDraft} {user : User} {chat : ℤ}

/-- The review card is shown after the draft and a conversation that waits for nothing were
saved. -/
lemma wp_showReview (h : R.inStage (.updated c d d₁) k) (hrev : Revised d₁ d₂)
    (huser : c₁.userId = c.userId) (hactive : c₁.activeDraftId = c.activeDraftId)
    (hpair : Paired d c → ∀ c', c'.userId = c.userId → c'.activeDraftId = c.activeDraftId →
      c'.awaiting = .nothing → Paired d₂ c') (message : Option ℤ) :
    (showReview chat c₁ d₂ message).wp R.logic (fun _ => R.Ends) k := by
  unfold showReview
  refine (wp_bind _ _).mpr (wp_time fun now => ?_)
  refine (wp_bind _ _).mpr (wp_checked fun c' hc => ?_)
  obtain ⟨hu, ha, hw, -⟩ := TelegramConversation.waitingFor_eq_ok hc
  refine wp_then (R.revises h hrev fun k₁ h₁ => ?_)
  refine wp_then (R.saves h₁ (hu.trans huser) (ha.trans hactive)
    (fun hp => hpair hp c' (hu.trans huser) (ha.trans hactive) hw) fun k₂ h₂ => ?_)
  refine wp_bind_of (wp_reviewCard h₂ c' d₂) fun p k₃ h₃ => ?_
  cases message <;> exact ⟨.done, .done, h₃⟩

/-- What a revised draft must have for the conversation to ask for what comes next. -/
structure Advances (d d' : CaptureDraft) (c : TelegramConversation) : Prop where
  isOpen : d'.isOpen = true
  recognized : d'.state ≠ .awaitingRecognition
  date : d'.transactionDate.isSome = true
  amount : d'.amount.isSome = true
  positive : ∀ m ∈ d'.amount, 0 < m.minorUnits

/-- A draft with an amount matches a conversation that waits for what its state allows. -/
lemma Advances.paired (hp : Paired d c) (hrev : Revised d d₂) (h : Advances d d₂ c)
    {c' : TelegramConversation} (hu : c'.userId = c.userId)
    (ha : c'.activeDraftId = c.activeDraftId)
    (hw : d₂.state = .collecting → c'.awaiting = .merchant ∨ c'.awaiting = .category) :
    Paired d₂ c' where
  owner := hrev.ownerId.trans (hp.owner.trans hu.symm)
  active := by rw [ha, hp.active, hrev.id]
  isOpen := h.isOpen
  date := h.date
  positive := h.positive
  collecting hs := .inr ⟨hw hs, h.amount⟩
  waiting hs := absurd hs h.recognized
  ready _ := h.amount

omit [PythonRuntime] in
/-- The next question is for the merchant or the category. -/
lemma nextForReceipt_fst {next : AwaitingInput} (h : next = .merchant ∨ next = .category) :
    (nextForReceipt d next).1 = .merchant ∨ (nextForReceipt d next).1 = .category := by
  unfold nextForReceipt
  by_cases h₁ : d.state = .collecting ∧ d.receiptId.isSome
  · rw [if_pos h₁]
    dsimp only
    by_cases h₂ : next = .merchant ∧ d.merchant.isSome
    · exact .inr (if_pos h₂)
    · rw [if_neg h₂]
      exact h
  · rw [if_neg h₁]
    exact h

/-- What `_advance` does once the flag is set: ask for the next field, or show the review card. -/
def advanceWith (user : User) (chatId : ℤ) (conversation : TelegramConversation)
    (draft : CaptureDraft) (nextWhenCollecting : AwaitingInput) (now : Instant) :
    Program (List Outgoing) := do
  let (next, complete) := nextForReceipt draft nextWhenCollecting
  let draft ←
    if complete then checked (draft.markReadyForReview user.id (Instant.toDateTime now))
    else Pure.pure draft
  if draft.state = .collecting then do
    execute (.updateDraft draft)
    let conversation ← checked (conversation.waitingFor next now)
    execute (.saveConversation conversation)
    promptFor chatId conversation draft
  else showReview chatId conversation draft none

/-- With the flag set, a revised draft is saved and the next question asked, or the review card
shown.

**Proof sketch.** A complete draft is marked ready and shown; one that is not complete is saved, and
its conversation waits for what comes next. Either way the stage of the transaction passes from
holding the draft to having updated it and its conversation. -/
lemma wp_advanceWith {c₁ : TelegramConversation} {next : AwaitingInput} {now : Instant}
    (h : R.inStage (.updated c d d₁) k) (hrev₁ : d₁ = d ∨ Revised d d₁) (hrev : Revised d₁ d₂)
    (hu₁ : c₁.userId = c.userId) (ha₁ : c₁.activeDraftId = c.activeDraftId)
    (hnext : next = .merchant ∨ next = .category) (hadv : Paired d c → Advances d d₂ c) :
    (advanceWith user chat c₁ d₂ next now).wp R.logic (fun _ => R.Ends) k := by
  unfold advanceWith
  have hrev' : ∀ {d₃}, Revised d₁ d₃ → Revised d d₃ := by
    intro d₃ h₃
    rcases hrev₁ with rfl | h'
    · exact h₃
    · exact h'.trans h₃
  have hnext' := nextForReceipt_fst (d := d₂) hnext
  generalize hn : nextForReceipt d₂ next = n at hnext' ⊢
  obtain ⟨next', complete⟩ := n
  dsimp only at hnext' ⊢
  -- A complete draft moves on to review.
  have hready : ∀ d₃, d₂.markReadyForReview user.id (Instant.toDateTime now) = .ok d₃ →
      Revised d₁ d₃ ∧ d₃.state = .readyForReview ∧ (Paired d c → Advances d d₃ c) := by
    intro d₃ h₃
    have hr := markReadyForReview_revised h₃
    obtain ⟨-, -, -, rfl⟩ := CaptureDraft.markReadyForReview_eq_ok h₃
    refine ⟨hrev.trans hr, rfl, fun hp => ?_⟩
    obtain ⟨-, -, hd, ha, hpos⟩ := hadv hp
    exact ⟨rfl, by simp, hd, ha, hpos⟩
  have hreview : ∀ {d₃}, Revised d₁ d₃ → (Paired d c → Advances d d₃ c) →
      d₃.state ≠ .collecting →
      (showReview chat c₁ d₃ none).wp R.logic (fun _ => R.Ends) k := by
    intro d₃ hr hadv₃ hs
    exact wp_showReview h hr hu₁ ha₁ (fun hp c' hu ha _ => (hadv₃ hp).paired hp (hrev' hr) hu ha
      fun hcol => absurd hcol hs) none
  cases complete with
  | true =>
    refine (wp_bind _ _).mpr (wp_checked fun d₃ h₃ => ?_)
    obtain ⟨hr, hs, hadv₃⟩ := hready d₃ h₃
    rw [if_neg (by rw [hs]; decide)]
    exact hreview hr hadv₃ (by rw [hs]; decide)
  | false =>
    refine (wp_bind _ _).mpr ?_
    show Prog.wp R.logic (if d₂.state = .collecting then _ else _) _ k
    split_ifs with hs
    · refine wp_then (R.revises h hrev fun k₁ h₁ => ?_)
      refine (wp_bind _ _).mpr (wp_checked fun c' hc => ?_)
      obtain ⟨hu, ha, hw, -⟩ := TelegramConversation.waitingFor_eq_ok hc
      refine wp_then (R.saves h₁ (hu.trans hu₁) (ha.trans ha₁) (fun hp => ?_) fun k₂ h₂ => ?_)
      · exact (hadv hp).paired hp (hrev' hrev) (hu.trans hu₁) (ha.trans ha₁) fun _ => by
          rw [hw]
          exact hnext'
      · exact wp_mono _ (fun _ _ hk => ⟨.done, .done, hk⟩) (wp_promptFor h₂ chat c' d₂)
    · exact hreview hrev hadv hs

/-- **Advancing.** A revised draft is saved and the next question asked, or the review card
shown. -/
lemma wp_advance {next : AwaitingInput} {flag : Option Bool}
    (h : R.inStage (.updated c d d₁) k) (hrev₁ : d₁ = d ∨ Revised d d₁) (hrev : Revised d₁ d₂)
    (hactive : c.activeDraftId = some d₂.id) (hnext : next = .merchant ∨ next = .category)
    (hadv : Paired d c → Advances d d₂ c) :
    (advance user chat c d₂ next flag).wp R.logic (fun _ => R.Ends) k := by
  unfold advance
  refine (wp_bind _ _).mpr (wp_time fun now => ?_)
  cases flag with
  | none => exact wp_advanceWith h hrev₁ hrev rfl rfl hnext hadv
  | some flag => exact wp_advanceWith h hrev₁ hrev rfl hactive.symm hnext hadv

end Rules

namespace HandlerRules

open Rules

variable [PythonRuntime] {K : Type} {R : HandlerRules K} {φ : Stage} {k : K}
  {c : TelegramConversation} {d : CaptureDraft} {user : User} {chat : ℤ}

/-! ## Finding, cancelling and opening a draft -/

/-- Looking for the active draft leads to an open draft, or to a user without one. -/
lemma wp_activeDraft (h : R.inStage (.locked c) k) (hu : c.userId = user.id) :
    (activeDraft user c).wp R.logic (fun x k' =>
      (x = none ∧ R.inStage (.vacant user.id) k') ∨
        ∃ d, x = some d ∧ d.isOpen = true ∧ d.ownerId = user.id ∧
          c.activeDraftId = some d.id ∧ R.inStage (.holding c d) k') k := by
  unfold activeDraft
  cases hc : c.activeDraftId with
  | none => exact .inl ⟨rfl, hu ▸ R.vacates hc h⟩
  | some id =>
    rw [← hu]
    refine wp_then (R.finds h hc (fun d k₁ hid how ho h₁ => ?_) fun r k₁ hr h₁ => ?_)
    · rw [Option.filter_some_pos ho]
      exact .inr ⟨d, rfl, ho, how, by rw [hid], h₁⟩
    · rw [hr]
      refine (wp_bind _ _).mpr (wp_time fun now => ?_)
      exact wp_then (R.releases h₁ fun k₂ h₂ => .inl ⟨rfl, h₂⟩)

/-- Cancelling the active draft leaves the user without one. -/
lemma wp_cancelActive (h : R.inStage (.holding c d) k) (hu : c.userId = user.id)
    (ha : c.activeDraftId = some d.id) :
    (cancelActive user c d).wp R.logic (fun _ => R.inStage (.vacant user.id)) k := by
  unfold cancelActive
  refine (wp_bind _ _).mpr (wp_time fun now => ?_)
  refine (wp_bind _ _).mpr (wp_checked fun d' hd => ?_)
  have hrev := cancel_revised hd
  obtain ⟨-, -, -, rfl⟩ := CaptureDraft.cancel_eq_ok hd
  refine wp_then (R.revises (R.holds h) hrev fun k₁ h₁ => ?_)
  exact wp_then (R.cancels h₁ ha rfl fun k₂ h₂ => hu ▸ h₂)

/-- A draft the user types in is opened, and the conversation points at it. -/
lemma wp_createManualDraft (h : R.inStage (.vacant user.id) k) (hu : c.userId = user.id) :
    (createManualDraft user chat c).wp R.logic (fun _ => R.Ends) k := by
  unfold createManualDraft
  refine (wp_bind _ _).mpr (wp_time fun now => ?_)
  refine (wp_bind _ _).mpr (wp_raising fun today _ => ?_)
  refine (wp_bind _ _).mpr (wp_newId fun draftId => ?_)
  refine (wp_bind _ _).mpr (wp_checked fun d₀ h₀ => ?_)
  obtain ⟨-, rfl⟩ := CaptureDraft.start_eq_ok h₀
  refine (wp_bind _ _).mpr (wp_checked fun date _ => ?_)
  refine (wp_bind _ _).mpr (wp_checked fun d₁ h₁ => ?_)
  obtain ⟨-, -, rfl⟩ := CaptureDraft.setTransactionDate_eq_ok h₁
  refine wp_then (R.opens h ⟨rfl, rfl, rfl, rfl, rfl⟩ rfl rfl fun k₁ h₁ => ?_)
  refine wp_then (R.points h₁ ?_ hu fun k₂ h₂ => ⟨.done, .done, h₂⟩)
  exact ⟨hu.symm, rfl, rfl, rfl, by simp, fun _ => .inl rfl, by simp, by simp⟩

/-- A draft for a photo is opened with its receipt, and the conversation points at it. -/
lemma wp_createReceiptDraft (h : R.inStage (.vacant user.id) k) (hu : c.userId = user.id)
    (file : String) : (createReceiptDraft user chat c file).wp R.logic (fun _ => R.Ends) k := by
  unfold createReceiptDraft
  refine (wp_bind _ _).mpr (wp_time fun now => ?_)
  refine (wp_bind _ _).mpr (wp_newId fun receiptId => ?_)
  refine wp_then (R.receives h fun k₁ h₁ => ?_)
  refine (wp_bind _ _).mpr (wp_raising fun today _ => ?_)
  refine (wp_bind _ _).mpr (wp_newId fun draftId => ?_)
  refine (wp_bind _ _).mpr (wp_checked fun d₀ h₀ => ?_)
  obtain ⟨d, hd, rfl⟩ := CaptureDraft.startFromReceipt_eq_ok h₀
  obtain ⟨-, rfl⟩ := CaptureDraft.start_eq_ok hd
  refine (wp_bind _ _).mpr (wp_checked fun date _ => ?_)
  refine (wp_bind _ _).mpr (wp_checked fun d₁ hd₁ => ?_)
  obtain ⟨-, -, rfl⟩ := CaptureDraft.setTransactionDate_eq_ok hd₁
  refine wp_then (R.opensReceipt h₁ ⟨rfl, rfl, rfl, rfl, rfl⟩ rfl rfl fun k₂ h₂ => ?_)
  refine wp_then (R.points h₂ ?_ hu fun k₃ h₃ => ⟨.done, .done, h₃⟩)
  exact ⟨hu.symm, rfl, rfl, rfl, by simp, by simp, fun _ => rfl, by simp⟩

/-- Keeping or dropping a photo behind the active draft. -/
lemma wp_savePending {α : Type} (h : R.inStage (.holding c d) k) (file : Option String)
    (now : Instant) {f : TelegramConversation → Program α} {Q : α → K → Prop}
    (hf : ∀ c' k', R.inStage .done k' → (f c').wp R.logic Q k') :
    (do
      let conversation ← checked (c.withPendingReceipt file now)
      execute (.saveConversation conversation)
      f conversation : Program α).wp R.logic Q k := by
  refine (wp_bind _ _).mpr (wp_checked fun c' hc => ?_)
  obtain ⟨hu, ha, hw, -⟩ := TelegramConversation.withPendingReceipt_eq_ok hc
  refine wp_then (R.saves (R.holds h) hu ha (fun hp => ?_) fun k₁ h₁ => hf c' k₁ h₁)
  exact { hp with
    owner := hp.owner.trans hu.symm
    active := ha.trans hp.active
    collecting := fun hs => by rw [hw]; exact hp.collecting hs
    waiting := fun hs => hw.trans (hp.waiting hs) }

/-! ## Commands and photos -/

/-- Locking the conversation of the user. -/
lemma wp_lockConversation (h : R.inStage .opened k) :
    (lockConversation user).wp R.logic (fun c k' => c.userId = user.id ∧
      R.inStage (.locked c) k') k := by
  unfold lockConversation
  refine (wp_bind _ _).mpr (wp_time fun now => ?_)
  exact R.locks h fun c k' hu h' => ⟨hu, h'⟩

/-- A capture goes on with the active draft or makes one by hand. -/
lemma wp_startCapture (h : R.inStage .opened k) :
    (startCapture user chat).wp R.logic (fun _ => R.Ends) k := by
  unfold startCapture
  refine wp_bind_of (wp_lockConversation h) ?_
  rintro c k₁ ⟨hu, h₁⟩
  refine wp_bind_of (wp_activeDraft h₁ hu) ?_
  rintro x k₂ (⟨rfl, h₂⟩ | ⟨d, rfl, ho, how, ha, h₂⟩)
  · exact wp_createManualDraft h₂ hu
  · dsimp only
    split_ifs
    · refine (wp_bind _ _).mpr (wp_time fun now => ?_)
      exact wp_savePending h₂ none now fun c' k₃ h₃ => ⟨.done, .done, h₃⟩
    · exact ⟨.holding c d, .holding c d, h₂⟩

/-- A photo makes a receipt, or asks what to do with the active draft. -/
lemma wp_onMedia (h : R.inStage .opened k) (file : String) :
    (onMedia user chat file).wp R.logic (fun _ => R.Ends) k := by
  unfold onMedia
  refine wp_bind_of (wp_lockConversation h) ?_
  rintro c k₁ ⟨hu, h₁⟩
  refine wp_bind_of (wp_activeDraft h₁ hu) ?_
  rintro x k₂ (⟨rfl, h₂⟩ | ⟨d, rfl, ho, how, ha, h₂⟩)
  · exact wp_createReceiptDraft h₂ hu file
  · refine (wp_bind _ _).mpr (wp_time fun now => ?_)
    exact wp_savePending h₂ (some file) now fun c' k₃ h₃ => ⟨.done, .done, h₃⟩

/-! ## Typed answers -/

/-- An amount that was typed is set, or the transaction ends where it is.

**Proof sketch.** A text that is no amount, a missing currency and an amount that the currency does
not take end the transaction as it stands. A positive amount revises the draft, which is then saved
and moved on. -/
lemma wp_onAmount (h : R.inStage (.holding c d) k) (ha : c.activeDraftId = some d.id)
    (hw : c.awaiting = .amount) {text : String} (hshort : text.length ≤ maxWebhookBodyBytes) :
    (onAmount user chat c d text).wp R.logic (fun _ => R.Ends) k := by
  have hend : R.Ends k := ⟨.holding c d, .holding c d, h⟩
  unfold onAmount
  cases ht : parseAmount text with
  | error e => exact hend
  | ok typed =>
    dsimp only
    cases typed.currency.or user.defaultCurrency with
    | none => exact hend
    | some currency =>
      dsimp only
      cases hm : toMoney (.finite false typed.value) currency with
      | error e =>
        cases e with
        | valueError message => exact hend
        | invalidOperation | decimalOverflow | overflowError => exact R.raises _ _
      | ok money =>
        have hexp : Decimal.leastExp ≤ typed.value.exp := by
          have := parseAmount_exp ht
          unfold maxWebhookBodyBytes at hshort
          unfold Decimal.leastExp
          omega
        have hpos : 0 < money.minorUnits := toMoney_pos (parseAmount_pos ht) hexp hm
        refine (wp_bind _ _).mpr (wp_time fun now => ?_)
        refine (wp_bind _ _).mpr (wp_checked fun d' hd => ?_)
        have hrev := setAmount_revised hd
        obtain ⟨-, hopen, rfl⟩ := CaptureDraft.setAmount_eq_ok hd
        refine wp_advance (R.holds h) (.inl rfl) hrev ha (.inl rfl) fun hp => ?_
        have hs : d.state ≠ .awaitingRecognition := fun hs => by
          have := hp.waiting hs
          rw [hw] at this
          cases this
        exact ⟨hopen, hs, hp.date, rfl, by simpa using hpos⟩

/-- A currency that was typed is set together with the amount, or the transaction ends where it is.

**Proof sketch.** The draft has an amount by the invariant, and what it is in the other currency is
money or is refused. -/
lemma wp_onCurrency (h : R.inStage (.holding c d) k) (ha : c.activeDraftId = some d.id)
    (hw : c.awaiting = .currency) (text : String) :
    (onCurrency user chat c d text).wp R.logic (fun _ => R.Ends) k := by
  have hend : R.Ends k := ⟨.holding c d, .holding c d, h⟩
  have hamount : Paired d c → d.state ≠ .awaitingRecognition ∧ d.amount.isSome = true :=
    fun hp => hp.amount_isSome (by simp [hw]) (by simp [hw])
  unfold onCurrency
  cases parseCurrency text with
  | error e => exact hend
  | ok currency =>
    dsimp only
    cases hd : d.amount with
    | none => exact hend
    | some amount =>
      dsimp only
      cases hm : toMoney (.finite false (majorUnits amount)) currency with
      | error e =>
        cases e with
        | invalidOperation | decimalOverflow | overflowError => exact R.raises _ _
        | valueError message =>
          refine (wp_bind _ _).mpr (wp_time fun now => ?_)
          refine (wp_bind _ _).mpr (wp_checked fun c' hc => ?_)
          obtain ⟨hu, ha', hw', -⟩ := TelegramConversation.waitingFor_eq_ok hc
          refine wp_then (R.saves (R.holds h) hu ha' (fun hp => ?_) fun k₁ h₁ =>
            ⟨.done, .done, h₁⟩)
          exact { hp with
            owner := hp.owner.trans hu.symm
            active := ha'.trans hp.active
            collecting := fun _ => .inl hw'
            waiting := fun hs => absurd hs (hamount hp).1 }
      | ok money =>
        refine (wp_bind _ _).mpr (wp_time fun now => ?_)
        refine (wp_bind _ _).mpr (wp_checked fun d' hd' => ?_)
        have hrev := setAmount_revised hd'
        obtain ⟨-, hopen, rfl⟩ := CaptureDraft.setAmount_eq_ok hd'
        refine wp_advance (R.holds h) (.inl rfl) hrev ha (.inl rfl) fun hp => ?_
        have hpos : 0 < amount.minorUnits := hp.positive amount hd
        have hmajor : 0 < (majorUnits amount).coeff :=
          Decimal.round_coeff_pos (by simpa using hpos)
        have hexp : Decimal.leastExp ≤ (majorUnits amount).exp := by
          refine le_trans ?_ (Decimal.exp_le_round _)
          have := amount.currency.minorUnitExponent_le
          unfold Decimal.leastExp
          simp only
          omega
        exact ⟨hopen, (hamount hp).1, hp.date, rfl, by simpa using toMoney_pos hmajor hexp hm⟩

/-- A text that is a merchant's name is set on the draft in hand. -/
lemma wp_onMerchant (h : R.inStage (.holding c d) k) (ha : c.activeDraftId = some d.id)
    (hw : c.awaiting = .merchant) (text : String) :
    (onMerchant user chat c d text).wp R.logic (fun _ => R.Ends) k := by
  unfold onMerchant
  cases MerchantName.new text with
  | error e => exact ⟨.holding c d, .holding c d, h⟩
  | ok merchant =>
    refine (wp_bind _ _).mpr (wp_time fun now => ?_)
    refine (wp_bind _ _).mpr (wp_checked fun d' hd => ?_)
    have hrev := setMerchant_revised hd
    obtain ⟨-, hopen, rfl⟩ := CaptureDraft.setMerchant_eq_ok hd
    refine wp_advance (R.holds h) (.inl rfl) hrev ha (.inr rfl) fun hp => ?_
    obtain ⟨hs, hamount⟩ := hp.amount_isSome (by simp [hw]) (by simp [hw])
    exact ⟨hopen, hs, hp.date, hamount, hp.positive⟩

/-- A date is set on the draft in hand if the date rule takes it. -/
lemma wp_setDate (h : R.inStage (.holding c d) k) (ha : c.activeDraftId = some d.id)
    (hw : c.awaiting = .date) (date : TransactionDate) :
    (setDate user chat c d date).wp R.logic (fun _ => R.Ends) k := by
  unfold setDate
  refine (wp_bind _ _).mpr (wp_time fun now => ?_)
  refine (wp_bind _ _).mpr (wp_raising fun acceptable _ => ?_)
  split_ifs
  · refine (wp_bind _ _).mpr (wp_checked fun d' hd => ?_)
    have hrev := setTransactionDate_revised hd
    obtain ⟨-, hopen, rfl⟩ := CaptureDraft.setTransactionDate_eq_ok hd
    refine wp_advance (R.holds h) (.inl rfl) hrev ha (.inl rfl) fun hp => ?_
    obtain ⟨hs, hamount⟩ := hp.amount_isSome (by simp [hw]) (by simp [hw])
    exact ⟨hopen, hs, rfl, hamount, hp.positive⟩
  · exact ⟨.holding c d, .holding c d, h⟩

/-- A text of the linked user keeps the invariant.

**Proof sketch.** The conversation is locked and its draft held, and the text then goes to the
handler of what is awaited, each of which has its own lemma. -/
lemma wp_onText (h : R.inStage .opened k) {text : String}
    (hshort : text.length ≤ maxWebhookBodyBytes) :
    (onText user chat text).wp R.logic (fun _ => R.Ends) k := by
  unfold onText
  refine wp_bind_of (wp_lockConversation h) ?_
  rintro c k₁ ⟨hu, h₁⟩
  refine wp_bind_of (wp_activeDraft h₁ hu) ?_
  rintro x k₂ (⟨rfl, h₂⟩ | ⟨d, rfl, ho, how, ha, h₂⟩)
  · exact ⟨.vacant user.id, .vacant _, h₂⟩
  have hend : R.Ends k₂ := ⟨.holding c d, .holding c d, h₂⟩
  dsimp only
  split_ifs
  · exact hend
  cases hw : c.awaiting with
  | amount => exact wp_onAmount h₂ ha hw hshort
  | currency => exact wp_onCurrency h₂ ha hw text
  | merchant => exact wp_onMerchant h₂ ha hw text
  | date =>
    show Prog.wp R.logic (onDate user chat c d text) _ k₂
    unfold onDate
    cases parseDate text with
    | error e => exact hend
    | ok date => exact wp_setDate h₂ ha hw date
  | category =>
    refine wp_bind_of (wp_categoryKeyboard h₂ d) fun keyboard k₃ h₃ => ?_
    exact ⟨.holding c d, .holding c d, h₃⟩
  | nothing =>
    refine wp_bind_of (wp_reviewReply h₂ chat c d) fun card k₃ h₃ => ?_
    exact ⟨.holding c d, .holding c d, h₃⟩

/-! ## Buttons -/

variable {settings : BotSettings} {message : ℤ}

/-- A confirmation ends the draft in hand with its Expense, or leaves it in hand. -/
lemma wp_confirmActive (h : R.inStage (.holding c d) k) (hu : c.userId = user.id)
    (hs : d.state = .readyForReview) :
    (confirmActive settings user chat message c d).wp R.logic (fun _ => R.Ends) k := by
  unfold confirmActive
  refine (wp_bind _ _).mpr ((wp_handle _ _).mpr ((wp_bind _ _).mpr ?_))
  rw [← hu]
  refine R.confirms h hs (fun e k₁ h₁ => ?_) (fun r k₁ => by cases r <;> exact R.raises _ _)
    fun e k₁ h₁ => ?_
  · cases e with
    | captureDraftNotConfirmable m => exact ⟨.done, .done, h₁⟩
    | captureDraftAccessDenied m => exact ⟨.done, .done, h₁⟩
    | _ => exact R.raises _ _
  · refine (wp_bind _ _).mpr (wp_time fun now => ?_)
    exact wp_then (R.finishes h₁ fun k₂ h₂ => ⟨.done, .done, h₂⟩)

/-- A category that was chosen keeps the invariant.

**Proof sketch.** A key that is not a category's repeats the question. Otherwise the draft is
revised, and ready or saved; the conversation awaited a category, so its draft has an amount and
matches afterwards. -/
lemma wp_chooseCategory (h : R.inStage (.holding c d) k) (hw : c.awaiting = .category)
    (key : String) (now : Instant) :
    (chooseCategory user chat message c d key now).wp R.logic (fun _ => R.Ends) k := by
  unfold chooseCategory
  refine wp_then (R.reads rfl h fun r k₁ _ h₁ => ?_)
  split_ifs
  swap
  · refine wp_bind_of (wp_categoryKeyboard h₁ d) fun keyboard k₂ h₂ => ?_
    exact ⟨.holding c d, .holding c d, h₂⟩
  refine (wp_bind _ _).mpr (wp_checked fun d₁ hd => ?_)
  have hrev := setCategoryKey_revised hd
  obtain ⟨-, hopen, -, rfl⟩ := CaptureDraft.setCategoryKey_eq_ok hd
  have hpaired : ∀ {d₂ : CaptureDraft}, Revised d d₂ → (Paired d c → d₂.state = .readyForReview) →
      d₂.transactionDate = d.transactionDate → d₂.amount = d.amount → Paired d c →
      ∀ c', c'.userId = c.userId → c'.activeDraftId = c.activeDraftId →
        c'.awaiting = .nothing → Paired d₂ c' := by
    intro d₂ hr hs hdate hamt hp c' hu ha _
    have hs := hs hp
    obtain ⟨-, hamount⟩ := hp.amount_isSome (by simp [hw]) (by simp [hw])
    exact ⟨hr.ownerId.trans (hp.owner.trans hu.symm), by rw [ha, hp.active, hr.id],
      by simp [CaptureDraft.isOpen, CaptureDraft.openStates, hs], by rw [hdate]; exact hp.date,
      by rw [hamt]; exact hp.positive, by simp [hs], by simp [hs], fun _ => by
        rw [hamt]
        exact hamount⟩
  dsimp only
  split_ifs with hs
  · refine (wp_bind _ _).mpr (wp_checked fun d₂ hd₂ => ?_)
    have hrev₂ := hrev.trans (markReadyForReview_revised hd₂)
    obtain ⟨-, -, -, rfl⟩ := CaptureDraft.markReadyForReview_eq_ok hd₂
    exact wp_showReview (R.holds h₁) hrev₂ rfl rfl (hpaired hrev₂ (fun _ => rfl) rfl rfl) _
  · show Prog.wp R.logic (showReview chat c _ (some message)) _ k₁
    refine wp_showReview (R.holds h₁) hrev rfl rfl (hpaired hrev (fun hp => ?_) rfl rfl) _
    obtain ⟨hrec, -⟩ := hp.amount_isSome (by simp [hw]) (by simp [hw])
    rcases isOpen_cases hopen with h' | h' | h'
    · exact absurd h' hs
    · exact absurd h' hrec
    · exact h'

/-- A field that is to be edited is awaited. -/
lemma wp_editField (h : R.inStage (.holding c d) k) (hs : d.state = .readyForReview)
    (field : String) (now : Instant) :
    (editField chat c d field now).wp R.logic (fun _ => R.Ends) k := by
  unfold editField
  cases editTarget field with
  | none => exact ⟨.holding c d, .holding c d, h⟩
  | some awaiting =>
    refine (wp_bind _ _).mpr (wp_checked fun c' hc => ?_)
    obtain ⟨hu, ha, -, -⟩ := TelegramConversation.waitingFor_eq_ok hc
    refine wp_then (R.saves (R.holds h) hu ha (fun hp => ?_) fun k₁ h₁ => ?_)
    · exact { hp with
        owner := hp.owner.trans hu.symm
        active := ha.trans hp.active
        collecting := by simp [hs]
        waiting := by simp [hs] }
    · exact wp_mono _ (fun _ _ hk => ⟨.done, .done, hk⟩) (wp_promptFor h₁ chat c' d)

/-- A date by its button is set as one that is typed. -/
lemma wp_chooseDate (h : R.inStage (.holding c d) k) (ha : c.activeDraftId = some d.id)
    (hw : c.awaiting = .date) (choice : String) (now : Instant) :
    (chooseDate user chat c d choice now).wp R.logic (fun _ => R.Ends) k := by
  unfold chooseDate
  refine (wp_bind _ _).mpr (wp_raising fun today _ => ?_)
  cases dateOffset choice with
  | none => exact ⟨.holding c d, .holding c d, h⟩
  | some offset =>
    refine (wp_bind _ _).mpr (wp_raising fun day _ => ?_)
    exact (wp_bind _ _).mpr (wp_checked fun date _ => wp_setDate h ha hw date)

/-- A draft that waits for its receipt is continued by hand. -/
lemma wp_enterManually (h : R.inStage (.holding c d) k) (now : Instant) :
    (enterManually user chat c d now).wp R.logic (fun _ => R.Ends) k := by
  unfold enterManually
  split_ifs with hs
  · refine (wp_bind _ _).mpr (wp_checked fun d' hd => ?_)
    have hopen : d.isOpen = true := by simp [CaptureDraft.isOpen, CaptureDraft.openStates, hs]
    have hrev := continueManually_revised hopen hd
    obtain ⟨-, -, rfl⟩ := CaptureDraft.continueManually_eq_ok hd
    refine wp_then (R.revises (R.holds h) hrev fun k₁ h₁ => ?_)
    refine (wp_bind _ _).mpr (wp_checked fun c' hc => ?_)
    obtain ⟨hu, ha, hw, -⟩ := TelegramConversation.waitingFor_eq_ok hc
    refine wp_then (R.saves h₁ hu ha (fun hp => ?_) fun k₂ h₂ => ?_)
    · rw [if_neg (by simp [hs])]
      exact ⟨hp.owner.trans hu.symm, ha.trans hp.active, rfl, hp.date, hp.positive,
        fun _ => .inl hw, by simp, by simp⟩
    · exact wp_mono _ (fun _ _ hk => ⟨.done, .done, hk⟩) (wp_promptFor h₂ chat c' _)
  · exact wp_mono _ (fun _ _ hk => ⟨.holding c d, .holding c d, hk⟩) (wp_promptFor h chat c d)

lemma wp_continueDraft (h : R.inStage (.holding c d) k) (now : Instant) :
    (continueDraft chat c d now).wp R.logic (fun _ => R.Ends) k := by
  unfold continueDraft
  split_ifs
  · refine wp_savePending h none now fun c' k₁ h₁ => ?_
    exact wp_mono _ (fun _ _ hk => ⟨.done, .done, hk⟩) (wp_promptFor h₁ chat c' d)
  · exact wp_mono _ (fun _ _ hk => ⟨.holding c d, .holding c d, hk⟩) (wp_promptFor h chat c d)

lemma wp_discardDraft (h : R.inStage (.holding c d) k) (hu : c.userId = user.id)
    (ha : c.activeDraftId = some d.id) (now : Instant) :
    (discardDraft user chat c d now).wp R.logic (fun _ => R.Ends) k := by
  unfold discardDraft
  refine wp_bind_of (wp_cancelActive h hu ha) fun text k₁ h₁ => ?_
  dsimp only
  cases c.pendingReceiptFileId with
  | none => exact wp_createManualDraft h₁ hu
  | some file => exact wp_createReceiptDraft h₁ hu file

/-- A button of the active draft.

**Proof sketch.** Cases on the action in the order of the source, with the lemma of its handler for
each; an action that does not fit what is awaited ends the transaction as it stands. -/
lemma wp_onDraftAction (h : R.inStage (.holding c d) k) (hu : c.userId = user.id)
    (ho : d.isOpen = true) (ha : c.activeDraftId = some d.id) (action : String) :
    (onDraftAction settings user chat message c d action).wp R.logic (fun _ => R.Ends) k := by
  unfold onDraftAction
  refine (wp_bind _ _).mpr (wp_time fun now => ?_)
  by_cases hskip : action = "skip" ∧ c.awaiting = .merchant
  · rw [if_pos hskip]
    refine wp_advance (R.holds h) (.inl rfl) (.refl ho) ha (.inr rfl) fun hp => ?_
    obtain ⟨hs, hamount⟩ := hp.amount_isSome (by simp [hskip.2]) (by simp [hskip.2])
    exact ⟨ho, hs, hp.date, hamount, hp.positive⟩
  rw [if_neg hskip]
  cases hcat : (removePrefix "cat:" action).filter fun _ => decide (c.awaiting = .category) with
  | some key =>
    have hw : c.awaiting = .category := by simpa using (Option.filter_eq_some_iff.mp hcat).2
    exact wp_chooseCategory h hw key now
  | none =>
  cases hdate : (removePrefix "date:" action).filter fun _ => decide (c.awaiting = .date) with
  | some choice =>
    have hw : c.awaiting = .date := by simpa using (Option.filter_eq_some_iff.mp hdate).2
    exact wp_chooseDate h ha hw choice now
  | none =>
  cases hedit : (removePrefix "edit:" action).filter fun _ =>
      decide (d.state = .readyForReview) with
  | some field =>
    have hs : d.state = .readyForReview := by simpa using (Option.filter_eq_some_iff.mp hedit).2
    exact wp_editField h hs field now
  | none =>
    dsimp only
    split_ifs with hconfirm
    · exact wp_confirmActive h hu hconfirm.2
    · exact wp_bind_of (wp_cancelActive h hu ha) fun text k₁ h₁ => ⟨.vacant user.id, .vacant _, h₁⟩
    · exact wp_enterManually h now
    · exact wp_continueDraft h now
    · exact wp_discardDraft h hu ha now
    · exact ⟨.holding c d, .holding c d, h⟩

/-! ## Entry points -/

/-- The list of recent Expenses is only read. -/
lemma wp_recent (h : R.inStage φ k) :
    (recent settings user chat).wp R.logic (fun _ k' => R.inStage φ k') k := by
  unfold recent
  refine wp_then (R.reads rfl h fun r k₁ _ h₁ => ?_)
  dsimp only
  split_ifs
  · exact h₁
  · exact h₁
  · exact wp_then (R.reads rfl h₁ fun r k₂ _ h₂ => h₂)
  · exact wp_then (R.reads rfl h₁ fun r k₂ _ h₂ => h₂)

/-- Each command keeps to the obligations. -/
lemma wp_onCommand (h : R.inStage .opened k) (command : String) :
    (onCommand settings user chat command).wp R.logic (fun _ => R.Ends) k := by
  unfold onCommand
  split_ifs
  · exact wp_bind_of (wp_startCapture h) fun _ _ hk => hk
  · exact wp_bind_of (wp_recent h) fun _ _ hk => ⟨.opened, .opened, hk⟩
  · refine wp_bind_of (wp_lockConversation h) ?_
    rintro c k₁ ⟨hu, h₁⟩
    refine wp_bind_of (wp_activeDraft h₁ hu) ?_
    rintro x k₂ (⟨rfl, h₂⟩ | ⟨d, rfl, ho, how, ha, h₂⟩)
    · exact ⟨.vacant user.id, .vacant _, h₂⟩
    · exact wp_bind_of (wp_cancelActive h₂ hu ha) fun text k₃ h₃ =>
        ⟨.vacant user.id, .vacant _, h₃⟩
  · exact ⟨.opened, .opened, h⟩

/-- A button keeps the invariant.

**Proof sketch.** Cases on the data. A draft that is not the active one is looked up only to say so
(`hstale`); the active one is handled by `wp_onDraftAction`. -/
lemma wp_onCallback (h : R.inStage .opened k) (query data : String) :
    (onCallback settings user chat message query data).wp R.logic (fun _ => R.Ends) k := by
  unfold onCallback
  split_ifs
  · exact wp_bind_of (wp_startCapture h) fun _ _ hk => hk
  · exact wp_bind_of (wp_recent h) fun _ _ hk => ⟨.opened, .opened, hk⟩
  cases parseDraftAction data with
  | none => exact ⟨.opened, .opened, h⟩
  | some p =>
    obtain ⟨draftId, action⟩ := p
    refine wp_bind_of (wp_lockConversation h) ?_
    rintro c k₁ ⟨hu, h₁⟩
    refine wp_bind_of (wp_activeDraft h₁ hu) ?_
    have hstale : ∀ {φ : Stage} {k'}, φ.Settled → R.inStage φ k' →
        (do
          let stale ← execute (.getDraft draftId user.id)
          let answer :=
            if stale.any fun d => decide (d.state = .confirmed) then Text.alreadySaved
            else .draftNotActive
          return some [.callbackAnswer query (some answer)] :
            Program (Option (List Outgoing))).wp R.logic (fun _ => R.Ends) k' :=
      fun hφ h' => wp_then (R.reads rfl h' fun r k₂ _ h₂ => ⟨_, hφ, h₂⟩)
    rintro x k₂ (⟨rfl, h₂⟩ | ⟨d, rfl, ho, how, ha, h₂⟩)
    · exact hstale (.vacant _) h₂
    · by_cases hid : d.id = draftId
      · rw [Option.filter_some_pos (by simpa using hid)]
        exact wp_bind_of (wp_onDraftAction h₂ hu ho ha action) fun _ _ hk => hk
      · rw [Option.filter_some_neg (by simpa using hid)]
        exact hstale (.holding c d) h₂

/-! ## A whole update -/

lemma wp_resolveUser (h : R.inStage φ k) (telegramUser : ℤ) :
    (resolveUser telegramUser).wp R.logic (fun _ k' => R.inStage φ k') k := by
  unfold resolveUser
  refine wp_then (R.reads rfl h fun r k₁ _ h₁ => ?_)
  cases r with
  | none => exact h₁
  | some connection => exact wp_then (R.reads rfl h₁ fun r k₂ _ h₂ => h₂)

/-- A link is claimed in a transaction of its own. -/
lemma wp_claimLink (h : R.inStage .opened k) (payload : String) (telegramUser : ℤ)
    (name : Option String) :
    (claimLink payload telegramUser name).wp R.logic (fun _ => R.Ends) k := by
  have hcommit : ∀ {k' : K} (b : Bool), R.inStage .linking k' →
      (do commit; return b : Program Bool).wp R.logic (fun _ => R.Ends) k' := fun b h' =>
    (wp_bind _ _).mpr (R.commits .linking h' fun k₂ h₂ => ⟨.ended, .ended, h₂⟩)
  unfold claimLink
  split_ifs
  · refine (wp_bind _ _).mpr (wp_time fun now => ?_)
    refine wp_then (R.claims h fun r k₁ h₁ => ?_)
    cases r with
    | none => exact hcommit false h₁
    | some challenge => exact wp_then (R.audits h₁ fun k₂ h₂ => hcommit true h₂)
  · exact ⟨.opened, .opened, h⟩

/-- A photo of someone unknown is only answered, and one of a user is captured. -/
lemma wp_onMediaMessage (h : R.inStage .opened k) (sender : ℤ) (m : TelegramMessage) :
    (onMediaMessage sender chat m).wp R.logic (fun _ => R.Ends) k := by
  unfold onMediaMessage
  refine wp_bind_of (wp_resolveUser h sender) fun user k₁ h₁ => ?_
  have hend : R.Ends k₁ := ⟨.opened, .opened, h₁⟩
  cases user with
  | none => exact hend
  | some user =>
    dsimp only
    cases receiptUpload m with
    | error r => exact hend
    | ok file => exact wp_onMedia h₁ file

/-- A message with a text keeps the invariant.

**Proof sketch.** It starts a link, or it is refused for its chat, or it is handled for the user the
sender is connected to. -/
lemma wp_onTextMessage (h : R.inStage .opened k) (update : TelegramUpdate)
    (sender : TelegramUser) {text : String} (hshort : text.length ≤ maxWebhookBodyBytes) :
    (onTextMessage settings update sender chat text).wp R.logic (fun _ => R.Ends) k := by
  unfold onTextMessage
  cases update.startPayload with
  | some payload =>
    exact wp_bind_of (wp_claimLink h payload sender.id _) fun _ _ hk => hk
  | none =>
    dsimp only
    split_ifs
    · exact ⟨.opened, .opened, h⟩
    · refine wp_bind_of (wp_resolveUser h sender.id) fun user k₁ h₁ => ?_
      exact ⟨.opened, .opened, h₁⟩
    · refine wp_bind_of (wp_resolveUser h sender.id) fun user k₁ h₁ => ?_
      cases user with
      | none => exact ⟨.opened, .opened, h₁⟩
      | some user =>
        show Prog.wp R.logic (onLinkedText settings user chat text) _ k₁
        unfold onLinkedText
        split_ifs
        · exact wp_bind_of (wp_onCommand h₁ _) fun _ _ hk => hk
        · exact wp_onText h₁ hshort

/-- A button of someone unknown is only answered, and one of a user acts on the conversation. -/
lemma wp_onCallbackQuery (h : R.inStage .opened k) (user : Option User) (messageId : Option ℤ)
    (query data : String) :
    (onCallbackQuery settings user chat messageId query data).wp R.logic (fun _ => R.Ends) k := by
  unfold onCallbackQuery
  cases user with
  | none => exact ⟨.opened, .opened, h⟩
  | some user =>
    cases messageId with
    | none => exact ⟨.opened, .opened, h⟩
    | some message => exact wp_bind_of (wp_onCallback h query data) fun _ _ hk => hk

/-- An update keeps the invariant.

**Proof sketch.** Cases on what it holds, as the dispatch looks at it, with one lemma for each entry
point. -/
lemma wp_dispatch (h : R.inStage .opened k) (update : TelegramUpdate) :
    (dispatch settings update).wp R.logic (fun _ => R.Ends) k := by
  have hend : R.Ends k := ⟨.opened, .opened, h⟩
  unfold dispatch
  cases update.sender with
  | none => exact hend
  | some sender =>
  cases update.chat with
  | none => exact hend
  | some chat =>
    dsimp only
    cases update.callbackQuery.filter fun _ => decide (update.kind = .callback) with
    | some callback =>
      refine wp_bind_of (wp_resolveUser h sender.id) fun user k₁ h₁ => ?_
      exact wp_onCallbackQuery h₁ user _ _ _
    | none =>
      dsimp only
      cases update.message with
      | none => exact hend
      | some m =>
        dsimp only
        split_ifs
        · exact wp_onMediaMessage h sender.id m
        · cases ht : m.text with
          | none => exact hend
          | some text => exact wp_onTextMessage h update sender (m.text_short text ht)

/-- Messages are sent after the commit. -/
lemma wp_sendAll (h : R.inStage .ended k) (items : List Outgoing) :
    (sendAll items).wp R.logic (fun _ k' => R.inStage .ended k') k := by
  induction items with
  | nil => exact h
  | cons item items ih => exact (wp_bind _ _).mpr (R.sends h ih)

/-- **An update** is recorded, handled along the stages, committed, and then answered. -/
theorem wp_handleUpdate (h : R.inStage .idle k) (update : TelegramUpdate) :
    (handleUpdate settings update).wp R.logic (fun _ _ => True) k := by
  unfold handleUpdate
  split_ifs
  · refine (wp_bind _ _).mpr (wp_time fun now => ?_)
    refine wp_then (R.begins h (fun k₁ h₁ => ?_) fun k₁ h₁ => ?_)
    · rw [if_pos rfl]
      refine wp_bind_of (wp_dispatch h₁ update) ?_
      rintro outgoing k₂ ⟨φ, hφ, h₂⟩
      refine (wp_bind _ _).mpr (R.commits hφ h₂ fun k₃ h₃ => ?_)
      exact wp_mono _ (fun _ _ _ => trivial) (wp_sendAll h₃ outgoing)
    · exact R.rollbacks h₁ fun _ => trivial
  · trivial

end HandlerRules

end MintFlow
