import MintFlow.Domain.DraftLifecycle
import MintFlow.Telegram.Coherence
import MintFlow.Telegram.Joined

set_option relaxedAutoImplicit false
set_option autoImplicit false

/-!
# The life of a conversation

Runs of the bot, one transaction at a time: updates, the rounds of the receipt worker taken apart
into their transactions, and the two retention jobs. In every state such a run leads to, an open
draft is the active draft of its owner's conversation, which waits for what the draft needs, and
the owner's next `/cancel` closes it.

## Main definitions

* `MintFlow.BotEvent`, `MintFlow.Reached` — the transactions, and the states they lead to.

## Main results

* `MintFlow.joined_of_reached` — reached states satisfy the joint invariant.
* `MintFlow.cancel_closes` — `/cancel` closes the open draft.
* `MintFlow.conversation_holds_draft` — the invariant, spelled out.
-/

namespace MintFlow

open Transact Transact.Prog

variable [PythonRuntime]

/-! ## Runs -/

/-- A transaction other than the claim of a receipt. -/
inductive BotEvent
  | handle (settings : BotSettings) (update : TelegramUpdate)
  | notices
  | image (receipt : Receipt)
  | finish (receipt : Receipt) (attemptId : UUID) (output : Option (RecognitionOutput Binary64))
  | expire (inactiveCutoff now : Instant) (batchSize : ℕ)
  | deleteData (finishedCutoff now : Instant) (batchSize : ℕ)

/-- What it does. -/
def BotEvent.program : BotEvent → Program Unit
  | .handle settings update => handleUpdate settings update
  | .notices => sendDelayNotices
  | .image receipt => (imageFor receipt).bind fun _ => return ()
  | .finish receipt attemptId output =>
    (finishReceipt receipt attemptId output).bind fun _ => return ()
  | .expire cutoff now size => (expireDrafts cutoff now size).bind fun _ => return ()
  | .deleteData cutoff now size => (deleteReceiptData cutoff now size).bind fun _ => return ()

/-- The worker only works on receipts it claimed. -/
def BotEvent.Allowed (claimed : List Receipt) : BotEvent → Prop
  | .image receipt | .finish receipt _ _ => receipt ∈ claimed
  | _ => True

/-- The committed states of the runs from a store without drafts, with the receipts that were
claimed so far. A transaction may stop after any of its commits. -/
inductive Reached : Database → List Receipt → Prop
  | start (db : Database) : db.drafts.rows = [] → db.expenses.rows = [] →
      (∀ c ∈ db.conversations, c.activeDraftId = none) → Reached db []
  | commit (db db' : Database) (claimed : List Receipt) (event : BotEvent)
      (tape : Stream' Reading) : Reached db claimed → event.Allowed claimed →
      db' ∈ (event.program.exec postgres tape ⟨db, db⟩).published → Reached db' claimed
  | claim (db : Database) (claimed : List Receipt) (receipt : Receipt) (tape : Stream' Reading) :
      Reached db claimed →
      (claimNext.exec postgres tape ⟨db, db⟩).result = .ok (some receipt) →
      Reached (claimNext.exec postgres tape ⟨db, db⟩).final.db (receipt :: claimed)

/-! ## The invariant -/

/-- The receipts in the hands of workers, by id and owner. -/
def owners (claimed : List Receipt) : List (UUID × UUID) := claimed.map fun r => (r.id, r.ownerId)

section Steps

variable {db : Database} {claimed : List Receipt}

omit [PythonRuntime] in
/-- A retention job alone commits what its statement writes. -/
lemma wp_job {α : Type} {o : Stmt} {f : o.Resp → α} {I : Database → Prop} {s : Alone Database}
    {ws : List Write} {r : o.Resp}
    (he : evaluate o (fun _ => false) s.view = .ok (r, ws)) (hI : I (postgres.applyAll ws s.view)) :
    (do
      let r ← execute o
      commit
      return f r : Program α).wp (alone (fun _ => I) (fun _ _ => True) fun _ _ => True)
        (fun _ _ => True) s := by
  refine (wp_bind _ _).mpr (wp_execute (fun r' ws' he' => ?_) fun _ _ => trivial)
  rw [he] at he'
  obtain ⟨-, rfl⟩ := Prod.mk.inj (Except.ok.inj he')
  exact (wp_bind _ _).mpr ⟨hI, trivial⟩

/-- Every transaction keeps the invariant.

**Proof sketch.** Cases on the event, by the lemma of its program: the rules for handlers and
workers are instantiated with the joint invariant. -/
lemma wp_botEvent (event : BotEvent) (hallowed : event.Allowed claimed) (h : Joined db)
    (hs : Stored (owners claimed) db) :
    event.program.wp (joinedLogic (owners claimed)) (fun _ _ => True) ⟨db, db⟩ := by
  have hidle : (joinedRules (owners claimed)).inStage .idle ⟨db, db⟩ := ⟨⟨h, hs⟩, hs, h⟩
  have htrusted : ∀ r ∈ claimed, (joinedWorkerRules (owners claimed)).trusted r.id r.ownerId :=
    fun r hr => List.mem_map_of_mem hr
  cases event with
  | handle settings update =>
    exact (joinedHandlerRules (owners claimed)).wp_handleUpdate hidle update
  | notices =>
    exact wp_mono _ (fun _ _ _ => trivial) ((joinedWorkerRules _).wp_sendDelayNotices hidle)
  | image receipt =>
    exact (wp_bind _ _).mpr (wp_mono _ (fun _ _ _ => trivial)
      ((joinedWorkerRules _).wp_imageFor hidle receipt))
  | finish receipt attemptId output =>
    exact (wp_bind _ _).mpr ((joinedWorkerRules _).wp_finishReceipt hidle receipt
      (htrusted _ hallowed) attemptId output)
  | expire cutoff now size =>
    have hreceipts : (db.expired (fun _ => false) cutoff now size).receipts = db.receipts := by
      rw [Database.expired_eq]
    exact (wp_bind _ _).mpr (wp_job rfl ⟨h.expired, hs.tended (.of_eq hreceipts)⟩)
  | deleteData cutoff now size =>
    refine (wp_bind _ _).mpr (wp_job rfl ⟨h.cleared, fun p hp => ?_⟩)
    obtain ⟨row, hrow, ho⟩ := hs p hp
    have hrow' := @Database.find_receipt_cleared db (fun _ => false) cutoff now size p.1
    rw [hrow, Option.map_some] at hrow'
    refine ⟨_, hrow', ?_⟩
    split_ifs <;> exact ho

omit [PythonRuntime] in
/-- A claim keeps the invariant, and the claimed receipt is stored.

**Proof sketch.** Nothing is written when there is nothing to claim. Otherwise the claimed receipt
is written over its own row, in a way that keeps it tended. -/
lemma wp_claim {ps : List (UUID × UUID)} (h : Joined db) (hs : Stored ps db) :
    claimNext.wp (joinedLogic ps) (fun r s => (Joined s.db ∧ Stored ps s.db) ∧
      ∀ receipt, r = some receipt → ∃ row, s.db.receipts.find receipt.id = some row ∧
        row.receipt.ownerId = receipt.ownerId) ⟨db, db⟩ := by
  unfold claimNext
  refine (wp_bind _ _).mpr (wp_clock fun now => ?_)
  refine (wp_bind _ _).mpr ((wp_read rfl).mpr ?_)
  dsimp only
  cases hsel : db.selectClaimable (fun _ => false) now with
  | none => exact (wp_bind _ _).mpr ⟨⟨h, hs⟩, ⟨h, hs⟩, by simp⟩
  | some receipt =>
    obtain ⟨⟨row, hrow, rfl⟩, -, -⟩ := Database.selectClaimable_eq_some hsel
    refine (wp_bind _ _).mpr (wp_uuid4 fun attemptId => ?_)
    refine (wp_bind _ _).mpr (wp_lift (fun claimed hclaim => ?_) fun _ => trivial)
    obtain ⟨-, -, rfl⟩ := Receipt.claim_eq_ok hclaim
    refine (wp_bind _ _).mpr (wp_execute (fun u ws he => ?_) fun _ _ => trivial)
    obtain ⟨ht, hj⟩ := h.claim rfl he
    have hst := hs.tended ht
    refine (wp_bind _ _).mpr ⟨⟨hj, hst⟩, ⟨hj, hst⟩, ?_⟩
    rintro _ ⟨⟩
    obtain ⟨row', hrow', ho, -⟩ := ht row.receipt.id row hrow
    exact ⟨row', hrow', ho⟩

/-- **Reached states satisfy the joint invariant**, and the claimed receipts are stored.

**Proof sketch.** Induction on the run. No draft is there at the start; a transaction that commits
keeps the invariant in each state that it publishes (`wp_botEvent`), and a claim does so, too
(`wp_claim`). -/
theorem joined_of_reached (h : Reached db claimed) :
    Joined db ∧ Stored (owners claimed) db := by
  induction h with
  | start db hd he hc =>
    have hnone : ∀ d, ¬ d ∈ db.drafts := by simp [Table.mem_def, hd]
    refine ⟨⟨fun d hd => absurd hd (hnone d), fun d hd => absurd hd (hnone d),
      fun d hd => absurd hd (hnone d), fun d hd => absurd hd (hnone d), fun c hmem i hi => ?_⟩,
      by simp [Stored, owners]⟩
    rw [hc c hmem] at hi
    cases hi
  | commit db db' claimed event tape _ hallowed hmem ih =>
    have hall := published_invariant (I := fun db => Joined db ∧ Stored (owners claimed) db)
      event.program tape (wp_botEvent event hallowed ih.1 ih.2) ih
    exact hall db' hmem
  | claim db claimed receipt tape _ hres ih =>
    obtain ⟨⟨hj, hs⟩, hrow⟩ := (exec_alone claimNext tape (wp_claim ih.1 ih.2)).1 _ hres
    refine ⟨hj, fun p hp => ?_⟩
    rcases List.mem_cons.mp hp with rfl | hp
    · exact hrow receipt rfl
    · exact hs p hp

end Steps

/-! ## Coherence along a run -/

section Coherence

variable {db : Database} {busy : Key → Bool} {cutoff now : Instant} {size : ℕ}

/-- Expiry keeps a store coherent.

**Proof sketch.** An expired draft has the values of the abandoned one, whose references are there;
it was open, so no Expense belongs to it. -/
lemma Coherent.expired (h : Coherent db) : Coherent (db.expired busy cutoff now size) := by
  have hreceipts : (db.expired busy cutoff now size).receipts = db.receipts := by
    rw [Database.expired_eq]
  have hresults : (db.expired busy cutoff now size).results = db.results := by
    rw [Database.expired_eq]
  have husers : (db.expired busy cutoff now size).users = db.users := by
    rw [Database.expired_eq]
  have hexpenses : (db.expired busy cutoff now size).expenses = db.expenses := by
    rw [Database.expired_eq]
  -- An expired draft has the values of the one that was abandoned, and is consistent.
  have hfrom : ∀ d ∈ (db.expired busy cutoff now size).drafts, ∃ d₀ ∈ db.drafts,
      d.categoryKey = d₀.categoryKey ∧ d.ownerId = d₀.ownerId ∧ d.receiptId = d₀.receiptId ∧
        d.recognitionResultId = d₀.recognitionResultId ∧ d.TextsFit ∧ d.Consistent ∧
        (d.state = .confirmed → d = d₀) := by
    intro d hd
    rcases mem_drafts_expired hd with ⟨d₀, hd₀, rfl⟩ | ⟨hd, -⟩
    · obtain ⟨hmem, hopen, -⟩ := Database.mem_abandonedDrafts hd₀
      refine ⟨d₀, hmem, rfl, rfl, rfl, rfl, { h.texts d₀ hmem with }, ?_, fun hs => by cases hs⟩
      exact (h.consistent d₀ hmem).of_state hopen (by decide) now
    · exact ⟨d, hd, rfl, rfl, rfl, rfl, h.texts d hd, h.consistent d hd, fun _ => rfl⟩
  constructor
  · intro d hd
    obtain ⟨d₀, hd₀, hcat, -⟩ := hfrom d hd
    rw [hcat]
    exact h.category d₀ hd₀
  · intro d hd
    obtain ⟨-, -, -, -, -, -, htexts, -⟩ := hfrom d hd
    exact htexts
  · intro d hd
    obtain ⟨-, -, -, -, -, -, -, hcons, -⟩ := hfrom d hd
    exact hcons
  · intro d hd
    obtain ⟨d₀, hd₀, -, ho, -⟩ := hfrom d hd
    rw [Database.hasUser, husers, ho]
    exact h.owner d₀ hd₀
  · intro d hd r hr
    obtain ⟨d₀, hd₀, -, -, hr₀, -⟩ := hfrom d hd
    rw [Database.hasReceipt, hreceipts]
    exact h.receipt d₀ hd₀ r (hr₀ ▸ hr)
  · intro d hd r hr
    obtain ⟨d₀, hd₀, -, -, -, hr₀, -⟩ := hfrom d hd
    rw [Database.hasResult, hresults]
    exact h.result d₀ hd₀ r (hr₀ ▸ hr)
  · rw [hexpenses]
    intro e he
    obtain ⟨d, hd, hid, hs⟩ := h.expense e he
    have hd' := @Database.find_draft_expired db busy cutoff now size d.id
    rw [Table.find_of_mem hd, Option.map_some, if_neg fun hin => ?_] at hd'
    · exact ⟨d, Table.mem_of_find hd', hid, hs⟩
    · exact ne_confirmed_of_isOpen (Database.mem_abandonedDrafts hin).2.1 hs
  · rw [hexpenses]
    intro d hd hs
    obtain ⟨d₀, hd₀, -, -, -, -, -, -, heq⟩ := hfrom d hd
    obtain rfl := heq hs
    exact h.confirmed d hd₀ hs

/-- Deleting receipt data keeps a store coherent.

**Proof sketch.** Drafts lose their result and nothing else, and the rows that are referred to stay:
receipts only lose data, and results go only where no draft keeps them. -/
lemma Coherent.cleared (h : Coherent db) : Coherent (db.cleared busy cutoff now size) := by
  have husers : (db.cleared busy cutoff now size).users = db.users := by
    rw [Database.cleared_eq]
  have hexpenses : (db.cleared busy cutoff now size).expenses = db.expenses := by
    rw [Database.cleared_eq]
  have hreceipt : ∀ r, db.hasReceipt r = true →
      (db.cleared busy cutoff now size).hasReceipt r = true := by
    intro r hr
    obtain ⟨row, hrow⟩ := Option.isSome_iff_exists.mp hr
    rw [Database.hasReceipt, Database.find_receipt_cleared, hrow]
    rfl
  constructor
  · intro d hd
    obtain ⟨d₀, hd₀, ⟨rfl, -⟩ | rfl⟩ := mem_drafts_cleared hd
    · exact h.category d hd₀
    · exact h.category d₀ hd₀
  · intro d hd
    obtain ⟨d₀, hd₀, ⟨rfl, -⟩ | rfl⟩ := mem_drafts_cleared hd
    · exact h.texts d hd₀
    · exact { h.texts d₀ hd₀ with }
  · intro d hd
    obtain ⟨d₀, hd₀, ⟨rfl, -⟩ | rfl⟩ := mem_drafts_cleared hd
    · exact h.consistent d hd₀
    · exact { h.consistent d₀ hd₀ with }
  · intro d hd
    rw [Database.hasUser, husers]
    obtain ⟨d₀, hd₀, ⟨rfl, -⟩ | rfl⟩ := mem_drafts_cleared hd
    · exact h.owner d hd₀
    · exact h.owner d₀ hd₀
  · intro d hd r hr
    obtain ⟨d₀, hd₀, ⟨rfl, -⟩ | rfl⟩ := mem_drafts_cleared hd
    · exact hreceipt r (h.receipt d hd₀ r hr)
    · exact hreceipt r (h.receipt d₀ hd₀ r hr)
  · intro d hd r hr
    obtain ⟨d₀, hd₀, ⟨rfl, hin⟩ | rfl⟩ := mem_drafts_cleared hd
    · exact Database.hasResult_cleared hd₀ hin hr (h.result d hd₀ r hr)
    · cases hr
  · rw [hexpenses]
    intro e he
    obtain ⟨d, hd, hid, hs⟩ := h.expense e he
    have hd' := @Database.find_draft_cleared db busy cutoff now size d.id
    rw [Table.find_of_mem hd, Option.map_some] at hd'
    refine ⟨_, Table.mem_of_find hd', ?_, ?_⟩
    · split_ifs <;> exact hid
    · split_ifs <;> exact hs
  · rw [hexpenses]
    intro d hd hs
    obtain ⟨d₀, hd₀, ⟨rfl, -⟩ | rfl⟩ := mem_drafts_cleared hd
    · exact h.confirmed d hd₀ hs
    · obtain ⟨e, hid, he, hmatch⟩ := h.confirmed d₀ hd₀ hs
      exact ⟨e, hid, he, { hmatch with }⟩

/-- Every transaction of the bot keeps the store coherent. -/
lemma coherent_botEvent (event : BotEvent) (h : Coherent db) :
    event.program.wp coherentLogic (fun _ _ => True) ⟨db, db⟩ := by
  have hidle : coherentRules.inStage .idle ⟨db, db⟩ := ⟨h, h, trivial⟩
  cases event with
  | handle settings update =>
    exact coherentHandlerRules.wp_handleUpdate hidle update
  | notices =>
    exact wp_mono _ (fun _ _ _ => trivial) (coherentWorkerRules.wp_sendDelayNotices hidle)
  | image receipt =>
    exact (wp_bind _ _).mpr (wp_mono _ (fun _ _ _ => trivial)
      (coherentWorkerRules.wp_imageFor hidle receipt))
  | finish receipt attemptId output =>
    exact (wp_bind _ _).mpr
      (coherentWorkerRules.wp_finishReceipt hidle receipt trivial attemptId output)
  | expire cutoff now size => exact (wp_bind _ _).mpr (wp_job rfl h.expired)
  | deleteData cutoff now size => exact (wp_bind _ _).mpr (wp_job rfl h.cleared)

/-- Reached states are coherent. -/
lemma coherent_of_reached {claimed : List Receipt} (h : Reached db claimed) : Coherent db := by
  induction h with
  | start db hd he _ => exact .of_empty hd he
  | commit db db' claimed event tape _ _ hmem ih =>
    exact published_invariant event.program tape (coherent_botEvent event ih) ih db' hmem
  | claim db claimed receipt tape _ _ ih =>
    exact exec_invariant claimNext tape (coherentWorkerRules.wp_claimNext ⟨ih, ih, trivial⟩) ih

end Coherence

/-! ## The way out -/

/-- A message with the command `/cancel` from a Telegram user, in the private chat. -/
def cancelMessage (updateId telegramUserId messageId : ℤ) : TelegramUpdate :=
  ⟨updateId, some ⟨messageId, some ⟨telegramUserId, false, "", none⟩, ⟨telegramUserId, "private"⟩,
    some "/cancel", by rintro _ ⟨⟩; decide, [], none, none, false⟩, none⟩

section Cancel

variable {db : Database} {d : CaptureDraft} {c : TelegramConversation} {user : User}

/-- The obligations of a session that never raises. -/
abbrev totalLogic : Logic signature (Alone Database) :=
  alone (fun _ _ => True) (fun _ _ => False) fun _ _ => False

lemma commandOf_cancel : commandOf "/cancel" = "/cancel" := by
  have h : String.ofList (partition '@' ((stripChars "/cancel".toList).takeWhile fun c =>
      !isSpace c)).1 = "/cancel" := by decide
  unfold commandOf
  dsimp only
  rw [h, PythonRuntime.lower_of_all (by decide)]
  decide

/-- A revision whose texts fit, that keeps the draft consistent and refers to a stored result can be
stored.

**Proof sketch.** The statement's checks are the conditions on texts and constraints, and references
that the coherent store has. The row that it writes is the revision itself, since the columns it
leaves alone are those that a revision keeps. -/
lemma Revised.stored {d' : CaptureDraft} (hrev : Revised d d') (hc : Coherent db)
    (hd : db.drafts.find d.id = some d) (htexts : d'.TextsFit) (hcons : d'.Consistent)
    (hres : ∀ r ∈ d'.recognitionResultId, db.hasResult r = true) :
    db.updateDraft d' = .ok ((), [.draft d']) := by
  have hmem := Table.mem_of_find hd
  have hexpense : d'.expenseId = none := by
    rw [hrev.expenseId, ← Option.not_isSome_iff_eq_none, ← (hc.consistent d hmem).expense]
    exact ne_confirmed_of_isOpen hrev.isOpen
  have hself : Database.updatedDraft d d' = d' := by
    have h₁ := hrev.createdAt
    have h₂ := hrev.receiptId
    cases d'
    simp_all [Database.updatedDraft]
  have huser : db.hasUser d'.ownerId = true := hrev.ownerId ▸ hc.owner d hmem
  have hfind : db.drafts.find d'.id = some d := by
    rw [hrev.id]
    exact hd
  unfold Database.updateDraft
  rw [hfind]
  show (do
    demand d'.TextsFit .dataError
    checkDraft (Database.updatedDraft d d')
    demand (db.hasUser d'.ownerId) (.foreignKeyViolation "capture_drafts" "owner_id")
    demandReference d'.expenseId db.hasExpense "capture_drafts" "expense_id"
    demandReference d'.recognitionResultId db.hasResult "capture_drafts" "recognition_result_id"
    return ((), [.draft (Database.updatedDraft d d')]) : Except Error (Unit × List Write)) = _
  rw [hself]
  simp only [Checked.bind_eq_ok, demand_eq_ok, demandReference_eq_ok, checkDraft_eq_ok,
    Checked.pure_eq_ok, exists_const, and_true]
  exact ⟨htexts, hcons, huser, by simp [hexpense], hres⟩

/-- Cancelling the active draft of a coherent store goes through.

**Proof sketch.** The draft is open and the user its owner, so it can be cancelled, and what is
cancelled can be stored (`Revised.stored`). The conversation is then released and saved. -/
lemma wp_cancelActive {s : Alone Database} (hc : Coherent s.view)
    (hd : s.view.drafts.find d.id = some d) (hopen : d.isOpen = true)
    (howner : d.ownerId = user.id) (hu : c.userId = user.id) :
    (cancelActive user c d).wp totalLogic (fun _ s' =>
      ∃ d', s'.view.drafts.find d.id = some d' ∧ d'.state = .cancelled) s := by
  have hmem := Table.mem_of_find hd
  unfold cancelActive
  refine (wp_bind _ _).mpr (wp_clock fun now => ?_)
  obtain ⟨d', hcancel⟩ : ∃ d', d.cancel user.id (Instant.toDateTime now) = .ok d' := by
    simp only [CaptureDraft.cancel, CaptureDraft.ensureOwner, require, hopen, if_pos howner.symm,
      requireAware_toDateTime]
    exact ⟨_, rfl⟩
  have hrev := cancel_revised hcancel
  have hcons : d'.Consistent := CaptureDraft.consistent_apply
    (o := .cancel user.id (Instant.toDateTime now)) (hc.consistent d hmem) hcancel
  obtain ⟨-, -, -, rfl⟩ := CaptureDraft.cancel_eq_ok hcancel
  rw [hcancel]
  refine (wp_bind _ _).mpr ?_
  set d' : CaptureDraft :=
    { d with state := .cancelled, modifiedAt := (Instant.toDateTime now).astimezoneUtc }
  have hupd : s.view.updateDraft d' = .ok ((), [.draft d']) :=
    hrev.stored hc hd { hc.texts d hmem with } hcons (hc.result d hmem)
  refine (wp_bind _ _).mpr ((wp_answer (o := .updateDraft d') hupd).mpr ?_)
  have huser : s.view.hasUser c.userId = true := by
    rw [hu, ← howner]
    exact hc.owner d hmem
  have hsave : (s.view.apply (.draft d')).saveConversation (c.finished now) =
      .ok ((), [.conversation (c.finished now)]) := by
    simp only [Database.saveConversation, Checked.bind_eq_ok, demand_eq_ok,
      demandReference_eq_ok, Checked.pure_eq_ok, exists_const, and_true]
    exact ⟨huser, by simp [TelegramConversation.finished, TelegramConversation.idle]⟩
  refine (wp_bind _ _).mpr ((wp_answer (o := .saveConversation (c.finished now))
    (s := ⟨s.db, s.view.apply (.draft d')⟩) hsave).mpr ?_)
  exact ⟨d', Table.find_upsert_self .., rfl⟩

/-- Handling `/cancel` for a user with an active draft goes through.

**Proof sketch.** The joint invariant gives the conversation of the open draft, so locking it and
reading its active draft give that draft. -/
lemma wp_cancelCommand (hc : Coherent db) (hj : Joined db) (hd : d ∈ db.drafts)
    (hopen : d.isOpen = true) (howner : d.ownerId = user.id) (settings : BotSettings)
    (chat : ℤ) (base : Database) :
    (onCommand settings user chat "/cancel").wp totalLogic (fun replies s =>
      replies.isSome = true ∧
        ∃ d', s.view.drafts.find d.id = some d' ∧ d'.state = .cancelled) ⟨base, db⟩ := by
  obtain ⟨c, hfind, hp⟩ := hj.paired d hd (by simp) hopen
  have hu : c.userId = user.id := hp.owner.symm.trans howner
  rw [howner] at hfind
  have hlock : ∀ now, db.lockConversation user.id now = .ok (c, []) := by
    intro now
    rw [Database.lockConversation, hfind]
  have hget : db.ownedDraft d.id user.id = some d :=
    Database.ownedDraft_eq_some.mpr ⟨Table.find_of_mem hd, howner⟩
  show (lockConversation user >>= fun conversation =>
    activeDraft user conversation >>= fun _ => _ : Program (Option (List Outgoing))).wp totalLogic _ _
  unfold lockConversation
  refine (wp_bind _ _).mpr ((wp_bind _ _).mpr (wp_clock fun now => ?_))
  refine (wp_answer (o := .lockConversation user.id now) (s := ⟨base, db⟩) (hlock now)).mpr ?_
  refine (wp_bind _ _).mpr ?_
  unfold activeDraft
  rw [hp.active]
  refine (wp_bind _ _).mpr ((wp_read (o := .getDraft d.id user.id) (s := ⟨base, db⟩) rfl).mpr ?_)
  rw [hget, Option.filter_some_pos hopen]
  refine (wp_bind _ _).mpr ?_
  exact wp_mono _ (fun _ _ hd' => ⟨rfl, hd'⟩)
    (wp_cancelActive hc (Table.find_of_mem hd) hopen howner hu)

omit [PythonRuntime] in
/-- Sending changes no table. -/
lemma wp_sendAll {P : Alone Database → Prop} (items : List Outgoing) {s : Alone Database}
    (h : P s) : (sendAll items).wp totalLogic (fun _ => P) s := by
  induction items with
  | nil => exact h
  | cons item items ih => exact (wp_bind _ _).mpr ih

/-- A `/cancel` message of the owner reaches the command.

**Proof sketch.** The text is a command, the sender is connected to the active owner, and the
command is that of `wp_cancelCommand`. -/
lemma wp_dispatchCancel (hc : Coherent db) (hj : Joined db) (hd : d ∈ db.drafts)
    (hopen : d.isOpen = true) (huser : db.users.find d.ownerId = some user)
    (hactive : user.status = .active) {t : ℤ} {connection : TelegramConnection}
    (hconn : db.connectionOfTelegramUser t = some connection)
    (howner : connection.userId = d.ownerId) (settings : BotSettings) (updateId messageId : ℤ)
    (base : Database) :
    (dispatch settings (cancelMessage updateId t messageId)).wp totalLogic (fun _ s =>
      ∃ d', s.view.drafts.find d.id = some d' ∧ d'.state = .cancelled) ⟨base, db⟩ := by
  have hid : user.id = d.ownerId := Table.key_of_find huser
  have hpayload : (cancelMessage updateId t messageId).startPayload = none := by
    rfl
  show (onTextMessage settings (cancelMessage updateId t messageId) ⟨t, false, "", none⟩ t
    "/cancel").wp totalLogic _ _
  unfold onTextMessage
  rw [hpayload, commandOf_cancel]
  dsimp only
  rw [if_neg (by decide)]
  unfold resolveUser
  refine (wp_bind _ _).mpr ((wp_bind _ _).mpr ((wp_read
    (o := .activeConnectionForTelegramUser t) (s := ⟨base, db⟩) rfl).mpr ?_))
  rw [hconn]
  refine (wp_bind _ _).mpr ((wp_read (o := .getUser connection.userId) (s := ⟨base, db⟩)
    rfl).mpr ?_)
  rw [howner, huser, Option.filter_some_pos (by simpa using hactive)]
  show (onLinkedText settings user t "/cancel").wp totalLogic _ _
  unfold onLinkedText
  rw [if_pos (by decide), commandOf_cancel]
  refine (wp_bind _ _).mpr (wp_mono _ (fun replies s hs => ?_)
    (wp_cancelCommand hc hj hd hopen hid.symm settings t base))
  exact hs.2

/-- **The way out.** In a reached state, the owner's `/cancel` is handled without an error and
closes the open draft.

**Proof sketch.** The update is new and of a kind that is handled, so its number is stored and it is
dispatched (`wp_dispatchCancel`). A session that is alone and whose obligations rule out every error
returns. -/
theorem cancel_closes {claimed : List Receipt} (h : Reached db claimed) (hd : d ∈ db.drafts)
    (hopen : d.isOpen = true) (huser : db.users.find d.ownerId = some user)
    (hactive : user.status = .active) {t : ℤ} {connection : TelegramConnection}
    (hconn : db.connectionOfTelegramUser t = some connection)
    (howner : connection.userId = d.ownerId) {updateId : ℤ}
    (hnew : db.processedUpdates.find updateId = none) (settings : BotSettings) (messageId : ℤ)
    (tape : Stream' Reading) :
    ((handleUpdate settings (cancelMessage updateId t messageId)).exec postgres tape
      ⟨db, db⟩).result = .ok () ∧
    ∃ d', ((handleUpdate settings (cancelMessage updateId t messageId)).exec postgres tape
      ⟨db, db⟩).final.db.drafts.find d.id = some d' ∧ d'.state = .cancelled := by
  have hco := coherent_of_reached h
  have hj := (joined_of_reached h).1
  have hid : user.id = d.ownerId := Table.key_of_find huser
  have hwp : (handleUpdate settings (cancelMessage updateId t messageId)).wp totalLogic (fun _ s =>
      ∃ d', s.db.drafts.find d.id = some d' ∧ d'.state = .cancelled) ⟨db, db⟩ := by
    have hhandled : isHandled (cancelMessage updateId t messageId) = true := by
      simp [isHandled, cancelMessage, TelegramUpdate.kind, TelegramUpdate.messageKind,
        TelegramUpdate.isPrivateChat, TelegramUpdate.chat, TelegramUpdate.sender]
    unfold handleUpdate
    rw [if_pos hhandled]
    refine (wp_bind _ _).mpr (wp_clock fun now => ?_)
    have hbegin : db.beginUpdate updateId now = (true, [.processedUpdate ⟨updateId, now⟩]) := by
      rw [Database.beginUpdate, hnew]
    refine (wp_bind _ _).mpr ((wp_answer (o := .beginUpdate updateId now) (s := ⟨db, db⟩)
      (congrArg Except.ok hbegin)).mpr ?_)
    set view := db.apply (.processedUpdate ⟨updateId, now⟩)
    have hview : Coherent view := hco.apply_besides rfl
    have hview' : Joined view := hj.congr rfl rfl (.of_eq rfl)
    refine wp_bind_of (wp_dispatchCancel hview hview' hd hopen huser hactive hconn howner settings
      updateId messageId db) fun replies s hs => ?_
    refine (wp_bind _ _).mpr ⟨trivial, ?_⟩
    exact wp_sendAll replies hs
  obtain ⟨hok, herr⟩ := exec_alone _ tape hwp
  cases hres : ((handleUpdate settings (cancelMessage updateId t messageId)).exec postgres tape
      ⟨db, db⟩).result with
  | ok u => exact ⟨rfl, hok u hres⟩
  | error e => exact absurd (herr e hres) id

end Cancel

/-! ## The invariant, spelled out -/

/-- **Conversations and drafts.** In every reached state each open draft of a user is the active
draft of the user's conversation, so there is at most one; the conversation waits for what the
active draft still needs; and the user's next `/cancel` closes an open draft.

**Proof sketch.** The handlers, the worker and the two retention jobs keep the joint invariant, and
each reached state is also coherent, so that nothing can go wrong while `/cancel` is handled. -/
theorem conversation_holds_draft {db : Database} {claimed : List Receipt}
    (h : Reached db claimed) (user : UUID) :
    (∀ d ∈ db.drafts, d.ownerId = user → d.isOpen = true → ∃ c,
      db.conversations.find user = some c ∧ c.activeDraftId = some d.id) ∧
    (∀ d ∈ db.drafts, ∀ d' ∈ db.drafts, d.ownerId = user → d'.ownerId = user →
      d.isOpen = true → d'.isOpen = true → d = d') ∧
    (∀ c, db.conversations.find user = some c → ∀ d ∈ db.drafts, c.activeDraftId = some d.id →
      (d.state = .collecting →
        (c.awaiting = .amount ∨ c.awaiting = .merchant ∨ c.awaiting = .category) ∧
        (c.awaiting = .merchant ∨ c.awaiting = .category → d.amount.isSome = true)) ∧
      (d.state = .awaitingRecognition → c.awaiting = .nothing ∧ ∃ r row, d.receiptId = some r ∧
        db.receipts.find r = some row ∧ row.receipt.isFinished = false ∧
        row.receipt.imageRemovedAt = none) ∧
      (d.state = .readyForReview → (∃ m, d.amount = some m ∧ 0 < m.minorUnits) ∧
        d.transactionDate.isSome = true)) ∧
    (∀ d ∈ db.drafts, d.ownerId = user → d.isOpen = true → ∀ u, db.users.find user = some u →
      u.status = .active → ∀ t connection, db.connectionOfTelegramUser t = some connection →
      connection.userId = user → ∀ updateId, db.processedUpdates.find updateId = none →
      ∀ (settings : BotSettings) (messageId : ℤ) (tape : Stream' Reading),
        let run := (handleUpdate settings (cancelMessage updateId t messageId)).exec postgres tape
          ⟨db, db⟩
        run.result = .ok () ∧
          ∃ d', run.final.db.drafts.find d.id = some d' ∧ d'.state = .cancelled) := by
  have hj := (joined_of_reached h).1
  refine ⟨?_, ?_, ?_, ?_⟩
  · rintro d hd rfl hopen
    obtain ⟨c, hc, hp⟩ := hj.paired d hd (by simp) hopen
    exact ⟨c, hc, hp.active⟩
  · rintro d hd d' hd' rfl ho hopen hopen'
    obtain ⟨c, hc, hp⟩ := hj.paired d hd (by simp) hopen
    obtain ⟨c', hc', hp'⟩ := hj.paired d' hd' (by simp) hopen'
    rw [ho, hc] at hc'
    obtain rfl := Option.some.inj hc'
    exact Table.eq_of_key_eq hd hd' (Option.some.inj (hp.active.symm.trans hp'.active))
  · intro c hc d hd hactive
    -- The active draft is the user's own, so it is paired when it is open.
    have howner : d.ownerId = user := by
      obtain ⟨x, hx, hid, ho⟩ := hj.own c (Table.mem_of_find hc) d.id hactive
      obtain rfl := Table.eq_of_key_eq hx hd hid
      exact ho.trans (Table.key_of_find hc)
    have hpaired : d.isOpen = true → Paired d c := by
      intro hopen
      obtain ⟨c', hc', hp⟩ := hj.paired d hd (by simp) hopen
      rw [howner, hc] at hc'
      obtain rfl := Option.some.inj hc'
      exact hp
    refine ⟨fun hs => ?_, fun hs => ?_, fun hs => ?_⟩
    · have hp := hpaired (by simp [CaptureDraft.isOpen, CaptureDraft.openStates, hs])
      rcases hp.collecting hs with ha | ⟨hw, hamount⟩
      · exact ⟨.inl ha, fun h => by rcases h with h | h <;> rw [ha] at h <;> cases h⟩
      · exact ⟨.inr hw, fun _ => hamount⟩
    · have hp := hpaired (by simp [CaptureDraft.isOpen, CaptureDraft.openStates, hs])
      obtain ⟨r, hr, hun | ⟨row, hrow, hfin, himg⟩⟩ := hj.waiting d hd hs
      · cases hun
      · exact ⟨hp.waiting hs, r, row, hr, hrow, hfin, himg⟩
    · have hp := hpaired (by simp [CaptureDraft.isOpen, CaptureDraft.openStates, hs])
      obtain ⟨m, hm⟩ := Option.isSome_iff_exists.mp (hp.ready hs)
      exact ⟨⟨m, hm, hp.positive m hm⟩, hp.date⟩
  · rintro d hd rfl hopen u huser hactive t connection hconn howner updateId hnew settings
      messageId tape
    exact cancel_closes h hd hopen huser hactive hconn howner hnew settings messageId tape

/-- A transaction that ran to its end leads to a reached state. -/
lemma Reached.after {db : Database} {claimed : List Receipt} (h : Reached db claimed)
    (event : BotEvent) (hallowed : event.Allowed claimed) (tape : Stream' Reading) :
    Reached (event.program.exec postgres tape ⟨db, db⟩).final.db claimed := by
  have hlast := (wp_exec (B := postgres) (C := fun _ _ => True) (F := fun _ _ => True)
    (Q := fun _ _ => True) event.program tape (s := ⟨db, db⟩) (wp_trivial _)).2.1
  rw [← hlast, List.getLastD_eq_getLast?]
  cases hp : (event.program.exec postgres tape ⟨db, db⟩).published.getLast? with
  | none => exact h
  | some db' => exact h.commit _ _ _ event tape hallowed (List.mem_of_getLast? hp)

/-! ## A run -/

/-- The next transaction of the bot: an update is handled, a receipt is claimed, or the receipt that
was claimed last is finished. -/
inductive BotStep
  | handle (update : TelegramUpdate)
  | claim
  | finish (output : Option (RecognitionOutput Binary64))

/-- The readings of the `n`-th transaction of the 29th of July 2021. -/
def sampleReadings (n : ℕ) : Stream' Reading :=
  fun k => ⟨1627516800000000 + n, BitVec.ofNat 128 (100 * n + k), none, 0, none⟩

/-- The committed state and the claimed receipts afterwards, unless there was nothing to claim. -/
def BotStep.run (step : BotStep) (n : ℕ) (s : Database × List Receipt) :
    Option (Database × List Receipt) :=
  let transaction (event : BotEvent) : Database :=
    (event.program.exec postgres (sampleReadings n) ⟨s.1, s.1⟩).final.db
  match step with
  | .handle update => some (transaction (.handle ⟨"https://mintflow.example", true⟩ update), s.2)
  | .claim =>
    let outcome := claimNext.exec postgres (sampleReadings n) ⟨s.1, s.1⟩
    match outcome.result with
    | .ok (some receipt) => some (outcome.final.db, receipt :: s.2)
    | _ => none
  | .finish output =>
    match s.2 with
    | [] => none
    | receipt :: claimed =>
      receipt.attemptId.map fun attemptId =>
        (transaction (.finish receipt attemptId output), receipt :: claimed)

/-- One after another. -/
def runSteps (n : ℕ) (s : Database × List Receipt) : List BotStep → Option (Database × List Receipt)
  | [] => some s
  | step :: steps => (step.run n s).bind fun s' => runSteps (n + 1) s' steps

/-- Transactions lead from one reached state to another.

**Proof sketch.** Induction on the steps: each is one of the ways on from a reached state. -/
lemma reached_runSteps {steps : List BotStep} {n : ℕ} {s s' : Database × List Receipt}
    (h : Reached s.1 s.2) (hrun : runSteps n s steps = some s') : Reached s'.1 s'.2 := by
  induction steps generalizing n s with
  | nil => exact Option.some.inj hrun ▸ h
  | cons step steps ih =>
    obtain ⟨s₁, hstep, hrun⟩ := Option.bind_eq_some_iff.mp hrun
    refine ih ?_ hrun
    cases step with
    | handle update =>
      obtain rfl := Option.some.inj hstep
      exact h.after (.handle _ update) trivial (sampleReadings n)
    | claim =>
      unfold BotStep.run at hstep
      dsimp only at hstep
      split at hstep
      · rename_i receipt hclaimed
        obtain rfl := Option.some.inj hstep
        exact h.claim _ _ receipt (sampleReadings n) hclaimed
      · cases hstep
    | finish output =>
      obtain ⟨db, _ | ⟨receipt, claimed⟩⟩ := s
      · cases hstep
      · obtain ⟨attemptId, -, rfl⟩ := Option.map_eq_some_iff.mp hstep
        exact h.after (.finish receipt attemptId output) List.mem_cons_self (sampleReadings n)

/-- A photo, from the linked user. -/
def photoUpdate (updateId : ℤ) : TelegramUpdate :=
  ⟨updateId, some ⟨updateId, some ⟨70, false, "A", none⟩, ⟨70, "private"⟩, none, nofun,
    [⟨"photo", 800, 600, none⟩], none, none, false⟩, none⟩

/-- The button below the message about a receipt that takes long. -/
def manualUpdate (updateId : ℤ) (draftHex : String) : TelegramUpdate :=
  ⟨updateId, none, some ⟨"button", ⟨70, false, "A", none⟩,
    some ⟨updateId, none, ⟨70, "private"⟩, none, nofun, [], none, none, false⟩,
    some ("d:" ++ draftHex ++ ":manual")⟩⟩

/-- A recognizer's answer with one total of 12.50 euros. -/
def oneTotalOutput : RecognitionOutput Binary64 :=
  ⟨[], [], [⟨.finite false ⟨1250, -2⟩, .total, ⟨1⟩⟩], [⟨RawText.ofString "EUR", .explicitCode, ⟨1⟩⟩]⟩

/-- A photo is recognized in time and its draft is cancelled. While the recognizer works on a second
photo, the user chooses to enter the Expense by hand, and the result comes in late. -/
def twoPhotos : List BotStep :=
  [.handle (photoUpdate 1), .claim, .finish (some oneTotalOutput), .handle (cancelMessage 2 70 2),
    .handle (photoUpdate 3), .claim, .handle (manualUpdate 4 "000000000000000000000000000001f8"),
    .finish (some oneTotalOutput)]

omit [PythonRuntime] in
/-- After two photos the late result has filled in the amount, so the conversation asks for what
follows; the draft of the first photo is closed, and `/cancel` closes the second one, too. -/
theorem conversation_holds_draft_photos :
    let _ := PythonRuntime.ascii
    ∃ db claimed c d, runSteps 1 (Database.small, []) twoPhotos = some (db, claimed) ∧
      Reached db claimed ∧ claimed.length = 2 ∧
      (db.drafts.find 104).map (fun d => (d.ownerId, d.state)) = some (7, .cancelled) ∧
      db.conversations.find 7 = some c ∧ d ∈ db.drafts ∧ d.state = .collecting ∧
      d.amount = some twelveFifty ∧ c.activeDraftId = some d.id ∧
      (c.awaiting = .amount ∨ c.awaiting = .merchant ∨ c.awaiting = .category) ∧
      ∀ (settings : BotSettings) (messageId : ℤ) (tape : Stream' Reading),
        let run := (handleUpdate settings (cancelMessage 5 70 messageId)).exec postgres tape ⟨db, db⟩
        run.result = .ok () ∧
          ∃ d', run.final.db.drafts.find d.id = some d' ∧ d'.state = .cancelled := by
  let _ := PythonRuntime.ascii
  -- What the proof reads of the last state, evaluated once.
  have hlast : (runSteps 1 (Database.small, []) twoPhotos).any (fun s => decide (s.2.length = 2 ∧
      (s.1.drafts.find 104).map (fun d => (d.ownerId, d.state)) = some (7, .cancelled) ∧
      (s.1.drafts.find 504).map (fun d => (d.ownerId, d.state)) = some (7, .collecting) ∧
      (s.1.drafts.find 504).bind (·.amount) = some twelveFifty ∧
      (s.1.users.find 7).map (·.status) = some .active ∧
      (s.1.connectionOfTelegramUser 70).map (·.userId) = some 7 ∧
      s.1.processedUpdates.find 5 = none)) = true := by
    decide +kernel
  obtain ⟨⟨db, claimed⟩, hrun, hlast⟩ := (Option.any_eq_true _ _).mp hlast
  obtain ⟨hclaimed, hfirst, hsecond, hamount, huser, hconnection, hnew⟩ := of_decide_eq_true hlast
  obtain ⟨d, hd, hvalues⟩ := Option.map_eq_some_iff.mp hsecond
  obtain ⟨howner, hstate⟩ := Prod.mk.inj hvalues
  rw [hd] at hamount
  obtain ⟨u, hu, hactive⟩ := Option.map_eq_some_iff.mp huser
  obtain ⟨connection, hconn, hlinked⟩ := Option.map_eq_some_iff.mp hconnection
  have h : Reached db claimed :=
    reached_runSteps (s := (Database.small, [])) (.start _ rfl rfl nofun) hrun
  have hmem := Table.mem_of_find hd
  have hopen : d.isOpen = true := by simp [CaptureDraft.isOpen, CaptureDraft.openStates, hstate]
  obtain ⟨hheld, -, hwaits, hcancel⟩ := conversation_holds_draft h 7
  obtain ⟨c, hc, ha⟩ := hheld d hmem howner hopen
  exact ⟨db, claimed, c, d, hrun, h, hclaimed, hfirst, hc, hmem, hstate, hamount, ha,
    ((hwaits c hc d hmem ha).1 hstate).1, hcancel d hmem howner hopen u hu hactive 70 connection
      hconn hlinked 5 hnew⟩

end MintFlow
