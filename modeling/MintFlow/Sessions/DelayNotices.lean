import MintFlow.Lib.Outbox
import MintFlow.Persistence.Footprint
import MintFlow.Sessions.Requests

set_option relaxedAutoImplicit false
set_option autoImplicit false

/-!
# Delay notices

A transaction claims the overdue receipts, looks at the conversation and the draft of each, and
commits before anything is sent. What a session sends is a part of what its transactions published,
and no receipt is published twice, whatever else runs at the same time and whoever is stopped.

## Main definitions

* `MintFlow.Notice` — a delay notice: the draft waits for recognition and is the active one.
* `MintFlow.Noticing`, `MintFlow.noticeTracker` — the notices that a session published, and the claim
  of its open transaction.
* `MintFlow.Fact` — what a transaction learned of a row that it locked.

## Main results

* `MintFlow.Request.wp_notices` — every request sends delay notices only after a commit.
* `MintFlow.facts_of_stmt` — what a transaction learned of the rows it locked stays true.
* `MintFlow.inOrder_state` — each claimed receipt is gone through once.
* `MintFlow.wasNoticed_of_stmt` — no statement takes a claim back.
-/

namespace MintFlow

open Transact Transact.Prog

/-! ## Notices -/

/-- A draft that waits for the recognition of a receipt, as the active draft of its owner's
conversation. -/
structure WaitingDraft where
  receiptId : UUID
  ownerId : UUID
  conversation : TelegramConversation
  draft : CaptureDraft
  owned : conversation.userId = ownerId
  ofReceipt : draft.receiptId = some receiptId
  waiting : draft.state = .awaitingRecognition
  active : conversation.activeDraftId = some draft.id

/-- A delay notice. -/
structure Notice extends WaitingDraft where
  chatId : ℤ

/-- The message of a notice. -/
def Notice.message (n : Notice) : Outgoing := delayNotice n.chatId n.draft

/-- A delay notice is counted. -/
lemma Notice.isDelayNotice (n : Notice) : n.message.isDelayNotice = true := rfl

/-- What the loop over the claimed receipts has in hand. -/
inductive NoticeHand
  | nothing
  /-- The conversation of a receipt's owner was locked. -/
  | locked (receiptId ownerId : UUID) (conversation : TelegramConversation)
      (owned : conversation.userId = ownerId)
  /-- The receipt's draft waits, and is the active one. -/
  | found (w : WaitingDraft)

/-- The claim of an open transaction. -/
structure NoticeClaim where
  now : Instant
  /-- The receipts that were claimed, with their owners. -/
  claimed : List (UUID × UUID)
  /-- Those the loop has yet to look at. -/
  todo : List (UUID × UUID)
  hand : NoticeHand
  /-- The notices to publish. -/
  ready : List Notice

namespace NoticeClaim

/-- The conversation of the next receipt's owner was locked. -/
def lock (c : TelegramConversation) (claim : NoticeClaim) : NoticeClaim :=
  match claim.todo with
  | [] => claim
  | (receiptId, ownerId) :: rest =>
    if h : c.userId = ownerId then
      { claim with todo := rest, hand := .locked receiptId ownerId c h }
    else claim

/-- The draft of the receipt in hand, if it has one, was locked. -/
def find (d : Option CaptureDraft) (claim : NoticeClaim) : NoticeClaim :=
  match claim.hand, d with
  | .locked receiptId ownerId c owned, some d =>
    if h : d.receiptId = some receiptId ∧ d.state = .awaitingRecognition ∧
        c.activeDraftId = some d.id then
      { claim with hand := .found ⟨receiptId, ownerId, c, d, owned, h.1, h.2.1, h.2.2⟩ }
    else { claim with hand := .nothing }
  | _, _ => { claim with hand := .nothing }

/-- The chat of the owner was looked up. -/
def address (connection : Option TelegramConnection) (claim : NoticeClaim) : NoticeClaim :=
  match claim.hand, connection with
  | .found w, some connection =>
    { claim with hand := .nothing, ready := claim.ready ++ [⟨w, connection.telegramUserId⟩] }
  | _, _ => { claim with hand := .nothing }

/-- The loop keeps what was claimed, and when. -/
lemma kept_lock (c : TelegramConversation) (claim : NoticeClaim) :
    (claim.lock c).now = claim.now ∧ (claim.lock c).claimed = claim.claimed := by
  unfold lock
  split
  · exact ⟨rfl, rfl⟩
  · split_ifs <;> exact ⟨rfl, rfl⟩

lemma kept_find (d : Option CaptureDraft) (claim : NoticeClaim) :
    (claim.find d).now = claim.now ∧ (claim.find d).claimed = claim.claimed := by
  unfold find
  split
  · split_ifs <;> exact ⟨rfl, rfl⟩
  · exact ⟨rfl, rfl⟩

lemma kept_address (connection : Option TelegramConnection) (claim : NoticeClaim) :
    (claim.address connection).now = claim.now ∧
      (claim.address connection).claimed = claim.claimed := by
  unfold address
  split <;> exact ⟨rfl, rfl⟩

/-- A draft that is looked for changes neither what is left nor what is ready. -/
lemma find_rest (d : Option CaptureDraft) (claim : NoticeClaim) :
    (claim.find d).todo = claim.todo ∧ (claim.find d).ready = claim.ready := by
  unfold find
  split
  · split_ifs <;> exact ⟨rfl, rfl⟩
  · exact ⟨rfl, rfl⟩

end NoticeClaim

/-- What a session published, and the claim of its open transaction. -/
structure Noticing where
  made : List Notice
  claim : Option NoticeClaim

namespace Noticing

/-- The notices to publish. -/
def ready (k : Noticing) : List Notice := (k.claim.map NoticeClaim.ready).getD []

/-- After a statement. -/
def after : (o : Stmt) → o.Resp → Noticing → Noticing
  | .claimDelayNotices now _ _, claimed, k =>
    { k with claim := some ⟨now, claimed, claimed, .nothing, []⟩ }
  | .lockConversation _ _, c, k => { k with claim := k.claim.map (NoticeClaim.lock c) }
  | .getDraftForUpdateByReceipt _, d, k => { k with claim := k.claim.map (NoticeClaim.find d) }
  | .activeConnectionForUser _, c, k => { k with claim := k.claim.map (NoticeClaim.address c) }
  | _, _, k => k

/-- The statements of the loop over the claimed receipts. -/
def isLoop : Stmt → Bool
  | .lockConversation _ _ | .getDraftForUpdateByReceipt _ | .activeConnectionForUser _ => true
  | _ => false

/-- What may be executed: receipts are claimed when they are overdue, and after a claim there is
only the loop. -/
def mayDo (o : Stmt) (k : Noticing) : Prop :=
  (k.claim ≠ none → isLoop o = true) ∧
    ∀ now before limit, o = .claimDelayNotices now before limit → before = now - delayNoticeAfter

/-- After a commit. -/
def committed (k : Noticing) : Noticing := ⟨k.made ++ k.ready, none⟩

/-- After a rollback. -/
def rolledBack (k : Noticing) : Noticing := ⟨k.made, none⟩

end Noticing

/-- The tracker of delay notices. -/
def noticeTracker : Tracker signature Noticing where
  start := ⟨[], none⟩
  answers := Answers
  mayDo := Noticing.mayDo
  after := Noticing.after
  maySend := fun _ => True
  mayCommit := fun _ => True
  committed := Noticing.committed
  rolledBack := Noticing.rolledBack
  mayFail := fun _ _ => True

/-- A statement publishes nothing. -/
lemma Noticing.made_after (o : Stmt) (r : o.Resp) (k : Noticing) : (after o r k).made = k.made := by
  cases o <;> rfl

/-- Which delay notices a session drafts, and publishes with its commit. -/
def noticeOutbox : Outbox signature Noticing where
  tracker := noticeTracker
  counts := Outgoing.isDelayNotice
  published := fun k => k.made.map Notice.message
  drafted := fun k => k.ready.map Notice.message
  published_start := rfl
  published_after := fun o r k => congrArg _ (Noticing.made_after o r k)
  published_committed := fun _ => List.map_append
  published_rolledBack := fun _ => rfl

/-! ## Every request keeps to this -/

section Requests

variable {k : Noticing}

/-- Without a claim, nothing but a claim is noticed. -/
lemma Noticing.of_claim_none (hk : k.claim = none) {o : Stmt} (ho : o.claimsNotices = false) :
    mayDo o k ∧ ∀ r, after o r k = k := by
  obtain ⟨made, claim⟩ := k
  obtain rfl : claim = none := hk
  refine ⟨⟨fun h => absurd rfl h, ?_⟩, fun r => ?_⟩
  · rintro now before limit rfl
    cases ho
  · cases o <;> first | rfl | cases ho

/-- Without a claim, everything but statements is allowed and changes nothing. -/
lemma noticeTracker_idle (hk : k.claim = none) : noticeOutbox.tracker.Idle k where
  mayFail _ := trivial
  maySend := trivial
  mayCommit := trivial
  committed := by
    obtain ⟨made, claim⟩ := k
    obtain rfl : claim = none := hk
    show Noticing.mk (made ++ []) none = _
    rw [List.append_nil]
  rolledBack := by
    obtain ⟨made, claim⟩ := k
    obtain rfl : claim = none := hk
    rfl

/-- What claims and sends no delay notice keeps to the outbox. -/
lemma Says.wp_notices {α : Type} {P : α → Prop} {p : Program α} (h : Says P p)
    (hk : k.claim = none) (due : List Outgoing) :
    p.wp noticeOutbox.logic (fun a k' => k'.1 = k ∧ P a) (k, due) :=
  Outbox.wp_of_uses (noticeTracker_idle hk) (fun _ ho => Noticing.of_claim_none hk ho)
    (fun _ ho => ho) p (Tracker.wp_usesLogic_mono (fun _ _ _ => trivial) (fun _ ho => ho)
      (fun _ ho => ho) p h) due

/-- A statement that may be executed is followed by the rest of the program. -/
lemma wp_noticed {α : Type} {o : Stmt} {f : o.Resp → Program α}
    {Q : α → Noticing × List Outgoing → Prop} {due : List Outgoing} (ho : Noticing.mayDo o k)
    (hf : ∀ r, Answers o r → (f r).wp noticeOutbox.logic Q (Noticing.after o r k, due)) :
    (execute o >>= f).wp noticeOutbox.logic Q (k, due) :=
  (wp_bind _ _).mpr ⟨ho, hf⟩

/-- Messages that are due are sent. -/
lemma wp_sendMessages_due (items : List Outgoing) :
    (sendMessages items).wp noticeOutbox.logic (fun _ k' => k' = (k, [])) (k, items) := by
  induction items with
  | nil => rfl
  | cons item items ih => exact .inr ⟨items, rfl, ih⟩

/-- The loop over the claimed receipts collects the notices that its statements show.

**Proof sketch.** Induction on what is left to do. The conversation is locked, then the draft it may
wait for: if there is one and the chat has an address, the message is ready as the next notice, and
otherwise this receipt has none. -/
lemma wp_delayNotices (now : Instant) (due : List Outgoing) (made : List Notice) :
    ∀ (todo : List (UUID × UUID)) (claim : NoticeClaim), claim.todo = todo →
      (delayNotices now todo).wp noticeOutbox.logic (fun notices k' => ∃ claim' more,
        k' = (⟨made, some claim'⟩, due) ∧ claim'.ready = claim.ready ++ more ∧
          notices = more.map Notice.message) (⟨made, some claim⟩, due) := by
  intro todo
  induction todo with
  | nil => exact fun claim _ => ⟨claim, [], rfl, (List.append_nil _).symm, rfl⟩
  | cons p rest ih =>
    obtain ⟨receiptId, ownerId⟩ := p
    intro claim htodo
    have hloop : ∀ {o : Stmt} {k : Noticing}, Noticing.isLoop o = true → Noticing.mayDo o k := by
      intro o k ho
      refine ⟨fun _ => ho, ?_⟩
      rintro now before limit rfl
      cases ho
    unfold delayNotices
    refine wp_noticed (hloop rfl) fun c hc => ?_
    have hc' : TelegramConversation.userId c = ownerId := hc
    have hlock : claim.lock c =
        { claim with todo := rest, hand := .locked receiptId ownerId c hc' } := by
      unfold NoticeClaim.lock
      rw [htodo]
      exact dif_pos hc'
    refine wp_noticed (hloop rfl) fun d hd => ?_
    show Prog.wp noticeOutbox.logic _ _ (⟨made, some ((claim.lock c).find d)⟩, due)
    rw [hlock]
    cases hwaiting : d.filter fun d => decide (d.state = .awaitingRecognition) &&
        decide (TelegramConversation.activeDraftId c = some d.id) with
    | none =>
      obtain ⟨htodo', hready⟩ := NoticeClaim.find_rest d
        { claim with todo := rest, hand := .locked receiptId ownerId c hc' }
      obtain hrest := ih _ htodo'
      rw [hready] at hrest
      exact hrest
    | some draft =>
      obtain ⟨rfl, hdraft⟩ := Option.filter_eq_some_iff.mp hwaiting
      obtain ⟨hstate, hactive⟩ := Bool.and_eq_true_iff.mp hdraft
      have hw : draft.receiptId = some receiptId ∧ draft.state = .awaitingRecognition ∧
          TelegramConversation.activeDraftId c = some draft.id :=
        ⟨hd draft rfl, of_decide_eq_true hstate, of_decide_eq_true hactive⟩
      let w : WaitingDraft := ⟨receiptId, ownerId, c, draft, hc', hw.1, hw.2.1, hw.2.2⟩
      have hfind : NoticeClaim.find (some draft)
          { claim with todo := rest, hand := .locked receiptId ownerId c hc' } =
          { claim with todo := rest, hand := .found w } := dif_pos hw
      rw [hfind]
      refine (wp_bind _ _).mpr (wp_noticed (hloop rfl) fun connection _ => ?_)
      cases connection with
      | none =>
        -- Without a chat there is nobody to tell.
        refine wp_bind_of (ih { claim with todo := rest, hand := .nothing } rfl) ?_
        rintro notices _ ⟨claim', more, rfl, hready, rfl⟩
        exact ⟨claim', more, rfl, hready, rfl⟩
      | some connection =>
        let n : Notice := ⟨w, connection.telegramUserId⟩
        refine wp_bind_of (ih { claim with
          todo := rest, hand := .nothing, ready := claim.ready ++ [n] } rfl) ?_
        rintro notices _ ⟨claim', more, rfl, hready, rfl⟩
        refine ⟨claim', n :: more, rfl, ?_, rfl⟩
        rw [hready, List.append_assoc]
        rfl

/-- **Delay notices** are sent after the commit that published them. -/
lemma wp_sendDelayNotices (hk : k.claim = none) (due : List Outgoing) :
    sendDelayNotices.wp noticeOutbox.logic (fun _ k' => k'.1.claim = none) (k, due) := by
  unfold sendDelayNotices
  intro reading
  refine wp_noticed ⟨fun h => absurd hk h, ?_⟩ fun claimed _ => ?_
  · rintro now before limit heq
    cases heq
    rfl
  refine wp_bind_of (wp_delayNotices _ due k.made claimed _ rfl) ?_
  rintro notices _ ⟨claim, more, rfl, hready, rfl⟩
  refine ⟨trivial, ?_⟩
  have hdue : noticeOutbox.drafted ⟨k.made, some claim⟩ = more.map Notice.message :=
    congrArg _ hready
  rw [hdue]
  exact wp_mono _ (fun _ _ hend => by rw [hend]; rfl) (wp_sendMessages_due _)

/-- While a receipt is recognized, delay notices are sent now and then. -/
lemma wp_waitSlices (slices : ℕ) : ∀ {k : Noticing} (due : List Outgoing), k.claim = none →
    (waitSlices slices).wp noticeOutbox.logic (fun _ k' => k'.1.claim = none) (k, due) := by
  induction slices with
  | zero => exact fun _ hk => hk
  | succ slices ih =>
    exact fun due hk => wp_bind_of (wp_sendDelayNotices hk due) fun _ k' hk' => ih k'.2 hk'

variable [PythonRuntime]

/-- A round of the worker keeps to the outbox.

**Proof sketch.** The notices come first (`wp_sendDelayNotices`). Everything after them is quiet,
and runs without a claim. -/
lemma wp_processNext_notices (hk : k.claim = none) (due : List Outgoing) :
    processNext.wp noticeOutbox.logic (fun _ _ => True) (k, due) := by
  -- What is no delay notice leaves the session without a claim.
  have hquiet : ∀ {α : Type} {p : Program α} {k' : Noticing × List Outgoing},
      Says (fun _ => True) p → k'.1.claim = none →
      p.wp noticeOutbox.logic (fun _ k'' => k''.1.claim = none) k' := by
    intro α p k' hp hk'
    refine wp_mono _ (fun _ k'' h => ?_) (hp.wp_notices hk' k'.2)
    rw [h.1]
    exact hk'
  have hfinish : ∀ (receipt : Receipt) (attemptId : UUID)
      (output : Option (RecognitionOutput Binary64)) {k' : Noticing × List Outgoing},
      k'.1.claim = none →
      (finishReceipt receipt attemptId output).wp noticeOutbox.logic (fun _ _ => True) k' :=
    fun receipt attemptId output _ hk' =>
      wp_mono _ (fun _ _ _ => trivial) (hquiet (says_finishReceipt receipt attemptId output) hk')
  unfold processNext
  refine wp_bind_of (wp_sendDelayNotices hk due) fun _ k₁ h₁ => ?_
  refine wp_bind_of (hquiet says_claimNext h₁) fun receipt k₂ h₂ => ?_
  cases receipt with
  | none => trivial
  | some receipt =>
    dsimp only
    cases receipt.attemptId with
    | none => trivial
    | some attemptId =>
      refine wp_bind_of (R := fun _ _ => True) ?_ fun _ _ _ => trivial
      unfold processReceipt
      refine wp_bind_of (hquiet (says_imageFor receipt) h₂) fun found k₃ h₃ => ?_
      cases found with
      | vanished => trivial
      | unreadable => exact hfinish receipt attemptId none h₃
      | image =>
        refine wp_bind_of (R := fun _ k₄ => k₄.1.claim = none) (fun reading => ?_) fun output k₄ h₄ =>
          hfinish receipt attemptId output h₄
        show ((waitSlices reading.slices).bind fun _ => .pure reading.recognition).wp _ _ _
        exact wp_bind_of (wp_waitSlices reading.slices k₃.2 h₃) fun _ _ h₄ => h₄

/-- **Every request** sends delay notices only after the commit that published them. -/
theorem Request.wp_notices (q : Request) :
    q.program.wp noticeOutbox.logic (fun _ _ => True) (noticeTracker.start, []) := by
  by_cases hq : q = .work
  · rw [hq]
    exact wp_bind_of (wp_processNext_notices rfl []) fun _ _ _ => trivial
  · refine wp_mono _ (fun _ _ _ => trivial) (Outbox.wp_of_uses (noticeTracker_idle rfl)
      (fun o ho => Noticing.of_claim_none rfl ?_) (fun _ ho => ho) _ (Request.wp_uses hq) [])
    cases o <;> first | rfl | cases ho

end Requests

/-! ## What a transaction learned -/

/-- Whether a receipt was claimed for its delay notice. -/
def Database.wasNoticed (db : Database) (receiptId : UUID) : Bool :=
  (db.receipts.find receiptId).any fun row => row.delayNoticeSentAt.isSome

/-- What a transaction learned of a row that it locked. -/
inductive Fact
  /-- A receipt was claimed for its delay notice. -/
  | noticed (receiptId : UUID)
  | conversation (c : TelegramConversation)
  | draft (d : CaptureDraft)
deriving DecidableEq

namespace Fact

/-- The lock of the row. -/
def key : Fact → Key
  | .noticed receiptId => .receipt receiptId
  | .conversation c => .conversation c.userId
  | .draft d => .draft d.id

/-- What it says of a state. -/
def Holds : Fact → Database → Prop
  | .noticed receiptId, db => db.wasNoticed receiptId = true
  | .conversation c, db => db.conversations.find c.userId = some c
  | .draft d, db => db.drafts.find d.id = some d

/-- It changes only under the lock, because a write replaces a row.

**Proof sketch.** By the fact. A write of another row keeps the row, and a write of this one
replaces it by a row that does not depend on what was there. -/
lemma guarded (a : Fact) : Guarded postgres Write.keys a.key a.Holds := by
  cases a with
  | noticed receiptId =>
    refine ⟨fun w db hw => ?_, fun w db db' h => ?_⟩
    · have hfind := (guarded_receipt receiptId).frame w db hw
      exact congrArg (fun x => Option.any (fun row => row.delayNoticeSentAt.isSome) x = true) hfind
    · show (Option.any _ ((db.apply w).receipts.find receiptId) = true) =
        (Option.any _ ((db'.apply w).receipts.find receiptId) = true)
      rw [Database.find_receipt_apply, Database.find_receipt_apply]
      cases w with
      | receipt row =>
        dsimp only
        split_ifs
        · rfl
        · exact h
      | _ => exact h
  | conversation c =>
    refine ⟨fun w db hw => ?_, fun w db db' h => ?_⟩
    · exact congrArg (fun x => x = some c) ((guarded_conversation c.userId).frame w db hw)
    · show ((db.apply w).conversations.find c.userId = some c) =
        ((db'.apply w).conversations.find c.userId = some c)
      rw [Database.find_conversation_apply, Database.find_conversation_apply]
      cases w with
      | conversation c' =>
        dsimp only
        split_ifs
        · rfl
        · exact h
      | _ => exact h
  | draft d =>
    refine ⟨fun w db hw => ?_, fun w db db' h => ?_⟩
    · exact congrArg (fun x => x = some d) ((guarded_draft d.id).frame w db hw)
    · show ((db.apply w).drafts.find d.id = some d) = ((db'.apply w).drafts.find d.id = some d)
      rw [Database.find_draft_apply, Database.find_draft_apply]
      cases w with
      | draft d' =>
        dsimp only
        split_ifs
        · rfl
        · exact h
      | _ => exact h

end Fact

/-- The facts about what is in hand. -/
def NoticeHand.facts : NoticeHand → List Fact
  | .nothing => []
  | .locked _ _ c _ => [.conversation c]
  | .found w => [.conversation w.conversation, .draft w.draft]

/-- The facts about a notice. -/
def Notice.facts (n : Notice) : List Fact := [.conversation n.conversation, .draft n.draft]

/-- The facts that a claim rests on. -/
def NoticeClaim.facts (claim : NoticeClaim) : List Fact :=
  (claim.claimed.map fun p => Fact.noticed p.1) ++ claim.hand.facts ++
    claim.ready.flatMap Notice.facts

/-- The facts that a session counts on. -/
def Noticing.facts (k : Noticing) : List Fact := (k.claim.map NoticeClaim.facts).getD []

/-- What a session knows. -/
def Noticing.knows (k : Noticing) (a : Fact) : Option (Prop → Prop) :=
  if a ∈ k.facts then some id else none

section Facts

variable {claim : NoticeClaim} {a : Fact} {busy : Key → Bool} {db : Database} {ws : List Write}

namespace NoticeClaim

/-- The facts of a claim are of what was claimed, of what is in hand and of what is ready. -/
lemma mem_facts : a ∈ claim.facts ↔ (∃ p ∈ claim.claimed, Fact.noticed p.1 = a) ∨
    a ∈ claim.hand.facts ∨ ∃ n ∈ claim.ready, a ∈ n.facts := by
  unfold facts
  rw [List.mem_append, List.mem_append, List.mem_map, List.mem_flatMap, or_assoc]

/-- A locked conversation adds what is known of it. -/
lemma mem_facts_lock {c : TelegramConversation} (h : a ∈ (claim.lock c).facts) :
    a ∈ claim.facts ∨ a = .conversation c := by
  unfold lock at h
  split at h
  · exact .inl h
  · split_ifs at h
    · rcases mem_facts.mp h with hclaimed | hhand | hready
      · exact .inl (mem_facts.mpr (.inl hclaimed))
      · exact .inr (List.mem_singleton.mp hhand)
      · exact .inl (mem_facts.mpr (.inr (.inr hready)))
    · exact .inl h

/-- A locked draft adds what is known of it.

**Proof sketch.** By what is in hand. A draft that is found waiting is added to the facts of the
conversation, and what is dropped adds none. -/
lemma mem_facts_find {d : Option CaptureDraft} (h : a ∈ (claim.find d).facts) :
    a ∈ claim.facts ∨ ∃ d', d = some d' ∧ a = .draft d' := by
  -- Without a draft in hand there is nothing new.
  have hdropped : a ∈ { claim with hand := .nothing }.facts → a ∈ claim.facts := by
    intro h
    rcases mem_facts.mp h with hclaimed | hhand | hready
    · exact mem_facts.mpr (.inl hclaimed)
    · exact absurd hhand List.not_mem_nil
    · exact mem_facts.mpr (.inr (.inr hready))
  unfold find at h
  split at h
  · rename_i receiptId ownerId c owned d hhand
    split_ifs at h
    · rcases mem_facts.mp h with hclaimed | hfound | hready
      · exact .inl (mem_facts.mpr (.inl hclaimed))
      · rcases List.mem_cons.mp hfound with rfl | hdraft
        · refine .inl (mem_facts.mpr (.inr (.inl ?_)))
          rw [hhand]
          exact List.mem_singleton.mpr rfl
        · exact .inr ⟨d, rfl, List.mem_singleton.mp hdraft⟩
      · exact .inl (mem_facts.mpr (.inr (.inr hready)))
    · exact .inl (hdropped h)
  · exact .inl (hdropped h)

/-- A chat adds nothing. -/
lemma mem_facts_address {connection : Option TelegramConnection}
    (h : a ∈ (claim.address connection).facts) : a ∈ claim.facts := by
  unfold address at h
  split at h
  · rename_i w connection hhand
    rcases mem_facts.mp h with hclaimed | hnothing | ⟨n, hn, ha⟩
    · exact mem_facts.mpr (.inl hclaimed)
    · exact absurd hnothing List.not_mem_nil
    · rcases List.mem_append.mp hn with hn | hn
      · exact mem_facts.mpr (.inr (.inr ⟨n, hn, ha⟩))
      · -- What was in hand is ready.
        rw [List.mem_singleton.mp hn] at ha
        refine mem_facts.mpr (.inr (.inl ?_))
        rw [hhand]
        exact ha
  · rcases mem_facts.mp h with hclaimed | hnothing | hready
    · exact mem_facts.mpr (.inl hclaimed)
    · exact absurd hnothing List.not_mem_nil
    · exact mem_facts.mpr (.inr (.inr hready))

end NoticeClaim

/-- Locking a conversation changes no row that there is. -/
lemma Fact.Holds.lock {user : UUID} {now : Instant} {c : TelegramConversation} (h : a.Holds db)
    (heval : db.lockConversation user now = .ok (c, ws)) : a.Holds (postgres.applyAll ws db) := by
  rcases Database.lockConversation_eq_ok heval with ⟨-, rfl⟩ | ⟨hnone, -, rfl, rfl⟩
  · exact h
  cases a with
  | conversation c' =>
    show (db.apply (.conversation (.idle user now))).conversations.find c'.userId = some c'
    rw [Database.find_conversation_apply]
    dsimp only
    rw [if_neg]
    · exact h
    · rintro (hu : c'.userId = user)
      have hfind : db.conversations.find c'.userId = some c' := h
      rw [hu, hnone] at hfind
      cases hfind
  | _ => exact h

/-- **What a transaction learned** of the rows it locked stays true of what it sees, and what it
learns it holds the lock of.

**Proof sketch.** By the statement. The claim locks the receipts it marks, the conversation and the
draft are locked as they are read, and no other statement of the loop adds a fact or writes a row of
one. -/
lemma facts_of_stmt {o : Stmt} {r : o.Resp} {k : Noticing} (hmay : Noticing.mayDo o k)
    (h : evaluate o busy db = .ok (r, ws)) (ha : a ∈ (Noticing.after o r k).facts) :
    (a ∈ k.facts ∧ (a.Holds db → a.Holds (postgres.applyAll ws db))) ∨
      (a.key, Strength.update) ∈ statementLocks o busy db ∧ a.Holds (postgres.applyAll ws db) := by
  obtain ⟨made, claim⟩ := k
  cases claim with
  | none =>
    by_cases ho : o.claimsNotices = true
    swap
    · -- Without a claim there are no facts.
      rw [(Noticing.of_claim_none rfl (Bool.eq_false_iff.mpr ho)).2 r] at ha
      exact absurd ha List.not_mem_nil
    cases o <;> try cases ho
    rename_i now before limit
    obtain ⟨rfl, rfl⟩ := Prod.mk.inj (Except.ok.inj h)
    rcases NoticeClaim.mem_facts.mp ha with ⟨p, hp, rfl⟩ | hhand | ⟨n, hn, -⟩
    · obtain ⟨row, hrow, rfl⟩ := List.mem_map.mp hp
      have hoverdue : row ∈ db.overdueReceipts busy before limit := hrow
      have hfind := Table.find_of_mem (Database.mem_overdueReceipts hoverdue).1
      refine .inr ⟨List.mem_append_left _ (List.mem_map_of_mem hp), ?_⟩
      show Option.any _ ((postgres.applyAll (db.claimDelayNotices busy now before limit).2
        db).receipts.find row.receipt.id) = true
      rw [Database.find_receipt_noticed, hfind, Option.map_some, if_pos hoverdue]
      rfl
    · exact absurd hhand List.not_mem_nil
    · exact absurd hn List.not_mem_nil
  | some claim =>
    have hloop : Noticing.isLoop o = true := hmay.1 (by simp)
    cases o
    case lockConversation user now =>
      rcases NoticeClaim.mem_facts_lock ha with hold | rfl
      · exact .inl ⟨hold, fun hholds => hholds.lock h⟩
      have huser : r.userId = user := answers_of_evaluate h
      refine .inr ⟨List.mem_append_left _ (List.mem_singleton.mpr ?_), ?_⟩
      · rw [← huser]
        rfl
      · show (postgres.applyAll ws db).conversations.find r.userId = some r
        rcases Database.lockConversation_eq_ok h with ⟨hfind, rfl⟩ | ⟨-, -, -, rfl⟩
        · rw [huser]
          exact hfind
        · show (db.apply (.conversation r)).conversations.find r.userId = some r
          rw [Database.find_conversation_apply]
          exact if_pos rfl
    case getDraftForUpdateByReceipt id =>
      obtain ⟨rfl, rfl⟩ := Prod.mk.inj (Except.ok.inj h)
      rcases NoticeClaim.mem_facts_find ha with hold | ⟨d, hd, rfl⟩
      · exact .inl ⟨hold, fun hholds => hholds⟩
      · refine .inr ⟨List.mem_append_left _ ?_, Table.find_of_mem (Database.mem_of_draftOfReceipt hd).1⟩
        show _ ∈ ((db.draftOfReceipt id).map fun d => (Key.draft d.id, Strength.update)).toList
        rw [hd]
        exact List.mem_singleton.mpr rfl
    case activeConnectionForUser user =>
      obtain ⟨rfl, rfl⟩ := Prod.mk.inj (Except.ok.inj h)
      exact .inl ⟨NoticeClaim.mem_facts_address ha, fun hholds => hholds⟩
    all_goals cases hloop

end Facts

/-! ## The loop goes through what was claimed -/

/-- The receipt in hand, with its owner. -/
def NoticeHand.items : NoticeHand → List (UUID × UUID)
  | .nothing => []
  | .locked receiptId ownerId _ _ => [(receiptId, ownerId)]
  | .found w => [(w.receiptId, w.ownerId)]

/-- The receipts of the notices to publish, the one in hand and those to come, with their owners. -/
def NoticeClaim.items (claim : NoticeClaim) : List (UUID × UUID) :=
  claim.ready.map (fun n => (n.receiptId, n.ownerId)) ++ claim.hand.items ++ claim.todo

/-- Each claimed receipt is gone through once, in order. -/
def NoticeClaim.InOrder (claim : NoticeClaim) : Prop := claim.items.Sublist claim.claimed

namespace NoticeClaim

variable {claim : NoticeClaim}

/-- What is dropped leaves the others in order. -/
lemma InOrder.dropped (h : claim.InOrder) : { claim with hand := .nothing }.InOrder := by
  refine List.Sublist.trans ?_ h
  show (_ ++ [] ++ claim.todo).Sublist (_ ++ claim.hand.items ++ claim.todo)
  rw [List.append_nil]
  exact (List.sublist_append_left _ _).append_right _

/-- A locked conversation takes the next receipt in hand. -/
lemma InOrder.lock (h : claim.InOrder) (c : TelegramConversation) : (claim.lock c).InOrder := by
  unfold NoticeClaim.lock
  split
  · exact h
  · rename_i receiptId ownerId rest htodo
    split_ifs
    · refine List.Sublist.trans ?_ h
      show (_ ++ [(receiptId, ownerId)] ++ rest).Sublist (_ ++ claim.hand.items ++ claim.todo)
      rw [htodo, List.append_assoc]
      exact (List.sublist_append_left _ _).append_right _
    · exact h

/-- A draft that is found, or not, is of the receipt in hand. -/
lemma InOrder.find (h : claim.InOrder) (d : Option CaptureDraft) : (claim.find d).InOrder := by
  unfold NoticeClaim.find
  split
  · rename_i receiptId ownerId c owned d hhand
    split_ifs
    · unfold InOrder items at h ⊢
      rw [hhand] at h
      exact h
    · exact h.dropped
  · exact h.dropped

/-- A chat that is found, or not, settles the receipt in hand. -/
lemma InOrder.address (h : claim.InOrder) (connection : Option TelegramConnection) :
    (claim.address connection).InOrder := by
  unfold NoticeClaim.address
  split
  · rename_i w connection hhand
    unfold InOrder items at h ⊢
    rw [hhand] at h
    rw [List.map_append]
    show (_ ++ [(w.receiptId, w.ownerId)] ++ [] ++ _).Sublist _
    rw [List.append_nil]
    exact h
  · exact h.dropped

end NoticeClaim

/-- Whatever a session did, its claim is gone through in order.

**Proof sketch.** Induction on the history, from its end. A claim starts with all of it to do, and
each statement of the loop takes the next. -/
lemma inOrder_state (es : List (Event signature)) :
    ∀ claim ∈ (noticeTracker.state es).claim, claim.InOrder := by
  induction es using List.reverseRecOn with
  | nil => exact fun _ h => by cases h
  | append_singleton es e ih =>
    rw [noticeTracker.state_append]
    generalize noticeTracker.state es = k at ih
    have hmap : ∀ f : NoticeClaim → NoticeClaim, (∀ claim, claim.InOrder → (f claim).InOrder) →
        ∀ claim ∈ k.claim.map f, claim.InOrder := by
      intro f hf claim hclaim
      obtain ⟨claim', hclaim', rfl⟩ := Option.map_eq_some_iff.mp hclaim
      exact hf claim' (ih claim' hclaim')
    cases e with
    | committed => exact fun _ h => by cases h
    | rolledBack => exact fun _ h => by cases h
    | did o r =>
      cases o
      case claimDelayNotices now before limit =>
        rintro _ ⟨⟩
        exact List.Sublist.refl _
      case lockConversation user now => exact hmap _ fun _ h => h.lock r
      case getDraftForUpdateByReceipt id => exact hmap _ fun _ h => h.find r
      case activeConnectionForUser user => exact hmap _ fun _ h => h.address r
      all_goals exact ih

/-! ## A receipt stays claimed -/

section Claimed

variable {o : Stmt} {busy : Key → Bool} {db : Database} {r : o.Resp} {ws : List Write}

/-- A write of one row, with the time of its delay notice as it was. -/
lemma wasNoticed_write {row : ReceiptRow} (row' : ReceiptRow)
    (hrow : db.receipts.find row'.receipt.id = some row)
    (hsent : row'.delayNoticeSentAt = row.delayNoticeSentAt) {id : UUID}
    (h : db.wasNoticed id = true) : (db.apply (.receipt row')).wasNoticed id = true := by
  unfold Database.wasNoticed at h ⊢
  rw [Database.find_receipt_apply]
  dsimp only
  split_ifs with hid
  · rw [hid, hrow] at h
    rw [Option.any_some, hsent]
    exact h
  · exact h

/-- Rows that are changed all alike, with the times of their delay notices as they were or set. -/
lemma wasNoticed_map {db' : Database} {id : UUID} {f : ReceiptRow → ReceiptRow}
    (hfind : db'.receipts.find id = (db.receipts.find id).map f)
    (hsent : ∀ row, row.delayNoticeSentAt.isSome = true → (f row).delayNoticeSentAt.isSome = true)
    (h : db.wasNoticed id = true) : db'.wasNoticed id = true := by
  unfold Database.wasNoticed at h ⊢
  rw [hfind]
  cases hrow : db.receipts.find id with
  | none =>
    rw [hrow] at h
    cases h
  | some row =>
    rw [hrow] at h
    exact hsent row h

/-- **No statement** takes it back that a receipt was claimed for its delay notice.

**Proof sketch.** By the statement. A row that is written keeps the time of its notice, and a new
receipt has an identifier that none had. -/
lemma wasNoticed_of_stmt (h : evaluate o busy db = .ok (r, ws)) {id : UUID}
    (hid : db.wasNoticed id = true) : (postgres.applyAll ws db).wasNoticed id = true := by
  by_cases hwrites : .receipts ∈ o.writes
  swap
  · unfold Database.wasNoticed
    rw [receipts_applyAll (table_ne_of_not_mem h hwrites)]
    exact hid
  cases o
  case createReceipt receipt file =>
    obtain ⟨hnone, -, rfl⟩ := Database.createReceipt_eq_ok h
    show (db.apply (.receipt ⟨receipt, file, none⟩)).wasNoticed id = true
    unfold Database.wasNoticed at hid ⊢
    rw [Database.find_receipt_apply]
    dsimp only
    split_ifs with hr
    · rw [hr, hnone] at hid
      cases hid
    · exact hid
  case updateClaimed receipt =>
    rcases Database.updateClaimed_eq_ok h with ⟨-, rfl⟩ | ⟨row, hrow, rfl⟩
    · exact hid
    · have hfind : db.receipts.find row.receipt.id = some row :=
        (congrArg _ (Table.key_of_find hrow)).trans hrow
      exact wasNoticed_write (Database.claimedReceipt row receipt) hfind rfl hid
  case claimDelayNotices now before limit =>
    obtain ⟨-, rfl⟩ := Prod.mk.inj (Except.ok.inj h)
    refine wasNoticed_map (Database.find_receipt_noticed id) (fun row hrow => ?_) hid
    split_ifs
    · rfl
    · exact hrow
  case saveFinished receipt =>
    rcases Database.saveFinished_eq_ok h with ⟨-, rfl⟩ | ⟨row, -, hrow, -, -, -, rfl⟩
    · exact hid
    · have hfind : db.receipts.find row.receipt.id = some row :=
        (congrArg _ (Table.key_of_find hrow)).trans hrow
      exact wasNoticed_write (Database.finishedReceipt row receipt) hfind rfl hid
  case deleteReceiptData cutoff now size =>
    obtain ⟨-, rfl⟩ := Prod.mk.inj (Except.ok.inj h)
    refine wasNoticed_map (Database.find_receipt_cleared id) (fun row hrow => ?_) hid
    split_ifs
    · exact hrow
    · exact hrow
  all_goals exact absurd hwrites (by simp [Stmt.writes])

end Claimed

end MintFlow
