import MintFlow.Persistence.StatementSpecs
import MintFlow.Telegram.Handler
import MintFlow.Telegram.ReceiptWorker

set_option relaxedAutoImplicit false
set_option autoImplicit false

/-!
# The protocol of handling

Every program that works on a user's conversation goes through the same stages: it locks the
conversation, finds the active draft, revises or replaces that draft, and saves the conversation to
match. This module says once what a program may do at each stage, as rules over an arbitrary state
of the reader. Whoever gives the stages a meaning and justifies the rules learns what every update
and every round of the receipt worker does.

## Main definitions

* `MintFlow.Revised`, `MintFlow.Paired` — what handling may make of an open draft, and when a
  conversation matches its active draft.
* `MintFlow.Stage` — the stages.
* `MintFlow.Answers` — what is known of the answer of a statement, whatever the database holds.
* `MintFlow.Rules` — the rules.
-/

namespace MintFlow

open Transact Transact.Prog

/-! ## Drafts under handling -/

/-- What the handlers may make of an open draft short of confirming it. -/
structure Revised [PythonRuntime] (d d' : CaptureDraft) : Prop where
  isOpen : d.isOpen = true
  id : d'.id = d.id
  ownerId : d'.ownerId = d.ownerId
  source : d'.source = d.source
  receiptId : d'.receiptId = d.receiptId
  createdAt : d'.createdAt = d.createdAt
  unconfirmed : d'.state ≠ .confirmed
  waits : d'.state = .awaitingRecognition → d.state = .awaitingRecognition
  expenseId : d'.expenseId = d.expenseId
  confirmedAt : d'.confirmedAt = d.confirmedAt
  category : d'.categoryKey = d.categoryKey ∨ ∃ k, d'.categoryKey = some k ∧
    requireStableKey k = .ok ()

/-- A conversation matches its active draft: the draft has a date and only positive amounts, and
the conversation waits for what the draft still needs. -/
structure Paired (d : CaptureDraft) (c : TelegramConversation) : Prop where
  owner : d.ownerId = c.userId
  active : c.activeDraftId = some d.id
  isOpen : d.isOpen = true
  date : d.transactionDate.isSome = true
  positive : ∀ m ∈ d.amount, 0 < m.minorUnits
  collecting : d.state = .collecting → c.awaiting = .amount ∨
    (c.awaiting = .merchant ∨ c.awaiting = .category) ∧ d.amount.isSome = true
  waiting : d.state = .awaitingRecognition → c.awaiting = .nothing
  ready : d.state = .readyForReview → d.amount.isSome = true

/-- A draft as a handler opens it for the user. -/
structure Opened (user : UUID) (d : CaptureDraft) : Prop where
  ownerId : d.ownerId = user
  isOpen : d.isOpen = true
  expenseId : d.expenseId = none
  confirmedAt : d.confirmedAt = none
  category : d.categoryKey = none

/-! ## Stages -/

/-- How far a transaction has come. -/
inductive Stage
  /-- Nothing but bookkeeping has been done. -/
  | idle
  /-- An update was recorded. -/
  | opened
  /-- A link challenge was claimed. -/
  | linking
  /-- The conversation is locked. -/
  | locked (c : TelegramConversation)
  /-- The conversation points at a draft that is not open. -/
  | dangling (c : TelegramConversation)
  /-- The user has no active draft. -/
  | vacant (user : UUID)
  /-- The active draft is known. -/
  | holding (c : TelegramConversation) (d : CaptureDraft)
  /-- The draft that was `d` is now `d'`; the conversation is still `c`. -/
  | updated (c : TelegramConversation) (d d' : CaptureDraft)
  /-- A receipt was created for a user without an active draft. -/
  | received (user : UUID) (r : Receipt)
  /-- A draft was created for a user without an active draft. -/
  | created (user : UUID) (d : CaptureDraft)
  /-- The active draft was confirmed and committed. -/
  | confirmed (c : TelegramConversation)
  /-- Nothing is left to do but to commit. -/
  | done
  /-- A receipt was selected for a claim. -/
  | claiming (now : Instant) (r : Receipt)
  /-- An attempt finished the receipt, which is now `r`. -/
  | finishing (r : Receipt)
  /-- An attempt finished the receipt and locked its owner's conversation. -/
  | finishingLocked (r : Receipt) (c : TelegramConversation)
  /-- An attempt finished the receipt, whose draft is open. -/
  | recovering (r : Receipt) (c : TelegramConversation) (d : CaptureDraft)
  /-- An attempt finished the receipt, whose draft is not open. -/
  | drained (r : Receipt)
  /-- Nothing may follow but a rollback. -/
  | void
  /-- The transaction was committed. -/
  | ended

/-- The stages at which a transaction may be committed. -/
inductive Stage.Settled : Stage → Prop
  | idle : Settled idle
  | opened : Settled opened
  | linking : Settled linking
  | locked (c : TelegramConversation) : Settled (locked c)
  | vacant (user : UUID) : Settled (vacant user)
  | holding (c : TelegramConversation) (d : CaptureDraft) : Settled (holding c d)
  | done : Settled done
  | drained (r : Receipt) : Settled (drained r)
  | ended : Settled ended

/-- The stages at which an attempt has dealt with the draft of the receipt it finished. -/
inductive Stage.Looked (r : Receipt) : Stage → Prop
  | recovering (c : TelegramConversation) (d : CaptureDraft) : Looked r (recovering r c d)
  | drained : Looked r (drained r)

/-! ## Statements -/

/-- The statements that neither write nor lock. -/
def Stmt.reads : Stmt → Bool
  | .getUser _ | .getCategory _ | .listActiveCategories | .getDraft _ _ | .getExpense _ _
  | .listRecentExpenses _ _ | .telegramFileId _ | .getImage _
  | .activeConnectionForTelegramUser _ | .activeConnectionForUser _ => true
  | _ => false

/-- The bookkeeping of the receipt worker: statements that touch no draft and no Expense, and no
conversation but to lock it, and that never claim or finish a receipt. -/
inductive Bookkeeping : Stmt → Prop
  | claimDelayNotices (now before : Instant) (limit : ℕ) :
      Bookkeeping (.claimDelayNotices now before limit)
  | lockReceipt (id : UUID) : Bookkeeping (.lockReceipt id)
  | createImage (i : ReceiptImage) : Bookkeeping (.createImage i)
  | lockConversation (user : UUID) (now : Instant) : Bookkeeping (.lockConversation user now)
  | draftOfReceipt (id : UUID) : Bookkeeping (.getDraftForUpdateByReceipt id)

/-- What is known of the answer of a statement, whatever the database holds. -/
def Answers : (o : Stmt) → o.Resp → Prop
  | .getUser id, r => ∀ u, r = some u → u.id = id
  | .getDraft id owner, r => ∀ d, r = some d → d.id = id ∧ d.ownerId = owner
  | .getDraftForUpdate id owner, r => ∀ d, r = some d → d.id = id ∧ d.ownerId = owner
  | .getDraftForUpdateByReceipt id, r => ∀ d, r = some d → d.receiptId = some id
  | .lockConversation user _, c => TelegramConversation.userId c = user
  | .getExpense id owner, r => ∀ e, r = some e → e.id = id ∧ e.ownerId = owner
  | _, _ => True

/-- A statement that answers, answers as it must.

**Proof sketch.** Cases on the statement: what it answers was found by the key that it looked
for. -/
lemma answers_of_evaluate {o : Stmt} {busy : Key → Bool} {db : Database} {r : o.Resp}
    {ws : List Write} (h : evaluate o busy db = .ok (r, ws)) : Answers o r := by
  cases o
  case getUser id =>
    obtain ⟨rfl, -⟩ := Prod.mk.inj (Except.ok.inj h)
    exact fun u hu => Table.key_of_find hu
  case getDraft id owner =>
    obtain ⟨rfl, -⟩ := Prod.mk.inj (Except.ok.inj h)
    intro d hd
    obtain ⟨hfind, howner⟩ := Database.ownedDraft_eq_some.mp hd
    exact ⟨Table.key_of_find hfind, howner⟩
  case getDraftForUpdate id owner =>
    obtain ⟨rfl, -⟩ := Prod.mk.inj (Except.ok.inj h)
    intro d hd
    obtain ⟨hfind, howner⟩ := Database.ownedDraft_eq_some.mp hd
    exact ⟨Table.key_of_find hfind, howner⟩
  case getDraftForUpdateByReceipt id =>
    obtain ⟨rfl, -⟩ := Prod.mk.inj (Except.ok.inj h)
    exact fun d hd => (Database.mem_of_draftOfReceipt hd).2
  case lockConversation user now =>
    rcases Database.lockConversation_eq_ok h with ⟨hfind, -⟩ | ⟨-, -, rfl, -⟩
    · exact Table.key_of_find hfind
    · rfl
  case getExpense id owner =>
    obtain ⟨rfl, -⟩ := Prod.mk.inj (Except.ok.inj h)
    intro e he
    obtain ⟨hfind, howner⟩ := Database.ownedExpense_eq_some.mp he
    exact ⟨Table.key_of_find hfind, howner⟩
  all_goals trivial

/-- A statement that reads always answers, and writes nothing. -/
lemma evaluate_of_reads {o : Stmt} (h : o.reads = true) (busy : Key → Bool) (db : Database) :
    ∃ r, evaluate o busy db = .ok (r, []) := by
  cases o <;> first | exact ⟨_, rfl⟩ | exact absurd h Bool.false_ne_true

/-! ## Rules -/

/-- A meaning of the stages for a reader with states `K`, and the rules that justify it for every
program: from a stage, an action is allowed and leads to another stage. -/
structure Rules [PythonRuntime] (K : Type) where
  /-- The reader's obligations. -/
  logic : Logic signature K
  /-- The meaning of a stage. -/
  inStage : Stage → K → Prop
  raises : ∀ e k, logic.fail e k
  /-- Messages are sent after the commit. -/
  sends : ∀ {o k} {P : K → Prop}, inStage .ended k → P k → logic.emit o k P
  reads : ∀ {φ o k} {P : o.Resp → K → Prop}, o.reads = true → inStage φ k →
    (∀ r k', Answers o r → inStage φ k' → P r k') → logic.stmt o k P
  commits : ∀ {φ k} {P : K → Prop}, φ.Settled → inStage φ k →
    (∀ k', inStage .ended k' → P k') → logic.commit k P
  rollbacks : ∀ {k} {P : K → Prop}, inStage .void k → (∀ k', P k') → logic.rollback k P
  revises : ∀ {c d d₁ d₂ k} {P : Unit → K → Prop}, inStage (.updated c d d₁) k →
    Revised d₁ d₂ → (∀ k', inStage (.updated c d d₂) k' → P () k') →
    logic.stmt (.updateDraft d₂) k P
  /-- Saving a conversation that matches the draft, if the one before did. -/
  saves : ∀ {c d d' c' k} {P : Unit → K → Prop}, inStage (.updated c d d') k →
    c'.userId = c.userId → c'.activeDraftId = c.activeDraftId →
    (Paired d c → Paired d' c') → (∀ k', inStage .done k' → P () k') →
    logic.stmt (.saveConversation c') k P
  /-- Leaving the conversation as it was, if it still matches. -/
  settles : ∀ {c d d' k}, inStage (.updated c d d') k → (Paired d c → Paired d' c) →
    inStage .done k

/-- The rules that justify the meaning of the stages for the handling of an update. -/
structure HandlerRules [PythonRuntime] (K : Type) extends Rules K where
  /-- An update is recorded unless it was before. -/
  begins : ∀ {id now k} {P : Bool → K → Prop}, inStage .idle k →
    (∀ k', inStage .opened k' → P true k') → (∀ k', inStage .void k' → P false k') →
    logic.stmt (.beginUpdate id now) k P
  claims : ∀ {hash t name now k} {P : Option TelegramLinkChallenge → K → Prop},
    inStage .opened k → (∀ r k', inStage .linking k' → P r k') →
    logic.stmt (.claimChallenge hash t name now) k P
  audits : ∀ {a k} {P : Unit → K → Prop}, inStage .linking k →
    (∀ k', inStage .linking k' → P () k') → logic.stmt (.addAuditRecord a) k P
  locks : ∀ {user now k} {P : TelegramConversation → K → Prop}, inStage .opened k →
    (∀ c k', c.userId = user → inStage (.locked c) k' → P c k') →
    logic.stmt (.lockConversation user now) k P
  /-- A conversation without an active draft id has no active draft. -/
  vacates : ∀ {c k}, c.activeDraftId = none → inStage (.locked c) k → inStage (.vacant c.userId) k
  /-- The active draft id leads to an open draft, or the conversation dangles. -/
  finds : ∀ {c id k} {P : Option CaptureDraft → K → Prop}, inStage (.locked c) k →
    c.activeDraftId = some id →
    (∀ d k', d.id = id → d.ownerId = c.userId → d.isOpen = true → inStage (.holding c d) k' →
      P (some d) k') →
    (∀ r k', r.filter CaptureDraft.isOpen = none → inStage (.dangling c) k' → P r k') →
    logic.stmt (.getDraft id c.userId) k P
  releases : ∀ {c now k} {P : Unit → K → Prop}, inStage (.dangling c) k →
    (∀ k', inStage (.vacant c.userId) k' → P () k') →
    logic.stmt (.saveConversation (c.finished now)) k P
  holds : ∀ {c d k}, inStage (.holding c d) k → inStage (.updated c d d) k
  /-- Releasing the conversation from a draft that was just cancelled. -/
  cancels : ∀ {c d d' now k} {P : Unit → K → Prop}, inStage (.updated c d d') k →
    c.activeDraftId = some d'.id → d'.state = .cancelled →
    (∀ k', inStage (.vacant c.userId) k' → P () k') →
    logic.stmt (.saveConversation (c.finished now)) k P
  receives : ∀ {user id now file k} {P : Unit → K → Prop}, inStage (.vacant user) k →
    (∀ k', inStage (.received user (Receipt.receive id user now)) k' → P () k') →
    logic.stmt (.createReceipt (Receipt.receive id user now) file) k P
  /-- Opening a draft that was typed in. -/
  opens : ∀ {user d k} {P : Unit → K → Prop}, inStage (.vacant user) k → Opened user d →
    d.state = .collecting → d.receiptId = none → (∀ k', inStage (.created user d) k' → P () k') →
    logic.stmt (.createDraft d) k P
  /-- Opening a draft for a receipt. -/
  opensReceipt : ∀ {user r d k} {P : Unit → K → Prop}, inStage (.received user r) k →
    Opened user d → d.state = .awaitingRecognition → d.receiptId = some r.id →
    (∀ k', inStage (.created user d) k' → P () k') → logic.stmt (.createDraft d) k P
  points : ∀ {user d c k} {P : Unit → K → Prop}, inStage (.created user d) k → Paired d c →
    c.userId = user → (∀ k', inStage .done k' → P () k') →
    logic.stmt (.saveConversation c) k P
  /-- Confirming the active draft: what is refused may be handled. -/
  confirms : ∀ {c d k} {F : Error → K → Prop} {Q : Expense → K → Prop},
    inStage (.holding c d) k → d.state = .readyForReview →
    (∀ e k', inStage .done k' → F e k') → (∀ r k', F (.ofRaised r) k') →
    (∀ e k', inStage (.confirmed c) k' → Q e k') →
    (confirmCaptureDraft d.id c.userId).wp (logic.withFail F) Q k
  finishes : ∀ {c now k} {P : Unit → K → Prop}, inStage (.confirmed c) k →
    (∀ k', inStage .done k' → P () k') → logic.stmt (.saveConversation (c.finished now)) k P

/-- The rules that justify the meaning of the stages for the rounds of the receipt worker. -/
structure WorkerRules [PythonRuntime] (K : Type) extends Rules K where
  /-- What is known of a receipt in the worker's hands: its id and its owner. -/
  trusted : UUID → UUID → Prop
  /-- After a commit the worker starts its next transaction. -/
  resumes : ∀ {k}, inStage .ended k → inStage .idle k
  books : ∀ {o k} {P : o.Resp → K → Prop}, Bookkeeping o → inStage .idle k →
    (∀ r k', Answers o r → inStage .idle k' → P r k') → logic.stmt o k P
  selects : ∀ {now k} {P : Option Receipt → K → Prop}, inStage .idle k →
    (∀ r k', inStage (.claiming now r) k' → P (some r) k') →
    (∀ k', inStage .idle k' → P none k') → logic.stmt (.selectClaimableForUpdate now) k P
  claimsReceipt : ∀ {now r a r' k} {P : Unit → K → Prop}, inStage (.claiming now r) k →
    r.claim a now receiptLease = .ok r' → (∀ k', inStage .idle k' → P () k') →
    logic.stmt (.updateClaimed r') k P
  /-- An attempt finishes its receipt if it is still the current one. -/
  finishesReceipt : ∀ {r k} {P : Bool → K → Prop}, inStage .idle k → r.isFinished = true →
    trusted r.id r.ownerId → (∀ k', inStage (.finishing r) k' → P true k') →
    (∀ k', inStage .void k' → P false k') → logic.stmt (.saveFinished r) k P
  locksFinishing : ∀ {r now k} {P : TelegramConversation → K → Prop},
    inStage (.finishing r) k →
    (∀ c k', c.userId = r.ownerId → inStage (.finishingLocked r c) k' → P c k') →
    logic.stmt (.lockConversation r.ownerId now) k P
  /-- The receipt's draft, if it is open. -/
  recovers : ∀ {r c k} {P : Option CaptureDraft → K → Prop}, inStage (.finishingLocked r c) k →
    (∀ d k', d.receiptId = some r.id → d.isOpen = true → inStage (.recovering r c d) k' →
      P (some d) k') →
    (∀ x k', x.filter CaptureDraft.isOpen = none → inStage (.drained r) k' → P x k') →
    logic.stmt (.getDraftForUpdateByReceipt r.id) k P
  stores : ∀ {φ r x k} {P : Unit → K → Prop}, φ.Looked r → x.receiptId = r.id →
    r.attemptId = some x.attemptId → inStage φ k → (∀ k', inStage φ k' → P () k') →
    logic.stmt (.saveResult x) k P
  /-- The outcome of an attempt moves the draft on. -/
  applies : ∀ {r c d d' k} {P : Unit → K → Prop}, inStage (.recovering r c d) k →
    Revised d d' → d'.state ≠ .awaitingRecognition →
    (∀ k', inStage (.updated c d d') k' → P () k') → logic.stmt (.updateDraft d') k P

end MintFlow
