import MintFlow.Lib.Tracking
import MintFlow.Application.AuditTrail
import MintFlow.Http.Capture
import MintFlow.Telegram.Messages
import MintFlow.Telegram.Retention
import MintFlow.Telegram.WorkerSteps

set_option relaxedAutoImplicit false
set_option autoImplicit false

/-!
# Concurrent requests

Everything that works on drafts, Expenses, conversations and receipts as a session of its own: the
HTTP requests on drafts and Expenses, the handling of Telegram updates, rounds of the receipt worker
and the two retention jobs. Any number of them run at READ COMMITTED, and each may be stopped between
any two of its actions.

## Main definitions

* `MintFlow.Request`, `MintFlow.Request.program` — the requests and what they do.
* `MintFlow.System`, `MintFlow.started` — the database with its sessions, and how they begin.
* `MintFlow.Stmt.ForClients` — the statements that are not the receipt worker's own.
* `MintFlow.clientRules` — the protocol of handling, for a reader that watches statements only.

## Main results

* `MintFlow.Request.wp_uses` — every request but a round of the worker executes these only, and sends
  no delay notice.
* `MintFlow.postgres_fits` — the database answers every tracker as it expects.
-/

namespace MintFlow

open Transact Transact.Prog

/-! ## Requests -/

/-- What a request answers. -/
inductive Answer
  | nothing
  | draft (d : CaptureDraft)
  | expense (e : Expense)
deriving DecidableEq

variable [PythonRuntime]

/-- A request, an update, a round of the worker or a batch of a retention job. -/
inductive Request
  | startDraft (caller : UUID)
  | editDraft (draftId caller : UUID) (body : EditCaptureDraftRequest)
  | markReady (draftId caller : UUID)
  | cancelDraft (draftId caller : UUID)
  | confirmDraft (draftId caller : UUID)
  | confirm (draftId caller : UUID)
  | expense (q : ExpenseRequest)
  | handle (settings : BotSettings) (update : TelegramUpdate)
  | work
  | expire (inactiveCutoff now : Instant) (batchSize : ℕ)
  | deleteData (finishedCutoff now : Instant) (batchSize : ℕ)

/-- What it does. -/
def Request.program : Request → Program Answer
  | .startDraft caller => (MintFlow.startDraft caller).bind fun d => .pure (.draft d)
  | .editDraft id caller body => (MintFlow.editDraft id caller body).bind fun d => .pure (.draft d)
  | .markReady id caller => (markDraftReadyForReview id caller).bind fun d => .pure (.draft d)
  | .cancelDraft id caller => (MintFlow.cancelDraft id caller).bind fun d => .pure (.draft d)
  | .confirmDraft id caller => (MintFlow.confirmDraft id caller).bind fun e => .pure (.expense e)
  | .confirm id caller => (confirmCaptureDraft id caller).bind fun e => .pure (.expense e)
  | .expense q => q.program.bind fun e => .pure (.expense e)
  | .handle settings update => (handleUpdate settings update).bind fun _ => .pure .nothing
  | .work => processNext.bind fun _ => .pure .nothing
  | .expire cutoff now size => (expireDrafts cutoff now size).bind fun _ => .pure .nothing
  | .deleteData cutoff now size => (deleteReceiptData cutoff now size).bind fun _ => .pure .nothing

/-- The database with its sessions, named by `ι`. -/
abbrev System (ι : Type) := Config signature Database Write Key ι Answer

variable {ι : Type}

/-- Every session is about to begin its request. -/
def started (db : Database) (requests : ι → Request) (tapes : ι → Stream' Reading) : System ι where
  db := db
  holders := fun _ => []
  sessions := fun i => ⟨(requests i).program, tapes i, [], false⟩
  log := []
  sent := []

omit [PythonRuntime] in
/-- What a statement answers is what a tracker with these answers expects. -/
lemma postgres_fits {K : Type} {T : Tracker signature K} (hT : T.answers = Answers)
    (hfail : ∀ e k, T.mayFail e k) (busy : Key → Bool) (db : Database) :
    T.FitsAt postgres busy db where
  answers o k r ws _ h := by
    rw [hT]
    exact answers_of_evaluate h
  raises _ k e _ _ := hfail e k

/-! ## The statements of the requests -/

/-- The statements that are not the receipt worker's own; a receipt is created as it is received. -/
def Stmt.ForClients : Stmt → Prop
  | .createReceipt r _ => ∃ id owner now, r = Receipt.receive id owner now
  | .getDraftForUpdateByReceipt _ | .selectClaimableForUpdate _ | .updateClaimed _
  | .claimDelayNotices _ _ _ | .saveFinished _ | .saveResult _ | .lockReceipt _
  | .createImage _ => False
  | _ => True

/-- A reader that watches statements and messages only. -/
abbrev clientLogic (sends : Outgoing → Prop) : Logic signature Unit :=
  Tracker.usesLogic Answers Stmt.ForClients sends

omit [PythonRuntime] in
/-- Statements that only read are not the worker's own. -/
lemma Stmt.forClients_of_reads {o : Stmt} (h : o.reads = true) : o.ForClients := by
  cases o <;> trivial

omit [PythonRuntime] in
/-- Neither are those of a confirmation. -/
lemma Stmt.forClients_of_confirmation {o : Stmt} (h : o.ofConfirmation = true) :
    o.ForClients := by
  cases o <;> trivial

section Uses

variable {α : Type} {Q : α → Unit → Prop} {F : Error → Unit → Prop} {sends : Outgoing → Prop}

omit [PythonRuntime] in
lemma uses_execute {o : Stmt} {f : o.Resp → Program α} (ho : o.ForClients)
    (hf : ∀ r, Answers o r → (f r).wp ((clientLogic sends).withFail F) Q ()) :
    (execute o >>= f).wp ((clientLogic sends).withFail F) Q () :=
  (wp_bind _ _).mpr ⟨ho, hf⟩

omit [PythonRuntime] in
lemma uses_lift {β ε : Type} {e : ε → Error} {x : Except ε β} {f : β → Program α}
    (hF : ∀ e, F e ()) (hf : ∀ b, (f b).wp ((clientLogic sends).withFail F) Q ()) :
    (Prog.lift e x >>= f).wp ((clientLogic sends).withFail F) Q () := by
  cases x with
  | ok b => exact hf b
  | error e => exact hF _

omit [PythonRuntime] in
lemma uses_clock {f : Instant → Program α}
    (hf : ∀ now, (f now).wp ((clientLogic sends).withFail F) Q ()) :
    (clock >>= f).wp ((clientLogic sends).withFail F) Q () :=
  fun reading => hf reading.now

omit [PythonRuntime] in
/-- The endpoints that read a draft and write it back. -/
lemma uses_changeDraft (draftId caller : UUID)
    (change : DateTime → CaptureDraft → Checked CaptureDraft) :
    (changeDraft draftId caller change).wp (clientLogic sends) (fun _ _ => True) () := by
  unfold changeDraft getOwnedDraft
  refine (wp_bind _ _).mpr (uses_execute (F := fun _ _ => True) trivial fun r _ => ?_)
  cases r with
  | none => trivial
  | some draft =>
    intro reading
    refine uses_lift (F := fun _ _ => True) (fun _ => trivial) fun d => ?_
    exact (wp_bind _ _).mpr (uses_execute (F := fun _ _ => True) trivial fun _ _ => trivial)

omit [PythonRuntime] in
lemma uses_lift_last {β ε : Type} (e : ε → Error) (x : Except ε β) :
    (Prog.lift e x).wp (clientLogic sends) (fun _ _ => True) () := by
  cases x <;> trivial

/-- An edit of an Expense.

**Proof sketch.** Field by field. A new date is the only one that asks the database, for the user
whose time zone it is checked in. -/
lemma uses_applyEdit (expense : Expense) (edit : ExpenseEdit) (caller : UUID) (now : Instant) :
    (applyEdit expense edit caller now).wp (clientLogic sends) (fun _ _ => True) () := by
  have hmoney : ∀ e : Expense,
      (applyMoney e edit.money now).wp (clientLogic sends) (fun _ _ => True) () := by
    intro e
    unfold applyMoney
    cases edit.money with
    | none => trivial
    | some money => exact uses_lift_last _ _
  have hdate : ∀ e : Expense,
      (applyTransactionDate e edit.transactionDate caller now).wp (clientLogic sends)
        (fun _ _ => True) () := by
    intro e
    unfold applyTransactionDate
    cases edit.transactionDate with
    | none => trivial
    | some date =>
      dsimp only
      split_ifs
      · exact uses_lift_last _ _
      · unfold requireAcceptableDate
        refine (wp_bind _ _).mpr (uses_execute (F := fun _ _ => True) trivial fun r _ => ?_)
        cases r with
        | none => trivial
        | some user =>
          refine uses_lift (F := fun _ _ => True) (fun _ => trivial) fun acceptable => ?_
          split_ifs
          · exact uses_lift_last _ _
          · trivial
  have hmerchant : ∀ e : Expense,
      (applyMerchant e edit.merchant now).wp (clientLogic sends) (fun _ _ => True) () := by
    intro e
    unfold applyMerchant
    cases edit.merchant with
    | none => trivial
    | some merchant => exact uses_lift_last _ _
  have hcategory : ∀ e : Expense,
      (applyCategory e edit.categoryKey now).wp (clientLogic sends) (fun _ _ => True) () := by
    intro e
    unfold applyCategory
    cases edit.categoryKey with
    | none => trivial
    | some key =>
      dsimp only
      split_ifs
      · exact uses_lift_last _ _
      · unfold requireActiveCategory
        refine (wp_bind _ _).mpr (uses_execute (F := fun _ _ => True) trivial fun r _ => ?_)
        cases r with
        | none => trivial
        | some category =>
          dsimp only
          split_ifs
          · exact uses_lift_last _ _
          · trivial
  have hnote : ∀ e : Expense,
      (applyNote e edit.note now).wp (clientLogic sends) (fun _ _ => True) () := by
    intro e
    unfold applyNote
    cases edit.note with
    | none => trivial
    | some note => exact uses_lift_last _ _
  refine wp_bind_of (hmoney expense) fun e₁ _ _ => ?_
  refine wp_bind_of (hdate e₁) fun e₂ _ _ => ?_
  refine wp_bind_of (hmerchant e₂) fun e₃ _ _ => ?_
  exact wp_bind_of (hcategory e₃) fun e₄ _ _ => hnote e₄

/-- The requests on Expenses.

**Proof sketch.** By the request. Each locks the Expense, and where it changes writes it and its
change record. -/
lemma uses_expenseRequest (q : ExpenseRequest) :
    q.program.wp (clientLogic sends) (fun _ _ => True) () := by
  have hdeletion : ∀ (change : ExpenseChangeType) (hchange : change ≠ .edited)
      (done : Expense → Bool) (transition : Expense → DateTime → Checked Expense)
      (id caller : UUID), (changeDeletionState change hchange done transition id caller).wp
        (clientLogic sends) (fun _ _ => True) () := by
    intro change hchange done transition id caller
    unfold changeDeletionState
    refine uses_execute (F := fun _ _ => True) trivial fun r _ => ?_
    cases r with
    | none => trivial
    | some e =>
      dsimp only
      split_ifs
      · trivial
      · intro reading
        refine uses_lift (F := fun _ _ => True) (fun _ => trivial) fun e' reading => ?_
        refine uses_execute (F := fun _ _ => True) trivial fun _ _ => ?_
        exact uses_execute (F := fun _ _ => True) trivial fun _ _ => trivial
  cases q with
  | delete id caller => exact hdeletion _ _ _ _ _ _
  | restore id caller => exact hdeletion _ _ _ _ _ _
  | edit id caller edit =>
    show (editExpense id caller edit).wp (clientLogic sends) (fun _ _ => True) ()
    unfold editExpense
    refine uses_execute (F := fun _ _ => True) trivial fun r _ => ?_
    cases r with
    | none => trivial
    | some before =>
      refine uses_clock (F := fun _ _ => True) fun now => ?_
      refine wp_bind_of (uses_applyEdit before edit caller _) fun after _ _ => ?_
      split_ifs
      · trivial
      · intro reading
        refine uses_execute (F := fun _ _ => True) trivial fun _ _ => ?_
        exact uses_execute (F := fun _ _ => True) trivial fun _ _ => trivial

end Uses

/-- The protocol of handling keeps to the clients' statements. -/
def clientRules : HandlerRules Unit where
  logic := clientLogic fun _ => True
  inStage _ _ := True
  raises _ _ := trivial
  sends _ h := ⟨trivial, h⟩
  reads ho _ h := ⟨Stmt.forClients_of_reads ho, fun r hr => h r () hr trivial⟩
  commits _ _ h := h () trivial
  rollbacks _ h := h ()
  revises _ _ h := ⟨trivial, fun _ _ => h () trivial⟩
  saves _ _ _ _ h := ⟨trivial, fun _ _ => h () trivial⟩
  settles _ _ := trivial
  begins _ h h' := ⟨trivial, fun r _ => by
    cases r
    · exact h' () trivial
    · exact h () trivial⟩
  claims _ h := ⟨trivial, fun r _ => h r () trivial⟩
  audits _ h := ⟨trivial, fun _ _ => h () trivial⟩
  locks _ h := ⟨trivial, fun r hr => h r () hr trivial⟩
  vacates _ _ := trivial
  finds _ _ h h' := ⟨trivial, fun r hr => by
    cases hopen : r.filter CaptureDraft.isOpen with
    | none => exact h' r () hopen trivial
    | some d =>
      obtain ⟨rfl, ho⟩ := Option.filter_eq_some_iff.mp hopen
      obtain ⟨hid, hown⟩ := hr d rfl
      exact h d () hid hown ho trivial⟩
  releases _ h := ⟨trivial, fun _ _ => h () trivial⟩
  holds _ := trivial
  cancels _ _ _ h := ⟨trivial, fun _ _ => h () trivial⟩
  receives _ h := ⟨⟨_, _, _, rfl⟩, fun _ _ => h () trivial⟩
  opens _ _ _ _ h := ⟨trivial, fun _ _ => h () trivial⟩
  opensReceipt _ _ _ _ h := ⟨trivial, fun _ _ => h () trivial⟩
  points _ _ _ h := ⟨trivial, fun _ _ => h () trivial⟩
  confirms _ _ hF _ hQ := uses_confirmCaptureDraft (fun _ => Stmt.forClients_of_confirmation)
    (fun e => hF e () trivial) _ _ fun e => hQ e () trivial
  finishes _ h := ⟨trivial, fun _ _ => h () trivial⟩

/-- Every request but a round of the worker executes the clients' statements only, and sends no
delay notice.

**Proof sketch.** By the request. A job is a single statement of a client, and the updates of the
bot keep to the clients' statements and send no delay notice (`says_handleUpdate`). -/
lemma Request.wp_uses {q : Request} (hq : q ≠ .work) :
    q.program.wp (clientLogic fun o => o.isDelayNotice = false) (fun _ _ => True) () := by
  have hjob : ∀ {o : Stmt} {f : o.Resp → ℕ}, o.ForClients →
      ((do
        let r ← execute o
        commit
        return f r : Program ℕ).bind fun _ => .pure Answer.nothing).wp
          (clientLogic fun o => o.isDelayNotice = false) (fun _ _ => True) () := fun ho =>
    (wp_bind _ _).mpr (uses_execute (F := fun _ _ => True) ho fun _ _ => trivial)
  cases q with
  | work => exact absurd rfl hq
  | startDraft caller =>
    refine (wp_bind _ _).mpr fun now id => uses_lift (F := fun _ _ => True) (fun _ => trivial) ?_
    exact fun d => uses_execute (F := fun _ _ => True) trivial fun _ _ => trivial
  | editDraft id caller body => exact wp_bind_of (uses_changeDraft id caller _) fun _ _ _ => trivial
  | markReady id caller => exact wp_bind_of (uses_changeDraft id caller _) fun _ _ _ => trivial
  | cancelDraft id caller => exact wp_bind_of (uses_changeDraft id caller _) fun _ _ _ => trivial
  | confirmDraft id caller =>
    refine (wp_bind _ _).mpr ((wp_handle _ _).mpr ?_)
    refine uses_confirmCaptureDraft (fun _ => Stmt.forClients_of_confirmation) (fun e => ?_) id caller
      fun _ => trivial
    dsimp only
    split <;> trivial
  | confirm id caller =>
    refine (wp_bind _ _).mpr ?_
    exact uses_confirmCaptureDraft (F := fun _ _ => True)
      (fun _ => Stmt.forClients_of_confirmation) (fun _ => trivial) id caller fun _ => trivial
  | expense q => exact wp_bind_of (uses_expenseRequest q) fun _ _ _ => trivial
  | handle settings update =>
    have hwp := Tracker.wp_usesLogic_and _ (clientRules.wp_handleUpdate (k := ()) trivial update)
      (says_handleUpdate settings update)
    refine wp_bind_of (Tracker.wp_usesLogic_mono (fun _ _ h => h) (fun _ h => h.1)
      (fun _ h => h.2) _ hwp) fun _ _ _ => trivial
  | expire cutoff now size => exact hjob (o := .expireAbandonedDrafts cutoff now size) trivial
  | deleteData cutoff now size => exact hjob (o := .deleteReceiptData cutoff now size) trivial

end MintFlow
