import MintFlow.Domain.DraftLifecycle
import MintFlow.Telegram.Coherence

set_option relaxedAutoImplicit false
set_option autoImplicit false

/-!
# When a confirmation is total

Over the stores that HTTP draft requests, Telegram updates and recognition results lead to, a
confirmation gives the draft's Expense or refuses without a trace, unless the calendar runs out where
today and the day after are asked for, or the draft passes every check of the use case and its
Expense still cannot be made: the edit request accepts an amount of zero and any stable category
key, the Expense does not.

## Main definitions

* `MintFlow.DraftEvent`, `MintFlow.Reachable` — the sessions, and the stores they lead to.
* `MintFlow.ConfirmsTotally` — what a confirmation should do.
* `MintFlow.Acceptable` — when it does.

## Main results

* `MintFlow.coherent_of_reachable` — reachable stores are coherent.
* `MintFlow.confirmsTotally_iff` — a confirmation is total exactly when the draft is acceptable.
-/

namespace MintFlow

open Transact Transact.Prog

variable [PythonRuntime]

/-! ## Sessions -/

/-- A session on drafts. -/
inductive DraftEvent
  | start (caller : UUID)
  | edit (draftId caller : UUID) (request : EditCaptureDraftRequest)
  | ready (draftId caller : UUID)
  | cancel (draftId caller : UUID)
  | confirm (draftId caller : UUID)
  | telegram (settings : BotSettings) (update : TelegramUpdate)
  | worker

/-- Run a program for its effect. -/
def forEffect {α : Type} (p : Program α) : Program Unit := p.bind fun _ => return ()

/-- What a session does. -/
def DraftEvent.program : DraftEvent → Program Unit
  | .start caller => forEffect (startDraft caller)
  | .edit draftId caller request => forEffect (editDraft draftId caller request)
  | .ready draftId caller => forEffect (markDraftReadyForReview draftId caller)
  | .cancel draftId caller => forEffect (cancelDraft draftId caller)
  | .confirm draftId caller => forEffect (confirmDraft draftId caller)
  | .telegram settings update => handleUpdate settings update
  | .worker => forEffect processNext

/-- The committed states that sessions, one after another, lead to from a store without drafts and
Expenses. A session may stop after any of its commits. -/
inductive Reachable : Database → Prop
  | start (db : Database) : db.drafts.rows = [] → db.expenses.rows = [] → Reachable db
  | step (db db' : Database) (event : DraftEvent) (tape : Stream' Reading) : Reachable db →
      db' ∈ (event.program.exec postgres tape ⟨db, db⟩).published → Reachable db'

/-- The database after sessions that ran to their ends, one after another. -/
def afterEvents (db : Database) (events : List (DraftEvent × Stream' Reading)) : Database :=
  events.foldl (fun db e => (e.1.program.exec postgres e.2 ⟨db, db⟩).final.db) db

/-- Sessions lead to reachable stores. -/
lemma Reachable.afterEvents {db : Database} (h : Reachable db)
    (events : List (DraftEvent × Stream' Reading)) : Reachable (afterEvents db events) := by
  induction events generalizing db with
  | nil => exact h
  | cons e events ih =>
    refine ih ?_
    show Reachable (e.1.program.exec postgres e.2 ⟨db, db⟩).final.db
    have hlast := (wp_exec (B := postgres) (C := fun _ _ => True) (F := fun _ _ => True)
      (Q := fun _ _ => True) e.1.program e.2 (s := ⟨db, db⟩) (wp_trivial _)).2.1
    rw [← hlast, List.getLastD_eq_getLast?]
    cases hp : (e.1.program.exec postgres e.2 ⟨db, db⟩).published.getLast? with
    | none => exact h
    | some db' => exact h.step _ _ e.1 e.2 (List.mem_of_getLast? hp)

/-! ## Requests keep the store coherent -/

section Requests

variable {s : Alone Database} {draftId caller : UUID}

/-- Writing a stored draft back changes nothing.

**Proof sketch.** The table has the same rows as before. -/
lemma Coherent.rewrite {db : Database} (h : Coherent db) {d : CaptureDraft}
    (hfind : db.drafts.find d.id = some d) : Coherent (db.apply (.draft d)) := by
  have hmem : ∀ x, x ∈ (db.apply (.draft d)).drafts ↔ x ∈ db.drafts := by
    intro x
    refine Table.mem_upsert.trans ⟨?_, fun hx => ?_⟩
    · rintro (rfl | ⟨hx, -⟩)
      · exact Table.mem_of_find hfind
      · exact hx
    · by_cases hid : x.id = d.id
      · exact .inl (Table.eq_of_key_eq hx (Table.mem_of_find hfind) hid)
      · exact .inr ⟨hx, hid⟩
  constructor
  · exact fun x hx => h.category x ((hmem x).mp hx)
  · exact fun x hx => h.texts x ((hmem x).mp hx)
  · exact fun x hx => h.consistent x ((hmem x).mp hx)
  · exact fun x hx => h.owner x ((hmem x).mp hx)
  · exact fun x hx => h.receipt x ((hmem x).mp hx)
  · exact fun x hx => h.result x ((hmem x).mp hx)
  · intro e he
    obtain ⟨x, hx, hid, hs⟩ := h.expense e he
    exact ⟨x, (hmem x).mpr hx, hid, hs⟩
  · exact fun x hx => h.confirmed x ((hmem x).mp hx)

/-- A request that reads a draft, changes it and writes it back.

**Proof sketch.** The draft that is read back is written unchanged (`Coherent.rewrite`) or revised,
and a revision is never confirmed. -/
lemma wp_changeDraft {change : DateTime → CaptureDraft → Checked CaptureDraft}
    (hchange : ∀ now d d', change now d = .ok d' → d' = d ∨ Revised d d')
    (h : Coherent s.view) :
    (changeDraft draftId caller change).wp coherentLogic (fun _ _ => True) s := by
  unfold changeDraft getOwnedDraft
  refine (wp_bind _ _).mpr ((wp_bind _ _).mpr ((wp_read rfl).mpr ?_))
  cases hd : s.view.ownedDraft draftId caller with
  | none => trivial
  | some d =>
    obtain ⟨hfind, -⟩ := Database.ownedDraft_eq_some.mp hd
    obtain rfl : d.id = draftId := Table.key_of_find hfind
    refine (wp_bind _ _).mpr (wp_clock fun now => ?_)
    refine (wp_bind _ _).mpr (wp_lift (fun d' hd' => ?_) fun _ => trivial)
    refine (wp_bind _ _).mpr ((wp_bind _ _).mpr (wp_execute (fun u ws he => ?_)
      fun _ _ => trivial))
    refine ⟨?_, trivial⟩
    rcases hchange _ d d' hd' with rfl | hrev
    · rcases Database.updateDraft_eq_ok he with ⟨-, rfl⟩ | ⟨row, hrow, -, -, -, -, -, rfl⟩
      · exact h
      · obtain rfl : row = d' := Option.some.inj (hrow.symm.trans hfind)
        exact h.rewrite hfind
    · exact (h.revise hfind hrev he).1

/-- The edits of a request revise the draft, or leave it.

**Proof sketch.** Each field of the request is set or left (`hwhen`), and revisions compose
(`htrans`). -/
lemma applyDraftEdit_revised {request : EditCaptureDraftRequest} {now : DateTime}
    {d d' : CaptureDraft} (h : applyDraftEdit caller now request d = .ok d') :
    d' = d ∨ Revised d d' := by
  have htrans : ∀ {d₁ d₂ d₃ : CaptureDraft}, (d₂ = d₁ ∨ Revised d₁ d₂) →
      (d₃ = d₂ ∨ Revised d₂ d₃) → d₃ = d₁ ∨ Revised d₁ d₃ := by
    rintro d₁ d₂ d₃ (rfl | h₁) (rfl | h₂)
    · exact .inl rfl
    · exact .inr h₂
    · exact .inr h₁
    · exact .inr (h₁.trans h₂)
  have hwhen : ∀ {α : Type} {value : Option α} {set : α → CaptureDraft → Checked CaptureDraft}
      {d₁ d₂ : CaptureDraft}, (∀ v d₃, set v d₁ = .ok d₃ → Revised d₁ d₃) →
      editWhen value set d₁ = .ok d₂ → d₂ = d₁ ∨ Revised d₁ d₂ := by
    intro α value set d₁ d₂ hset hedit
    cases value with
    | none => exact .inl (Except.ok.inj hedit).symm
    | some v => exact .inr (hset v d₂ hedit)
  obtain ⟨d₁, h₁, h⟩ := Checked.bind_eq_ok.mp h
  obtain ⟨d₂, h₂, h⟩ := Checked.bind_eq_ok.mp h
  obtain ⟨d₃, h₃, h⟩ := Checked.bind_eq_ok.mp h
  obtain ⟨d₄, h₄, h₅⟩ := Checked.bind_eq_ok.mp h
  have hr₁ : d₁ = d ∨ Revised d d₁ := by
    unfold setRequestedAmount at h₁
    split at h₁
    · obtain ⟨_, -, h₁⟩ := Checked.bind_eq_ok.mp h₁
      obtain ⟨_, -, h₁⟩ := Checked.bind_eq_ok.mp h₁
      exact .inr (setAmount_revised h₁)
    · exact .inl (Except.ok.inj h₁).symm
  have hr₂ := hwhen (fun v d₃ hv => by
    obtain ⟨_, -, hv⟩ := Checked.bind_eq_ok.mp hv
    exact setTransactionDate_revised hv) h₂
  have hr₃ := hwhen (fun v d₃ hv => by
    obtain ⟨_, -, hv⟩ := Checked.bind_eq_ok.mp hv
    exact setMerchant_revised hv) h₃
  have hr₄ := hwhen (fun v d₃ hv => setCategoryKey_revised hv) h₄
  have hr₅ := hwhen (fun v d₃ hv => setNote_revised hv) h₅
  exact htrans (htrans (htrans (htrans hr₁ hr₂) hr₃) hr₄) hr₅

/-- Every session keeps the store coherent.

**Proof sketch.** Cases on the session. Starting a draft adds a row, the others change one
(`wp_changeDraft`) or confirm it. -/
lemma wp_draftEvent (event : DraftEvent) {db : Database} (h : Coherent db) :
    event.program.wp coherentLogic (fun _ _ => True) ⟨db, db⟩ := by
  have hidle : coherentRules.inStage .idle ⟨db, db⟩ := ⟨h, h, trivial⟩
  cases event with
  | start caller =>
    refine (wp_bind _ _).mpr ?_
    unfold startDraft
    refine (wp_bind _ _).mpr (wp_clock fun now => ?_)
    refine (wp_bind _ _).mpr (wp_uuid4 fun id => ?_)
    refine (wp_bind _ _).mpr (wp_lift (fun d hd => ?_) fun _ => trivial)
    obtain ⟨-, rfl⟩ := CaptureDraft.start_eq_ok hd
    refine (wp_bind _ _).mpr (wp_execute (fun u ws he => ?_) fun _ _ => trivial)
    exact (wp_bind _ _).mpr ⟨h.create (by simp) rfl he, trivial⟩
  | edit draftId caller request =>
    exact (wp_bind _ _).mpr (wp_changeDraft (fun now d d' => applyDraftEdit_revised) h)
  | ready draftId caller =>
    exact (wp_bind _ _).mpr (wp_changeDraft
      (fun now d d' hd => .inr (markReadyForReview_revised hd)) h)
  | cancel draftId caller =>
    exact (wp_bind _ _).mpr (wp_changeDraft (fun now d d' hd => .inr (cancel_revised hd)) h)
  | confirm draftId caller =>
    refine (wp_bind _ _).mpr ((wp_handle _ _).mpr ?_)
    rw [coherentLogic, alone, Logic.withFail_withFail]
    refine wp_confirmCaptureDraft (fun _ => trivial) (fun _ => trivial)
      (fun r _ _ => by cases r <;> trivial)
      (fun _ _ _ => trivial) (fun _ _ _ _ _ _ _ => trivial) fun d e d' hby => ?_
    exact ⟨h.confirm hby, trivial⟩
  | telegram settings update =>
    exact coherentHandlerRules.wp_handleUpdate hidle update
  | worker =>
    exact (wp_bind _ _).mpr (coherentWorkerRules.wp_processNext hidle fun _ _ => trivial)

end Requests

/-- **Reachable stores are coherent.** -/
lemma coherent_of_reachable {db : Database} (h : Reachable db) : Coherent db := by
  induction h with
  | start db hd he => exact .of_empty hd he
  | step db db' event tape _ hmem ih =>
    exact published_invariant event.program tape (wp_draftEvent event ih) ih db' hmem

/-! ## The outcomes of a confirmation -/

/-- What a confirmation should do: give the Expense of the caller's draft, which is confirmed to
it, or deny or refuse and publish nothing. -/
def ConfirmsTotally (db : Database) (draftId caller : UUID)
    (o : Outcome signature Database Expense) : Prop :=
  match o.result with
  | .ok e => ∃ d d', db.ownedDraft draftId caller = some d ∧ MatchesDraft e d ∧
      o.final.db.drafts.find draftId = some d' ∧ d'.state = .confirmed ∧
      d'.expenseId = some e.id ∧ o.final.db.expenses.find e.id = some e
  | .error (.captureDraftAccessDenied _) | .error (.captureDraftNotConfirmable _) =>
    o.published = [] ∧ o.final.db = db
  | .error _ => False

/-- When a draft is confirmable, the calendar has its owner's today and the day after; and when its
date is not past that day, its amount is positive and its category exists, and the id drawn for its
Expense is free. -/
def Acceptable (db : Database) (draftId caller : UUID) (now : Instant) (expenseId : UUID) : Prop :=
  ∀ d user amount date, db.ownedDraft draftId caller = some d → d.state = .readyForReview →
    d.amount = some amount → d.transactionDate = some date → db.users.find caller = some user →
    ∃ today, PythonRuntime.localDate user.timezone now = some today ∧
      today.ordinal < maxOrdinal ∧
      (date.value.ordinal ≤ today.ordinal + 1 → 0 < amount.minorUnits ∧
        db.hasCategory (d.categoryKey.getD uncategorizedKey) = true ∧
          db.expenses.find expenseId = none)

omit [PythonRuntime] in
/-- A confirmation that raises a `ValueError` is not total. -/
lemma not_confirmsTotally_of_valueError {db : Database} {draftId caller : UUID}
    {o : Outcome signature Database Expense} {m : String}
    (h : o.result = .error (.valueError m)) : ¬ ConfirmsTotally db draftId caller o := by
  unfold ConfirmsTotally
  rw [h]
  exact id

section Outcomes

variable {db : Database} {draftId caller : UUID} {t : Stream' Reading} {d : CaptureDraft}

/-- A draft that is not up for confirmation asks for nothing. -/
lemma acceptable_of_not_ready {now : Instant} {expenseId : UUID}
    (hd : db.ownedDraft draftId caller = some d) (hstate : d.state ≠ .readyForReview) :
    Acceptable db draftId caller now expenseId := by
  intro d₀ _ _ _ hd₀ hready
  obtain rfl : d₀ = d := Option.some.inj (hd₀.symm.trans hd)
  exact absurd hready hstate

/-- The Expense of a draft without Expenses can be stored exactly when its amount is positive, its
category exists and its id is free.

**Proof sketch.** In a coherent store the checks on owner, draft, receipt and texts hold, and no
Expense has the draft yet; amount, category and identifier are what is left. -/
lemma createExpense_iff (h : Coherent db) {e : Expense} (hmem : d ∈ db.drafts)
    (hd : d.state ≠ .confirmed) (hmatch : MatchesDraft e d) :
    db.createExpense e = .ok ((), [.expense e]) ↔ 0 < e.money.minorUnits ∧
      db.hasCategory e.categoryKey = true ∧ db.expenses.find e.id = none := by
  have honly : db.expensesOfDraft d.id = [] := by
    rw [Database.expensesOfDraft, List.map_eq_nil_iff, List.filter_eq_nil_iff]
    intro x hx hid
    obtain ⟨d', hd', hid', hs⟩ := h.expense x hx
    obtain rfl : d' = d := Table.eq_of_key_eq hd' hmem (hid'.trans (of_decide_eq_true hid))
    exact hd hs
  have huser : db.hasUser e.ownerId = true := hmatch.owner ▸ h.owner d hmem
  have hdraft : db.hasDraft e.captureDraftId = true := by
    rw [hmatch.draft, Database.hasDraft, Table.find_of_mem hmem]
    rfl
  have hreceipt : ∀ r ∈ e.receiptId, db.hasReceipt r = true :=
    hmatch.receipt ▸ h.receipt d hmem
  have htexts := h.texts d hmem
  have hstorable : e.Storable := by
    refine ⟨hmatch.merchant ▸ htexts.merchant, ?_, hmatch.note ▸ htexts.note⟩
    rw [hmatch.category]
    cases hkey : d.categoryKey with
    | none => decide
    | some key => exact htexts.category key hkey
  simp only [Database.createExpense, Checked.bind_eq_ok, demand_eq_ok, demandReference_eq_ok,
    Checked.pure_eq_ok, true_and, and_true, exists_const, hmatch.draft, honly, huser]
  rw [← hmatch.draft]
  constructor
  · rintro ⟨-, hpos, hfresh, hcat, -⟩
    exact ⟨hpos, hcat, hfresh⟩
  · rintro ⟨hpos, hcat, hfresh⟩
    exact ⟨hstorable, hpos, hfresh, hcat, hdraft, hreceipt⟩

/-- The draft confirmed to a stored Expense can be stored.

**Proof sketch.** The confirmed draft is consistent by its own operation, and refers to the Expense
that was just put in. -/
lemma updateDraft_confirmed (h : Coherent db) {e : Expense} {now : DateTime} {d' : CaptureDraft}
    (hmem : d ∈ db.drafts) (hconfirm : d.confirm caller e.id now = .ok d') :
    (db.apply (.expense e)).updateDraft d' = .ok ((), [.draft d']) := by
  have hcons : d'.Consistent :=
    CaptureDraft.consistent_apply (o := .confirm caller e.id now) (h.consistent d hmem) hconfirm
  obtain ⟨-, -, -, rfl⟩ := CaptureDraft.confirm_eq_ok hconfirm
  have hfind : (db.apply (.expense e)).drafts.find d.id = some d := Table.find_of_mem hmem
  have huser : (db.apply (.expense e)).hasUser d.ownerId = true := h.owner d hmem
  have hexpense : (db.apply (.expense e)).hasExpense e.id = true := by
    show ((db.expenses.upsert e).find e.id).isSome = true
    rw [Table.find_upsert_self]
    rfl
  have hresult : ∀ r ∈ d.recognitionResultId, (db.apply (.expense e)).hasResult r = true :=
    h.result d hmem
  unfold Database.updateDraft
  rw [hfind]
  simp only [Checked.bind_eq_ok, demand_eq_ok, demandReference_eq_ok, checkDraft_eq_ok,
    Checked.pure_eq_ok, exists_const, and_true]
  refine ⟨{ h.texts d hmem with }, hcons, huser, ?_, hresult⟩
  intro i hi
  obtain rfl : e.id = i := Option.some.inj hi
  exact hexpense

omit [PythonRuntime] in
/-- An Expense that cannot be stored does not fit or violates a constraint. -/
lemma createExpense_error {e : Expense} {x : Error} (h : db.createExpense e = .error x) :
    x = .dataError ∨ (∃ c, x = .checkViolation c) ∨ (∃ c, x = .uniqueViolation c) ∨
      ∃ table c, x = .foreignKeyViolation table c := by
  simp only [Database.createExpense, demandReference, demand] at h
  split_ifs at h <;> cases h <;> simp

omit [PythonRuntime] in
/-- A draft that is confirmable can be confirmed by its owner. -/
lemma exists_confirm (e : Expense) (now : Instant) (howner : d.ownerId = caller)
    (hconf : d.isConfirmable = true) :
    ∃ d', d.confirm caller e.id (Instant.toDateTime now) = .ok d' := by
  simp only [CaptureDraft.confirm, CaptureDraft.ensureOwner, require, hconf, if_pos howner.symm,
    requireAware_toDateTime]
  exact ⟨_, rfl⟩

/-- The writes of a confirmation, once its Expense is made, go through exactly when the Expense
can be stored.

**Proof sketch.** If the Expense is refused, its error is none that a confirmation may raise. If it
is stored, the draft is, too (`updateDraft_confirmed`), and the Expense is returned. -/
lemma confirmsTotally_writes (h : Coherent db) {e : Expense} (now : Instant)
    (hd : db.ownedDraft draftId caller = some d) (hconf : d.isConfirmable = true)
    (hmatch : MatchesDraft e d) :
    ConfirmsTotally db draftId caller ((do
        execute (.createExpense e)
        let confirmedDraft ← checked (d.confirm caller e.id (Instant.toDateTime now))
        execute (.updateDraft confirmedDraft)
        commit
        return e : Program Expense).exec postgres t ⟨db, db⟩) ↔
      0 < e.money.minorUnits ∧ db.hasCategory e.categoryKey = true ∧
        db.expenses.find e.id = none := by
  obtain ⟨hfind, howner⟩ := Database.ownedDraft_eq_some.mp hd
  obtain rfl : d.id = draftId := Table.key_of_find hfind
  have hmem := Table.mem_of_find hfind
  have hready := (CaptureDraft.isConfirmable_iff.mp hconf).1
  rw [← createExpense_iff h hmem (by rw [hready]; decide) hmatch]
  cases hins : db.createExpense e with
  | error x =>
    refine (congrArg (ConfirmsTotally db d.id caller)
      (exec_execute_error (o := .createExpense e) (s := ⟨db, db⟩) hins)).to_iff.trans ?_
    refine iff_of_false ?_ (by rintro ⟨⟩)
    rcases createExpense_error hins with rfl | ⟨c, rfl⟩ | ⟨c, rfl⟩ | ⟨_, c, rfl⟩ <;> exact id
  | ok p =>
    obtain ⟨u, ws⟩ := p
    obtain rfl : ws = [.expense e] := (Database.createExpense_eq_ok hins).2.2.2.2.2.2.2.2
    obtain ⟨d', hconfirm⟩ := exists_confirm e now howner hconf
    have hupd := updateDraft_confirmed h hmem hconfirm
    refine (congrArg (ConfirmsTotally db d.id caller)
      (exec_execute (o := .createExpense e) (s := ⟨db, db⟩) hins)).to_iff.trans ?_
    rw [hconfirm]
    refine (congrArg (ConfirmsTotally db d.id caller)
      (exec_execute (o := .updateDraft d') (s := ⟨db, db.apply (.expense e)⟩)
        hupd)).to_iff.trans ?_
    obtain ⟨-, -, -, rfl⟩ := CaptureDraft.confirm_eq_ok hconfirm
    exact iff_of_true ⟨d, _, hd, hmatch, Table.find_upsert_self .., rfl, rfl,
      Table.find_upsert_self ..⟩ rfl

/-- The part of a confirmation after the checks of the draft.

**Proof sketch.** The owner of the draft exists. The tolerance raises exactly at the ends of the
calendar, and a date beyond it is refused, as a confirmation may; otherwise the Expense is built and
written (`confirmsTotally_writes`). -/
lemma confirmsTotally_createExpenseFor (h : Coherent db) {amount : Money}
    {date : TransactionDate} (hd : db.ownedDraft draftId caller = some d)
    (hconf : d.isConfirmable = true) (hamount : d.amount = some amount)
    (hdate : d.transactionDate = some date) :
    ConfirmsTotally db draftId caller
        ((createExpenseFor d caller amount date).exec postgres t ⟨db, db⟩) ↔
      Acceptable db draftId caller t.head.now t.tail.head.uuid := by
  obtain ⟨hfind, howner⟩ := Database.ownedDraft_eq_some.mp hd
  obtain rfl : d.id = draftId := Table.key_of_find hfind
  have hmem := Table.mem_of_find hfind
  have hready := (CaptureDraft.isConfirmable_iff.mp hconf).1
  obtain ⟨user, huser⟩ : ∃ user, db.users.find caller = some user :=
    Option.isSome_iff_exists.mp (howner ▸ h.owner d hmem)
  unfold createExpenseFor
  have hget : evaluate (.getUser caller) (fun _ => false) db = .ok (some user, []) := by
    rw [← huser]
    rfl
  rw [exec_clock, exec_execute hget]
  have hiff : Acceptable db d.id caller t.head.now t.tail.head.uuid ↔
      ∃ today, PythonRuntime.localDate user.timezone t.head.now = some today ∧
        today.ordinal < maxOrdinal ∧ (date.value.ordinal ≤ today.ordinal + 1 →
          0 < amount.minorUnits ∧ db.hasCategory (d.categoryKey.getD uncategorizedKey) = true ∧
            db.expenses.find t.tail.head.uuid = none) := by
    refine ⟨fun hacc => hacc d user amount date hd hready hamount hdate huser, ?_⟩
    intro hall d₀ user₀ amount₀ date₀ hd₀ _ hamount₀ hdate₀ huser₀
    obtain rfl : d₀ = d := Option.some.inj (hd₀.symm.trans hd)
    obtain rfl : amount₀ = amount := Option.some.inj (hamount₀.symm.trans hamount)
    obtain rfl : date₀ = date := Option.some.inj (hdate₀.symm.trans hdate)
    obtain rfl : user₀ = user := Option.some.inj (huser₀.symm.trans huser)
    exact hall
  rw [hiff]
  dsimp only
  cases htolerance : isWithinFutureTolerance date t.head.now user.timezone with
  | error r =>
    -- The calendar runs out, and the error is neither of those that the callers handle.
    refine iff_of_false (by cases r <;> exact id) ?_
    rintro ⟨today, htoday, hlast, -⟩
    rw [isWithinFutureTolerance_eq_ok.mpr ⟨today, htoday, hlast, rfl⟩] at htolerance
    cases htolerance
  | ok acceptable =>
  obtain ⟨today, htoday, hlast, rfl⟩ := isWithinFutureTolerance_eq_ok.mp htolerance
  rw [htoday]
  simp only [Option.some.injEq, exists_eq_left', hlast, true_and]
  by_cases htol : date.value.ordinal ≤ today.ordinal + 1
  swap
  · rw [decide_eq_false htol]
    exact iff_of_true ⟨rfl, rfl⟩ fun hle => absurd hle htol
  rw [decide_eq_true htol]
  show ConfirmsTotally db d.id caller
    ((uuid4 >>= fun _ => _ : Program Expense).exec postgres t.tail ⟨db, db⟩) ↔ _
  rw [exec_uuid4, forall_prop_of_true htol]
  have hstable : requireStableKey (d.categoryKey.getD uncategorizedKey) = .ok () := by
    cases hkey : d.categoryKey with
    | none => exact requireStableKey_uncategorized
    | some key => exact h.category d hmem key hkey
  cases hcreate : Expense.create t.tail.head.uuid d.ownerId amount date
      (d.categoryKey.getD uncategorizedKey) d.id d.merchant d.note d.source d.receiptId
      (Instant.toDateTime t.head.now) with
  | error m =>
    refine iff_of_false id ?_
    rintro ⟨hpos, -, -⟩
    simp only [Expense.create, Expense.requirePositive, require, requireAware_toDateTime, hstable,
      if_pos hpos] at hcreate
    cases hcreate
  | ok e =>
    obtain ⟨-, -, he⟩ := Expense.create_eq_ok hcreate
    have hmatch : MatchesDraft e d := by
      rw [he]
      exact ⟨rfl, rfl, hamount, hdate, rfl, rfl, rfl, rfl, rfl⟩
    have hwrites := confirmsTotally_writes (t := t.tail.tail) h t.head.now hd
      hconf hmatch
    rw [he] at hwrites ⊢
    exact hwrites

end Outcomes

/-- **A confirmation is total exactly when the draft is acceptable.**

**Proof sketch.** Reachable stores are coherent, so a draft that is not confirmed has no Expense,
a confirmed draft has its own, and every reference of the draft leads somewhere. What is left to
go wrong is the calendar, where the date of a confirmable draft is compared with tomorrow, and after
the checks of the use case the amount, the category and the fresh id. -/
theorem confirmsTotally_iff {db : Database} (h : Reachable db) (draftId caller : UUID)
    (tape : Stream' Reading) :
    ConfirmsTotally db draftId caller
        ((confirmCaptureDraft draftId caller).exec postgres tape ⟨db, db⟩) ↔
      Acceptable db draftId caller tape.head.now tape.tail.head.uuid := by
  have hco := coherent_of_reachable h
  unfold confirmCaptureDraft
  rw [exec_execute (o := .getDraftForUpdate draftId caller) (s := ⟨db, db⟩) rfl]
  cases hd : db.ownedDraft draftId caller with
  | none =>
    refine iff_of_true ⟨rfl, rfl⟩ ?_
    intro d _ _ _ hd'
    rw [hd] at hd'
    cases hd'
  | some d =>
    obtain ⟨hfind, howner⟩ := Database.ownedDraft_eq_some.mp hd
    have hmem := Table.mem_of_find hfind
    dsimp only
    by_cases hstate : d.state = .confirmed
    · rw [if_pos hstate]
      refine iff_of_true ?_ (acceptable_of_not_ready hd (by rw [hstate]; decide))
      obtain ⟨e, hid, he, hmatch⟩ := hco.confirmed d hmem hstate
      have hown : db.ownedExpense e.id caller = some e :=
        Database.ownedExpense_eq_some.mpr ⟨he, hmatch.owner.trans howner⟩
      unfold existingExpenseFor
      rw [hid]
      dsimp only
      refine (congrArg (ConfirmsTotally db draftId caller)
        (exec_execute (o := .getExpense e.id caller) (s := ⟨db, db⟩) rfl)).to_iff.mpr ?_
      rw [hown]
      dsimp only
      by_cases hact : e.isActive = true
      · rw [if_pos hact]
        exact ⟨d, d, hd, hmatch, hfind, hstate, hid, he⟩
      · rw [if_neg hact]
        exact ⟨rfl, rfl⟩
    · rw [if_neg hstate]
      by_cases hconf : d.isConfirmable = true
      · obtain ⟨-, ⟨amount, hamount⟩, date, hdate⟩ := CaptureDraft.isConfirmable_iff.mp hconf
        rw [if_pos hconf, hamount, hdate]
        exact confirmsTotally_createExpenseFor hco hd hconf hamount hdate
      · rw [if_neg hconf]
        refine iff_of_true ⟨rfl, rfl⟩ ?_
        intro d₀ _ amount date hd₀ hready hamount hdate
        obtain rfl : d₀ = d := Option.some.inj (hd₀.symm.trans hd)
        exact absurd (CaptureDraft.isConfirmable_iff.mpr ⟨hready, ⟨amount, hamount⟩, date, hdate⟩)
          hconf

/-- The requests that set up a draft of the user and put it up for review, with its amount. -/
def draftOfAmount (amount : ℤ) (h : 0 ≤ amount) (t : Instant) :
    List (DraftEvent × Stream' Reading) :=
  let tape : Stream' Reading := fun _ => ⟨t, 5, none, 0, none⟩
  [(.start 7, tape),
    (.edit 5 7 ⟨some amount, some "EUR", some july29.value, none, none, none,
      by simpa using h, by decide, by decide, by decide, by decide, rfl⟩, tape),
    (.ready 5 7, tape)]

/-- The store these requests leave, on a day of July 2021. -/
def storeWithDraft (amount : ℤ) (h : 0 ≤ amount) : Database :=
  afterEvents Database.small (draftOfAmount amount h 1627516800000000)

/-- The readings of a confirmation on the same day. -/
def confirmTape : Stream' Reading := fun _ => ⟨1627516800000000, 9, none, 0, none⟩

omit [PythonRuntime] in
/-- A draft over 12.50 is confirmed. -/
theorem confirmsTotally_iff_ready :
    letI := PythonRuntime.ascii
    Reachable (storeWithDraft 1250 (by decide)) ∧
      ((storeWithDraft 1250 (by decide)).ownedDraft 5 7).map CaptureDraft.state =
        some .readyForReview ∧
      ConfirmsTotally (storeWithDraft 1250 (by decide)) 5 7
        ((confirmCaptureDraft 5 7).exec postgres confirmTape
          ⟨storeWithDraft 1250 (by decide), storeWithDraft 1250 (by decide)⟩) := by
  have h : @Reachable PythonRuntime.ascii (@storeWithDraft PythonRuntime.ascii 1250 (by decide)) :=
    @Reachable.afterEvents PythonRuntime.ascii _ (@Reachable.start PythonRuntime.ascii _ rfl rfl) _
  have hdraft : ((@storeWithDraft PythonRuntime.ascii 1250 (by decide)).ownedDraft 5 7).map
      (fun d => (d.amount.map Money.minorUnits, d.categoryKey)) = some (some 1250, none) := by
    decide +kernel
  refine ⟨h, by decide +kernel,
    (@confirmsTotally_iff PythonRuntime.ascii _ h 5 7 confirmTape).mpr ?_⟩
  intro d _ amount _ hd _ hamount _ _
  rw [hd, Option.map_some, hamount, Option.some.injEq, Prod.mk.injEq] at hdraft
  obtain ⟨hminor, hkey⟩ := hdraft
  have hpos : amount.minorUnits = 1250 := Option.some.inj hminor
  rw [hpos, hkey]
  have htoday : Date.ofOrdinal? ((1627516800000000 : Instant) / 86400000000 + 719163) =
      some july29.value := by decide +kernel
  exact ⟨july29.value, htoday, by decide +kernel, fun _ =>
    ⟨by decide, by decide +kernel, by decide +kernel⟩⟩

omit [PythonRuntime] in
/-- A draft over nothing passes every check of the use case, and its confirmation raises a
`ValueError`. -/
theorem not_confirmsTotally_zero :
    letI := PythonRuntime.ascii
    ¬ ∀ (db : Database), Reachable db → ∀ (draftId caller : UUID) (tape : Stream' Reading),
      ConfirmsTotally db draftId caller
        ((confirmCaptureDraft draftId caller).exec postgres tape ⟨db, db⟩) := by
  intro hall
  have h : @Reachable PythonRuntime.ascii (@storeWithDraft PythonRuntime.ascii 0 le_rfl) :=
    @Reachable.afterEvents PythonRuntime.ascii _ (@Reachable.start PythonRuntime.ascii _ rfl rfl) _
  exact not_confirmsTotally_of_valueError
    (m := "Expense money must be strictly positive") (by decide +kernel) (hall _ h 5 7 confirmTape)

end MintFlow
