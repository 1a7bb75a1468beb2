import MintFlow.Lib.AtMostOnce
import MintFlow.Sessions.ReceiptRows

set_option relaxedAutoImplicit false
set_option autoImplicit false

/-!
# The receipt queue in every run

Workers claim receipts, are stopped or overtaken, and come back; retention takes images away. A claim
holds the row's lock from the `SELECT` to the commit, and a finish is an `UPDATE` that asks for the
attempt and the state at once. So a receipt is finished once, by the attempt that was current, and a
worker that was overtaken leaves nothing behind.

## Main definitions

* `MintFlow.finishDeed`, `MintFlow.finishes` — the receipts whose finish a session committed.
* `MintFlow.QueueKept` — what every step keeps.

## Main results

* `MintFlow.receipt_queue` — **The receipt queue**: at most one finish, final states, leases apart.
* `MintFlow.stale_finish` — **Stale attempts** commit nothing and send nothing.
-/

namespace MintFlow

open Transact Transact.Prog

/-! ## Finishing as a deed -/

/-- A row shows that a receipt was finished as `r` says. -/
def Receipt.FinishedIn (r : Receipt) (x : Option ReceiptRow) : Prop :=
  ∃ row, x = some row ∧ row.Valid ∧ row.receipt.isFinished = true ∧
    row.receipt.state = r.state ∧ row.receipt.attemptId = r.attemptId

/-- A receipt that was finished is finished for good. -/
lemma Receipt.FinishedIn.progress {r : Receipt} {x y : Option ReceiptRow} (h : r.FinishedIn x)
    (hxy : ReceiptRow.Progress x y) : r.FinishedIn y := by
  obtain ⟨row, rfl, hv, hf, hs, ha⟩ := h
  obtain ⟨row', rfl, hadv⟩ := hxy
  obtain ⟨hv', hadv⟩ := hadv hv
  obtain ⟨hs', ha', -⟩ := hadv.ended (.inl hf)
  refine ⟨row', rfl, hv', ?_, hs'.trans hs, ha'.trans ha⟩
  unfold Receipt.isFinished at hf ⊢
  rwa [hs']

/-- What a statement finished. -/
def finishOf : (o : Stmt) → o.Resp → Option Receipt
  | .saveFinished r, true => some r
  | _, _ => none

/-- What a finish finds and leaves: the attempt was the current one of a receipt in processing.

**Proof sketch.** Only `saveFinished` that found its row finishes, of a receipt in processing with
the same attempt, and it writes the row that was found. -/
lemma finished_of_stmt {o : Stmt} {busy : Key → Bool} {db : Database} {x : o.Resp}
    {ws : List Write} {k : Attempt} {r : Receipt} (hmay : Attempt.mayDo o k)
    (h : evaluate o busy db = .ok (x, ws)) (hr : finishOf o x = some r) :
    ∃ row, db.receipts.find r.id = some row ∧ row.receipt.state = .processing ∧
      row.receipt.attemptId = r.attemptId ∧ r.isFinished = true ∧
      Database.checkReceipt (Database.finishedReceipt row r).receipt = .ok () ∧
      (postgres.applyAll ws db).receipts.find r.id = some (Database.finishedReceipt row r) := by
  cases o
  case saveFinished receipt =>
    cases x with
    | false => cases hr
    | true =>
      obtain rfl : receipt = r := Option.some.inj hr
      have hf : receipt.isFinished = true := by
        cases k with
        | free => exact hmay
        | finished _ => exact absurd List.mem_cons_self hmay.1
        | selected _ _ => cases hmay
        | refused => cases hmay
      rcases Database.saveFinished_eq_ok h with ⟨hfalse, -⟩ | ⟨row, hcur, hrow, -, ha, hs, rfl⟩
      · cases hfalse
      refine ⟨row, hrow, hs, ha, hf, Database.checks_of_saveFinished h hrow hcur, ?_⟩
      have hid := Table.key_of_find hrow
      show (db.apply (.receipt _)).receipts.find receipt.id = _
      rw [Database.find_receipt_apply]
      exact if_pos hid.symm
  all_goals cases hr

/-- A receipt is finished at most once. -/
def finishDeed : Deed postgres Write.keys Receipt UUID (Option ReceiptRow) where
  effect := finishOf
  name := Receipt.id
  key := Key.receipt
  obs := fun id db => db.receipts.find id
  guarded := guarded_receipt
  follows := ReceiptRow.Progress
  refl := ReceiptRow.Progress.refl
  trans := fun _ _ _ => ReceiptRow.Progress.trans
  shows := Receipt.FinishedIn
  stays := fun _ _ _ => Receipt.FinishedIn.progress

variable {ι : Type} [DecidableEq ι]

/-- The receipts whose finish a session committed. -/
def finishes (c : System ι) (i : ι) : List Receipt := finishDeed.committed c i

/-- Whether a finish was refused, because the attempt is no longer the current one. -/
def isRefusal : Event signature → Bool
  | .did (.saveFinished _) false => true
  | _ => false

/-- Whether a finish of a session was refused. -/
def wasRefused (c : System ι) (i : ι) : Bool := (c.history i).any isRefusal

/-- A session that selected a receipt for a claim holds it as it was. -/
def Attempt.knows (k : Attempt) (id : UUID) : Option (Option ReceiptRow → Prop) :=
  match k with
  | .selected _ r => if r.id = id then some fun x => ∃ row, x = some row ∧ row.receipt = r else none
  | _ => none

/-- A session knows what it selected from the statement that selected it, or from before: between
the two it only reads.

**Proof sketch.** By the attempt. A new selection comes from the statement that locks the row, and
after it the session only reads, until it claims. -/
lemma Attempt.knows_after {o : Stmt} {busy : Key → Bool} {db : Database} {x : o.Resp}
    {ws : List Write} {k : Attempt} {id : UUID} {P : Option ReceiptRow → Prop}
    (hmay : Attempt.mayDo o k) (heval : evaluate o busy db = .ok (x, ws))
    (h : (Attempt.after o x k).knows id = some P) :
    k.knows id = some P ∧ ws = [] ∨ (.receipt id, .update) ∈ statementLocks o busy db ∧
      P ((postgres.applyAll ws db).receipts.find id) := by
  cases k with
  | refused => cases h
  | finished r =>
    cases o
    case selectClaimableForUpdate now => exact absurd rfl (hmay.2.2 now)
    case saveFinished receipt => exact absurd List.mem_cons_self hmay.1
    all_goals cases h
  | selected now r =>
    by_cases hreads : o.reads = true
    · left
      rw [(Attempt.of_reads hreads _).2] at h
      obtain ⟨x', hx'⟩ := evaluate_of_reads hreads busy db
      exact ⟨h, (Prod.mk.inj (Except.ok.inj (heval.symm.trans hx'))).2⟩
    · cases o
      case updateClaimed receipt => cases h
      all_goals exact absurd hmay hreads
  | free =>
    cases o
    case selectClaimableForUpdate now =>
      cases x with
      | none => cases h
      | some r =>
        right
        obtain ⟨hselect, rfl⟩ := Prod.mk.inj (Except.ok.inj heval)
        obtain ⟨rfl, hP⟩ := Option.ite_none_right_eq_some.mp h
        obtain rfl := Option.some.inj hP
        refine ⟨List.mem_append_left _ ?_, (Database.selectClaimable_eq_some hselect).1⟩
        show _ ∈ ((db.selectClaimable busy now).map _).toList
        rw [hselect]
        exact List.mem_cons_self
    case saveFinished receipt => cases x <;> cases h
    all_goals cases h

/-- **What every step keeps** of the receipts. -/
structure QueueKept (c : System ι) : Prop where
  sound : c.Sound Write.keys
  tracks : ∀ i, Tracks receiptTracker (fun _ _ => True) c i
  aware : ∀ i, Aware postgres receiptTracker Key.receipt .update (fun id db => db.receipts.find id)
    Attempt.knows c i
  valid : ∀ id, ∀ row ∈ c.db.receipts.find id, row.Valid
  once : AtMostOnce finishDeed c

namespace QueueKept

variable {c c' : System ι} {l : Label ι} {i : ι}

/-- What a session knows of the receipt it selected. -/
lemma selected (h : QueueKept c) (hopen : (c.sessions i).closed = false) {now : Instant}
    {r : Receipt} (hk : receiptTracker.state (c.history i) = .selected now r) :
    c.holds i (.receipt r.id) .update = true ∧
      ∃ row, (c.view postgres i).receipts.find r.id = some row ∧ row.receipt = r := by
  refine h.aware i hopen r.id (fun x => ∃ row, x = some row ∧ row.receipt = r) ?_
  rw [hk]
  exact if_pos rfl

/-- Every session sees rows that are kept. -/
lemma valid_view (h : QueueKept c) (i : ι) (id : UUID) :
    ∀ row ∈ (c.view postgres i).receipts.find id, row.Valid :=
  (h.once.follows id i).valid (h.valid id)

/-- A statement of a session that is open keeps to the deed. -/
lemma does (h : QueueKept c) (hopen : (c.sessions i).closed = false) {o : Stmt}
    {f : o.Resp → Program Answer} {r : o.Resp} {ws : List Write}
    (hp : (c.sessions i).prog = .stmt o f)
    (heval : evaluate o (c.busy i) (c.view postgres i) = .ok (r, ws)) :
    finishDeed.Does o r (c.view postgres i) (postgres.applyAll ws (c.view postgres i)) := by
  have hmay := (h.tracks i).mayDo hp
  have hprogress := progress_of_stmt hmay heval fun now r₀ hk => (h.selected hopen hk).2
  refine ⟨hprogress, fun a ha b hb hshows => ?_, fun a ha => ?_⟩
  · -- A receipt that is being processed was not finished.
    obtain ⟨row, hrow, hs, -⟩ := finished_of_stmt hmay heval ha
    obtain ⟨row', hrow', -, hf, -⟩ := hshows
    obtain rfl : row = row' := Option.some.inj (hrow.symm.trans hrow')
    simp [Receipt.isFinished, hs] at hf
  · obtain ⟨row, hrow, hs, hatt, hf, hcheck, hleft⟩ := finished_of_stmt hmay heval ha
    have hv := (advances_finished hs hf hcheck (h.valid_view i a.id row hrow)).1
    exact ⟨_, hleft, hv, hf, rfl, hatt⟩

/-- What a session knows of a receipt it selected, its next statement tells it again. -/
lemma aware_step (h : QueueKept c) (hstep : step postgres c l = some c') (i : ι) :
    Aware postgres receiptTracker Key.receipt .update (fun id db => db.receipts.find id)
      Attempt.knows c' i := by
  obtain ⟨hopen, hm⟩ := move_of_step hstep
  refine aware_of_move (by decide) h.sound guarded_receipt (fun o f r ws hp heval id P hP => ?_)
    (fun k id => ?_) (fun k id => ?_) hopen h.aware hm i
  · rcases Attempt.knows_after ((h.tracks l.who).mayDo hp) heval hP with ⟨hold, rfl⟩ | ⟨hk, hnew⟩
    · exact .inl ⟨P, hold, fun hP => hP⟩
    · exact .inr ⟨⟨_, hk, by decide⟩, hnew⟩
  · cases k <;> rfl
  · cases k <;> rfl

/-- **Every step** keeps the receipts. -/
lemma step (h : QueueKept c) (hstep : Transact.step postgres c l = some c') : QueueKept c' := by
  obtain ⟨hopen, hm⟩ := move_of_step hstep
  have hstmt : ∀ o f r ws, (c.sessions l.who).prog = .stmt o f →
      postgres.eval o (c.busy l.who) (c.view postgres l.who) = .ok (r, ws) →
      c'.log = c.log ++ [(l.who, .did o r)] → finishDeed.Does o r (c.view postgres l.who)
        (postgres.applyAll ws (c.view postgres l.who)) :=
    fun o f r ws hp heval _ => h.does hopen hp heval
  have hsound := sound_of_move postgres_covers h.sound hm
  refine ⟨hsound, fun i => (h.tracks i).move (fun _ => postgres_fits rfl (fun _ _ => trivial) _ _)
    (fun _ _ => trivial) hm, h.aware_step hstep, fun id => ?_,
    h.once.move h.sound hsound hstmt hopen hm⟩
  exact (h.once.follows_of_move h.sound hstmt hm id).2.valid (h.valid id)

/-- What holds of a configuration holds of those that come after. -/
lemma reaches (h : QueueKept c) (hreach : Reaches postgres c c') : QueueKept c' :=
  hreach.induction (fun _ _ _ hc hstep => hc.step hstep) h

/-- A row goes on as receipts do. -/
lemma progress (h : QueueKept c) (hreach : Reaches postgres c c') (id : UUID) :
    ReceiptRow.Progress (c.db.receipts.find id) (c'.db.receipts.find id) := by
  have hboth : QueueKept c' ∧
      ReceiptRow.Progress (c.db.receipts.find id) (c'.db.receipts.find id) := by
    refine hreach.induction (P := fun c' => QueueKept c' ∧
      ReceiptRow.Progress (c.db.receipts.find id) (c'.db.receipts.find id))
      (fun c₁ l c₂ hc hstep => ?_) ⟨h, .refl _⟩
    obtain ⟨hkept, hprogress⟩ := hc
    obtain ⟨hopen, hm⟩ := move_of_step hstep
    exact ⟨hkept.step hstep, hprogress.trans (hkept.once.follows_of_move hkept.sound
      (fun o f r ws hp heval _ => hkept.does hopen hp heval) hm id).2⟩
  exact hboth.2

/-- A receipt that a worker claims has its image and is not finished.

**Proof sketch.** The claim is of what the session selected and still sees under its lock. The
committed row has only progressed to that, and one that is finished or without its image would still
be so. -/
lemma claimable (h : QueueKept c) (hopen : (c.sessions i).closed = false) {r : Receipt}
    {f : Unit → Program Answer} (hp : (c.sessions i).prog = .stmt (.updateClaimed r) f) :
    ∀ row ∈ c.db.receipts.find r.id,
      row.receipt.isFinished = false ∧ row.receipt.imageRemovedAt = none := by
  intro row hrow
  have hmay := (h.tracks i).mayDo hp
  cases hk : receiptTracker.state (c.history i) with
  | selected now r₀ =>
    rw [hk] at hmay
    obtain ⟨a, hclaim⟩ := hmay
    obtain ⟨hclaimable, -, rfl⟩ := Receipt.claim_eq_ok hclaim
    obtain ⟨himage, hstate⟩ := Receipt.isClaimable_iff.mp hclaimable
    obtain ⟨-, seen, hseen, rfl⟩ := h.selected hopen hk
    -- What the session sees is what came of the committed row.
    have hprogress := h.once.follows seen.receipt.id i
    have hrow' : c.db.receipts.find seen.receipt.id = some row := hrow
    obtain ⟨row', hrow'', hadv⟩ : ∃ row', some seen = some row' ∧
        (row.Valid → row'.Valid ∧ row.Advances row') := by
      have hfollows : ReceiptRow.Progress (some row) (some seen) := by
        rw [← hrow', ← hseen]
        exact hprogress
      exact hfollows
    obtain rfl := Option.some.inj hrow''
    obtain ⟨-, hadv⟩ := hadv (h.valid _ row hrow')
    refine ⟨Bool.eq_false_iff.mpr fun hf => ?_, ?_⟩
    · have hs := (hadv.ended (.inl hf)).1
      unfold Receipt.isFinished at hf
      rw [← hs] at hf
      rcases hstate with hs | ⟨hs, -⟩ <;> simp [hs] at hf
    · cases hremoved : row.receipt.imageRemovedAt with
      | none => rfl
      | some t =>
        rw [hadv.removed t hremoved] at himage
        cases himage
  | free =>
    rw [hk] at hmay
    cases hmay
  | finished r₀ =>
    rw [hk] at hmay
    exact absurd List.mem_cons_self hmay.1
  | refused =>
    rw [hk] at hmay
    cases hmay

variable [PythonRuntime]

/-- It holds before the first step, if the rows are as they are kept. -/
lemma begin {db : Database} (hdb : ∀ row ∈ db.receipts, row.Valid) (requests : ι → Request)
    (tapes : ι → Stream' Reading) : QueueKept (started db requests tapes) where
  sound := ⟨fun _ _ h => absurd h List.not_mem_nil, fun _ _ h => absurd h List.not_mem_nil⟩
  tracks i := Request.wp_receipts (requests i)
  aware i _ id P h := by cases h
  valid id row h := hdb row (Table.mem_of_find h)
  once := .start (fun _ => rfl) (fun _ => rfl)

end QueueKept

/-! ## The queue -/

variable [PythonRuntime]

/-- **The receipt queue.** Take any database whose receipts are as they are kept, any number of
requests, updates, rounds of the worker and batches of retention that run on it at the same time, and
any of them stopped at any point.

No receipt is finished twice, neither by one session nor by two, and its row is what the one finish
made it: the state and the attempt stay, and there is no lease. A worker claims only receipts that
are not finished and have their image. From any point on, a row goes on as `ReceiptRow.Advances`
says; among that, the lease of another attempt begins when the one before has expired.

**Proof sketch.** A claim is made under the lock of the row it selected, so it takes the row as it
was seen, and a finish asks for the current attempt of a receipt in processing as it writes. Both
keep `ReceiptRow.Progress`, which is transitive and local to the row; so a row that one session sees
as finished stays so for all, and the next finish finds no receipt in processing. -/
theorem receipt_queue (db : Database) (hdb : ∀ row ∈ db.receipts, row.Valid)
    (requests : ι → Request) (tapes : ι → Stream' Reading) {ls : List (Label ι)} {c : System ι}
    (h : run postgres (started db requests tapes) ls = some c) :
    (∀ i, ((finishes c i).map Receipt.id).Nodup) ∧
    (∀ i j, i ≠ j → ∀ r ∈ finishes c i, ∀ s ∈ finishes c j, r.id ≠ s.id) ∧
    (∀ i, ∀ r ∈ finishes c i, ∃ row, c.db.receipts.find r.id = some row ∧
      row.receipt.isFinished = true ∧ row.receipt.state = r.state ∧
      row.receipt.attemptId = r.attemptId ∧ row.receipt.leaseExpiresAt = none) ∧
    (∀ i r c', step postgres c (.go i) = some c' →
      c'.log = c.log ++ [(i, .did (.updateClaimed r) ())] → ∀ row ∈ c.db.receipts.find r.id,
        row.receipt.isFinished = false ∧ row.receipt.imageRemovedAt = none) ∧
    ∀ ls' c', run postgres c ls' = some c' → ∀ id row, c.db.receipts.find id = some row →
      ∃ row', c'.db.receipts.find id = some row' ∧ row.Advances row' := by
  have hkept : QueueKept c := (QueueKept.begin hdb requests tapes).reaches ⟨ls, h⟩
  refine ⟨hkept.once.once, hkept.once.apart, fun i r hr => ?_, fun i r c' hstep hlog => ?_,
    fun ls' c' h' id row hrow => ?_⟩
  · obtain ⟨row, hrow, hv, hf, hs, ha⟩ := hkept.once.shown i r hr
    exact ⟨row, hrow, hf, hs, ha, hv.lease_eq_none hf⟩
  · obtain ⟨hopen, hm⟩ := move_of_step hstep
    obtain ⟨f, -, hp, -, -⟩ := did_of_log hm hlog
    exact hkept.claimable hopen hp
  · have hprogress := hkept.progress ⟨ls', h'⟩ id
    rw [hrow] at hprogress
    obtain ⟨row', hrow', hadv⟩ := hprogress
    exact ⟨row', hrow', (hadv (hkept.valid id row hrow)).2⟩

/-! ## Stale attempts -/

omit [PythonRuntime] in
/-- A refusal is never forgotten.

**Proof sketch.** The refusal leads to the refused state from any other, and no event leads out of
it. -/
lemma state_of_refusal {es : List (Event signature)} (h : es.any isRefusal = true) :
    receiptTracker.state es = .refused := by
  obtain ⟨e, he, hrefusal⟩ := List.any_eq_true.mp h
  obtain ⟨before, after, rfl⟩ := List.append_of_mem he
  have hkeep : ∀ es : List (Event signature), es.foldl receiptTracker.next .refused = .refused := by
    intro es
    induction es with
    | nil => rfl
    | cons e es ih =>
      have hnext : receiptTracker.next .refused e = .refused := by
        cases e with
        | did o r => cases o <;> rfl
        | committed => rfl
        | rolledBack => rfl
      rw [List.foldl_cons, hnext]
      exact ih
  have hrefused : ∀ k, receiptTracker.next k e = .refused := by
    intro k
    cases e with
    | did o r =>
      cases o
      case saveFinished receipt =>
        cases r with
        | true => cases hrefusal
        | false => cases k <;> rfl
      all_goals cases hrefusal
    | committed => cases hrefusal
    | rolledBack => cases hrefusal
  unfold Tracker.state
  rw [List.foldl_append, List.foldl_cons, hrefused]
  exact hkeep after

omit [PythonRuntime] in
/-- A refusal stays in the history.

**Proof sketch.** A history only grows. -/
lemma wasRefused_of_step {c c' : System ι} {l : Label ι} {i : ι}
    (hstep : step postgres c l = some c') (h : wasRefused c i = true) : wasRefused c' i = true := by
  obtain ⟨-, hm⟩ := move_of_step hstep
  have hgrow : ∀ e, c'.history i = c.history i ++ [e] → wasRefused c' i = true := by
    intro e he
    unfold wasRefused
    rw [he, List.any_append, Bool.or_eq_true]
    exact .inl h
  have hsame : c'.history i = c.history i → wasRefused c' i = true := by
    intro he
    unfold wasRefused
    rw [he]
    exact h
  by_cases hl : l.who = i
  swap
  · exact hsame (history_stable hl hm)
  subst hl
  cases recorded_of_move hm with
  | nothing hhistory => exact hsame hhistory
  | did o f r ws hp heval hlog hhistory => exact hgrow _ hhistory
  | committed hdb hlog hhistory => exact hgrow _ hhistory
  | rolledBack hhistory => exact hgrow _ hhistory

/-- Every session works on receipts as the tracker allows, in every run. -/
lemma tracks_receipts {db : Database} {requests : ι → Request} {tapes : ι → Stream' Reading}
    {c : System ι} (h : Reaches postgres (started db requests tapes) c) (i : ι) :
    Tracks receiptTracker (fun _ _ => True) c i := by
  have hstart : Tracks receiptTracker (fun _ _ => True) (started db requests tapes) i :=
    Request.wp_receipts (requests i)
  exact h.induction (P := fun c => Tracks receiptTracker (fun _ _ => True) c i)
    (fun _ _ _ hc hstep => hc.move (fun _ => postgres_fits rfl (fun _ _ => trivial) _ _)
      (fun _ _ => trivial) (move_of_step hstep).2) hstart

/-- **Stale attempts.** In every run, a session whose finish was refused commits nothing and sends
nothing from then on: whatever it still does leaves the database and the messages as they are.

**Proof sketch.** The refusal stays in the history, so the tracker stays in the refused state, and a
program that keeps to it neither commits nor sends from there. -/
theorem stale_finish (db : Database) (requests : ι → Request) (tapes : ι → Stream' Reading)
    {ls : List (Label ι)} {c : System ι} (h : run postgres (started db requests tapes) ls = some c)
    {i : ι} (hrefused : wasRefused c i = true) {ls' : List (Label ι)} {c' : System ι}
    (h' : run postgres c ls' = some c') {l : Label ι} {c'' : System ι} (hwho : l.who = i)
    (hstep : step postgres c' l = some c'') : c''.db = c'.db ∧ c''.sent = c'.sent := by
  subst hwho
  have hrefused' : wasRefused c' l.who = true :=
    Reaches.induction (P := fun c' => wasRefused c' l.who = true)
      (fun _ _ _ hc hstep => wasRefused_of_step hstep hc) hrefused ⟨ls', h'⟩
  have hreach : Reaches postgres (started db requests tapes) c' := ⟨ls ++ ls', by
    rw [run_append, h]
    exact h'⟩
  have htracks := tracks_receipts hreach l.who
  unfold Tracks at htracks
  rw [state_of_refusal hrefused'] at htracks
  obtain ⟨-, hm⟩ := move_of_step hstep
  cases hm with
  | emit o p hp =>
    rw [hp] at htracks
    exact absurd rfl htracks.1
  | commit p hp =>
    rw [hp] at htracks
    exact absurd rfl htracks.1
  | _ => exact ⟨rfl, rfl⟩

/-! ## Two workers -/

/-- A receipt that was received, with its image. -/
def Database.received : Database :=
  { Database.small with
    images := ⟨[⟨4, "image/jpeg", [0xff, 0xd8, 0xff], 0⟩], by decide⟩
    receipts := ⟨[⟨Receipt.receive 4 7 0, some "photo", some 0⟩], by decide⟩ }

/-- The clocks and the attempt ids of two workers: the second one comes when the lease of the first
has expired. -/
def overtakingTapes (i : ℕ) : Stream' Reading :=
  fun _ => ⟨if i = 0 then 0 else 200000000, if i = 0 then 8 else 9, none, 0, none⟩

/-- The first worker claims the receipt and waits for the recognizer; the second one takes over and
finishes; then the first one wants to finish. -/
def overtaking : List (Label ℕ) :=
  List.replicate 10 (.go 0) ++ List.replicate 17 (.go 1) ++ List.replicate 4 (.go 0)

omit [PythonRuntime] in
/-- Of two workers that claim one receipt, one after the other, the second one finishes it. -/
theorem receipt_queue_overtaken :
    letI := PythonRuntime.ascii
    ∃ c, run postgres (started Database.received (fun _ => .work) overtakingTapes) overtaking =
        some c ∧ finishes c 0 = [] ∧ (finishes c 1).map Receipt.id = [4] ∧
      ∃ row, c.db.receipts.find 4 = some row ∧ row.receipt.isFinished = true ∧
        row.receipt.leaseExpiresAt = none := by
  let _ := PythonRuntime.ascii
  have heval : (run postgres (started Database.received (fun _ => .work) overtakingTapes)
      overtaking).map (fun c => (finishes c 0, (finishes c 1).map Receipt.id)) = some ([], [4]) := by
    decide +kernel
  obtain ⟨c, hrun, heval⟩ := Option.map_eq_some_iff.mp heval
  obtain ⟨h₀, h₁⟩ := Prod.mk.inj heval
  have hdb : ∀ row ∈ Database.received.receipts, row.Valid := by
    intro row hrow
    obtain rfl := List.mem_singleton.mp hrow
    exact ⟨by decide, by decide, by decide⟩
  obtain ⟨-, -, hrows, -⟩ := receipt_queue _ hdb _ _ hrun
  refine ⟨c, hrun, h₀, h₁, ?_⟩
  obtain ⟨r, hr, hid⟩ := List.mem_map.mp (h₁ ▸ List.mem_singleton.mpr rfl : (4 : UUID) ∈ _)
  obtain ⟨row, hrow, hf, -, -, hl⟩ := hrows 1 r hr
  rw [hid] at hrow
  exact ⟨row, hrow, hf, hl⟩

omit [PythonRuntime] in
/-- The first worker is refused, and its next step leaves everything as it is. -/
theorem stale_finish_overtaken :
    letI := PythonRuntime.ascii
    ∃ c c', run postgres (started Database.received (fun _ => .work) overtakingTapes) overtaking =
        some c ∧ wasRefused c 0 = true ∧ step postgres c (.go 0) = some c' ∧ c'.db = c.db ∧
      c'.sent = c.sent := by
  let _ := PythonRuntime.ascii
  have heval : (run postgres (started Database.received (fun _ => .work) overtakingTapes)
      overtaking).map (fun c => (wasRefused c 0, (step postgres c (.go 0)).isSome)) =
      some (true, true) := by
    decide +kernel
  obtain ⟨c, hrun, heval⟩ := Option.map_eq_some_iff.mp heval
  obtain ⟨hrefused, hsome⟩ := Prod.mk.inj heval
  obtain ⟨c', hstep⟩ := Option.isSome_iff_exists.mp hsome
  have hstay : run postgres c [] = some c := rfl
  obtain ⟨hdb, hsent⟩ := stale_finish _ _ _ hrun hrefused hstay rfl hstep
  exact ⟨c, c', hrun, hrefused, hstep, hdb, hsent⟩

end MintFlow
