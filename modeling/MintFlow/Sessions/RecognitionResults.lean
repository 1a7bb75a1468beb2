import MintFlow.Sessions.ReceiptQueue
import MintFlow.Sessions.UniqueRows

set_option relaxedAutoImplicit false
set_option autoImplicit false

/-!
# Recognition results in every run

A result is stored in the transaction that finishes its receipt, and only there. So at most one is
ever stored for a receipt, and it is that of the attempt the receipt was finished by; retention may
delete it, and nothing puts another one in its place.

## Main definitions

* `MintFlow.RecognitionResult.FitsIn` — a result is that of the attempt that finished a receipt.
* `MintFlow.ResultsKept` — what every step keeps.

## Main results

* `MintFlow.recognition_results` — **Recognition results**: at most one for a receipt, ever.
-/

namespace MintFlow

open Transact Transact.Prog

variable {ι : Type} [DecidableEq ι]

/-- A result is that of the attempt that finished a receipt. -/
def RecognitionResult.FitsIn (x : RecognitionResult) (y : Option ReceiptRow) : Prop :=
  ∃ r : Receipt, r.FinishedIn y ∧ r.attemptId = some x.attemptId

/-- A receipt that is finished was finished by somebody. -/
lemma not_undone_of_finished {r : Receipt} {id : UUID} {db : Database}
    (h : r.FinishedIn (db.receipts.find id)) : ¬ finishDeed.Undone id db := by
  intro hundone
  obtain ⟨row, hrow, hv, hf, -, -⟩ := h
  exact hundone row.receipt (Table.key_of_find hrow :) ⟨row, hrow, hv, hf, rfl, rfl⟩

/-- A result is put in by the statement that stores it. -/
lemma eq_saveResult_of_mem {o : Stmt} {busy : Key → Bool} {db : Database} {r : o.Resp}
    {ws : List Write} {x : RecognitionResult} (h : evaluate o busy db = .ok (r, ws))
    (hx : .result x ∈ ws) : o = .saveResult x := by
  have htable := table_mem_writes h _ hx
  cases o
  case saveResult y =>
    obtain ⟨-, -, -, -, rfl⟩ := Database.saveResult_eq_ok h
    rw [Write.result.inj (List.mem_singleton.mp hx)]
  case deleteReceiptData cutoff now size =>
    obtain ⟨-, rfl⟩ := Prod.mk.inj (Except.ok.inj h)
    simp at hx
  all_goals exact absurd htable (by simp [Stmt.writes, Write.table])

/-- What a session knows it finished, its open transaction did.

**Proof sketch.** Induction on the history, from its end. Only a finish that found its row leads to
this state, which is pending then, and nothing but the end of the transaction takes it away. -/
lemma mem_pending_of_state (es : List (Event signature)) {r : Receipt}
    (h : receiptTracker.state es = .finished r) :
    r ∈ (Effects.ofHistory finishOf es).pending := by
  induction es using List.reverseRecOn with
  | nil => cases h
  | append_singleton es e ih =>
    rw [Tracker.state_append] at h
    rw [Effects.ofHistory_append]
    have hold : receiptTracker.state es = .finished r → ∀ more,
        r ∈ (Effects.ofHistory finishOf es).pending ++ more := fun hk more =>
      List.mem_append_left _ (ih hk)
    cases e with
    | committed => cases hk : receiptTracker.state es <;> rw [hk] at h <;> cases h
    | rolledBack => cases hk : receiptTracker.state es <;> rw [hk] at h <;> cases h
    | did o x =>
      have hafter : Attempt.after o x (receiptTracker.state es) = .finished r := h
      cases o
      case saveFinished receipt =>
        cases x with
        | false => cases hk : receiptTracker.state es <;> rw [hk] at hafter <;> cases hafter
        | true =>
          refine List.mem_append_right _ ?_
          cases hk : receiptTracker.state es <;> rw [hk] at hafter <;> cases hafter <;>
            exact List.mem_cons_self
      case selectClaimableForUpdate now =>
        cases x <;> cases hk : receiptTracker.state es <;> rw [hk] at hafter <;> cases hafter
      case updateClaimed receipt =>
        cases hk : receiptTracker.state es <;> rw [hk] at hafter <;> cases hafter
      all_goals
        refine hold ?_ _
        cases hk : receiptTracker.state es <;> rw [hk] at hafter <;> exact hafter

/-! ## The invariant -/

/-- **What every step keeps** of the results. -/
structure ResultsKept (c : System ι) : Prop where
  queue : QueueKept c
  unique : resultIndex.Holds c.db ∧ ∀ i, resultIndex.Holds (c.view postgres i)
  /-- A session stores results of the attempts that its open transaction finished. -/
  own : ∀ i, (c.sessions i).closed = false → ∀ x ∈ resultIndex.own (c.sessions i).pending,
    ∃ r ∈ finishDeed.pending c i, r.id = x.receiptId ∧ r.attemptId = some x.attemptId
  fit : ∀ x ∈ c.db.results, x.FitsIn (c.db.receipts.find x.receiptId)

namespace ResultsKept

variable {c c' : System ι} {l : Label ι} {i : ι}

/-- What a session stored is of a receipt that nobody else has finished. -/
lemma undone_of_own (h : ResultsKept c) (hopen : (c.sessions i).closed = false)
    {x : RecognitionResult} (hx : x ∈ resultIndex.own (c.sessions i).pending) :
    finishDeed.Undone x.receiptId c.db := by
  obtain ⟨r, hr, hid, -⟩ := h.own i hopen x hx
  rw [← hid]
  exact (h.queue.once.held i hopen r hr).2.1

/-- A result that a session sees is that of the attempt that finished its receipt. -/
lemma fit_view (h : ResultsKept c) (hopen : (c.sessions i).closed = false) {x : RecognitionResult}
    (hx : x ∈ (c.view postgres i).results) :
    x.FitsIn ((c.view postgres i).receipts.find x.receiptId) := by
  rcases (RowSet.mem_applyAll (R := resultIndex.toRowSet)).mp hx with hx | ⟨hx, -⟩
  · obtain ⟨r, hr, hid, ha⟩ := h.own i hopen x hx
    refine ⟨r, ?_, ha⟩
    rw [← hid]
    exact (h.queue.once.held i hopen r hr).2.2
  · obtain ⟨r, hr, ha⟩ := h.fit x hx
    exact ⟨r, hr.progress (h.queue.once.follows x.receiptId i), ha⟩

/-- What a session stored stays its own.

**Proof sketch.** What was stored before stays, with the finish it belongs to. A result that is
stored by this step is of the attempt that the tracker says was finished, which is pending
(`mem_pending_of_state`). -/
lemma own_step (h : ResultsKept c) (hstep : step postgres c l = some c') (i : ι)
    (hopen' : (c'.sessions i).closed = false) :
    ∀ x ∈ resultIndex.own (c'.sessions i).pending,
      ∃ r ∈ finishDeed.pending c' i, r.id = x.receiptId ∧ r.attemptId = some x.attemptId := by
  obtain ⟨hopen, hm⟩ := move_of_step hstep
  by_cases hl : l.who = i
  swap
  · rw [session_stable hl hm] at hopen' ⊢
    unfold Deed.pending Deed.effects
    rw [history_stable hl hm]
    exact h.own i hopen'
  subst hl
  rcases pending_of_move hm with ⟨hpending, hhistory⟩ | ⟨o, f, r, ws, hp, he, hpending, hhistory⟩ |
    hpending
  · rw [hpending]
    unfold Deed.pending Deed.effects
    rw [hhistory]
    exact h.own l.who hopen
  · rw [hpending]
    unfold Deed.pending Deed.effects
    rw [hhistory, Effects.ofHistory_append]
    intro x hx
    rcases RowSet.mem_own_append.mp hx with hnew | ⟨hold, -⟩
    · obtain ⟨w, hw, rfl⟩ := RowSet.exists_write hnew
      obtain rfl := eq_saveResult_of_mem he hw
      -- The attempt is that of the receipt which the transaction finished.
      have hmay : Attempt.mayDo (.saveResult x) (receiptTracker.state (c.history l.who)) :=
        (h.queue.tracks l.who).mayDo hp
      cases hk : receiptTracker.state (c.history l.who) with
      | finished r₀ =>
        rw [hk] at hmay
        exact ⟨r₀, List.mem_append_left _ (mem_pending_of_state _ hk), hmay.1.symm, hmay.2⟩
      | _ =>
        rw [hk] at hmay
        cases hmay
    · obtain ⟨r₀, hr₀, hfit⟩ := h.own l.who hopen x hold
      exact ⟨r₀, List.mem_append_left _ hr₀, hfit⟩
  · rw [hpending]
    intro x hx
    cases hx

/-- What is committed is what some session saw, or was there before. -/
lemma db_of_step (hstep : step postgres c l = some c') :
    c'.db = c.db ∨ c'.db = c.view postgres l.who := by
  obtain ⟨-, hm⟩ := move_of_step hstep
  cases hm with
  | commit p hp => exact .inr rfl
  | _ => exact .inl rfl

/-- **Every step** keeps the results. -/
lemma step (h : ResultsKept c) (hstep : Transact.step postgres c l = some c') : ResultsKept c' where
  queue := h.queue.step hstep
  unique := UniqueIndex.holds_of_move h.queue.sound
    (fun _ _ _ _ _ heval => resultIndex_of_stmt heval (h.unique.2 _)) h.unique.1 h.unique.2
    (move_of_step hstep).2
  own := h.own_step hstep
  fit := by
    rcases db_of_step hstep with hdb | hdb
    · rw [hdb]
      exact h.fit
    · rw [hdb]
      exact fun x hx => h.fit_view (move_of_step hstep).1 hx

/-- A result of a receipt that was finished before was stored before. -/
lemma old_of_finished (h : ResultsKept c) (hstep : Transact.step postgres c l = some c')
    {x : RecognitionResult} (hx : x ∈ c'.db.results) {r : Receipt}
    (hr : r.FinishedIn (c.db.receipts.find x.receiptId)) : x ∈ c.db.results := by
  rcases db_of_step hstep with hdb | hdb
  · rwa [hdb] at hx
  · rw [hdb] at hx
    rcases (RowSet.mem_applyAll (R := resultIndex.toRowSet)).mp hx with hx | ⟨hx, -⟩
    · exact absurd (h.undone_of_own (move_of_step hstep).1 hx) (not_undone_of_finished hr)
    · exact hx

/-- From one configuration to a later one, a receipt that was finished gets no new result. -/
lemma reaches (h : ResultsKept c) (hreach : Reaches postgres c c') : ResultsKept c' ∧
    ∀ x ∈ c'.db.results, ∀ r : Receipt, r.FinishedIn (c.db.receipts.find x.receiptId) →
      x ∈ c.db.results := by
  refine hreach.induction (P := fun c' => Reaches postgres c c' ∧ ResultsKept c' ∧
    ∀ x ∈ c'.db.results, ∀ r : Receipt, r.FinishedIn (c.db.receipts.find x.receiptId) →
      x ∈ c.db.results) (fun c₁ l c₂ hc hstep => ?_) ⟨.refl, h, fun x hx _ _ => hx⟩ |>.2
  obtain ⟨hreach, hkept, hold⟩ := hc
  refine ⟨hreach.next hstep, hkept.step hstep, fun x hx r hr => ?_⟩
  have hr₁ := hr.progress (h.queue.progress hreach x.receiptId)
  exact hold x (hkept.old_of_finished hstep hx hr₁) r hr

end ResultsKept

/-! ## Results in every run -/

/-- The results that are stored: each is that of the attempt that finished its receipt, and there is
one for an attempt. -/
structure Database.ResultsFit (db : Database) : Prop where
  unique : resultIndex.Holds db
  fit : ∀ x ∈ db.results, x.FitsIn (db.receipts.find x.receiptId)

variable [PythonRuntime]

/-- **Recognition results.** Take any database whose receipts and results are as they are kept, and
any number of requests, updates, rounds of the worker and batches of retention that run on it at the
same time, any of them stopped at any point.

In every committed state a stored result is that of the attempt by which its receipt was finished, and
no receipt has two. If one committed state has a result of a receipt and a later one has a result of
the same receipt, it is the same result: what retention deleted is not stored again.

**Proof sketch.** A session stores a result only after it finished the receipt in the same
transaction; then it holds the receipt's lock, and nobody else had finished it. Of one attempt there
is one result, because the pair is unique. -/
theorem recognition_results (db : Database) (hreceipts : ∀ row ∈ db.receipts, row.Valid)
    (hresults : db.ResultsFit) (requests : ι → Request) (tapes : ι → Stream' Reading)
    {ls : List (Label ι)} {c : System ι} (h : run postgres (started db requests tapes) ls = some c) :
    (∀ x ∈ c.db.results, ∃ row, c.db.receipts.find x.receiptId = some row ∧
      row.receipt.isFinished = true ∧ row.receipt.attemptId = some x.attemptId) ∧
    (∀ x ∈ c.db.results, ∀ y ∈ c.db.results, x.receiptId = y.receiptId → x = y) ∧
    ∀ ls' c', run postgres c ls' = some c' → ∀ x ∈ c.db.results, ∀ y ∈ c'.db.results,
      x.receiptId = y.receiptId → x = y := by
  have hstart : ResultsKept (started db requests tapes) :=
    ⟨.begin hreceipts requests tapes, ⟨hresults.unique, fun _ => hresults.unique⟩,
      fun _ _ _ hx => absurd hx (Set.notMem_empty _), hresults.fit⟩
  have hkept : ResultsKept c := (hstart.reaches ⟨ls, h⟩).1
  have hunique : ∀ x ∈ c.db.results, ∀ y ∈ c.db.results, x.receiptId = y.receiptId → x = y := by
    intro x hx y hy hid
    obtain ⟨r, ⟨row, hrow, -, -, -, ha⟩, hr⟩ := hkept.fit x hx
    obtain ⟨r', ⟨row', hrow', -, -, -, ha'⟩, hr'⟩ := hkept.fit y hy
    rw [← hid, hrow] at hrow'
    obtain rfl := Option.some.inj hrow'
    have hattempt : x.attemptId = y.attemptId :=
      Option.some.inj ((ha.trans hr).symm.trans (ha'.trans hr'))
    refine hkept.unique.1 x hx y hy _ rfl ?_
    show some (y.receiptId, y.attemptId) = some (x.receiptId, x.attemptId)
    rw [hid, hattempt]
  refine ⟨fun x hx => ?_, hunique, fun ls' c' h' x hx y hy hid => ?_⟩
  · obtain ⟨r, ⟨row, hrow, -, hf, -, ha⟩, hr⟩ := hkept.fit x hx
    exact ⟨row, hrow, hf, ha.trans hr⟩
  · obtain ⟨-, hold⟩ := hkept.reaches ⟨ls', h'⟩
    obtain ⟨r, hr, -⟩ := hkept.fit x hx
    rw [hid] at hr
    exact hunique x hx y (hold y hy r hr) hid

/-- The tapes of two workers whose recognizer finds nothing on the image. -/
def readingTapes (i : ℕ) : Stream' Reading :=
  fun _ => ⟨if i = 0 then 0 else 200000000, if i = 0 then 8 else 9, none, 0, some ⟨[], [], [], []⟩⟩

/-- The second worker takes over, finishes and stores its result; the first one comes too late. -/
def tooLate : List (Label ℕ) :=
  List.replicate 10 (.go 0) ++ List.replicate 19 (.go 1) ++ List.replicate 4 (.go 0)

omit [PythonRuntime] in
/-- Of two workers that read one receipt, the result of the second one is stored, for good. -/
theorem recognition_results_overtaken :
    letI := PythonRuntime.ascii
    ∃ c, run postgres (started Database.received (fun _ => .work) readingTapes) tooLate =
        some c ∧ (c.db.results.rows.map fun x => (x.receiptId, x.attemptId)) = [(4, 9)] ∧
      ∀ ls' c', run postgres c ls' = some c' → ∀ y ∈ c'.db.results, y.receiptId = 4 →
        y.attemptId = 9 := by
  let _ := PythonRuntime.ascii
  have heval : (run postgres (started Database.received (fun _ => .work) readingTapes)
      tooLate).map (fun c => c.db.results.rows.map fun x => (x.receiptId, x.attemptId)) =
      some [(4, 9)] := by
    decide +kernel
  obtain ⟨c, hrun, hrows⟩ := Option.map_eq_some_iff.mp heval
  have hreceipts : ∀ row ∈ Database.received.receipts, row.Valid := by
    intro row hrow
    obtain rfl := List.mem_singleton.mp hrow
    exact ⟨by decide, by decide, by decide⟩
  have hnone : ∀ x : RecognitionResult, x ∉ Database.received.results := by
    intro x hx
    cases hx
  obtain ⟨-, -, hlater⟩ := recognition_results Database.received hreceipts
    ⟨fun x hx => absurd hx (hnone x), fun x hx => absurd hx (hnone x)⟩ _ _ hrun
  refine ⟨c, hrun, hrows, fun ls' c' hrun' y hy hid => ?_⟩
  obtain ⟨x, hx, heq⟩ := List.mem_map.mp (hrows ▸ List.mem_singleton.mpr rfl :
    ((4, 9) : UUID × UUID) ∈ c.db.results.rows.map fun x => (x.receiptId, x.attemptId))
  obtain ⟨hid', ha⟩ := Prod.mk.inj heq
  rw [← hlater ls' c' hrun' x hx y hy (hid'.trans hid.symm)]
  exact ha

end MintFlow
