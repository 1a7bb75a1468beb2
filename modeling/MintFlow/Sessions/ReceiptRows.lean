import MintFlow.Persistence.Footprint
import MintFlow.Sessions.Requests

set_option relaxedAutoImplicit false
set_option autoImplicit false

/-!
# Receipts under concurrency

What every interleaving of requests, updates, rounds of the worker and retention keeps of the rows
of `receipts`. A receipt is claimed and finished by statements that write whole rows; what makes them
safe is the row lock of the claim and the condition on the attempt in the finish.

## Main definitions

* `MintFlow.Attempt`, `MintFlow.receiptTracker` — what a session knows of the receipt it works on.
* `MintFlow.ReceiptRow.Valid`, `MintFlow.ReceiptRow.Progress` — rows as they are kept, and how a row
  may change.

## Main results

* `MintFlow.Request.wp_receipts` — every request works on receipts as the tracker allows.
* `MintFlow.progress_of_stmt` — what a statement may make of a receipt.
-/

namespace MintFlow

open Transact Transact.Prog

/-! ## What a session knows -/

/-- What a session knows of the receipt it works on in its open transaction. -/
inductive Attempt
  /-- It works on none. -/
  | free
  /-- It selected a claimable receipt. -/
  | selected (now : Instant) (r : Receipt)
  /-- It finished a receipt, as `r` says. -/
  | finished (r : Receipt)
  /-- It was refused to finish a receipt. -/
  | refused

/-- What a session may execute on receipts. -/
def Attempt.mayDo : Stmt → Attempt → Prop
  | .createReceipt r _, .free => ∃ id owner now, r = Receipt.receive id owner now
  | .updateClaimed _, .free => False
  | .saveFinished r, .free => r.isFinished = true
  | .saveResult _, .free => False
  | _, .free => True
  | .updateClaimed r', .selected now r => ∃ a, r.claim a now receiptLease = .ok r'
  | o, .selected _ _ => o.reads = true
  | .saveResult x, .finished r => x.receiptId = r.id ∧ r.attemptId = some x.attemptId
  | o, .finished _ => .receipts ∉ o.writes ∧ .recognitionResults ∉ o.writes ∧
      ∀ now, o ≠ .selectClaimableForUpdate now
  | o, .refused => o.reads = true

/-- What a session knows after a statement. -/
def Attempt.after : (o : Stmt) → o.Resp → Attempt → Attempt
  | _, _, .refused => .refused
  | .selectClaimableForUpdate now, some r, _ => .selected now r
  | .selectClaimableForUpdate _, none, _ => .free
  | .updateClaimed _, _, _ => .free
  | .saveFinished r, true, _ => .finished r
  | .saveFinished _, false, _ => .refused
  | _, _, k => k

/-- What a session knows after a commit or a rollback: a refusal is never forgotten. -/
def Attempt.ended : Attempt → Attempt
  | .refused => .refused
  | _ => .free

/-- The tracker of what sessions know of receipts. -/
def receiptTracker : Tracker signature Attempt where
  start := .free
  answers := Answers
  mayDo := Attempt.mayDo
  after := Attempt.after
  maySend := (· ≠ .refused)
  mayCommit := (· ≠ .refused)
  committed := Attempt.ended
  rolledBack := Attempt.ended
  mayFail := fun _ _ => True

/-- Statements that only read teach nothing about receipts, and are always allowed. -/
lemma Attempt.of_reads {o : Stmt} (h : o.reads = true) (k : Attempt) :
    Attempt.mayDo o k ∧ ∀ r, Attempt.after o r k = k := by
  cases k with
  | finished r =>
    have hwrites := Stmt.writes_of_reads h
    cases o <;> first
      | exact absurd h Bool.false_ne_true
      | exact ⟨⟨by rw [hwrites]; exact List.not_mem_nil, by rw [hwrites]; exact List.not_mem_nil,
          nofun⟩, fun _ => rfl⟩
  | _ =>
    cases o <;> first
      | exact absurd h Bool.false_ne_true
      | exact ⟨trivial, fun _ => rfl⟩
      | exact ⟨rfl, fun _ => rfl⟩

/-- Clients' statements teach nothing about receipts. -/
lemma Attempt.of_clients {o : Stmt} (h : o.ForClients) :
    Attempt.mayDo o .free ∧ ∀ r, Attempt.after o r .free = .free := by
  cases o <;> first
    | exact ⟨trivial, fun _ => rfl⟩
    | exact ⟨h, fun _ => rfl⟩
    | exact False.elim h

/-- While a session works on no receipt, everything but statements is allowed. -/
lemma receiptTracker_idle : receiptTracker.Idle .free where
  mayFail _ := trivial
  maySend := nofun
  mayCommit := nofun
  committed := rfl
  rolledBack := rfl

/-! ## Every request keeps to this -/

section Rules

/-- The meaning of the stages for a session that works on a receipt. -/
def Attempt.inStage : Stage → Attempt → Prop
  | .void, k => k = .refused
  | .claiming now r, k => k = .selected now r
  | .finishing r, k | .finishingLocked r _, k | .recovering r _ _, k | .drained r, k =>
    k = .finished r
  | .idle, k | .ended, k => k = .free
  | _, k => k = .free ∨ ∃ r, k = .finished r

/-- A transaction that may be committed was not refused, and leaves its session free. -/
lemma Attempt.of_settled {φ : Stage} (hφ : φ.Settled) {k : Attempt} (h : Attempt.inStage φ k) :
    k ≠ .refused ∧ k.ended = .free := by
  have hcases : k = .free ∨ ∃ r, k = .finished r := by
    cases hφ <;> first | exact h | exact .inl h | exact .inr ⟨_, h⟩
  rcases hcases with rfl | ⟨r, rfl⟩
  · exact ⟨nofun, rfl⟩
  · exact ⟨nofun, rfl⟩

/-- Drafts and conversations may be saved while a receipt is finished, or none is worked on. -/
lemma Attempt.of_saves {o : Stmt} {k : Attempt} (h : k = .free ∨ ∃ r, k = .finished r)
    (ho : (∃ d, o = .updateDraft d) ∨ ∃ c, o = .saveConversation c) :
    Attempt.mayDo o k ∧ ∀ x, Attempt.after o x k = k := by
  rcases h with rfl | ⟨r, rfl⟩ <;> rcases ho with ⟨d, rfl⟩ | ⟨c, rfl⟩
  · exact ⟨trivial, fun _ => rfl⟩
  · exact ⟨trivial, fun _ => rfl⟩
  · exact ⟨⟨nofun, nofun, nofun⟩, fun _ => rfl⟩
  · exact ⟨⟨nofun, nofun, nofun⟩, fun _ => rfl⟩

/-- A statement after which the session knows what it knew. -/
lemma receiptTracker_stmt {o : Stmt} {k : Attempt} {P : o.Resp → Attempt → Prop}
    (h : Attempt.mayDo o k ∧ ∀ x, Attempt.after o x k = k) (hP : ∀ r, Answers o r → P r k) :
    receiptTracker.logic.stmt o k P := by
  refine ⟨h.1, fun r hr => ?_⟩
  show P r (Attempt.after o r k)
  rw [h.2 r]
  exact hP r hr

variable [PythonRuntime]

/-- The worker keeps to what a session may do with receipts. -/
def receiptRules : WorkerRules Attempt where
  logic := receiptTracker.logic
  inStage := Attempt.inStage
  raises _ _ := trivial
  sends {o k P} h hP := by
    obtain rfl : k = .free := h
    exact ⟨nofun, hP⟩
  reads {φ o k P} ho h hP := receiptTracker_stmt (Attempt.of_reads ho k) fun r hr => hP r k hr h
  commits {φ k P} hφ h hP := ⟨(Attempt.of_settled hφ h).1, hP _ (Attempt.of_settled hφ h).2⟩
  rollbacks _ hP := hP _
  revises {c d d₁ d₂ k P} h _ hP := receiptTracker_stmt (Attempt.of_saves h (.inl ⟨_, rfl⟩))
    fun _ _ => hP k h
  saves {c d d' c' k P} h _ _ _ hP := receiptTracker_stmt (Attempt.of_saves h (.inr ⟨_, rfl⟩))
    fun _ _ => hP k h
  settles h _ := h
  trusted _ _ := True
  resumes h := h
  books {o k P} ho h hP := by
    obtain rfl : k = .free := h
    refine receiptTracker_stmt ?_ fun r hr => hP r _ hr rfl
    cases ho <;> exact ⟨trivial, fun _ => rfl⟩
  selects {now k P} h hsome hnone := by
    obtain rfl : k = .free := h
    refine ⟨trivial, fun r _ => ?_⟩
    cases r with
    | none => exact hnone _ rfl
    | some r => exact hsome r _ rfl
  claimsReceipt {now r a r' k P} h hclaim hP := by
    obtain rfl : k = .selected now r := h
    exact ⟨⟨a, hclaim⟩, fun _ _ => hP _ rfl⟩
  finishesReceipt {r k P} h hr _ htrue hfalse := by
    obtain rfl : k = .free := h
    refine ⟨hr, fun current _ => ?_⟩
    cases current with
    | true => exact htrue _ rfl
    | false => exact hfalse _ rfl
  locksFinishing {r now k P} h hP := by
    obtain rfl : k = .finished r := h
    exact receiptTracker_stmt ⟨⟨nofun, nofun, nofun⟩, fun _ => rfl⟩ fun c hc => hP c _ hc rfl
  recovers {r c k P} h hsome hnone := by
    obtain rfl : k = .finished r := h
    refine receiptTracker_stmt ⟨⟨nofun, nofun, nofun⟩, fun _ => rfl⟩ fun x hx => ?_
    cases hopen : x.filter CaptureDraft.isOpen with
    | none => exact hnone x _ hopen rfl
    | some d =>
      obtain ⟨rfl, ho⟩ := Option.filter_eq_some_iff.mp hopen
      exact hsome d _ (hx d rfl) ho rfl
  stores {φ r x k P} hφ hr ha h hP := by
    obtain rfl : k = .finished r := by cases hφ <;> exact h
    exact receiptTracker_stmt ⟨⟨hr, ha⟩, fun _ => rfl⟩ fun _ _ => hP _ h
  applies {r c d d' k P} h _ _ hP := by
    obtain rfl : k = .finished r := h
    exact receiptTracker_stmt (Attempt.of_saves (.inr ⟨r, rfl⟩) (.inl ⟨_, rfl⟩))
      fun _ _ => hP _ (.inr ⟨r, rfl⟩)

/-- Every request keeps to what a session may do with receipts. -/
lemma Request.wp_receipts (q : Request) :
    q.program.wp receiptTracker.logic (fun _ _ => True) .free := by
  by_cases hq : q = .work
  · rw [hq]
    exact wp_bind_of (receiptRules.wp_processNext rfl fun _ _ => trivial) fun _ _ _ => trivial
  · exact wp_mono _ (fun _ _ _ => trivial) (Tracker.wp_of_uses receiptTracker_idle
      (fun o ho => Attempt.of_clients ho) _ (Request.wp_uses hq))

end Rules

/-! ## How a receipt may change -/

namespace ReceiptRow

/-- A row of `receipts` as it is kept: the CHECK constraints hold, and a receipt without its image
has no Telegram file and is not being processed. -/
structure Valid (row : ReceiptRow) : Prop where
  attempt : row.receipt.state = .queued ↔ row.receipt.attemptId = none
  lease : row.receipt.state = .processing ↔ row.receipt.leaseExpiresAt.isSome = true
  removed : row.receipt.imageRemovedAt.isSome = true →
    row.telegramFileId = none ∧ row.receipt.state ≠ .processing

/-- How a row may go on. -/
structure Advances (row row' : ReceiptRow) : Prop where
  /-- A receipt that was finished, or lost its image, has its last attempt. -/
  ended : row.receipt.isFinished = true ∨ row.receipt.imageRemovedAt.isSome = true →
    row'.receipt.state = row.receipt.state ∧ row'.receipt.attemptId = row.receipt.attemptId ∧
      row'.receipt.leaseExpiresAt = row.receipt.leaseExpiresAt
  /-- An image that was removed stays removed. -/
  removed : ∀ t, row.receipt.imageRemovedAt = some t → row'.receipt.imageRemovedAt = some t
  started : row.receipt.attemptId.isSome = true → row'.receipt.attemptId.isSome = true
  /-- A lease is the same attempt's, or begins when the one before has expired. -/
  lease : ∀ l l', row.receipt.leaseExpiresAt = some l → row'.receipt.leaseExpiresAt = some l' →
    row'.receipt.attemptId = row.receipt.attemptId ∧ l' = l ∨ l + receiptLease ≤ l'

/-- How the row with an id may go on: it is never deleted. -/
def Progress : Option ReceiptRow → Option ReceiptRow → Prop
  | none, y => ∀ row ∈ y, row.Valid
  | some row, y => ∃ row', y = some row' ∧ (row.Valid → row'.Valid ∧ row.Advances row')

variable {row row' : ReceiptRow}

/-- A receipt has ended, is queued or has a lease. -/
lemma Valid.cases (h : row.Valid) : row.receipt.isFinished = true ∨
    row.receipt.attemptId = none ∨ row.receipt.leaseExpiresAt.isSome = true := by
  cases hs : row.receipt.state with
  | queued => exact .inr (.inl (h.attempt.mp hs))
  | processing => exact .inr (.inr (h.lease.mp hs))
  | _ => exact .inl (by simp [Receipt.isFinished, hs])

/-- A finished receipt has no lease. -/
lemma Valid.lease_eq_none (h : row.Valid) (hf : row.receipt.isFinished = true) :
    row.receipt.leaseExpiresAt = none := by
  have hne : row.receipt.state ≠ .processing := by
    intro hs
    simp [Receipt.isFinished, hs] at hf
  have hnot : ¬ row.receipt.leaseExpiresAt.isSome = true := fun hl => hne (h.lease.mpr hl)
  simpa using hnot

lemma Advances.refl : row.Advances row where
  ended _ := ⟨rfl, rfl, rfl⟩
  removed _ h := h
  started h := h
  lease _ _ h h' := .inl ⟨rfl, Option.some.inj (h'.symm.trans h)⟩

/-- Progress goes on.

**Proof sketch.** What has ended stays as it was, by both steps. A lease after the second step is
compared with the one in between; if there is none, the receipt has been finished in between, and
gets no lease again. -/
lemma Advances.trans {row'' : ReceiptRow} (hv : row.Valid) (hv' : row'.Valid)
    (h : row.Advances row') (h' : row'.Advances row'') : row.Advances row'' where
  ended hend := by
    obtain ⟨hs, ha, hl⟩ := h.ended hend
    have hend' : row'.receipt.isFinished = true ∨ row'.receipt.imageRemovedAt.isSome = true := by
      rcases hend with hf | hr
      · exact .inl (by simpa [Receipt.isFinished, hs] using hf)
      · obtain ⟨t, ht⟩ := Option.isSome_iff_exists.mp hr
        exact .inr (Option.isSome_iff_exists.mpr ⟨t, h.removed t ht⟩)
    obtain ⟨hs', ha', hl'⟩ := h'.ended hend'
    exact ⟨hs'.trans hs, ha'.trans ha, hl'.trans hl⟩
  removed t ht := h'.removed t (h.removed t ht)
  started hs := h'.started (h.started hs)
  lease l l'' hl hl'' := by
    have hstarted : row.receipt.attemptId.isSome = true := by
      have hs : row.receipt.state = .processing := hv.lease.mpr (by rw [hl]; rfl)
      have hne : row.receipt.attemptId ≠ none := by
        rw [ne_eq, ← hv.attempt, hs]
        nofun
      exact Option.isSome_iff_ne_none.mpr hne
    have hpos : (0 : ℤ) ≤ receiptLease := by decide
    cases hl' : row'.receipt.leaseExpiresAt with
    | some l' =>
      rcases h.lease l l' hl hl' with ⟨ha, rfl⟩ | hle
      · rcases h'.lease l' l'' hl' hl'' with ⟨ha', rfl⟩ | hle'
        · exact .inl ⟨ha'.trans ha, rfl⟩
        · exact .inr hle'
      · rcases h'.lease l' l'' hl' hl'' with ⟨-, rfl⟩ | hle'
        · exact .inr hle
        · exact .inr (le_trans hle (le_trans (le_add_of_nonneg_right hpos) hle'))
    | none =>
      -- Between the two leases the receipt was finished, and then it has no lease again.
      rcases hv'.cases with hf | ha | hsome
      · have hno := (h'.ended (.inl hf)).2.2
        rw [hl', hl''] at hno
        cases hno
      · have hsome := h.started hstarted
        rw [ha] at hsome
        cases hsome
      · rw [hl'] at hsome
        cases hsome

namespace Progress

lemma refl (x : Option ReceiptRow) : Progress x x := by
  cases x with
  | none => exact fun _ h => by cases h
  | some row => exact ⟨row, rfl, fun hv => ⟨hv, .refl⟩⟩

lemma trans {x y z : Option ReceiptRow} (h : Progress x y) (h' : Progress y z) : Progress x z := by
  cases x with
  | none =>
    cases y with
    | none => exact h'
    | some row =>
      obtain ⟨row', rfl, hadv⟩ := h'
      rintro _ ⟨⟩
      exact (hadv (h row rfl)).1
  | some row =>
    obtain ⟨row', rfl, hadv⟩ := h
    obtain ⟨row'', rfl, hadv'⟩ := h'
    refine ⟨row'', rfl, fun hv => ?_⟩
    obtain ⟨hv', ha⟩ := hadv hv
    obtain ⟨hv'', ha'⟩ := hadv' hv'
    exact ⟨hv'', ha.trans hv hv' ha'⟩

/-- Rows that are kept stay so. -/
lemma valid {x y : Option ReceiptRow} (h : Progress x y) (hx : ∀ row ∈ x, row.Valid) :
    ∀ row ∈ y, row.Valid := by
  cases x with
  | none => exact h
  | some row =>
    obtain ⟨row', rfl, hadv⟩ := h
    rintro _ ⟨⟩
    exact (hadv (hx row rfl)).1

end Progress

end ReceiptRow

/-! ## What a statement makes of a receipt -/

section Rows

variable {row : ReceiptRow} {r r' : Receipt} {a : UUID} {now : Instant}

open ReceiptRow

/-- A claim takes a receipt that has its image, and whose lease has expired if it had one.

**Proof sketch.** What is claimable has its image, is not finished, and its lease, if it has one, is
over by the time of the claim, from which the new one counts. -/
lemma advances_claimed (hv : row.Valid) (h : row.receipt.claim a now receiptLease = .ok r') :
    (Database.claimedReceipt row r').Valid ∧ row.Advances (Database.claimedReceipt row r') := by
  obtain ⟨hclaimable, -, rfl⟩ := Receipt.claim_eq_ok h
  obtain ⟨hkept, hready⟩ := Receipt.isClaimable_iff.mp hclaimable
  refine ⟨⟨by simp [Database.claimedReceipt], by simp [Database.claimedReceipt],
    fun hr => ?_⟩, ⟨fun hend => ?_, fun _ ht => ht, fun _ => rfl, fun l l' hl hl' => ?_⟩⟩
  · have hr' : row.receipt.imageRemovedAt.isSome = true := hr
    rw [hkept] at hr'
    cases hr'
  · rcases hend with hf | hr
    · rcases hready with hs | ⟨hs, -⟩ <;> simp [Receipt.isFinished, hs] at hf
    · rw [hkept] at hr
      cases hr
  · obtain rfl : now + receiptLease = l' := Option.some.inj hl'
    rcases hready with hs | ⟨-, t, ht, hle⟩
    · have hp := hv.lease.mpr (by rw [hl]; rfl)
      rw [hs] at hp
      cases hp
    · obtain rfl : l = t := Option.some.inj (hl.symm.trans ht)
      exact .inr (Int.add_le_add_right hle receiptLease)

/-- A finish ends the attempt of a receipt that is being processed. -/
lemma advances_finished (hs : row.receipt.state = .processing) (hf : r.isFinished = true)
    (hcheck : Database.checkReceipt (Database.finishedReceipt row r).receipt = .ok ())
    (hv : row.Valid) :
    (Database.finishedReceipt row r).Valid ∧ row.Advances (Database.finishedReceipt row r) := by
  obtain ⟨hatt, hlease⟩ := checkReceipt_eq_ok.mp hcheck
  have hkept : ¬ row.receipt.imageRemovedAt.isSome = true := fun hr => (hv.removed hr).2 hs
  refine ⟨⟨hatt, hlease, fun hr => absurd hr hkept⟩, ⟨fun hend => ?_, fun _ ht => ht, id,
    fun l l' _ hl' => ?_⟩⟩
  · rcases hend with hf' | hr
    · simp [Receipt.isFinished, hs] at hf'
    · exact absurd hr hkept
  · -- A finished receipt has no lease.
    have hp : r.state = .processing := hlease.mpr (Option.isSome_iff_exists.mpr ⟨l', hl'⟩)
    simp [Receipt.isFinished, hp] at hf

/-- A delay notice is noted and nothing else. -/
lemma advances_noticed (hv : row.Valid) :
    (Database.noticedReceipt now row).Valid ∧ row.Advances (Database.noticedReceipt now row) :=
  ⟨⟨hv.attempt, hv.lease, hv.removed⟩, ⟨fun _ => ⟨rfl, rfl, rfl⟩, fun _ ht => ht, id,
    Advances.refl.lease⟩⟩

/-- Retention takes the image of a receipt that has it and is not being processed. -/
lemma advances_cleared (hnone : row.receipt.imageRemovedAt = none)
    (hs : row.receipt.state ≠ .processing) (hv : row.Valid) :
    (Database.clearedReceipt now row).Valid ∧ row.Advances (Database.clearedReceipt now row) := by
  refine ⟨⟨hv.attempt, hv.lease, fun _ => ⟨rfl, hs⟩⟩, ⟨fun _ => ⟨rfl, rfl, rfl⟩, fun t ht => ?_, id,
    Advances.refl.lease⟩⟩
  rw [hnone] at ht
  cases ht

end Rows

section Statements

variable {o : Stmt} {busy : Key → Bool} {db : Database} {r : o.Resp} {ws : List Write}
  {k : Attempt}

open ReceiptRow

/-- A write of one row lets the other rows be. -/
lemma progress_of_write {row : ReceiptRow} (row' : ReceiptRow) (hrow : db.receipts.find row'.receipt.id = some row)
    (h : row.Valid → row'.Valid ∧ row.Advances row') (id : UUID) :
    Progress (db.receipts.find id) ((postgres.applyAll [.receipt row'] db).receipts.find id) := by
  show Progress _ ((db.apply (.receipt row')).receipts.find id)
  rw [Database.find_receipt_apply]
  dsimp only
  split_ifs with hid
  · rw [hid, hrow]
    exact ⟨row', rfl, h⟩
  · exact .refl _

/-- **Statements and receipts.** A statement that a session may execute makes the receipts
progress, if a receipt that was selected for a claim is still as it was.

**Proof sketch.** By the statement. A receipt is created as received, one that was selected is
claimed as it was read, and a finish, a notice or a deletion of receipt data each keep what progress
asks for. -/
lemma progress_of_stmt (hmay : Attempt.mayDo o k) (h : evaluate o busy db = .ok (r, ws))
    (hselected : ∀ now r₀, k = .selected now r₀ →
      ∃ row, db.receipts.find r₀.id = some row ∧ row.receipt = r₀) (id : UUID) :
    Progress (db.receipts.find id) ((postgres.applyAll ws db).receipts.find id) := by
  by_cases hwrites : .receipts ∈ o.writes
  swap
  · rw [receipts_applyAll (table_ne_of_not_mem h hwrites)]
    exact .refl _
  have hfinished : ∀ r, k = .finished r → ∃ x, o = .saveResult x := by
    rintro r rfl
    cases o <;> first | exact ⟨_, rfl⟩ | exact absurd hwrites hmay.1
  cases o
  case createReceipt receipt file =>
    obtain ⟨hnone, -, rfl⟩ := Database.createReceipt_eq_ok h
    cases k with
    | free =>
      obtain ⟨_, _, _, rfl⟩ := hmay
      show Progress _ ((db.apply (.receipt _)).receipts.find id)
      rw [Database.find_receipt_apply]
      dsimp only
      split_ifs with hid
      · rw [hid, hnone]
        rintro _ ⟨⟩
        exact ⟨by simp [Receipt.receive], by simp [Receipt.receive], by simp [Receipt.receive]⟩
      · exact .refl _
    | finished r₀ =>
      obtain ⟨_, h⟩ := hfinished r₀ rfl
      cases h
    | _ => cases hmay
  case updateClaimed receipt =>
    cases k with
    | selected now r₀ =>
      obtain ⟨a, hclaim⟩ := hmay
      obtain ⟨row, hrow, rfl⟩ := hselected now r₀ rfl
      have hid : receipt.id = row.receipt.id := by
        obtain ⟨-, -, rfl⟩ := Receipt.claim_eq_ok hclaim
        rfl
      rcases Database.updateClaimed_eq_ok h with ⟨hnone, -⟩ | ⟨row', hrow', rfl⟩
      · rw [hid, hrow] at hnone
        cases hnone
      rw [hid, hrow] at hrow'
      obtain rfl : row = row' := Option.some.inj hrow'
      exact progress_of_write (Database.claimedReceipt row receipt) hrow (fun hv => advances_claimed hv hclaim) id
    | finished r₀ =>
      obtain ⟨_, h⟩ := hfinished r₀ rfl
      cases h
    | _ => cases hmay
  case claimDelayNotices now before limit =>
    have hws : (db.claimDelayNotices busy now before limit).2 = ws :=
      (Prod.mk.inj (Except.ok.inj h)).2
    rw [← hws, Database.find_receipt_noticed]
    cases db.receipts.find id with
    | none => exact .refl _
    | some row =>
      refine ⟨_, rfl, fun hv => ?_⟩
      dsimp only
      split_ifs
      · exact advances_noticed hv
      · exact ⟨hv, .refl⟩
  case saveFinished receipt =>
    rcases Database.saveFinished_eq_ok h with ⟨-, rfl⟩ | ⟨row, hcur, hrow, -, -, hs, rfl⟩
    · exact .refl _
    have hfin : receipt.isFinished = true := by
      cases k with
      | free => exact hmay
      | finished r₀ =>
      obtain ⟨_, h⟩ := hfinished r₀ rfl
      cases h
      | _ => cases hmay
    have hfind : db.receipts.find row.receipt.id = some row :=
      (congrArg _ (Table.key_of_find hrow)).trans hrow
    exact progress_of_write (Database.finishedReceipt row receipt) hfind
      (advances_finished hs hfin (Database.checks_of_saveFinished h hrow hcur)) id
  case deleteReceiptData cutoff now size =>
    have hws : (db.deleteReceiptData busy cutoff now size).2 = ws :=
      (Prod.mk.inj (Except.ok.inj h)).2
    rw [← hws]
    show Progress _ ((db.cleared busy cutoff now size).receipts.find id)
    rw [Database.find_receipt_cleared]
    cases db.receipts.find id with
    | none => exact .refl _
    | some row =>
      refine ⟨_, rfl, fun hv => ?_⟩
      dsimp only
      split_ifs with hmem
      · obtain ⟨-, hnone, hs, -⟩ := Database.mem_clearedReceipts hmem
        exact advances_cleared hnone hs hv
      · exact ⟨hv, .refl⟩
  all_goals exact absurd hwrites (by simp [Stmt.writes])

end Statements

end MintFlow
