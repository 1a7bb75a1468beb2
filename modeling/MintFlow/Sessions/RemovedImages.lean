import MintFlow.Sessions.ReceiptQueue

set_option relaxedAutoImplicit false
set_option autoImplicit false

/-!
# Removed images in every run

Only retention takes the image of a receipt away, when the receipt is not being processed and its
draft has ended. From then on the receipt has no image time but that one, no Telegram file to load it
from again, and no worker claims it.

## Main definitions

* `MintFlow.Database.imageRemovedAt` — when an image was removed.
* `MintFlow.RemovedBy` — how a statement of retention found and left a receipt.

## Main results

* `MintFlow.removedBy_of_stmt` — only the deletion of receipt data removes an image.
* `MintFlow.removed_images` — **Removed images** stay removed.
-/

namespace MintFlow

open Transact Transact.Prog

/-- When the image of a receipt was removed, if it was. -/
def Database.imageRemovedAt (db : Database) (receiptId : UUID) : Option Instant :=
  (db.receipts.find receiptId).bind fun row => row.receipt.imageRemovedAt

/-- What a statement that removes the image of a receipt found and left: the receipt was not being
processed and its draft had ended by the cutoff; the image, the file and the results are gone. -/
structure RemovedBy (cutoff now : Instant) (receiptId : UUID) (db db' : Database) : Prop where
  found : ∃ row, db.receipts.find receiptId = some row ∧ row.receipt.state ≠ .processing
  ended : ∃ d ∈ db.drafts, d.receiptId = some receiptId ∧
    (d.state = .confirmed ∨ d.state = .cancelled ∨ d.state = .expired) ∧
    d.confirmedAt.getD d.modifiedAt ≤ cutoff
  marked : db'.imageRemovedAt receiptId = some now
  image : db'.images.find receiptId = none
  results : ∀ x ∈ db'.results, x.receiptId ≠ receiptId

/-- The images of the cleared receipts are gone. -/
lemma find_imagesWithout {t : Table ReceiptImage.receiptId} {rows : List ReceiptRow} {id : UUID} :
    (Database.imagesWithout t rows).find id =
      if id ∈ rows.map (fun row => row.receipt.id) then none else t.find id := by
  induction rows generalizing t with
  | nil => rfl
  | cons row rows ih =>
    show (Database.imagesWithout (t.discard _) rows).find id = _
    rw [ih, Table.find_discard_key]
    by_cases hid : id = row.receipt.id
    · simp [hid]
    · simp [hid]

/-- A row that is found by the id of another one is that row. -/
lemma eq_of_find_receipt {db : Database} {row row' : ReceiptRow} {id id' : UUID}
    (hrow : db.receipts.find id = some row) (hrow' : db.receipts.find id' = some row')
    (hid : id = row'.receipt.id) : row' = row := by
  have hid' := Table.key_of_find hrow'
  rw [← hid', ← hid, hrow] at hrow'
  exact (Option.some.inj hrow').symm

/-- A receipt that the deletion of receipt data clears was found as it has to be, and is left so.

**Proof sketch.** The row that is cleared is not in processing, and its draft has ended by the
cutoff. The statement sets its time, and drops its image and results. -/
lemma removedBy_of_mem {db : Database} {busy : Key → Bool} {cutoff now : Instant} {size : ℕ}
    {row : ReceiptRow} (hmem : row ∈ db.clearedReceipts busy cutoff size) :
    RemovedBy cutoff now row.receipt.id db (db.cleared busy cutoff now size) := by
  obtain ⟨hrow, -, hs, d, t, hd, hend, hle⟩ := Database.mem_clearedReceipts hmem
  obtain ⟨hdraft, hreceipt⟩ := Database.mem_of_draftOfReceipt hd
  obtain ⟨hstate, htime⟩ := Option.ite_none_right_eq_some.mp hend
  have hfind : db.receipts.find row.receipt.id = some row := Table.find_of_mem hrow
  refine ⟨⟨row, hfind, hs⟩, ⟨d, hdraft, hreceipt, hstate, ?_⟩, ?_, ?_, ?_⟩
  · rw [Option.some.inj htime]
    exact hle
  · unfold Database.imageRemovedAt
    rw [Database.find_receipt_cleared, hfind, Option.map_some, if_pos hmem]
    rfl
  · rw [Database.cleared_eq]
    show (Database.imagesWithout db.images _).find row.receipt.id = none
    rw [find_imagesWithout]
    exact if_pos (List.mem_map_of_mem hmem)
  · rw [Database.cleared_eq]
    intro x hx
    exact (Database.mem_resultsWithout.mp hx).2 row hmem

/-- **Only the deletion of receipt data** drops a row of images.

**Proof sketch.** Only two statements write images. A new one drops none, and the deletion of
receipt data drops those of the receipts it clears (`removedBy_of_mem`). -/
lemma removedBy_of_dropped {o : Stmt} {busy : Key → Bool} {db : Database} {r : o.Resp}
    {ws : List Write} {id : UUID} (h : evaluate o busy db = .ok (r, ws))
    (hthere : (db.images.find id).isSome = true)
    (hgone : (postgres.applyAll ws db).images.find id = none) :
    ∃ cutoff now size, o = .deleteReceiptData cutoff now size ∧
      RemovedBy cutoff now id db (postgres.applyAll ws db) := by
  by_cases hwrites : .receiptImages ∈ o.writes
  swap
  · rw [images_applyAll (table_ne_of_not_mem h hwrites)] at hgone
    rw [hgone] at hthere
    cases hthere
  cases o
  case createImage image =>
    obtain ⟨-, rfl⟩ := Database.createImage_eq_ok h
    have hfind : (db.apply (.image image)).images.find id = none := hgone
    rw [Database.find_image_apply] at hfind
    dsimp only at hfind
    split_ifs at hfind
    rw [hfind] at hthere
    cases hthere
  case deleteReceiptData cutoff now size =>
    obtain ⟨-, rfl⟩ := Prod.mk.inj (Except.ok.inj h)
    have hcleared : (db.cleared busy cutoff now size).images.find id = none := hgone
    rw [Database.cleared_eq] at hcleared
    have hfind : (Database.imagesWithout db.images (db.clearedReceipts busy cutoff size)).find id =
        none := hcleared
    rw [find_imagesWithout] at hfind
    split_ifs at hfind with hmem
    · obtain ⟨row, hrow, rfl⟩ := List.mem_map.mp hmem
      exact ⟨cutoff, now, size, rfl, removedBy_of_mem hrow⟩
    · rw [hfind] at hthere
      cases hthere
  all_goals exact absurd hwrites (by simp [Stmt.writes])

/-- **Only the deletion of receipt data** removes an image.

**Proof sketch.** By the statement. A row written on its own is new, or keeps the time at which its
image was removed; of those that write many, the claim of notices does, and the deletion of receipt
data sets it for the rows it clears. -/
lemma removedBy_of_stmt {o : Stmt} {busy : Key → Bool} {db : Database} {r : o.Resp}
    {ws : List Write} {id : UUID} {row : ReceiptRow} (h : evaluate o busy db = .ok (r, ws))
    (hrow : db.receipts.find id = some row) (hkept : row.receipt.imageRemovedAt = none)
    (hremoved : ((postgres.applyAll ws db).imageRemovedAt id).isSome = true) :
    ∃ cutoff now size, o = .deleteReceiptData cutoff now size ∧
      RemovedBy cutoff now id db (postgres.applyAll ws db) := by
  have hsame : ∀ row' : ReceiptRow, (postgres.applyAll ws db).receipts.find id = some row' →
      row'.receipt.imageRemovedAt = none → False := by
    intro row' hrow' hnone
    unfold Database.imageRemovedAt at hremoved
    rw [hrow', Option.bind_some, hnone] at hremoved
    cases hremoved
  by_cases hwrites : .receipts ∈ o.writes
  swap
  · rw [← receipts_applyAll (table_ne_of_not_mem h hwrites)] at hrow
    exact absurd hkept (hsame row hrow)
  -- A write of one row keeps its image.
  have hone : ∀ row' : ReceiptRow, ws = [.receipt row'] →
      (id = row'.receipt.id → row'.receipt.imageRemovedAt = none) → False := by
    rintro row' rfl himage
    have hfind : (postgres.applyAll [.receipt row'] db).receipts.find id =
        if id = row'.receipt.id then some row' else db.receipts.find id :=
      Database.find_receipt_apply db (.receipt row') id
    by_cases hid : id = row'.receipt.id
    · rw [if_pos hid] at hfind
      exact hsame row' hfind (himage hid)
    · rw [if_neg hid, hrow] at hfind
      exact hsame row hfind hkept
  cases o
  case createReceipt receipt file =>
    obtain ⟨hnone, -, hws⟩ := Database.createReceipt_eq_ok h
    refine (hone _ hws fun hid => ?_).elim
    rw [← hid, hrow] at hnone
    cases hnone
  case updateClaimed receipt =>
    rcases Database.updateClaimed_eq_ok h with ⟨-, hws⟩ | ⟨row', hrow', hws⟩
    · rw [hws] at hsame
      exact (hsame row hrow hkept).elim
    · refine (hone _ hws fun hid => ?_).elim
      obtain rfl := eq_of_find_receipt hrow hrow' hid
      exact hkept
  case claimDelayNotices now before limit =>
    have hws : (db.claimDelayNotices busy now before limit).2 = ws :=
      (Prod.mk.inj (Except.ok.inj h)).2
    have hfind : (postgres.applyAll ws db).receipts.find id = some
        (if row ∈ db.overdueReceipts busy before limit then Database.noticedReceipt now row
          else row) := by
      rw [← hws, Database.find_receipt_noticed, hrow, Option.map_some]
    refine (hsame _ hfind ?_).elim
    split_ifs <;> exact hkept
  case saveFinished receipt =>
    rcases Database.saveFinished_eq_ok h with ⟨-, hws⟩ | ⟨row', -, hrow', -, -, -, hws⟩
    · rw [hws] at hsame
      exact (hsame row hrow hkept).elim
    · refine (hone _ hws fun hid => ?_).elim
      obtain rfl := eq_of_find_receipt hrow hrow' hid
      exact hkept
  case deleteReceiptData cutoff now size =>
    obtain ⟨-, rfl⟩ := Prod.mk.inj (Except.ok.inj h)
    have hcleared : (db.cleared busy cutoff now size).receipts.find id =
        some (if row ∈ db.clearedReceipts busy cutoff size then Database.clearedReceipt now row
          else row) := by
      rw [Database.find_receipt_cleared, hrow, Option.map_some]
    by_cases hmem : row ∈ db.clearedReceipts busy cutoff size
    swap
    · rw [if_neg hmem] at hcleared
      exact (hsame row hcleared hkept).elim
    exact ⟨cutoff, now, size, rfl, Table.key_of_find hrow ▸ removedBy_of_mem hmem⟩
  all_goals exact absurd hwrites (by simp [Stmt.writes])

/-! ## In every run -/

variable {ι : Type} [DecidableEq ι] [PythonRuntime]

/-- **Removed images.** Take any database whose receipts are as they are kept, any number of requests,
updates, rounds of the worker and batches of retention that run on it at the same time, and any of
them stopped at any point.

A statement that removes the image of a receipt, be it the mark or the row of the image, is the
deletion of receipt data: it finds that the receipt is not being processed and that its draft was
confirmed, cancelled or expired by the cutoff, and with the mark it deletes the image and the results.
A receipt whose image was removed, in a
committed state, has no Telegram file and is not being processed; it stays like that, with the time
of the removal, the state and the attempt it had, and no worker claims it.

**Proof sketch.** The first part is about one statement (`removedBy_of_stmt`,
`removedBy_of_dropped`). For the second, the image of the receipt is gone with its time set, and the
row only progresses from there, so it is neither claimed nor changed in state or attempt again. -/
theorem removed_images (db : Database) (hdb : ∀ row ∈ db.receipts, row.Valid)
    (requests : ι → Request) (tapes : ι → Stream' Reading) {ls : List (Label ι)} {c : System ι}
    (h : run postgres (started db requests tapes) ls = some c) :
    (∀ i o r c', step postgres c (.go i) = some c' → c'.log = c.log ++ [(i, .did o r)] →
      ∀ id, ((∃ row, (c.view postgres i).receipts.find id = some row ∧
          row.receipt.imageRemovedAt = none ∧
          ((c'.view postgres i).imageRemovedAt id).isSome = true) ∨
        ((c.view postgres i).images.find id).isSome = true ∧
          (c'.view postgres i).images.find id = none) →
        ∃ cutoff now size, o = .deleteReceiptData cutoff now size ∧
          RemovedBy cutoff now id (c.view postgres i) (c'.view postgres i)) ∧
    ∀ id row t, c.db.receipts.find id = some row → row.receipt.imageRemovedAt = some t →
      row.telegramFileId = none ∧ row.receipt.state ≠ .processing ∧
      ∀ ls' c', run postgres c ls' = some c' →
        (∃ row', c'.db.receipts.find id = some row' ∧ row'.receipt.imageRemovedAt = some t ∧
          row'.telegramFileId = none ∧ row'.receipt.state = row.receipt.state ∧
          row'.receipt.attemptId = row.receipt.attemptId) ∧
        ∀ i r c'', step postgres c' (.go i) = some c'' →
          c''.log = c'.log ++ [(i, .did (.updateClaimed r) ())] → r.id ≠ id := by
  have hkept : QueueKept c := (QueueKept.begin hdb requests tapes).reaches ⟨ls, h⟩
  refine ⟨fun i o r c' hstep hlog id hremoves => ?_, fun id row t hrow ht => ?_⟩
  · obtain ⟨-, ws, -, heval, hview⟩ := did_of_log (move_of_step hstep).2 hlog
    have hview' : c'.view postgres i = postgres.applyAll ws (c.view postgres i) := hview
    rw [hview'] at hremoves ⊢
    rcases hremoves with ⟨row, hrow, hnone, hremoved⟩ | ⟨hthere, hgone⟩
    · exact removedBy_of_stmt heval hrow hnone hremoved
    · exact removedBy_of_dropped heval hthere hgone
  · have hv := hkept.valid id row hrow
    obtain ⟨hfile, hs⟩ := hv.removed (by rw [ht]; rfl)
    refine ⟨hfile, hs, fun ls' c' h' => ?_⟩
    have hkept' := hkept.reaches ⟨ls', h'⟩
    have hprogress := hkept.progress ⟨ls', h'⟩ id
    rw [hrow] at hprogress
    obtain ⟨row', hrow', hadv⟩ := hprogress
    obtain ⟨hv', hadv⟩ := hadv hv
    have ht' := hadv.removed t ht
    obtain ⟨hs', ha', -⟩ := hadv.ended (.inr (by rw [ht]; rfl))
    refine ⟨⟨row', hrow', ht', (hv'.removed (by rw [ht']; rfl)).1, hs', ha'⟩,
      fun i r c'' hstep hlog hid => ?_⟩
    obtain ⟨hopen, hm⟩ := move_of_step hstep
    obtain ⟨f, -, hp, -, -⟩ := did_of_log hm hlog
    obtain ⟨-, hnone⟩ := hkept'.claimable hopen hp row' (by rw [hid]; exact hrow')
    rw [ht'] at hnone
    cases hnone

/-- The draft of the receipt was cancelled. -/
def cancelledDraft : CaptureDraft :=
  ⟨5, 7, .telegramReceipt, .cancelled, 1, none, none, some july29, some .default, none, none, none,
    none, none, none, 0, 0, none, some 4, none⟩

/-- A receipt with its image, whose draft was cancelled. -/
def Database.abandoned : Database := { Database.received with drafts := ⟨[cancelledDraft], by decide⟩ }

omit [PythonRuntime] in
/-- Retention removes the image of the receipt, and it stays removed. -/
theorem removed_images_abandoned :
    letI := PythonRuntime.ascii
    ∃ c, run postgres (started Database.abandoned (fun _ : ℕ => .deleteData 10 20 5)
        overtakingTapes) [.go 0, .go 0] = some c ∧ c.db.imageRemovedAt 4 = some 20 ∧
      ∀ ls' c', run postgres c ls' = some c' → ∃ row', c'.db.receipts.find 4 = some row' ∧
        row'.receipt.imageRemovedAt = some 20 ∧ row'.telegramFileId = none := by
  let _ := PythonRuntime.ascii
  have heval : (run postgres (started Database.abandoned (fun _ : ℕ => .deleteData 10 20 5)
      overtakingTapes) [.go 0, .go 0]).map (fun c => c.db.imageRemovedAt 4) = some (some 20) := by
    decide +kernel
  obtain ⟨c, hrun, hremoved⟩ := Option.map_eq_some_iff.mp heval
  have hdb : ∀ row ∈ Database.abandoned.receipts, row.Valid := by
    intro row hrow
    obtain rfl := List.mem_singleton.mp hrow
    exact ⟨by decide, by decide, by decide⟩
  obtain ⟨-, hlater⟩ := removed_images _ hdb _ _ hrun
  obtain ⟨row, hrow, ht⟩ := Option.bind_eq_some_iff.mp hremoved
  refine ⟨c, hrun, hremoved, fun ls' c' hrun' => ?_⟩
  obtain ⟨row', hrow', ht', hfile, -⟩ := ((hlater 4 row 20 hrow ht).2.2 ls' c' hrun').1
  exact ⟨row', hrow', ht', hfile⟩

end MintFlow
