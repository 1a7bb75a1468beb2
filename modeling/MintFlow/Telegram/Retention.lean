import MintFlow.Application.Alone

set_option relaxedAutoImplicit false
set_option autoImplicit false

/-!
# Retention

The two retention jobs that touch drafts, conversations and receipts, each its own transaction,
and what one batch of them does to the tables.

## Main definitions

* `MintFlow.expireDrafts`, `MintFlow.deleteReceiptData` — one batch of a job.

## Main results

* `MintFlow.Database.expired_eq`, `find_draft_expired`, `find_conversation_expired` — the expiry of
  abandoned drafts, row by row.
* `MintFlow.Database.cleared_eq`, `find_draft_cleared`, `find_receipt_cleared` — the deletion of
  receipt data, row by row.
-/

namespace MintFlow

open Transact Transact.Prog

/-! ## The jobs -/

/-- One batch of `expire_abandoned_drafts`, in its own transaction. -/
def expireDrafts (inactiveCutoff now : Instant) (batchSize : ℕ) : Program ℕ := do
  let count ← execute (.expireAbandonedDrafts inactiveCutoff now batchSize)
  commit
  return count

/-- One batch of `delete_receipt_data`, in its own transaction. -/
def deleteReceiptData (finishedCutoff now : Instant) (batchSize : ℕ) : Program ℕ := do
  let count ← execute (.deleteReceiptData finishedCutoff now batchSize)
  commit
  return count

namespace Database

variable {db : Database} {busy : Key → Bool} {cutoff now : Instant} {size : ℕ}

/-! ## Expiry -/

/-- An abandoned draft as the expiry leaves it. -/
def expiredDraft (now : Instant) (d : CaptureDraft) : CaptureDraft :=
  { d with state := .expired, modifiedAt := now }

/-- The abandoned drafts are open drafts of the table, each once. -/
lemma mem_abandonedDrafts {d : CaptureDraft} (h : d ∈ db.abandonedDrafts busy cutoff size) :
    d ∈ db.drafts ∧ d.isOpen = true ∧ d.modifiedAt ≤ cutoff ∧ busy (.draft d.id) = false := by
  have h' := (List.mem_insertionSort _).mp (List.mem_of_mem_take h)
  obtain ⟨hmem, hp⟩ := List.mem_filter.mp h'
  simp only [Bool.and_eq_true, decide_eq_true_eq, Bool.not_eq_true'] at hp
  exact ⟨hmem, hp.1.1, hp.1.2, hp.2⟩

/-- No draft is among the abandoned twice. -/
lemma nodup_abandonedDrafts : ((db.abandonedDrafts busy cutoff size).map CaptureDraft.id).Nodup := by
  have hperm := List.perm_insertionSort (fun a b => thenBy a.modifiedAt b.modifiedAt
    (fun x y => decide (x < y)) (decide (a.id ≤ b.id)) = true) (db.drafts.rows.filter fun d =>
      d.isOpen && decide (d.modifiedAt ≤ cutoff) && !busy (.draft d.id))
  refine List.Nodup.sublist ((List.take_sublist _ _).map _) ?_
  refine (hperm.map _).nodup_iff.mpr ?_
  exact db.drafts.nodup.sublist (List.filter_sublist.map _)

/-- The conversations that the expiry releases. -/
def releasedConversations (db : Database) (busy : Key → Bool) (cutoff : Instant) (size : ℕ) :
    List TelegramConversation :=
  db.conversations.rows.filter fun c => c.activeDraftId.any fun a =>
    (db.abandonedDrafts busy cutoff size).any fun d => decide (d.id = a)

/-- A conversation is released when it points at an abandoned draft. -/
lemma mem_releasedConversations {c : TelegramConversation} :
    c ∈ db.releasedConversations busy cutoff size ↔ c ∈ db.conversations ∧
      ∃ d ∈ db.abandonedDrafts busy cutoff size, c.activeDraftId = some d.id := by
  unfold releasedConversations
  rw [List.mem_filter]
  refine and_congr Iff.rfl ?_
  cases hc : c.activeDraftId with
  | none => simp
  | some a =>
    simp only [Option.any_some, List.any_eq_true, decide_eq_true_eq, Option.some.injEq]
    exact exists_congr fun d => and_congr Iff.rfl eq_comm

/-- The database after a batch of drafts expired. -/
def expired (db : Database) (busy : Key → Bool) (cutoff now : Instant) (size : ℕ) : Database :=
  postgres.applyAll (db.expireAbandonedDrafts busy cutoff now size).2 db

/-- **The expiry** rewrites the abandoned drafts and the conversations that point at them. -/
lemma expired_eq : db.expired busy cutoff now size = { db with
    drafts := db.drafts.upsertAll
      ((db.abandonedDrafts busy cutoff size).map (expiredDraft now))
    conversations := db.conversations.upsertAll
      ((db.releasedConversations busy cutoff size).map fun c => releaseConversation c now) } := by
  have h : (db.expireAbandonedDrafts busy cutoff now size).2 =
      ((db.abandonedDrafts busy cutoff size).map (expiredDraft now)).map Write.draft ++
      ((db.releasedConversations busy cutoff size).map fun c =>
        releaseConversation c now).map Write.conversation := by
    rw [List.map_map, List.map_map]
    rfl
  rw [expired, h, Backend.applyAll_append, applyAll_drafts, applyAll_conversations]

/-- A draft after the expiry. -/
lemma find_draft_expired (id : UUID) : (db.expired busy cutoff now size).drafts.find id =
    (db.drafts.find id).map fun d =>
      if d ∈ db.abandonedDrafts busy cutoff size then expiredDraft now d else d := by
  rw [expired_eq]
  exact Table.find_upsertAll_map (f := expiredDraft now) (fun _ => rfl) (fun d hd => (mem_abandonedDrafts hd).1)
    nodup_abandonedDrafts id

/-- A conversation after the expiry. -/
lemma find_conversation_expired (user : UUID) :
    (db.expired busy cutoff now size).conversations.find user =
      (db.conversations.find user).map fun c =>
        if c ∈ db.releasedConversations busy cutoff size then releaseConversation c now
        else c := by
  rw [expired_eq]
  exact Table.find_upsertAll_map (f := fun c => releaseConversation c now) (fun _ => rfl) (fun c hc => (mem_releasedConversations.mp hc).1)
    (db.conversations.nodup.sublist (List.filter_sublist.map _)) user

/-! ## Deletion of receipt data -/

/-- The receipts whose data is deleted. -/
def clearedReceipts (db : Database) (busy : Key → Bool) (cutoff : Instant) (size : ℕ) :
    List ReceiptRow := (db.finishedReceipts busy cutoff size).map Prod.fst

/-- A receipt without its image. -/
def clearedReceipt (now : Instant) (row : ReceiptRow) : ReceiptRow :=
  { row with
    receipt := { row.receipt with imageRemovedAt := some now, modifiedAt := now }
    telegramFileId := none }

/-- The pairs the deletion chooses from. -/
def finishedCandidates (db : Database) (busy : Key → Bool) (cutoff : Instant) :
    List (ReceiptRow × Instant) :=
  db.receipts.rows.filterMap fun row =>
    if row.receipt.imageRemovedAt.isNone && decide (row.receipt.state ≠ .processing) &&
        !busy (.receipt row.receipt.id) then
      (((db.draftOfReceipt row.receipt.id).bind finishedAt).filter fun t =>
        decide (t ≤ cutoff)).map fun t => (row, t)
    else none

/-- A receipt whose data is deleted belongs to a draft that finished. -/
lemma mem_clearedReceipts {row : ReceiptRow} (h : row ∈ db.clearedReceipts busy cutoff size) :
    row ∈ db.receipts ∧ row.receipt.imageRemovedAt = none ∧ row.receipt.state ≠ .processing ∧
      ∃ d t, db.draftOfReceipt row.receipt.id = some d ∧ finishedAt d = some t ∧ t ≤ cutoff := by
  obtain ⟨⟨row', t⟩, hp, rfl⟩ := List.mem_map.mp h
  have h' : (row', t) ∈ db.finishedCandidates busy cutoff :=
    (List.mem_insertionSort _).mp (List.mem_of_mem_take hp)
  obtain ⟨row, hmem, hrow⟩ := List.mem_filterMap.mp h'
  split_ifs at hrow with hc
  obtain ⟨t', ht, heq⟩ := Option.map_eq_some_iff.mp hrow
  obtain ⟨rfl, rfl⟩ := Prod.mk.inj heq
  obtain ⟨ht, hle⟩ := Option.filter_eq_some_iff.mp ht
  obtain ⟨d, hd, hf⟩ := Option.bind_eq_some_iff.mp ht
  simp only [Bool.and_eq_true, Option.isNone_iff_eq_none, decide_eq_true_eq] at hc
  exact ⟨hmem, hc.1.1, hc.1.2, d, t', hd, hf, of_decide_eq_true hle⟩

/-- No receipt is among those to clear twice. -/
lemma nodup_clearedReceipts :
    ((db.clearedReceipts busy cutoff size).map fun row => row.receipt.id).Nodup := by
  have hsub : ((db.finishedCandidates busy cutoff).map Prod.fst).Sublist db.receipts.rows := by
    unfold finishedCandidates
    induction db.receipts.rows with
    | nil => exact List.Sublist.slnil
    | cons row rows ih =>
      rw [List.filterMap_cons]
      split
      · exact ih.cons _
      · rename_i p hp
        split_ifs at hp
        obtain ⟨t, -, rfl⟩ := Option.map_eq_some_iff.mp hp
        exact ih.cons_cons _
  have hperm := List.perm_insertionSort (fun a b : ReceiptRow × Instant =>
    thenBy a.2 b.2 (fun x y => decide (x < y))
      (decide (a.1.receipt.id ≤ b.1.receipt.id)) = true) (db.finishedCandidates busy cutoff)
  refine List.Nodup.sublist (((List.take_sublist _ _).map _).map _) ?_
  exact ((hperm.map Prod.fst).map _).nodup_iff.mpr (db.receipts.nodup.sublist (hsub.map _))

/-- The drafts that lose their reference to a deleted result. -/
def unreferencedDrafts (db : Database) (busy : Key → Bool) (cutoff : Instant) (size : ℕ) :
    List CaptureDraft :=
  db.drafts.rows.filter fun d => d.recognitionResultId.any fun i =>
    (db.results.rows.filter fun r => (db.clearedReceipts busy cutoff size).any fun row =>
      decide (row.receipt.id = r.receiptId)).any fun r => decide (r.id = i)

/-- A draft without its reference to a result. -/
def unreferenced (d : CaptureDraft) : CaptureDraft := { d with recognitionResultId := none }

/-- The database after a batch of receipt data was deleted. -/
def cleared (db : Database) (busy : Key → Bool) (cutoff now : Instant) (size : ℕ) : Database :=
  postgres.applyAll (db.deleteReceiptData busy cutoff now size).2 db

/-- The images without those of some receipts. -/
def imagesWithout (t : Table ReceiptImage.receiptId) (rows : List ReceiptRow) :
    Table ReceiptImage.receiptId :=
  rows.foldl (fun t row => t.discard fun i => decide (i.receiptId = row.receipt.id)) t

/-- The results without those of some receipts. -/
def resultsWithout (t : Table RecognitionResult.id) (rows : List ReceiptRow) :
    Table RecognitionResult.id :=
  rows.foldl (fun t row => t.discard fun r => decide (r.receiptId = row.receipt.id)) t

/-- Taking away the results of receipts leaves those of all others. -/
lemma mem_resultsWithout {t : Table RecognitionResult.id} {rows : List ReceiptRow}
    {r : RecognitionResult} :
    r ∈ resultsWithout t rows ↔ r ∈ t ∧ ∀ row ∈ rows, r.receiptId ≠ row.receipt.id := by
  induction rows generalizing t with
  | nil => simp [resultsWithout]
  | cons row rows ih =>
    show r ∈ resultsWithout (t.discard _) rows ↔ _
    rw [ih, Table.mem_discard, List.forall_mem_cons, decide_eq_false_iff_not, and_assoc]

lemma applyAll_removeImages (rows : List ReceiptRow) (db : Database) :
    postgres.applyAll (rows.map fun row => Write.removeImage row.receipt.id) db =
      { db with images := imagesWithout db.images rows } := by
  induction rows generalizing db with
  | nil => rfl
  | cons row rows ih => exact ih _

lemma applyAll_removeResults (rows : List ReceiptRow) (db : Database) :
    postgres.applyAll (rows.map fun row => Write.removeResults row.receipt.id) db =
      { db with results := resultsWithout db.results rows } := by
  induction rows generalizing db with
  | nil => rfl
  | cons row rows ih => exact ih _

/-- **The deletion** removes images and results, rewrites the drafts that referred to one of these
results, and rewrites the receipts. -/
lemma cleared_eq : db.cleared busy cutoff now size = { db with
    images := imagesWithout db.images (db.clearedReceipts busy cutoff size)
    results := resultsWithout db.results (db.clearedReceipts busy cutoff size)
    drafts := db.drafts.upsertAll
      ((db.unreferencedDrafts busy cutoff size).map unreferenced)
    receipts := db.receipts.upsertAll
      ((db.clearedReceipts busy cutoff size).map (clearedReceipt now)) } := by
  have h : (db.deleteReceiptData busy cutoff now size).2 =
      (db.clearedReceipts busy cutoff size).map (fun row => Write.removeImage row.receipt.id) ++
      (db.clearedReceipts busy cutoff size).map (fun row => Write.removeResults row.receipt.id) ++
      ((db.unreferencedDrafts busy cutoff size).map unreferenced).map Write.draft ++
      ((db.clearedReceipts busy cutoff size).map (clearedReceipt now)).map Write.receipt := by
    rw [List.map_map, List.map_map]
    rfl
  rw [cleared, h, Backend.applyAll_append, Backend.applyAll_append, Backend.applyAll_append,
    applyAll_removeImages, applyAll_removeResults, applyAll_drafts, applyAll_receipts]

/-- A draft after the deletion. -/
lemma find_draft_cleared (id : UUID) : (db.cleared busy cutoff now size).drafts.find id =
    (db.drafts.find id).map fun d =>
      if d ∈ db.unreferencedDrafts busy cutoff size then unreferenced d else d := by
  rw [cleared_eq]
  exact Table.find_upsertAll_map (f := unreferenced) (fun _ => rfl)
    (fun d hd => (List.mem_filter.mp hd).1)
    (db.drafts.nodup.sublist (List.filter_sublist.map _)) id

/-- A receipt after the deletion. -/
lemma find_receipt_cleared (id : UUID) : (db.cleared busy cutoff now size).receipts.find id =
    (db.receipts.find id).map fun row =>
      if row ∈ db.clearedReceipts busy cutoff size then clearedReceipt now row else row := by
  rw [cleared_eq]
  exact Table.find_upsertAll_map (f := clearedReceipt now) (fun _ => rfl)
    (fun row hrow => (mem_clearedReceipts hrow).1) nodup_clearedReceipts id

/-- A result that a draft still refers to after the deletion is still there. -/
lemma hasResult_cleared {d : CaptureDraft} {i : UUID} (hmem : d ∈ db.drafts)
    (hd : d ∉ db.unreferencedDrafts busy cutoff size) (hi : d.recognitionResultId = some i)
    (h : db.hasResult i = true) : (db.cleared busy cutoff now size).hasResult i = true := by
  obtain ⟨r, hr⟩ := Option.isSome_iff_exists.mp h
  obtain rfl : r.id = i := Table.key_of_find hr
  have hkept : r ∈ resultsWithout db.results (db.clearedReceipts busy cutoff size) := by
    refine mem_resultsWithout.mpr ⟨Table.mem_of_find hr, fun row hrow heq => hd ?_⟩
    refine List.mem_filter.mpr ⟨hmem, ?_⟩
    rw [hi, Option.any_some, List.any_eq_true]
    refine ⟨r, List.mem_filter.mpr ⟨Table.mem_of_find hr, ?_⟩, decide_eq_true rfl⟩
    exact List.any_eq_true.mpr ⟨row, hrow, decide_eq_true heq.symm⟩
  rw [hasResult, cleared_eq, Table.find_of_mem hkept]
  rfl

end Database

end MintFlow
