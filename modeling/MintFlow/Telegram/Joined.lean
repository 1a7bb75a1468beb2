import MintFlow.Application.ConfirmSpec
import MintFlow.Telegram.Retention
import MintFlow.Telegram.WorkerSteps

set_option relaxedAutoImplicit false
set_option autoImplicit false

/-!
# Conversations and drafts together

The joint invariant of the conversation and the draft: every open draft is the active draft of its
owner's conversation, which waits for what the draft still needs, and a draft that waits for
recognition has a receipt somebody will finish. In the middle of a transaction the invariant is
broken for one draft, or for the draft of one receipt, and the transaction knows which.

## Main definitions

* `MintFlow.JoinedBut`, `MintFlow.Joined` — the invariant, with and without exceptions.
* `MintFlow.Stage.Joins` — what a stage of handling says about the tables.
* `MintFlow.joinedRules` — the stages of handling, read as the invariant.

## Main results

* `MintFlow.JoinedBut.save`, `JoinedBut.revise`, `JoinedBut.open_`, `JoinedBut.close` — what the
  writes of the handlers do to the invariant.
* `MintFlow.Joined.expired`, `Joined.cleared` — retention keeps it.
-/

namespace MintFlow

open Transact Transact.Prog

/-! ## The invariant -/

/-- The invariant, except that the draft `unpaired` need not match its conversation, and a draft
may wait for the receipt `unread` although that is finished. -/
structure JoinedBut (unpaired unread : Option UUID) (db : Database) : Prop where
  paired : ∀ d ∈ db.drafts, some d.id ≠ unpaired → d.isOpen = true →
    ∃ c, db.conversations.find d.ownerId = some c ∧ Paired d c
  waiting : ∀ d ∈ db.drafts, d.state = .awaitingRecognition → ∃ r, d.receiptId = some r ∧
    (unread = some r ∨ ∃ row, db.receipts.find r = some row ∧ row.receipt.isFinished = false ∧
      row.receipt.imageRemovedAt = none)
  receipt : ∀ d ∈ db.drafts, ∀ r ∈ d.receiptId, ∃ row, db.receipts.find r = some row ∧
    row.receipt.ownerId = d.ownerId
  single : ∀ d ∈ db.drafts, ∀ d' ∈ db.drafts, ∀ r, d.receiptId = some r → d'.receiptId = some r →
    d = d'
  own : ∀ c ∈ db.conversations, ∀ i ∈ c.activeDraftId, ∃ d ∈ db.drafts, d.id = i ∧
    d.ownerId = c.userId

/-- **The invariant.** -/
abbrev Joined : Database → Prop := JoinedBut none none

/-- The user has no open draft. -/
def Free (user : UUID) (db : Database) : Prop :=
  ∀ d ∈ db.drafts, d.ownerId = user → d.isOpen = false

/-- Every receipt is still there, with its owner, unfinished if it was, and with its image if it
had one. -/
def Tended (db db' : Database) : Prop :=
  ∀ r row, db.receipts.find r = some row → ∃ row', db'.receipts.find r = some row' ∧
    row'.receipt.ownerId = row.receipt.ownerId ∧
    (row.receipt.isFinished = false → row'.receipt.isFinished = false) ∧
    (row.receipt.imageRemovedAt = none → row'.receipt.imageRemovedAt = none)

section Writes

variable {db db' : Database} {p u : Option UUID} {d d' : CaptureDraft} {c : TelegramConversation}

lemma Tended.of_eq (h : db'.receipts = db.receipts) : Tended db db' := by
  intro r row hr
  exact ⟨row, by rw [h]; exact hr, rfl, id, id⟩

/-- Only drafts, conversations and the fate of receipts matter.

**Proof sketch.** Each part of the invariant speaks of drafts, conversations and what becomes of
receipts only. -/
lemma JoinedBut.congr (h : JoinedBut p u db) (hd : db'.drafts = db.drafts)
    (hc : db'.conversations = db.conversations) (hr : Tended db db') : JoinedBut p u db' := by
  constructor
  · rw [hd, hc]
    exact h.paired
  · rw [hd]
    intro d hmem hs
    obtain ⟨r, hdr, hun | ⟨row, hrow, hfin, himg⟩⟩ := h.waiting d hmem hs
    · exact ⟨r, hdr, .inl hun⟩
    · obtain ⟨row', hrow', -, hfin', himg'⟩ := hr r row hrow
      exact ⟨r, hdr, .inr ⟨row', hrow', hfin' hfin, himg' himg⟩⟩
  · rw [hd]
    intro d hmem r hdr
    obtain ⟨row, hrow, ho⟩ := h.receipt d hmem r hdr
    obtain ⟨row', hrow', ho', -⟩ := hr r row hrow
    exact ⟨row', hrow', ho'.trans ho⟩
  · rw [hd]
    exact h.single
  · rw [hd, hc]
    exact h.own

/-- What matches its conversation is the only open draft of its owner. -/
lemma JoinedBut.eq_of_paired (h : JoinedBut p u db) (hc : db.conversations.find c.userId = some c)
    (hp : Paired d c) (hd' : d' ∈ db.drafts) (ho : d'.ownerId = c.userId)
    (hopen : d'.isOpen = true) (hne : some d'.id ≠ p) : d'.id = d.id := by
  obtain ⟨c', hc', hp'⟩ := h.paired d' hd' hne hopen
  rw [ho, hc] at hc'
  obtain rfl := Option.some.inj hc'
  exact Option.some.inj (hp'.active.symm.trans hp.active)

/-- Saving a conversation that matches every open draft of its user restores the pairing. -/
lemma JoinedBut.save (h : JoinedBut p u db)
    (hp : ∀ d ∈ db.drafts, d.isOpen = true → d.ownerId = c.userId → Paired d c)
    (hex : ∀ d ∈ db.drafts, some d.id = p → d.ownerId = c.userId)
    (hown : ∀ i ∈ c.activeDraftId, ∃ d ∈ db.drafts, d.id = i ∧ d.ownerId = c.userId) :
    JoinedBut none u (db.apply (.conversation c)) where
  paired d hd _ hopen := by
    rw [Database.find_conversation_apply]
    dsimp only
    by_cases ho : d.ownerId = c.userId
    · exact ⟨c, if_pos ho, hp d hd hopen ho⟩
    · obtain ⟨c', hc', hp'⟩ := h.paired d hd (fun he => ho (hex d hd he)) hopen
      exact ⟨c', (if_neg ho).trans hc', hp'⟩
  waiting := h.waiting
  receipt := h.receipt
  single := h.single
  own c' hc' := by
    rcases Table.mem_upsert.mp hc' with rfl | ⟨hc', -⟩
    · exact hown
    · exact h.own c' hc'

/-- Rewriting a draft, which then need not match its conversation.

**Proof sketch.** The row written is the one that need not match. Every other draft is an old row
under another key, and the new row waits and names a receipt only if the old one did. -/
lemma JoinedBut.rewrite (h : JoinedBut p u db) (hd : d ∈ db.drafts) (hid : d'.id = d.id)
    (howner : d'.ownerId = d.ownerId) (hreceipt : d'.receiptId = d.receiptId)
    (hpaired : p = none ∨ p = some d.id)
    (hwait : d'.state = .awaitingRecognition → d.state = .awaitingRecognition) :
    JoinedBut (some d'.id) u (db.apply (.draft d')) := by
  have hmem : ∀ x ∈ (db.apply (.draft d')).drafts, x = d' ∨ x ∈ db.drafts ∧ x.id ≠ d'.id :=
    fun x hx => Table.mem_upsert.mp hx
  constructor
  · intro x hx hne hopen
    rcases hmem x hx with rfl | ⟨hx, hxid⟩
    · exact absurd rfl hne
    · refine h.paired x hx ?_ hopen
      rcases hpaired with rfl | rfl
      · simp
      · rw [← hid]
        exact hne
  · intro x hx hs
    rcases hmem x hx with rfl | ⟨hx, -⟩
    · rw [hreceipt]
      exact h.waiting d hd (hwait hs)
    · exact h.waiting x hx hs
  · intro x hx
    rcases hmem x hx with rfl | ⟨hx, -⟩
    · rw [hreceipt, howner]
      exact h.receipt d hd
    · exact h.receipt x hx
  · intro x hx y hy r hxr hyr
    rcases hmem x hx with rfl | ⟨hx', hxid⟩ <;> rcases hmem y hy with rfl | ⟨hy', hyid⟩
    · rfl
    · rw [hreceipt] at hxr
      exact absurd (congrArg CaptureDraft.id (h.single d hd y hy' r hxr hyr)) (by
        rw [← hid]
        exact hyid.symm)
    · rw [hreceipt] at hyr
      exact absurd (congrArg CaptureDraft.id (h.single x hx' d hd r hxr hyr)) (by
        rw [← hid]
        exact hxid)
    · exact h.single x hx' y hy' r hxr hyr
  · intro c hc i hi
    obtain ⟨x, hx, hxi, ho⟩ := h.own c hc i hi
    by_cases hxd : x.id = d.id
    · obtain rfl := Table.eq_of_key_eq hx hd hxd
      exact ⟨d', Table.mem_upsert.mpr (.inl rfl), hid.trans hxi, howner.trans ho⟩
    · exact ⟨x, Table.mem_upsert.mpr (.inr ⟨hx, by rwa [hid]⟩), hxi, ho⟩

/-- Moving the draft of a receipt on ends the exception for the receipt. -/
lemma JoinedBut.read {r : UUID} (h : JoinedBut p (some r) db) (hd : d ∈ db.drafts)
    (hr : d.receiptId = some r) (hs : d.state ≠ .awaitingRecognition) : JoinedBut p none db where
  paired := h.paired
  waiting x hx hxs := by
    obtain ⟨r', hxr, hun | hrow⟩ := h.waiting x hx hxs
    · obtain rfl := Option.some.inj hun
      exact absurd (h.single x hx d hd r hxr hr ▸ hxs) hs
    · exact ⟨r', hxr, .inr hrow⟩
  receipt := h.receipt
  single := h.single
  own := h.own

/-- A draft that is not open needs no conversation. -/
lemma JoinedBut.closed {i : UUID} (h : JoinedBut (some i) u db)
    (hd : ∀ d ∈ db.drafts, d.id = i → d.isOpen = false) : JoinedBut none u db where
  paired d hmem _ hopen := by
    refine h.paired d hmem (fun he => ?_) hopen
    rw [hd d hmem (Option.some.inj he)] at hopen
    cases hopen
  waiting := h.waiting
  receipt := h.receipt
  single := h.single
  own := h.own

/-- Inserting an open draft, which then has to be matched with its conversation.

**Proof sketch.** The new draft is the one that need not match. Its receipt has no other draft, so a
receipt still has at most one. -/
lemma JoinedBut.insert (h : JoinedBut none u db) (hnew : db.drafts.find d.id = none)
    (hreceipt : ∀ r ∈ d.receiptId, db.draftOfReceipt r = none ∧ ∃ row,
      db.receipts.find r = some row ∧ row.receipt.ownerId = d.ownerId)
    (hwait : d.state = .awaitingRecognition → ∃ r, d.receiptId = some r ∧ ∃ row,
      db.receipts.find r = some row ∧ row.receipt.isFinished = false ∧
        row.receipt.imageRemovedAt = none) :
    JoinedBut (some d.id) u (db.apply (.draft d)) := by
  have hmem : ∀ x ∈ (db.apply (.draft d)).drafts, x = d ∨ x ∈ db.drafts ∧ x.id ≠ d.id :=
    fun x hx => Table.mem_upsert.mp hx
  have hnone : ∀ x ∈ db.drafts, ∀ r, x.receiptId = some r → d.receiptId ≠ some r := by
    intro x hx r hxr hdr
    have hfree := (hreceipt r hdr).1
    exact absurd (decide_eq_true hxr) (List.find?_eq_none.mp hfree x hx)
  constructor
  · intro x hx hne hopen
    rcases hmem x hx with rfl | ⟨hx, -⟩
    · exact absurd rfl hne
    · exact h.paired x hx (by simp) hopen
  · intro x hx hs
    rcases hmem x hx with rfl | ⟨hx, -⟩
    · obtain ⟨r, hr, hrow⟩ := hwait hs
      exact ⟨r, hr, .inr hrow⟩
    · exact h.waiting x hx hs
  · intro x hx r hr
    rcases hmem x hx with rfl | ⟨hx, -⟩
    · exact (hreceipt r hr).2
    · exact h.receipt x hx r hr
  · intro x hx y hy r hxr hyr
    rcases hmem x hx with rfl | ⟨hx', -⟩ <;> rcases hmem y hy with rfl | ⟨hy', -⟩
    · rfl
    · exact absurd hxr (hnone y hy' r hyr)
    · exact absurd hyr (hnone x hx' r hxr)
    · exact h.single x hx' y hy' r hxr hyr
  · intro c hc i hi
    obtain ⟨x, hx, hxi, ho⟩ := h.own c hc i hi
    refine ⟨x, Table.mem_upsert.mpr (.inr ⟨hx, fun hxd => ?_⟩), hxi, ho⟩
    have := Table.find_of_mem hx
    rw [hxd, hnew] at this
    cases this

end Writes

/-! ## Retention -/

section Retention

variable {db : Database} {busy : Key → Bool} {cutoff now : Instant} {size : ℕ}

/-- A draft after the expiry is an expired one, or one that was not abandoned. -/
lemma mem_drafts_expired {d : CaptureDraft} (h : d ∈ (db.expired busy cutoff now size).drafts) :
    (∃ d₀ ∈ db.abandonedDrafts busy cutoff size, d = Database.expiredDraft now d₀) ∨
      d ∈ db.drafts ∧ d ∉ db.abandonedDrafts busy cutoff size := by
  have hfind := Table.find_of_mem h
  rw [Database.find_draft_expired] at hfind
  obtain ⟨d₀, hd₀, rfl⟩ := Option.map_eq_some_iff.mp hfind
  split_ifs with hin
  · exact .inl ⟨d₀, hin, rfl⟩
  · exact .inr ⟨Table.mem_of_find hd₀, hin⟩

/-- **Expiry keeps the invariant**: it releases exactly the conversations of the drafts it
expires.

**Proof sketch.** An expired draft is not open, so it need not match. A conversation that is
released was held by an expired draft, and no other draft's conversation is. -/
lemma Joined.expired (h : Joined db) : Joined (db.expired busy cutoff now size) := by
  have hreceipts : (db.expired busy cutoff now size).receipts = db.receipts := by
    rw [Database.expired_eq]
  -- A draft and the row it comes from have the same receipt and owner.
  have hfrom : ∀ d ∈ (db.expired busy cutoff now size).drafts, ∃ d₀ ∈ db.drafts,
      d₀.id = d.id ∧ d₀.receiptId = d.receiptId ∧ d₀.ownerId = d.ownerId := by
    intro d hd
    rcases mem_drafts_expired hd with ⟨d₀, hd₀, rfl⟩ | ⟨hd, -⟩
    · exact ⟨d₀, (Database.mem_abandonedDrafts hd₀).1, rfl, rfl, rfl⟩
    · exact ⟨d, hd, rfl, rfl, rfl⟩
  constructor
  · intro d hd _ hopen
    rcases mem_drafts_expired hd with ⟨d₀, -, rfl⟩ | ⟨hd, hin⟩
    · cases hopen
    · obtain ⟨c, hc, hp⟩ := h.paired d hd (by simp) hopen
      refine ⟨c, ?_, hp⟩
      rw [Database.find_conversation_expired, hc, Option.map_some, if_neg]
      intro hrel
      obtain ⟨-, x, hx, hax⟩ := Database.mem_releasedConversations.mp hrel
      have hid : x.id = d.id := Option.some.inj (hax.symm.trans hp.active)
      exact hin (Table.eq_of_key_eq (Database.mem_abandonedDrafts hx).1 hd hid ▸ hx)
  · intro d hd hs
    rw [hreceipts]
    rcases mem_drafts_expired hd with ⟨d₀, -, rfl⟩ | ⟨hd, -⟩
    · cases hs
    · exact h.waiting d hd hs
  · intro d hd r hr
    rw [hreceipts]
    obtain ⟨d₀, hd₀, -, hr₀, ho₀⟩ := hfrom d hd
    rw [← ho₀]
    exact h.receipt d₀ hd₀ r (hr₀.trans hr)
  · intro d hd d' hd' r hr hr'
    obtain ⟨d₀, hd₀, hid, hr₀, -⟩ := hfrom d hd
    obtain ⟨d₀', hd₀', hid', hr₀', -⟩ := hfrom d' hd'
    have heq := h.single d₀ hd₀ d₀' hd₀' r (hr₀.trans hr) (hr₀'.trans hr')
    exact Table.eq_of_key_eq hd hd' (by rw [← hid, ← hid', heq])
  · intro c hc i hi
    have hfind := Table.find_of_mem hc
    rw [Database.find_conversation_expired] at hfind
    obtain ⟨c₀, hc₀, rfl⟩ := Option.map_eq_some_iff.mp hfind
    split_ifs at hi ⊢ with hrel
    · cases hi
    · obtain ⟨d, hd, hid, ho⟩ := h.own c₀ (Table.mem_of_find hc₀) i hi
      have hd' := @Database.find_draft_expired db busy cutoff now size d.id
      rw [Table.find_of_mem hd, Option.map_some] at hd'
      refine ⟨_, Table.mem_of_find hd', ?_, ?_⟩
      · split_ifs <;> exact hid
      · split_ifs <;> exact ho

/-- A draft after the deletion of receipt data is the one before, up to its reference to a
result. -/
lemma mem_drafts_cleared {d : CaptureDraft} (h : d ∈ (db.cleared busy cutoff now size).drafts) :
    ∃ d₀ ∈ db.drafts, (d = d₀ ∧ d₀ ∉ db.unreferencedDrafts busy cutoff size) ∨
      d = Database.unreferenced d₀ := by
  have hfind := Table.find_of_mem h
  rw [Database.find_draft_cleared] at hfind
  obtain ⟨d₀, hd₀, heq⟩ := Option.map_eq_some_iff.mp hfind
  refine ⟨d₀, Table.mem_of_find hd₀, ?_⟩
  split_ifs at heq with hin
  · exact .inr heq.symm
  · exact .inl ⟨heq.symm, hin⟩

/-- **Deleting receipt data keeps the invariant**: a draft that waits for recognition has not
finished, so its receipt is left alone.

**Proof sketch.** Receipts lose their data only when they are finished and their draft is not open.
A draft that waits has a receipt that is not finished, which is left as it is. -/
lemma Joined.cleared (h : Joined db) : Joined (db.cleared busy cutoff now size) := by
  have hconversations : (db.cleared busy cutoff now size).conversations = db.conversations := by
    rw [Database.cleared_eq]
  have hrow : ∀ r row, db.receipts.find r = some row → ∃ row',
      (db.cleared busy cutoff now size).receipts.find r = some row' ∧
        row'.receipt.ownerId = row.receipt.ownerId ∧
        (row ∉ db.clearedReceipts busy cutoff size → row' = row) := by
    intro r row hr
    rw [Database.find_receipt_cleared, hr, Option.map_some]
    split_ifs with hin
    · exact ⟨_, rfl, rfl, fun hout => absurd hin hout⟩
    · exact ⟨row, rfl, rfl, fun _ => rfl⟩
  -- What the invariant says of a draft does not mention its result.
  have hfrom : ∀ d ∈ (db.cleared busy cutoff now size).drafts, ∃ d₀ ∈ db.drafts,
      d.id = d₀.id ∧ d.ownerId = d₀.ownerId ∧ d.receiptId = d₀.receiptId ∧
        d.state = d₀.state ∧ d.isOpen = d₀.isOpen ∧ ∀ c, Paired d₀ c → Paired d c := by
    intro d hd
    obtain ⟨d₀, hd₀, ⟨rfl, -⟩ | rfl⟩ := mem_drafts_cleared hd
    · exact ⟨d, hd₀, rfl, rfl, rfl, rfl, rfl, fun _ hp => hp⟩
    · exact ⟨d₀, hd₀, rfl, rfl, rfl, rfl, rfl, fun _ hp => { hp with }⟩
  constructor
  · intro d hd _ hopen
    obtain ⟨d₀, hd₀, -, ho, -, -, hopen₀, hp⟩ := hfrom d hd
    obtain ⟨c, hc, hp₀⟩ := h.paired d₀ hd₀ (by simp) (hopen₀ ▸ hopen)
    rw [hconversations, ho]
    exact ⟨c, hc, hp c hp₀⟩
  · intro d hd hs
    obtain ⟨d₀, hd₀, -, -, hr₀, hs₀, -, -⟩ := hfrom d hd
    obtain ⟨r, hr, hun | ⟨row, hfind, hfin, himg⟩⟩ := h.waiting d₀ hd₀ (hs₀ ▸ hs)
    · cases hun
    obtain ⟨row', hrow', -, hsame⟩ := hrow r row hfind
    refine ⟨r, hr₀.trans hr, .inr ⟨row', hrow', ?_⟩⟩
    rw [hsame ?_]
    · exact ⟨hfin, himg⟩
    intro hin
    obtain ⟨-, -, -, x, t, hx, ht, -⟩ := Database.mem_clearedReceipts hin
    obtain ⟨hxmem, hxr⟩ := Database.mem_of_draftOfReceipt hx
    rw [Table.key_of_find hfind] at hxr
    obtain rfl := h.single x hxmem d₀ hd₀ r hxr hr
    rw [Database.finishedAt, ← hs₀, hs] at ht
    simp at ht
  · intro d hd r hr
    obtain ⟨d₀, hd₀, -, ho, hr₀, -⟩ := hfrom d hd
    obtain ⟨row, hfind, hown⟩ := h.receipt d₀ hd₀ r (hr₀ ▸ hr)
    obtain ⟨row', hrow', ho', -⟩ := hrow r row hfind
    exact ⟨row', hrow', by rw [ho', hown, ho]⟩
  · intro d hd d' hd' r hr hr'
    obtain ⟨d₀, hd₀, hid, -, hr₀, -⟩ := hfrom d hd
    obtain ⟨d₀', hd₀', hid', -, hr₀', -⟩ := hfrom d' hd'
    have heq := h.single d₀ hd₀ d₀' hd₀' r (hr₀ ▸ hr) (hr₀' ▸ hr')
    exact Table.eq_of_key_eq hd hd' (by rw [hid, hid', heq])
  · rw [hconversations]
    intro c hc i hi
    obtain ⟨d, hd, hid, ho⟩ := h.own c hc i hi
    have hd' := @Database.find_draft_cleared db busy cutoff now size d.id
    rw [Table.find_of_mem hd, Option.map_some] at hd'
    refine ⟨_, Table.mem_of_find hd', ?_, ?_⟩
    · split_ifs <;> exact hid
    · split_ifs <;> exact ho

end Retention

/-! ## The stages -/

/-- What a stage says about the tables the transaction reads. -/
def Stage.Joins : Stage → Database → Prop
  | .idle, db | .opened, db | .linking, db | .done, db | .claiming _ _, db | .drained _, db
  | .void, db | .ended, db => Joined db
  | .locked c, db => Joined db ∧ db.conversations.find c.userId = some c
  | .dangling c, db => Joined db ∧ db.conversations.find c.userId = some c ∧ Free c.userId db
  | .vacant user, db => Joined db ∧ Free user db
  | .holding c d, db => Joined db ∧ db.conversations.find c.userId = some c ∧
      db.drafts.find d.id = some d ∧ Paired d c
  | .updated c d d', db => JoinedBut (some d'.id) none db ∧
      db.conversations.find c.userId = some c ∧ db.drafts.find d'.id = some d' ∧ Paired d c ∧
      d'.id = d.id ∧ d'.ownerId = d.ownerId
  | .received user r, db => Joined db ∧ Free user db ∧ r.ownerId = user ∧
      r.isFinished = false ∧ r.imageRemovedAt = none ∧
      ∃ row, db.receipts.find r.id = some row ∧ row.receipt = r
  | .created user d, db => JoinedBut (some d.id) none db ∧ db.drafts.find d.id = some d ∧
      d.ownerId = user ∧
      ∀ x ∈ db.drafts, x.ownerId = user → x.isOpen = true → x = d
  | .confirmed c, db => Joined db ∧ Free c.userId db
  | .finishing r, db => JoinedBut none (some r.id) db ∧
      ∃ row, db.receipts.find r.id = some row ∧ row.receipt.ownerId = r.ownerId
  | .finishingLocked r c, db => JoinedBut none (some r.id) db ∧
      db.conversations.find c.userId = some c ∧
      ∃ row, db.receipts.find r.id = some row ∧ row.receipt.ownerId = c.userId
  | .recovering r c d, db => JoinedBut none (some r.id) db ∧
      db.conversations.find c.userId = some c ∧ db.drafts.find d.id = some d ∧
      d.receiptId = some r.id ∧ Paired d c

/-- A transaction may only be committed where the invariant holds. -/
lemma Stage.Joins.settled {φ : Stage} {db : Database} (h : φ.Joins db) (hφ : φ.Settled) :
    Joined db := by
  cases hφ with
  | idle | opened | linking | done | drained | ended => exact h
  | locked c | vacant user | holding c d => exact h.1

/-- The receipts in the hands of workers are stored, with their owners. -/
def Stored (claimed : List (UUID × UUID)) (db : Database) : Prop :=
  ∀ p ∈ claimed, ∃ row, db.receipts.find p.1 = some row ∧ row.receipt.ownerId = p.2

lemma Stored.tended {claimed : List (UUID × UUID)} {db db' : Database} (h : Stored claimed db)
    (ht : Tended db db') : Stored claimed db' := by
  intro p hp
  obtain ⟨row, hrow, ho⟩ := h p hp
  obtain ⟨row', hrow', ho', -⟩ := ht p.1 row hrow
  exact ⟨row', hrow', ho'.trans ho⟩

section Rules

variable {claimed : List (UUID × UUID)} {s : Alone Database} {o : Stmt} {φ : Stage}

/-- A stage, in terms of the tables a session sees. -/
def Joining (claimed : List (UUID × UUID)) (φ : Stage) (s : Alone Database) : Prop :=
  (Joined s.db ∧ Stored claimed s.db) ∧ Stored claimed s.view ∧ φ.Joins s.view

/-- The obligations of a session that keeps the invariant. -/
abbrev joinedLogic (claimed : List (UUID × UUID)) : Logic signature (Alone Database) :=
  alone (fun _ db => Joined db ∧ Stored claimed db) (fun _ _ => True) fun _ _ => True

/-- A statement moves from one stage to another as its writes do. -/
lemma wp_joining (φ' : Stage) {P : o.Resp → Alone Database → Prop} (h : Joining claimed φ s)
    (hws : ∀ r ws, evaluate o (fun _ => false) s.view = .ok (r, ws) →
      Tended s.view (postgres.applyAll ws s.view) ∧ φ'.Joins (postgres.applyAll ws s.view))
    (hP : ∀ r s', Answers o r → Joining claimed φ' s' → P r s') :
    (joinedLogic claimed).stmt o s P := by
  refine wp_execute (fun r ws he => ?_) fun _ _ => trivial
  obtain ⟨ht, hj⟩ := hws r ws he
  exact hP r _ (answers_of_evaluate he) ⟨h.1, h.2.1.tended ht, hj⟩

/-- Locking a conversation changes nothing, or adds one for a user without open drafts. -/
lemma JoinedBut.locked {p u : Option UUID} {db : Database} (h : JoinedBut p u db) {user : UUID}
    {now : Instant} {c : TelegramConversation} {ws : List Write}
    (he : db.lockConversation user now = .ok (c, ws)) (hp : p = none) :
    JoinedBut none u (postgres.applyAll ws db) ∧
      (postgres.applyAll ws db).conversations.find c.userId = some c ∧
      (postgres.applyAll ws db).drafts = db.drafts ∧
      (postgres.applyAll ws db).receipts = db.receipts := by
  subst hp
  rcases Database.lockConversation_eq_ok he with ⟨hfind, rfl⟩ | ⟨hnone, -, rfl, rfl⟩
  · refine ⟨h, ?_, rfl, rfl⟩
    rw [Table.key_of_find hfind]
    exact hfind
  · refine ⟨h.save (fun d hd hopen ho => ?_) (by simp) (by simp [TelegramConversation.idle]),
      Table.find_upsert_self .., rfl, rfl⟩
    obtain ⟨c, hc, -⟩ := h.paired d hd (by simp) hopen
    have ho' : d.ownerId = user := ho
    rw [ho', hnone] at hc
    cases hc

/-- Rewriting one receipt. -/
lemma tended_receipt {db : Database} {row row' : ReceiptRow}
    (hfind : db.receipts.find row'.receipt.id = some row)
    (ho : row'.receipt.ownerId = row.receipt.ownerId)
    (hfin : row.receipt.isFinished = false → row'.receipt.isFinished = false)
    (himg : row'.receipt.imageRemovedAt = row.receipt.imageRemovedAt) :
    Tended db (db.apply (.receipt row')) := by
  intro r x hx
  rw [Database.find_receipt_apply]
  dsimp only
  split_ifs with hr
  · subst hr
    obtain rfl : row = x := Option.some.inj (hfind.symm.trans hx)
    exact ⟨row', rfl, ho, hfin, fun h => himg.trans h⟩
  · exact ⟨x, hx, rfl, id, id⟩

/-- Claiming a receipt keeps the invariant. -/
lemma Joined.claim {db : Database} (h : Joined db) {r : Receipt} {u : Unit} {ws : List Write}
    (hr : r.state = .processing) (he : db.updateClaimed r = .ok (u, ws)) :
    Tended db (postgres.applyAll ws db) ∧ Joined (postgres.applyAll ws db) := by
  rcases Database.updateClaimed_eq_ok he with ⟨-, rfl⟩ | ⟨row, hfind, rfl⟩
  · exact ⟨.of_eq rfl, h⟩
  · have ht : Tended db (db.apply (.receipt (Database.claimedReceipt row r))) := by
      have hkey := Table.key_of_find hfind
      have hself : db.receipts.find row.receipt.id = some row := by
        rw [show row.receipt.id = r.id from hkey]
        exact hfind
      refine @tended_receipt db row _ hself rfl (fun _ => ?_) rfl
      · show (r.state = .recognized || r.state = .recognitionFailed) = false
        simp [hr]
    exact ⟨ht, h.congr rfl rfl ht⟩

/-- The bookkeeping of the worker keeps the invariant.

**Proof sketch.** Cases on the statement: each writes receipts, images or conversations in a way
that the invariant does not mention, or that keeps receipts tended. -/
lemma Joined.books (ho : Bookkeeping o) {db : Database} (h : Joined db) {r : o.Resp}
    {ws : List Write} {busy : Key → Bool} (he : evaluate o busy db = .ok (r, ws)) :
    Tended db (postgres.applyAll ws db) ∧ Joined (postgres.applyAll ws db) := by
  cases ho with
  | claimDelayNotices now before limit =>
    have hws : (db.claimDelayNotices busy now before limit).2 = ws :=
      (Prod.mk.inj (Except.ok.inj he)).2
    have ht : Tended db (postgres.applyAll (db.claimDelayNotices busy now before limit).2 db) := by
      intro r row hr
      rw [Database.find_receipt_noticed, hr, Option.map_some]
      split_ifs
      · exact ⟨_, rfl, rfl, id, id⟩
      · exact ⟨row, rfl, rfl, id, id⟩
    rw [← hws]
    exact ⟨ht, h.congr (by rw [Database.claimDelayNotices_eq])
      (by rw [Database.claimDelayNotices_eq]) ht⟩
  | lockReceipt id =>
    obtain ⟨-, rfl⟩ := Prod.mk.inj (Except.ok.inj he)
    exact ⟨.of_eq rfl, h⟩
  | createImage i =>
    obtain ⟨-, rfl⟩ := Database.createImage_eq_ok he
    exact ⟨.of_eq rfl, h.congr rfl rfl (.of_eq rfl)⟩
  | lockConversation user now =>
    obtain ⟨hj, -, -, hr⟩ := h.locked he rfl
    exact ⟨.of_eq hr, hj⟩
  | draftOfReceipt id =>
    obtain ⟨-, rfl⟩ := Prod.mk.inj (Except.ok.inj he)
    exact ⟨.of_eq rfl, h⟩

/-- Saving a conversation for a draft that was just rewritten. -/
lemma JoinedBut.resave {db : Database} {d d' : CaptureDraft} {c c' : TelegramConversation}
    (h : (Stage.updated c d d').Joins db) (hu : c'.userId = c.userId)
    (ha : ∀ i ∈ c'.activeDraftId, i = d'.id) (hp : d'.isOpen = true → Paired d' c') : Joined (db.apply (.conversation c')) := by
  obtain ⟨hj, hc, hd', hpair, hid, howner⟩ := h
  refine hj.save (fun x hx hopen ho => ?_) (fun x hx hxid => ?_) fun i hi => ?_
  · -- The only open draft of the user is the one that was rewritten.
    have hxid : x.id = d'.id := by
      by_contra hne
      have := hj.eq_of_paired hc hpair hx (ho.trans hu) hopen (by simpa using hne)
      exact hne (this.trans hid.symm)
    obtain rfl : x = d' := Table.eq_of_key_eq hx (Table.mem_of_find hd') hxid
    exact hp hopen
  · obtain rfl : x = d' := Table.eq_of_key_eq hx (Table.mem_of_find hd') (Option.some.inj hxid)
    rw [howner, hpair.owner, hu]
  · exact ⟨d', Table.mem_of_find hd', (ha i hi).symm, by rw [howner, hpair.owner, hu]⟩

/-- Making an exception loses nothing. -/
lemma Joined.but {db : Database} (h : Joined db) (p u : Option UUID) : JoinedBut p u db where
  paired d hd _ := h.paired d hd (by simp)
  waiting d hd hs := by
    obtain ⟨r, hr, hun | hrow⟩ := h.waiting d hd hs
    · cases hun
    · exact ⟨r, hr, .inr hrow⟩
  receipt := h.receipt
  single := h.single
  own := h.own

/-- A user whose conversation points at no open draft has none. -/
lemma JoinedBut.free {u : Option UUID} {db : Database} {c : TelegramConversation}
    (h : JoinedBut none u db) (hc : db.conversations.find c.userId = some c)
    (hd : ∀ d ∈ db.drafts, c.activeDraftId = some d.id → d.ownerId = c.userId →
      d.isOpen = false) : Free c.userId db := by
  intro d hmem ho
  by_contra hopen
  obtain ⟨c', hc', hp⟩ := h.paired d hmem (by simp) (eq_true_of_ne_false hopen)
  rw [ho, hc] at hc'
  obtain rfl := Option.some.inj hc'
  exact hopen (hd d hmem hp.active ho)

/-- Releasing the conversation of a user without open drafts. -/
lemma JoinedBut.release {u : Option UUID} {db : Database} {c : TelegramConversation}
    (h : JoinedBut none u db) (hfree : Free c.userId db) (hc : c.activeDraftId = none) :
    JoinedBut none u (db.apply (.conversation c)) :=
  h.save (fun d hd hopen ho => absurd (hfree d hd ho) (by simp [hopen])) (by simp) (by simp [hc])

variable [PythonRuntime]

/-- **The stages keep the invariant.** -/
def joinedRules (claimed : List (UUID × UUID)) : Rules (Alone Database) where
  logic := joinedLogic claimed
  inStage := Joining claimed
  raises _ _ := trivial
  sends _ h := h
  reads {φ o s P} ho h hP := by
    obtain ⟨r, he⟩ := evaluate_of_reads ho (fun _ => false) s.view
    exact (wp_read he).mpr (hP r s (answers_of_evaluate he) h)
  commits hφ h hP := by
    have hview := h.2.2.settled hφ
    exact ⟨⟨hview, h.2.1⟩, hP _ ⟨⟨hview, h.2.1⟩, h.2.1, hview⟩⟩
  rollbacks _ hP := hP _
  revises {c d d₁ d₂ s P} h hrev hP := by
    obtain ⟨hj, hc, hfind, hp, hid, howner⟩ := h.2.2
    refine wp_joining (.updated c d d₂) h (fun r ws he => ?_) fun _ s' _ => hP s'
    obtain ⟨rfl, -⟩ := hrev.written hfind he
    exact ⟨.of_eq rfl, hj.rewrite (Table.mem_of_find hfind) hrev.id hrev.ownerId hrev.receiptId
      (.inr rfl) hrev.waits, hc, Table.find_upsert_self .., hp, hrev.id.trans hid,
      hrev.ownerId.trans howner⟩
  saves {c d d' c' s P} h hu ha hp hP := by
    refine wp_joining .done h (fun r ws he => ?_) fun _ s' _ => hP s'
    obtain ⟨-, -, rfl⟩ := Database.saveConversation_eq_ok he
    obtain ⟨-, -, -, hpair, hid, -⟩ := h.2.2
    refine ⟨.of_eq rfl, JoinedBut.resave h.2.2 hu (fun i hi => ?_) fun _ => hp hpair⟩
    rw [ha, hpair.active, ← hid] at hi
    exact (Option.some.inj hi).symm
  settles {c d d' s} h hp := by
    obtain ⟨hj, hc, hfind, hpair, hid, howner⟩ := h.2.2
    refine ⟨h.1, h.2.1, { hj with paired := fun x hx _ hopen => ?_ }⟩
    by_cases hne : x.id = d'.id
    · obtain rfl : x = d' := Table.eq_of_key_eq hx (Table.mem_of_find hfind) hne
      rw [howner, hpair.owner]
      exact ⟨c, hc, hp hpair⟩
    · exact hj.paired x hx (by simpa using hne) hopen

/-- The handling of an update keeps the invariant. -/
def joinedHandlerRules (claimed : List (UUID × UUID)) : HandlerRules (Alone Database) where
  toRules := joinedRules claimed
  begins {id now s P} h htrue hfalse := by
    refine wp_joining .opened h (fun r ws he => ?_) fun r s' _ h' => ?_
    · have hws : (s.view.beginUpdate id now).2 = ws := (Prod.mk.inj (Except.ok.inj he)).2
      rw [← hws, Database.beginUpdate]
      cases s.view.processedUpdates.find id with
      | some u => exact ⟨.of_eq rfl, h.2.2⟩
      | none => exact ⟨.of_eq rfl, h.2.2.congr rfl rfl (.of_eq rfl)⟩
    · cases r with
      | false => exact hfalse s' h'
      | true => exact htrue s' h'
  claims {hash t name now s P} h hP := by
    refine wp_joining .linking h (fun r ws he => ?_) fun r s' _ => hP r s'
    have he' : s.view.claimChallenge hash t name now = (r, ws) := Except.ok.inj he
    unfold Database.claimChallenge at he'
    split at he' <;> obtain ⟨-, rfl⟩ := Prod.mk.inj he'
    · exact ⟨.of_eq rfl, h.2.2⟩
    · exact ⟨.of_eq rfl, h.2.2.congr rfl rfl (.of_eq rfl)⟩
  audits h hP := by
    refine wp_joining .linking h (fun r ws he => ?_) fun _ s' _ => hP s'
    obtain ⟨-, rfl⟩ := Prod.mk.inj (Except.ok.inj he)
    exact ⟨.of_eq rfl, h.2.2.congr rfl rfl (.of_eq rfl)⟩
  locks {user now s P} h hP := by
    refine wp_execute (fun c ws he => ?_) fun _ _ => trivial
    obtain ⟨hj, hc, -, hr⟩ := JoinedBut.locked h.2.2 he rfl
    exact hP c _ (answers_of_evaluate he) ⟨h.1, h.2.1.tended (.of_eq hr), hj, hc⟩
  vacates hnone h := ⟨h.1, h.2.1, h.2.2.1, h.2.2.1.free h.2.2.2 fun d _ ha => by
    rw [hnone] at ha
    cases ha⟩
  finds {c id s P} h hactive hfound hnone := by
    obtain ⟨hdb, hst, hj, hc⟩ := h
    refine (wp_read rfl).mpr ?_
    -- Without an open draft behind the active id the user has no open draft.
    have hdangling : (s.view.ownedDraft id c.userId).filter CaptureDraft.isOpen = none →
        Joining claimed (.dangling c) s := by
      intro hfilter
      refine ⟨hdb, hst, hj, hc, hj.free hc fun d hd ha ho => ?_⟩
      obtain rfl : d.id = id := Option.some.inj (ha.symm.trans hactive)
      have hown : s.view.ownedDraft d.id c.userId = some d :=
        Database.ownedDraft_eq_some.mpr ⟨Table.find_of_mem hd, ho⟩
      rw [hown] at hfilter
      simpa [Option.filter] using hfilter
    cases hd : s.view.ownedDraft id c.userId with
    | none => exact hnone none s rfl (hdangling (by rw [hd]; rfl))
    | some d =>
      obtain ⟨hfind, howner⟩ := Database.ownedDraft_eq_some.mp hd
      obtain rfl := Table.key_of_find hfind
      by_cases hopen : d.isOpen = true
      · obtain ⟨c', hc', hp⟩ := hj.paired d (Table.mem_of_find hfind) (by simp) hopen
        rw [howner, hc] at hc'
        obtain rfl := Option.some.inj hc'
        exact hfound d s rfl howner hopen ⟨hdb, hst, hj, hc, hfind, hp⟩
      · have hfilter : (some d).filter CaptureDraft.isOpen = none :=
          Option.filter_some_neg (by simpa using hopen)
        exact hnone (some d) s hfilter (hdangling (by rw [hd]; exact hfilter))
  releases {c now s P} h hP := by
    refine wp_joining (.vacant c.userId) h (fun r ws he => ?_) fun _ s' _ => hP s'
    obtain ⟨-, -, rfl⟩ := Database.saveConversation_eq_ok he
    exact ⟨.of_eq rfl, h.2.2.1.release (c := c.finished now) h.2.2.2.2 rfl, h.2.2.2.2⟩
  holds h := ⟨h.1, h.2.1, h.2.2.1.but _ _, h.2.2.2.1, h.2.2.2.2.1, h.2.2.2.2.2, rfl, rfl⟩
  cancels {c d d' now s P} h ha hs hP := by
    have hclosed : d'.isOpen = false := by
      simp [CaptureDraft.isOpen, CaptureDraft.openStates, hs]
    obtain ⟨hj, hc, hfind, hpair, hid, howner⟩ := h.2.2
    refine wp_joining (.vacant c.userId) h (fun r ws he => ?_) fun _ s' _ => hP s'
    obtain ⟨-, -, rfl⟩ := Database.saveConversation_eq_ok he
    refine ⟨.of_eq rfl, JoinedBut.resave h.2.2 rfl (by
      simp [TelegramConversation.finished, TelegramConversation.idle]) fun hopen => ?_,
      fun x hx ho => ?_⟩
    · rw [hclosed] at hopen
      cases hopen
    · by_contra hopen
      by_cases hne : x.id = d'.id
      · obtain rfl : x = d' := Table.eq_of_key_eq hx (Table.mem_of_find hfind) hne
        exact hopen hclosed
      · exact hne ((hj.eq_of_paired hc hpair hx ho (eq_true_of_ne_false hopen)
          (by simpa using hne)).trans hid.symm)
  receives {user id now file s P} h hP := by
    refine wp_joining (.received user (Receipt.receive id user now)) h
      (fun r ws he => ?_) fun _ s' _ => hP s'
    obtain ⟨hnone, -, rfl⟩ := Database.createReceipt_eq_ok he
    have hnew : s.view.receipts.find id = none := hnone
    have ht : Tended s.view (s.view.apply
        (.receipt ⟨Receipt.receive id user now, file, none⟩)) := by
      intro r row hr
      refine ⟨row, ?_, rfl, fun h => h, fun h => h⟩
      rw [Database.find_receipt_apply]
      refine (if_neg fun hid => ?_).trans hr
      have hid' : r = id := hid
      rw [hid', hnew] at hr
      cases hr
    exact ⟨ht, h.2.2.1.congr rfl rfl ht, h.2.2.2, rfl, rfl, rfl, _, Table.find_upsert_self ..,
      rfl⟩
  opens {user d s P} h hd hs hr hP := by
    refine wp_joining (.created user d) h (fun r ws he => ?_) fun _ s' _ => hP s'
    obtain ⟨-, -, hnew, -, -, -, -, rfl⟩ := Database.createDraft_eq_ok he
    refine ⟨.of_eq rfl, h.2.2.1.insert hnew (by simp [hr]) (by simp [hs]),
      Table.find_upsert_self .., hd.ownerId, ?_⟩
    exact fun x hx ho hopen => (Table.mem_upsert.mp hx).resolve_right fun hx' =>
      absurd (h.2.2.2 x hx'.1 ho) (by simp [hopen])
  opensReceipt {user r d s P} h hd hs hr hP := by
    obtain ⟨hj, hfree, howner, hfin, himg, row, hrow, rfl⟩ := h.2.2
    refine wp_joining (.created user d) h (fun _ ws he => ?_) fun _ s' _ => hP s'
    obtain ⟨-, -, hnew, href, -, -, -, rfl⟩ := Database.createDraft_eq_ok he
    refine ⟨.of_eq rfl, hj.insert hnew (fun r' hr' => ?_) (fun _ => ?_),
      Table.find_upsert_self .., hd.ownerId, ?_⟩
    · obtain rfl : row.receipt.id = r' := Option.some.inj (hr.symm.trans hr')
      exact ⟨(href _ hr).1, row, hrow, howner.trans hd.ownerId.symm⟩
    · exact ⟨_, hr, row, hrow, hfin, himg⟩
    · exact fun x hx ho hopen => (Table.mem_upsert.mp hx).resolve_right fun hx' =>
        absurd (hfree x hx'.1 ho) (by simp [hopen])
  points {user d c s P} h hp hu hP := by
    obtain ⟨hj, hfind, howner, hfree⟩ := h.2.2
    refine wp_joining .done h (fun _ ws he => ?_) fun _ s' _ => hP s'
    obtain ⟨-, -, rfl⟩ := Database.saveConversation_eq_ok he
    refine ⟨.of_eq rfl, hj.save (fun x hx hopen ho => ?_) (fun x hx hid => ?_) fun i hi => ?_⟩
    · rw [hfree x hx (ho.trans hu) hopen]
      exact hp
    · obtain rfl : x = d :=
        Table.eq_of_key_eq hx (Table.mem_of_find hfind) (Option.some.inj hid)
      exact hp.owner
    · exact ⟨d, Table.mem_of_find hfind, Option.some.inj (hp.active.symm.trans hi), hp.owner⟩
  confirms {c d s F Q} h hready hF hraised hQ := by
    obtain ⟨hdb, hst, hj, hc, hfind, hp⟩ := h
    have hdone : Joining claimed .done s := ⟨hdb, hst, hj⟩
    show (confirmCaptureDraft d.id c.userId).wp ((joinedLogic claimed).withFail F) Q s
    rw [joinedLogic, alone, Logic.withFail_withFail]
    refine wp_confirmCaptureDraft (fun m => hF _ s hdone) (fun m => hF _ s hdone)
      (fun m s' _ => hraised m s') (fun _ _ _ => trivial) (fun d₀ e hd₀ hs₀ => ?_)
      fun d₀ e d' hby => ?_
    · -- The active draft is in review, so it has no Expense yet.
      have hd : d₀ = d :=
        Option.some.inj ((Database.ownedDraft_eq_some.mp hd₀).1.symm.trans hfind)
      rw [hd, hready] at hs₀
      cases hs₀
    · obtain ⟨hown, -⟩ := Database.ownedDraft_eq_some.mp hby.owned
      obtain rfl : d₀ = d := Option.some.inj (hown.symm.trans hfind)
      obtain ⟨t, rfl⟩ := hby.confirmed
      set d' : CaptureDraft := { d₀ with
        state := .confirmed, expenseId := some e.id, confirmedAt := some t, modifiedAt := t }
      have hj₁ : Joined (s.view.apply (.expense e)) := hj.congr rfl rfl (.of_eq rfl)
      have hj₂ : JoinedBut (some d'.id) none (s.view.confirmed e d') :=
        hj₁.rewrite (Table.mem_of_find hfind) rfl rfl rfl (.inl rfl) (by simp [d'])
      have hj' : Joined (s.view.confirmed e d') := hj₂.closed fun x hx hid => by
        rcases Table.mem_upsert.mp hx with rfl | ⟨-, hne⟩
        · rfl
        · exact absurd hid hne
      refine ⟨⟨hj', hst⟩, hQ e _ ⟨⟨hj', hst⟩, hst, hj', hj'.free hc fun x hx hax _ => ?_⟩⟩
      rcases Table.mem_upsert.mp hx with rfl | ⟨-, hne⟩
      · rfl
      · exact absurd (Option.some.inj (hax.symm.trans hp.active)) hne
  finishes {c now s P} h hP := by
    refine wp_joining .done h (fun r ws he => ?_) fun _ s' _ => hP s'
    obtain ⟨-, -, rfl⟩ := Database.saveConversation_eq_ok he
    exact ⟨.of_eq rfl, h.2.2.1.release (c := c.finished now) h.2.2.2 rfl⟩

/-- The rounds of the worker keep the invariant. -/
def joinedWorkerRules (claimed : List (UUID × UUID)) : WorkerRules (Alone Database) where
  toRules := joinedRules claimed
  trusted id owner := (id, owner) ∈ claimed
  resumes h := h
  books ho h hP := wp_joining .idle h (fun _ _ he => Joined.books ho h.2.2 he) hP
  selects {now s P} h hsome hnone := by
    refine (wp_read rfl).mpr ?_
    cases s.view.selectClaimable (fun _ => false) now with
    | none => exact hnone s h
    | some r => exact hsome r s h
  claimsReceipt {now r a r' s P} h hclaim hP := by
    obtain ⟨-, -, rfl⟩ := Receipt.claim_eq_ok hclaim
    exact wp_joining .idle h (fun _ _ he => Joined.claim h.2.2 rfl he) fun _ s' _ => hP s'
  finishesReceipt {r s P} h hfin ht htrue hfalse := by
    obtain ⟨row₀, hrow₀, howner⟩ := h.2.1 _ ht
    refine wp_execute (fun current ws he => ?_) fun _ _ => trivial
    rcases Database.saveFinished_eq_ok he with ⟨rfl, rfl⟩ | ⟨row, rfl, hrow, -, -, -, rfl⟩
    · exact hfalse _ h
    · obtain rfl : row₀ = row := Option.some.inj (hrow₀.symm.trans hrow)
      have hid : row₀.receipt.id = r.id := (Table.key_of_find hrow :)
      have hfind : ∀ x, (s.view.apply (.receipt (Database.finishedReceipt row₀ r))).receipts.find x =
          if x = r.id then some (Database.finishedReceipt row₀ r) else s.view.receipts.find x := by
        intro x
        rw [Database.find_receipt_apply, ← hid]
        rfl
      refine htrue _ ⟨h.1, fun p hp => ?_, ?_, _, (hfind r.id).trans (if_pos rfl), howner⟩
      · obtain ⟨row, hpr, hpo⟩ := h.2.1 p hp
        by_cases hx : p.1 = r.id
        · rw [hx, hrow] at hpr
          obtain rfl := Option.some.inj hpr
          exact ⟨_, (hfind p.1).trans (if_pos hx), hpo⟩
        · exact ⟨row, ((hfind p.1).trans (if_neg hx)).trans hpr, hpo⟩
      · refine ⟨h.2.2.paired, fun d hd hs => ?_, fun d hd r' hr' => ?_, h.2.2.single, h.2.2.own⟩
        · obtain ⟨r', hr', hun | ⟨row, hpr, hopen⟩⟩ := h.2.2.waiting d hd hs
          · cases hun
          by_cases hx : r' = r.id
          · exact ⟨r', hr', .inl (by rw [hx])⟩
          · exact ⟨r', hr', .inr ⟨row, ((hfind r').trans (if_neg hx)).trans hpr, hopen⟩⟩
        · obtain ⟨row, hpr, hpo⟩ := h.2.2.receipt d hd r' hr'
          by_cases hx : r' = r.id
          · rw [hx, hrow] at hpr
            obtain rfl := Option.some.inj hpr
            exact ⟨_, (hfind r').trans (if_pos hx), hpo⟩
          · exact ⟨row, ((hfind r').trans (if_neg hx)).trans hpr, hpo⟩
  locksFinishing {r now s P} h hP := by
    obtain ⟨hj, row, hrow, howner⟩ := h.2.2
    refine wp_execute (fun c ws he => ?_) fun _ _ => trivial
    have hu : c.userId = r.ownerId := answers_of_evaluate he
    obtain ⟨hj', hc, -, hr⟩ := hj.locked he rfl
    refine hP c _ hu ⟨h.1, h.2.1.tended (.of_eq hr), hj', hc, row, ?_, howner.trans hu.symm⟩
    rw [hr]
    exact hrow
  recovers {r c s P} h hfound hnone := by
    obtain ⟨hj, hc, row, hrow, howner⟩ := h.2.2
    refine (wp_read rfl).mpr ?_
    -- Without an open draft nobody waits for the receipt.
    have hdone : (s.view.draftOfReceipt r.id).filter CaptureDraft.isOpen = none →
        Joining claimed (.drained r) s := by
      intro hfilter
      refine ⟨h.1, h.2.1, { hj with waiting := fun d hd hs => ?_ }⟩
      obtain ⟨r', hr, hun | hrow⟩ := hj.waiting d hd hs
      · obtain rfl := Option.some.inj hun
        cases hx : s.view.draftOfReceipt r.id with
        | none => exact absurd (decide_eq_true hr) (List.find?_eq_none.mp hx d hd)
        | some x =>
          obtain ⟨hxmem, hxr⟩ := Database.mem_of_draftOfReceipt hx
          obtain rfl := hj.single x hxmem d hd r.id hxr hr
          rw [hx] at hfilter
          simp [Option.filter, CaptureDraft.isOpen, CaptureDraft.openStates, hs] at hfilter
      · exact ⟨r', hr, .inr hrow⟩
    cases hd : s.view.draftOfReceipt r.id with
    | none => exact hnone none s rfl (hdone (by rw [hd]; rfl))
    | some d =>
      obtain ⟨hmem, hr⟩ := Database.mem_of_draftOfReceipt hd
      by_cases hopen : d.isOpen = true
      · obtain ⟨row', hrow', ho⟩ := hj.receipt d hmem r.id hr
        obtain rfl := Option.some.inj (hrow.symm.trans hrow')
        obtain ⟨c', hc', hp⟩ := hj.paired d hmem (by simp) hopen
        rw [← ho, howner, hc] at hc'
        obtain rfl := Option.some.inj hc'
        exact hfound d s hr hopen ⟨h.1, h.2.1, hj, hc, Table.find_of_mem hmem, hr, hp⟩
      · have hfilter : (some d).filter CaptureDraft.isOpen = none :=
          Option.filter_some_neg (by simpa using hopen)
        exact hnone (some d) s hfilter (hdone (by rw [hd]; exact hfilter))
  stores {φ r x s P} hφ _ _ h hP := by
    refine wp_joining φ h (fun _ ws he => ?_) fun _ s' _ => hP s'
    obtain ⟨-, -, -, -, rfl⟩ := Database.saveResult_eq_ok he
    refine ⟨.of_eq rfl, ?_⟩
    cases hφ with
    | recovering c d => exact ⟨h.2.2.1.congr rfl rfl (.of_eq rfl), h.2.2.2⟩
    | drained => exact h.2.2.congr rfl rfl (.of_eq rfl)
  applies {r c d d' s P} h hrev hs hP := by
    obtain ⟨hj, hc, hfind, hr, hp⟩ := h.2.2
    refine wp_joining (.updated c d d') h (fun _ ws he => ?_) fun _ s' _ => hP s'
    obtain ⟨rfl, -⟩ := hrev.written hfind he
    have hmem : d' ∈ (s.view.apply (.draft d')).drafts := Table.mem_upsert.mpr (.inl rfl)
    exact ⟨.of_eq rfl, (hj.rewrite (Table.mem_of_find hfind) hrev.id hrev.ownerId
      hrev.receiptId (.inl rfl) hrev.waits).read hmem (hrev.receiptId.trans hr) hs, hc,
      Table.find_upsert_self .., hp, hrev.id, hrev.ownerId⟩

end Rules

end MintFlow
