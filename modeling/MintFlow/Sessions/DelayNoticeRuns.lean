import MintFlow.Sessions.DelayNotices

set_option relaxedAutoImplicit false
set_option autoImplicit false

/-!
# Delay notices in every run

Whatever requests run at the same time and whoever is stopped, no receipt's delay message is sent
twice. A claim skips the rows that others lock and marks those it takes, a commit publishes the marks
with the notices, and a session sends only what it published.

## Main definitions

* `MintFlow.published`, `MintFlow.openClaim` — the notices a session published, and the claim of its
  open transaction.
* `MintFlow.ClaimsNotices` — the receipts that an open transaction claimed, and how it found them.
* `MintFlow.Justified` — a notice was published by a commit at which the draft was waiting and active.
* `MintFlow.NoticesKept` — what every step keeps.

## Main results

* `MintFlow.NoticesKept.step` — it does.
* `MintFlow.delay_notices` — **Delay notices**: at most one for a receipt, and only while waiting.
-/

namespace MintFlow

open Transact Transact.Prog

variable {ι : Type} [DecidableEq ι]

/-! ## What sessions published and claimed -/

/-- The notices that a session published. -/
def published (c : System ι) (i : ι) : List Notice := (noticeTracker.state (c.history i)).made

/-- The claim of a session's open transaction. -/
def openClaim (c : System ι) (i : ι) : Option NoticeClaim :=
  (noticeTracker.state (c.history i)).claim

/-- A receipt that a claim may take: unfinished, at least thirty seconds old, and claimed for the
first time. -/
def Database.Overdue (db : Database) (now : Instant) (receiptId ownerId : UUID) : Prop :=
  ∃ row, db.receipts.find receiptId = some row ∧ row.receipt.ownerId = ownerId ∧
    row.receipt.isFinished = false ∧ row.delayNoticeSentAt = none ∧
    row.receipt.createdAt ≤ now - delayNoticeAfter

/-- Session `i` claimed these receipts in the transaction that is open at `c`, and found each of
them overdue. -/
def ClaimsNotices (start c : System ι) (i : ι) (now : Instant) (claimed : List (UUID × UUID)) :
    Prop :=
  ∃ c₀ c₁ limit, Reaches postgres start c₀ ∧ step postgres c₀ (.go i) = some c₁ ∧
    c₁.log = c₀.log ++
      [(i, .did (.claimDelayNotices now (now - delayNoticeAfter) limit) claimed)] ∧
    (∀ p ∈ claimed, (c₀.view postgres i).Overdue now p.1 p.2) ∧ Reaches postgres c₁ c ∧
    ∃ es, c.history i = c₁.history i ++ es ∧ ∀ e ∈ es, e.ends = false

/-- A notice was published by a commit of session `i`: the transaction had claimed the receipt, and
as it commits the draft is waiting and is the active draft of the owner's conversation. -/
def Justified (start c : System ι) (i : ι) (n : Notice) : Prop :=
  ∃ c₁ c₂ now claimed, ClaimsNotices start c₁ i now claimed ∧
    (n.receiptId, n.ownerId) ∈ claimed ∧ step postgres c₁ (.go i) = some c₂ ∧
    c₂.log = c₁.log ++ [(i, .committed)] ∧ Reaches postgres c₂ c ∧
    c₂.db.drafts.find n.draft.id = some n.draft ∧
    c₂.db.conversations.find n.ownerId = some n.conversation

/-- **What every step keeps** of sessions that send delay notices. -/
structure NoticesKept (start c : System ι) : Prop where
  reached : Reaches postgres start c
  sound : c.Sound Write.keys
  delivers : ∀ i, Delivers noticeOutbox (fun _ _ => True) c i
  aware : ∀ i, Aware postgres noticeTracker Fact.key .update Fact.Holds Noticing.knows c i
  /-- Every session sees which receipts were claimed. -/
  follows : ∀ id i, c.db.wasNoticed id = true → (c.view postgres i).wasNoticed id = true
  /-- A published notice was claimed. -/
  claimed : ∀ i, ∀ n ∈ published c i, c.db.wasNoticed n.receiptId = true
  once : ∀ i, ((published c i).map fun n => n.receiptId).Nodup
  apart : ∀ i j, i ≠ j → ∀ n ∈ published c i, ∀ m ∈ published c j, n.receiptId ≠ m.receiptId
  /-- What a session has claimed, nobody has published. -/
  fresh : ∀ i, (c.sessions i).closed = false → ∀ claim ∈ openClaim c i, ∀ p ∈ claim.claimed,
    ∀ j, ∀ n ∈ published c j, n.receiptId ≠ p.1
  claims : ∀ i, ∀ claim ∈ openClaim c i, ClaimsNotices start c i claim.now claim.claimed ∧
    (claim.claimed.map Prod.fst).Nodup
  justified : ∀ i, ∀ n ∈ published c i, Justified start c i n

/-! ## One step -/

section Step

variable {start c c' : System ι} {l : Label ι} {i : ι}

/-- A session publishes with a commit what its claim made ready.

**Proof sketch.** By the move. Only a commit publishes, and it adds what the claim of the
transaction has made ready. -/
lemma published_of_step (hstep : step postgres c l = some c') (i : ι) :
    published c' i = published c i ∨
      l = .go i ∧ c'.log = c.log ++ [(i, .committed)] ∧ c'.db = c.view postgres i ∧
        ∃ claim ∈ openClaim c i, published c' i = published c i ++ claim.ready := by
  obtain ⟨-, hm⟩ := move_of_step hstep
  by_cases hl : l.who = i
  swap
  · left
    unfold published
    rw [history_stable hl hm]
  subst hl
  cases recorded_of_move hm with
  | nothing hhistory =>
    left
    unfold published
    rw [hhistory]
  | did o f r ws hp heval hlog hhistory =>
    left
    unfold published
    rw [hhistory, noticeTracker.state_append]
    exact Noticing.made_after o r _
  | rolledBack hhistory =>
    left
    unfold published
    rw [hhistory, noticeTracker.state_append]
    rfl
  | committed hdb hlog hhistory =>
    have hmade : published c' l.who =
        published c l.who ++ (noticeTracker.state (c.history l.who)).ready := by
      unfold published
      rw [hhistory, noticeTracker.state_append]
      rfl
    cases hclaim : openClaim c l.who with
    | none =>
      left
      rw [hmade, Noticing.ready, show (noticeTracker.state (c.history l.who)).claim = none from hclaim]
      exact List.append_nil _
    | some claim =>
      refine .inr ⟨eq_go_of_log hstep hlog, hlog, hdb, claim, rfl, ?_⟩
      rw [hmade, Noticing.ready,
        show (noticeTracker.state (c.history l.who)).claim = some claim from hclaim]
      rfl

/-- A claim goes on with its transaction, or was just made.

**Proof sketch.** By the move. The end of a transaction leaves no claim, the statements of the loop
keep the time and the receipts of the one there is, and a new one comes from the statement that
claims, with the rows it found overdue. -/
lemma openClaim_of_step (hstep : step postgres c l = some c') {i : ι} {claim' : NoticeClaim}
    (hclaim : openClaim c' i = some claim') :
    (∃ claim ∈ openClaim c i, claim.now = claim'.now ∧ claim.claimed = claim'.claimed ∧
        ∃ es, c'.history i = c.history i ++ es ∧ ∀ e ∈ es, e.ends = false) ∨
      l = .go i ∧ ∃ before limit f,
        (c.sessions i).prog = .stmt (.claimDelayNotices claim'.now before limit) f ∧
        c'.log = c.log ++
          [(i, .did (.claimDelayNotices claim'.now before limit) claim'.claimed)] ∧
        c'.history i = c.history i ++
          [.did (.claimDelayNotices claim'.now before limit) claim'.claimed] ∧
        claim'.claimed = ((c.view postgres i).overdueReceipts (c.busy i) before limit).map
          fun row => (row.receipt.id, row.receipt.ownerId) := by
  obtain ⟨-, hm⟩ := move_of_step hstep
  have hsame : c'.history i = c.history i →
      ∃ claim ∈ openClaim c i, claim.now = claim'.now ∧ claim.claimed = claim'.claimed ∧
        ∃ es, c'.history i = c.history i ++ es ∧ ∀ e ∈ es, e.ends = false := by
    intro hhistory
    refine ⟨claim', ?_, rfl, rfl, [], by rw [hhistory, List.append_nil], fun _ h => by cases h⟩
    unfold openClaim at hclaim ⊢
    rwa [hhistory] at hclaim
  by_cases hl : l.who = i
  swap
  · exact .inl (hsame (history_stable hl hm))
  subst hl
  cases recorded_of_move hm with
  | nothing hhistory => exact .inl (hsame hhistory)
  | committed hdb hlog hhistory =>
    unfold openClaim at hclaim
    rw [hhistory, noticeTracker.state_append] at hclaim
    cases hclaim
  | rolledBack hhistory =>
    unfold openClaim at hclaim
    rw [hhistory, noticeTracker.state_append] at hclaim
    cases hclaim
  | did o f r ws hp heval hlog hhistory =>
    unfold openClaim at hclaim ⊢
    rw [hhistory, noticeTracker.state_append] at hclaim
    have hmap : ∀ g : NoticeClaim → NoticeClaim,
        (∀ claim, (g claim).now = claim.now ∧ (g claim).claimed = claim.claimed) →
        (noticeTracker.state (c.history l.who)).claim.map g = some claim' →
        ∃ claim ∈ (noticeTracker.state (c.history l.who)).claim,
          claim.now = claim'.now ∧ claim.claimed = claim'.claimed ∧
            ∃ es, c'.history l.who = c.history l.who ++ es ∧ ∀ e ∈ es, e.ends = false := by
      intro g hg hclaim
      obtain ⟨claim, hmem, rfl⟩ := Option.map_eq_some_iff.mp hclaim
      refine ⟨claim, hmem, (hg claim).1.symm, (hg claim).2.symm, _, hhistory, fun e he => ?_⟩
      rw [List.mem_singleton.mp he]
      rfl
    cases o
    case claimDelayNotices now before limit =>
      right
      obtain rfl := Option.some.inj hclaim
      obtain ⟨rfl, -⟩ := Prod.mk.inj (Except.ok.inj heval)
      exact ⟨eq_go_of_log hstep hlog, before, limit, f, hp, hlog, hhistory, rfl⟩
    case lockConversation user now =>
      exact .inl (hmap _ (NoticeClaim.kept_lock r) hclaim)
    case getDraftForUpdateByReceipt id =>
      exact .inl (hmap _ (NoticeClaim.kept_find r) hclaim)
    case activeConnectionForUser user =>
      exact .inl (hmap _ (NoticeClaim.kept_address r) hclaim)
    all_goals
      refine .inl ⟨claim', hclaim, rfl, rfl, _, hhistory, fun e he => ?_⟩
      rw [List.mem_singleton.mp he]
      rfl

end Step

/-! ## The invariant -/

namespace NoticesKept

variable {start c c' : System ι} {l : Label ι}

/-- The facts of an open session hold, under its locks. -/
lemma facts (h : NoticesKept start c) {i : ι} (hopen : (c.sessions i).closed = false)
    {claim : NoticeClaim} (hclaim : openClaim c i = some claim) {a : Fact} (ha : a ∈ claim.facts) :
    c.holds i a.key .update = true ∧ a.Holds (c.view postgres i) := by
  refine h.aware i hopen a id ?_
  have hfacts : (noticeTracker.state (c.history i)).facts = claim.facts := by
    unfold Noticing.facts
    rw [show (noticeTracker.state (c.history i)).claim = some claim from hclaim]
    rfl
  unfold Noticing.knows
  rw [hfacts]
  exact if_pos ha

/-- What was claimed is a fact. -/
lemma mem_facts_of_claimed {claim : NoticeClaim} {p : UUID × UUID} (hp : p ∈ claim.claimed) :
    Fact.noticed p.1 ∈ claim.facts :=
  NoticeClaim.mem_facts.mpr (.inl ⟨p, hp, rfl⟩)

/-- A notice that is ready is of a receipt that was claimed. -/
lemma claimed_of_ready {i : ι} {claim : NoticeClaim} (hclaim : openClaim c i = some claim)
    {n : Notice} (hn : n ∈ claim.ready) : (n.receiptId, n.ownerId) ∈ claim.claimed := by
  refine (inOrder_state (c.history i) claim hclaim).subset ?_
  refine List.mem_append_left _ (List.mem_append_left _ ?_)
  exact List.mem_map_of_mem hn

/-- What a session knows of the rows it locked stays true. -/
lemma aware_step (h : NoticesKept start c) (hstep : step postgres c l = some c') (i : ι) :
    Aware postgres noticeTracker Fact.key .update Fact.Holds Noticing.knows c' i := by
  obtain ⟨hopen, hm⟩ := move_of_step hstep
  refine aware_of_move (by decide) h.sound Fact.guarded (fun o f r ws hp heval a P' hP' => ?_)
    (fun k a => ?_) (fun k a => ?_) hopen h.aware hm i
  · unfold Noticing.knows at hP'
    have hmem := (Option.ite_none_right_eq_some.mp hP').1
    obtain rfl := Option.some.inj (Option.ite_none_right_eq_some.mp hP').2
    rcases facts_of_stmt ((h.delivers l.who).mayDo hp) heval hmem with ⟨hold, hkeep⟩ | ⟨hlock, hnew⟩
    · exact .inl ⟨id, if_pos hold, hkeep⟩
    · exact .inr ⟨⟨_, hlock, by decide⟩, hnew⟩
  · exact if_neg List.not_mem_nil
  · exact if_neg List.not_mem_nil

/-- What is claimed stays claimed, in every session's eyes. -/
lemma noticed_step (h : NoticesKept start c) (hstep : step postgres c l = some c') (id : UUID) :
    (∀ i, c'.db.wasNoticed id = true → (c'.view postgres i).wasNoticed id = true) ∧
      (c.db.wasNoticed id = true → c'.db.wasNoticed id = true) := by
  obtain ⟨-, hm⟩ := move_of_step hstep
  exact persists_of_move (R := fun x y : Prop => x → y) h.sound (Fact.guarded (.noticed id))
    (fun _ hx => hx) (fun _ _ _ hxy hyz hx => hyz (hxy hx))
    (fun o f r ws _ heval _ hid => wasNoticed_of_stmt heval hid) (h.follows id) hm

/-- What is published was claimed. -/
lemma claimed_step (h : NoticesKept start c) (hstep : step postgres c l = some c') (i : ι) :
    ∀ n ∈ published c' i, c'.db.wasNoticed n.receiptId = true := by
  intro n hn
  rcases published_of_step hstep i with heq | ⟨rfl, -, hdb, claim, hclaim, heq⟩
  · rw [heq] at hn
    exact (h.noticed_step hstep n.receiptId).2 (h.claimed i n hn)
  · rw [heq] at hn
    rcases List.mem_append.mp hn with hold | hnew
    · exact (h.noticed_step hstep n.receiptId).2 (h.claimed i n hold)
    · rw [hdb]
      exact (h.facts (move_of_step hstep).1 hclaim
        (mem_facts_of_claimed (claimed_of_ready hclaim hnew))).2

/-- A notice that is published now was published by nobody before. -/
lemma new_of_ready (h : NoticesKept start c) {i : ι} (hopen : (c.sessions i).closed = false)
    {claim : NoticeClaim} (hclaim : openClaim c i = some claim) {n : Notice} (hn : n ∈ claim.ready)
    (j : ι) : ∀ m ∈ published c j, m.receiptId ≠ n.receiptId :=
  h.fresh i hopen claim hclaim _ (claimed_of_ready hclaim hn) j

/-- A session publishes no receipt twice. -/
lemma once_step (h : NoticesKept start c) (hstep : step postgres c l = some c') (i : ι) :
    ((published c' i).map fun n => n.receiptId).Nodup := by
  rcases published_of_step hstep i with heq | ⟨rfl, -, -, claim, hclaim, heq⟩
  · rw [heq]
    exact h.once i
  · have hready : (claim.ready.map fun n => n.receiptId).Nodup := by
      have horder : (claim.items.map Prod.fst).Sublist (claim.claimed.map Prod.fst) :=
        (inOrder_state (c.history i) claim hclaim).map _
      have hfirst : (claim.ready.map fun n => n.receiptId).Sublist (claim.items.map Prod.fst) := by
        unfold NoticeClaim.items
        rw [List.append_assoc, List.map_append, List.map_map]
        exact List.sublist_append_left _ _
      exact ((h.claims i claim hclaim).2.sublist horder).sublist hfirst
    rw [heq, List.map_append, List.nodup_append]
    refine ⟨h.once i, hready, fun a ha b hb => ?_⟩
    obtain ⟨m, hm, rfl⟩ := List.mem_map.mp ha
    obtain ⟨n, hn, rfl⟩ := List.mem_map.mp hb
    exact h.new_of_ready (move_of_step hstep).1 hclaim hn i m hm

/-- No two sessions publish the same receipt.

**Proof sketch.** One of the two at most publishes with this step, and what it publishes is of
receipts that nobody has published before. -/
lemma apart_step (h : NoticesKept start c) (hstep : step postgres c l = some c') (i j : ι)
    (hij : i ≠ j) : ∀ n ∈ published c' i, ∀ m ∈ published c' j, n.receiptId ≠ m.receiptId := by
  intro n hn m hm
  rcases published_of_step hstep i with hi | ⟨rfl, -, -, claim, hclaim, hi⟩
  · rcases published_of_step hstep j with hj | ⟨rfl, -, -, claim, hclaim, hj⟩
    · rw [hi] at hn
      rw [hj] at hm
      exact h.apart i j hij n hn m hm
    · rw [hi] at hn
      rw [hj] at hm
      rcases List.mem_append.mp hm with hold | hnew
      · exact h.apart i j hij n hn m hold
      · exact h.new_of_ready (move_of_step hstep).1 hclaim hnew i n hn
  · rcases published_of_step hstep j with hj | ⟨hl, -⟩
    swap
    · exact absurd (Label.go.inj hl) hij
    rw [hi] at hn
    rw [hj] at hm
    rcases List.mem_append.mp hn with hold | hnew
    · exact h.apart i j hij n hold m hm
    · exact (h.new_of_ready (move_of_step hstep).1 hclaim hnew j m hm).symm

/-- What a session has claimed, nobody has published: who publishes holds the lock of the receipt.

**Proof sketch.** A claim that goes on was fresh, and a session that publishes one of its receipts
now would hold the lock of it: no other does, and its own claim ends with the commit. A claim that
is made now is of overdue receipts, which have had no notice, while whatever is published was
marked. -/
lemma fresh_step (h : NoticesKept start c) (hstep : step postgres c l = some c') (i : ι)
    (hopen' : (c'.sessions i).closed = false) :
    ∀ claim' ∈ openClaim c' i, ∀ p ∈ claim'.claimed, ∀ j, ∀ n ∈ published c' j,
      n.receiptId ≠ p.1 := by
  obtain ⟨hwho, hm⟩ := move_of_step hstep
  have hopen : (c.sessions i).closed = false := by
    by_cases hl : l.who = i
    · rw [← hl]
      exact hwho
    · rw [← session_stable hl hm]
      exact hopen'
  intro claim' hclaim' p hp j n hn
  rcases openClaim_of_step hstep hclaim' with ⟨claim, hclaim, -, hsame, es, hes, hends⟩ |
    ⟨rfl, before, limit, f, hprog, hlog, -, hanswer⟩
  · rw [← hsame] at hp
    rcases published_of_step hstep j with hj | ⟨rfl, hlog, -, claim₁, hclaim₁, hj⟩
    · rw [hj] at hn
      exact h.fresh i hopen claim hclaim p hp j n hn
    rw [hj] at hn
    rcases List.mem_append.mp hn with hold | hnew
    · exact h.fresh i hopen claim hclaim p hp j n hold
    -- The session that commits holds the lock, so it is the one that claimed; but its claim is over.
    intro heq
    have hi := (h.facts hopen hclaim (mem_facts_of_claimed hp)).1
    have hj' := (h.facts hwho hclaim₁ (mem_facts_of_claimed (claimed_of_ready hclaim₁ hnew))).1
    obtain rfl : i = j := by
      refine h.sound.eq_of_conflicts hi ?_ (n := .update) rfl
      rw [← heq]
      exact hj'
    rw [Config.history_of_log hlog] at hes
    have hend := hends _ (List.append_cancel_left hes ▸ List.mem_singleton.mpr rfl)
    cases hend
  · -- Nothing is published as notices are claimed, and what was published is not overdue.
    have hj : published c' j = published c j := by
      rcases published_of_step hstep j with hj | ⟨-, hlog', -⟩
      · exact hj
      · have heq := List.append_cancel_left (hlog.symm.trans hlog')
        cases heq
    rw [hj] at hn
    rw [hanswer] at hp
    obtain ⟨row, hrow, rfl⟩ := List.mem_map.mp hp
    obtain ⟨hmem, -, -, hnone, -⟩ := Database.mem_overdueReceipts hrow
    have hseen := h.follows _ i (h.claimed j n hn)
    intro heq
    unfold Database.wasNoticed at hseen
    rw [heq, Table.find_of_mem hmem, Option.any_some, hnone] at hseen
    cases hseen

/-- How the claim of an open transaction was made.

**Proof sketch.** A claim that goes on was made as it was, with a history that is longer by what the
step did. A new one is of the rows that the statement found overdue, at the time the tracker holds
it to. -/
lemma claims_step (h : NoticesKept start c) (hstep : step postgres c l = some c') (i : ι) :
    ∀ claim' ∈ openClaim c' i, ClaimsNotices start c' i claim'.now claim'.claimed ∧
      (claim'.claimed.map Prod.fst).Nodup := by
  intro claim' hclaim'
  rcases openClaim_of_step hstep hclaim' with ⟨claim, hclaim, hnow, hsame, es, hes, hends⟩ |
    ⟨rfl, before, limit, f, hprog, hlog, hhistory, hanswer⟩
  · rw [← hnow, ← hsame]
    obtain ⟨⟨c₀, c₁, limit, hreach, hclaims, hlog, hoverdue, hreach', es', hes', hends'⟩, hnodup⟩ :=
      h.claims i claim hclaim
    refine ⟨⟨c₀, c₁, limit, hreach, hclaims, hlog, hoverdue, hreach'.next hstep, es' ++ es, ?_,
      fun e he => ?_⟩, hnodup⟩
    · rw [hes, hes', List.append_assoc]
    · rcases List.mem_append.mp he with he | he
      · exact hends' e he
      · exact hends e he
  · obtain rfl : before = claim'.now - delayNoticeAfter :=
      ((h.delivers i).mayDo hprog).2 _ _ _ rfl
    refine ⟨⟨c, c', limit, h.reached, hstep, hlog, fun p hp => ?_, .refl, [],
      (List.append_nil _).symm, fun _ he => by cases he⟩, ?_⟩
    · rw [hanswer] at hp
      obtain ⟨row, hrow, rfl⟩ := List.mem_map.mp hp
      obtain ⟨hmem, hunfinished, -, hnone, hold⟩ := Database.mem_overdueReceipts hrow
      exact ⟨row, Table.find_of_mem hmem, rfl, hunfinished, hnone, hold⟩
    · rw [hanswer, List.map_map]
      exact Database.nodup_overdueReceipts _ _ _ _

/-- A notice is justified by the commit that publishes it.

**Proof sketch.** What was justified stays so. What the commit publishes was claimed by this
transaction, and the session still knows its facts under their locks, so they are true of the state
that it commits. -/
lemma justified_step (h : NoticesKept start c) (hstep : step postgres c l = some c') (i : ι) :
    ∀ n ∈ published c' i, Justified start c' i n := by
  have hold : ∀ n ∈ published c i, Justified start c' i n := by
    intro n hn
    obtain ⟨c₁, c₂, now, claimed, hclaims, hmem, hcommit, hlog, hreach, hfacts⟩ :=
      h.justified i n hn
    exact ⟨c₁, c₂, now, claimed, hclaims, hmem, hcommit, hlog, hreach.next hstep, hfacts⟩
  intro n hn
  rcases published_of_step hstep i with heq | ⟨rfl, hlog, hdb, claim, hclaim, heq⟩
  · rw [heq] at hn
    exact hold n hn
  rw [heq] at hn
  rcases List.mem_append.mp hn with hbefore | hnew
  · exact hold n hbefore
  have hopen := (move_of_step hstep).1
  have hfact : ∀ a ∈ n.facts, a.Holds c'.db := fun a ha => by
    rw [hdb]
    exact (h.facts hopen hclaim (NoticeClaim.mem_facts.mpr (.inr (.inr ⟨n, hnew, ha⟩)))).2
  refine ⟨c, c', claim.now, claim.claimed, (h.claims i claim hclaim).1,
    claimed_of_ready hclaim hnew, hstep, hlog, .refl, ?_, ?_⟩
  · exact hfact (.draft n.draft) (List.mem_cons_of_mem _ (List.mem_singleton.mpr rfl))
  · rw [← n.owned]
    exact hfact (.conversation n.conversation) List.mem_cons_self

/-- **Every step** keeps the invariant. -/
lemma step (h : NoticesKept start c) (hstep : Transact.step postgres c l = some c') :
    NoticesKept start c' where
  reached := h.reached.next hstep
  sound := sound_of_move postgres_covers h.sound (move_of_step hstep).2
  delivers i := (h.delivers i).move (fun _ => postgres_fits rfl (fun _ _ => trivial) _ _)
    (fun _ _ => trivial) (move_of_step hstep).2
  aware := h.aware_step hstep
  follows id := (h.noticed_step hstep id).1
  claimed := h.claimed_step hstep
  once := h.once_step hstep
  apart := h.apart_step hstep
  fresh := h.fresh_step hstep
  claims := h.claims_step hstep
  justified := h.justified_step hstep

variable [PythonRuntime]

/-- It holds before the first step. -/
lemma begin (db : Database) (requests : ι → Request) (tapes : ι → Stream' Reading) :
    NoticesKept (started db requests tapes) (started db requests tapes) where
  reached := .refl
  sound := ⟨fun _ _ h => absurd h List.not_mem_nil, fun _ _ h => absurd h List.not_mem_nil⟩
  delivers i := .start rfl rfl (Request.wp_notices (requests i))
  aware i _ a P h := by
    have hmem := (Option.ite_none_right_eq_some.mp h).1
    exact absurd hmem List.not_mem_nil
  follows _ _ h := h
  claimed _ _ h := absurd h List.not_mem_nil
  once _ := List.nodup_nil
  apart _ _ _ _ h := absurd h List.not_mem_nil
  fresh _ _ _ h := by cases h
  claims _ _ h := by cases h
  justified _ _ h := absurd h List.not_mem_nil

end NoticesKept

/-! ## Delay notices -/

variable [PythonRuntime]

/-- **Delay notices.** Take any database, any number of requests, updates, rounds of the worker and
batches of retention that run on it at the same time, and any of them stopped at any point.

The delay messages that a session sent are some of the notices that it published, in order; no
receipt is among the published notices twice, neither of one session nor of two; and each of them was
published by a commit at which the receipt's draft was waiting for recognition and was the active
draft of its owner's conversation, in a transaction whose claim had found the receipt unfinished and
at least thirty seconds old. A session that is stopped sends nothing more.

**Proof sketch.** A claim marks the receipts it takes and skips those that are locked or marked, and
the mark is never taken back; so a receipt that was published is never claimed again, and while it
is claimed nobody else publishes it. The locks keep the draft and the conversation as they were
read. -/
theorem delay_notices (db : Database) (requests : ι → Request) (tapes : ι → Stream' Reading)
    {ls : List (Label ι)} {c : System ι}
    (h : run postgres (started db requests tapes) ls = some c) :
    ∃ made : ι → List Notice,
      (∀ i, ((c.sentBy i).filter Outgoing.isDelayNotice).Sublist ((made i).map Notice.message)) ∧
      (∀ i, ((made i).map fun n => n.receiptId).Nodup) ∧
      (∀ i j, i ≠ j → ∀ n ∈ made i, ∀ m ∈ made j, n.receiptId ≠ m.receiptId) ∧
      (∀ i, ∀ n ∈ made i, Justified (started db requests tapes) c i n) ∧
      ∀ i ls' c', run postgres c (.crash i :: ls') = some c' → c'.sentBy i = c.sentBy i := by
  have hkept : NoticesKept (started db requests tapes) c :=
    Reaches.induction (P := NoticesKept (started db requests tapes))
      (fun _ _ _ hc hstep => hc.step hstep) (.begin db requests tapes) ⟨ls, h⟩
  refine ⟨published c, fun i => (hkept.delivers i).sublist, hkept.once, hkept.apart,
    hkept.justified, fun i ls' c' hrun => ?_⟩
  obtain ⟨c₁, hstop, hrest⟩ := Option.bind_eq_some_iff.mp hrun
  have hsent : c₁.sentBy i = c.sentBy i ∧ ∃ e, (c₁.sessions i).prog = .fail e := by
    simp only [step, Option.ite_none_left_eq_some, Option.some.injEq] at hstop
    obtain ⟨-, rfl⟩ := hstop
    exact ⟨rfl, _, congrArg Session.prog (Function.update_self i _ c.sessions)⟩
  obtain ⟨hsame, e, hfail⟩ := hsent
  rw [← hsame]
  exact Reaches.sentBy_stopped hfail ⟨ls', hrest⟩

/-- A draft whose receipt is still being read. -/
def unreadDraft : CaptureDraft :=
  ⟨5, 7, .telegramReceipt, .awaitingRecognition, 1, none, none, some july29, some .default, none,
    none, none, none, none, none, 0, 0, none, some 4, none⟩

/-- A minute ago the linked user sent a photo, and nobody has read it yet. -/
def Database.unread : Database :=
  { Database.small with
    drafts := ⟨[unreadDraft], by decide⟩
    conversations := ⟨[⟨7, some 5, .nothing, false, 0, none, fun _ => rfl, fun _ => rfl⟩], by decide⟩
    receipts := ⟨[⟨Receipt.receive 4 7 0, some "photo", none⟩], by decide⟩ }

/-- Two workers look for overdue receipts; the first one publishes its notice and sends it, and the
second one is stopped. -/
def twoWorkers : List (Label ℕ) :=
  [.go 0, .go 0, .go 1, .go 1, .go 0, .go 0, .go 0, .go 0, .go 0, .go 1, .crash 1]

omit [PythonRuntime] in
/-- Of two workers one sends the message, once. -/
theorem delay_notices_two_workers :
    letI := PythonRuntime.ascii
    let start : System ℕ := started Database.unread (fun _ => .work)
      fun _ _ => ⟨60000000, 9, none, 0, none⟩
    ∃ c, run postgres start twoWorkers = some c ∧ c.sent = [(0, delayNotice 70 unreadDraft)] ∧
      ∃ n : Notice, n.message = delayNotice 70 unreadDraft ∧ Justified start c 0 n := by
  let _ := PythonRuntime.ascii
  intro start
  have hsent : (run postgres start twoWorkers).map Config.sent =
      some [(0, delayNotice 70 unreadDraft)] := by decide +kernel
  obtain ⟨c, hrun, hsent⟩ := Option.map_eq_some_iff.mp hsent
  obtain ⟨made, hparts, -, -, hjustified, -⟩ := delay_notices _ _ _ hrun
  refine ⟨c, hrun, hsent, ?_⟩
  have hpart := hparts 0
  have hby : (c.sentBy 0).filter Outgoing.isDelayNotice = [delayNotice 70 unreadDraft] := by
    unfold Config.sentBy
    rw [hsent]
    rfl
  rw [hby, List.singleton_sublist] at hpart
  obtain ⟨n, hn, hmessage⟩ := List.mem_map.mp hpart
  exact ⟨n, hmessage, hjustified 0 n hn⟩

end MintFlow
