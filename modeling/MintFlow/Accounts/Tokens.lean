import MintFlow.Accounts.Deletion
import MintFlow.Lib.Ledger

set_option relaxedAutoImplicit false
set_option autoImplicit false

/-!
# Accounts: tokens are used once

Over a whole run, with every transaction that was committed, a sign-in challenge is consumed at most as
often as it was issued, and a link challenge is claimed at most as often as it was created and confirmed
at most as often as it was claimed. What was rolled back or interrupted does not count.

## Main definitions

* `MintFlow.Accounts.rowLedger` — a ledger of rows that are live.
* `MintFlow.Accounts.committedCount` — how often something was done in committed transactions.

## Main results

* `MintFlow.Accounts.sign_in_once` — **Sign-in links** are used once.
* `MintFlow.Accounts.link_once` — **Telegram links** are claimed and confirmed once.
-/

namespace MintFlow.Accounts

open Transact

/-! ## Ledgers of rows -/

/-- Whether there is a row, and it is live. -/
def liveCount {α : Type} (live : α → Bool) (x : Option α) : ℕ := (x.any live).toNat

lemma liveCount_le_one {α : Type} (live : α → Bool) (x : Option α) : liveCount live x ≤ 1 :=
  Bool.toNat_le _

/-- A ledger of rows that are live. -/
def rowLedger (t : AccountTable) (live : t.Row → Bool)
    (spends earns : t.Key → (o : AccountStmt) → o.Resp → ℕ) :
    Transact.Ledger accountDatabase Change.keys t.Key where
  key := rowLock t
  level key s := liveCount live (Store.find s t key)
  guarded key := Store.guarded_find (X := accountConduct) t key (liveCount live)
  spends := spends
  earns := earns

/-- How often something was done in committed transactions. -/
def committedCount {ι : Type} [DecidableEq ι] (f : (o : AccountStmt) → o.Resp → ℕ)
    (c : AccountSystem ι) : ℕ :=
  (Tally.ofLog (S := accounting) f c.log).committed

/-- A sign-in challenge that was not consumed. -/
def isUnconsumed (row : LoginChallengeRecord) : Bool := row.consumedAt.isNone

/-- A link challenge that was not claimed. -/
def isUnclaimed (row : LinkChallengeRecord) : Bool := row.claimedAt.isNone

/-- A link challenge that was claimed and not confirmed. -/
def isUnconfirmed (row : LinkChallengeRecord) : Bool :=
  row.claimedAt.isSome && row.confirmedAt.isNone

/-- A sign-in challenge is issued. -/
def issues (id : UUID) : (o : AccountStmt) → o.Resp → ℕ
  | .addLoginChallenge challenge, _ => if challenge.id = id then 1 else 0
  | _, _ => 0

/-- A sign-in challenge is consumed. -/
def consumes (id : UUID) : (o : AccountStmt) → o.Resp → ℕ
  | .consumeChallenge .., some challenge => if challenge.id = id then 1 else 0
  | _, _ => 0

/-- A link challenge is created. -/
def creates (id : UUID) : (o : AccountStmt) → o.Resp → ℕ
  | .createChallenge challenge, _ => if challenge.id = id then 1 else 0
  | _, _ => 0

/-- A link challenge is claimed. -/
def claims (id : UUID) : (o : AccountStmt) → o.Resp → ℕ
  | .claimChallenge .., some challenge => if challenge.id = id then 1 else 0
  | _, _ => 0

/-- A link challenge is confirmed. -/
def confirms (id : UUID) : (o : AccountStmt) → o.Resp → ℕ
  | .confirmChallenge challengeId _, _ => if challengeId = id then 1 else 0
  | _, _ => 0

/-- Sign-in challenges. -/
def signInLedger : Transact.Ledger accountDatabase Change.keys UUID :=
  rowLedger .loginChallenges isUnconsumed consumes issues

/-- Link challenges, until they are claimed. -/
def claimLedger : Transact.Ledger accountDatabase Change.keys UUID :=
  rowLedger .linkChallenges isUnclaimed claims creates

/-- Link challenges, from the claim to the confirmation. -/
def confirmLedger : Transact.Ledger accountDatabase Change.keys UUID :=
  rowLedger .linkChallenges isUnconfirmed confirms claims

/-! ## Statements pay -/

section Pays

variable {o : AccountStmt} {busy : Lock layout → Bool} {s : AccountData} {r : o.Resp}
  {ws : List (Change layout)} {t : AccountTable} {live : t.Row → Bool}
  {spends earns : t.Key → (o : AccountStmt) → o.Resp → ℕ}

/-- A statement that leaves the table alone, or only drops rows, pays if it spends nothing. -/
lemma pays_of_drops (heval : accountConduct.eval o busy s = .ok (r, ws))
    (hspends : ∀ key, spends key o r = 0)
    (hdrops : t ∉ o.tables ∨ ∀ w ∈ ws, ∃ t row, w = .drop t row) :
    (rowLedger t live spends earns).Pays o r s (s.applyAll ws) := by
  intro key
  show liveCount live (Store.find (s.applyAll ws) t key) + spends key o r ≤
    liveCount live (s.find t key) + earns key o r
  rw [hspends]
  rcases hdrops with hother | hdrops
  · rw [find_kept heval hother]
    exact Nat.le_add_right _ _
  · rcases Store.find_of_drops hdrops t key with hnone | hsame
    · rw [hnone]
      exact Nat.zero_le _
    · rw [hsame]
      exact Nat.le_add_right _ _

/-- A statement that writes nothing pays if it spends nothing. -/
lemma pays_of_nil (hspends : ∀ key, spends key o r = 0) :
    (rowLedger t live spends earns).Pays o r s (s.applyAll []) := by
  intro key
  show liveCount live (s.find t key) + spends key o r ≤ liveCount live (s.find t key) + earns key o r
  rw [hspends]
  exact Nat.le_add_right _ _

/-- A row is put in the place of another. -/
lemma pays_of_put {row : t.Row}
    (hrow : liveCount live (some row) + spends (t.key row) o r ≤
      liveCount live (s.find t (t.key row)) + earns (t.key row) o r)
    (hother : ∀ key, key ≠ t.key row → spends key o r = 0) :
    (rowLedger t live spends earns).Pays o r s (s.applyAll [.put t row]) := by
  intro key
  show liveCount live (Store.find (s.applyAll [.put t row]) t key) + spends key o r ≤
    liveCount live (s.find t key) + earns key o r
  have hfind : Store.find (s.applyAll [.put t row]) t key =
      if key = t.key row then some row else s.find t key := Store.find_put s t row key
  rw [hfind]
  by_cases hkey : key = t.key row
  · rw [if_pos hkey, hkey]
    exact hrow
  · rw [if_neg hkey, hother key hkey]
    exact Nat.le_add_right _ _

/-- A deletion only drops rows. -/
lemma drops_of_eval (hdeletes : ∀ as, o.perform busy s = .ok (r, as) →
    ∀ a ∈ as, ∃ (t : AccountTable) (selects : t.Row → Bool), a = .delete t selects)
    (heval : accountConduct.eval o busy s = .ok (r, ws)) : ∀ w ∈ ws, ∃ t row, w = .drop t row := by
  intro w hw
  obtain ⟨as, hperform, a, ha, hmakes⟩ := makes_of_eval heval hw
  obtain ⟨t, selects, rfl⟩ := hdeletes as hperform a ha
  obtain ⟨x, -, rfl⟩ := hmakes
  exact ⟨t, x, rfl⟩

/-- The statements on sign-in challenges pay.

**Proof sketch.** By the statement. A challenge that is added earns the one unit it is worth, one
that is consumed was worth it before and is not any more, and a deletion earns and spends
nothing. -/
lemma signIn_pays (heval : accountConduct.eval o busy s = .ok (r, ws)) :
    signInLedger.Pays o r s (s.applyAll ws) := by
  cases o with
  | addLoginChallenge challenge =>
    obtain ⟨-, -, rfl, -⟩ := inserted_of_eval rfl rfl heval
    refine pays_of_put (t := .loginChallenges) ?_ fun _ _ => rfl
    have hearns : issues challenge.id (.addLoginChallenge challenge) r = 1 := if_pos rfl
    show liveCount isUnconsumed (some challenge) + 0 ≤ _ + issues challenge.id _ r
    rw [hearns]
    exact Nat.le_trans (liveCount_le_one _ _) (Nat.le_add_left _ _)
  | consumeChallenge tokenHash at_ =>
    cases r with
    | none =>
      rw [missed_of_eval heval]
      exact pays_of_nil fun _ => rfl
    | some challenge =>
      obtain ⟨x, hx, hcan, rfl, rfl, -⟩ := consumed_of_eval heval
      obtain ⟨hcan, -⟩ := Bool.and_eq_true_iff.mp hcan
      have hfresh := (Bool.and_eq_true_iff.mp hcan).2
      refine pays_of_put (t := .loginChallenges) ?_ fun key hkey => if_neg fun h => hkey h.symm
      have hspends : consumes x.id (.consumeChallenge tokenHash at_)
          (some ((setConsumed at_).set x)) = 1 := if_pos rfl
      have hbefore : s.find .loginChallenges x.id = some x := hx
      show 0 + consumes x.id _ _ ≤ liveCount isUnconsumed (s.find .loginChallenges x.id) + 0
      rw [hspends, hbefore]
      show 1 ≤ (isUnconsumed x).toNat
      rw [show isUnconsumed x = true from hfresh]
      exact Nat.le_refl _
  | deleteLoginChallenges consumedCutoff expiredCutoff batchSize =>
    refine pays_of_drops heval (fun _ => rfl) (.inr (drops_of_eval (fun as h a ha => ?_) heval))
    obtain ⟨-, rfl⟩ := Prod.mk.inj (Except.ok.inj h)
    obtain rfl := List.mem_singleton.mp ha
    exact ⟨_, _, rfl⟩
  | deleteOwned t userId =>
    refine pays_of_drops heval (fun _ => rfl) ?_
    cases t with
    | loginChallenges =>
      refine .inr (drops_of_eval (fun as h a ha => ?_) heval)
      obtain ⟨-, rfl⟩ := Prod.mk.inj (Except.ok.inj h)
      obtain rfl := List.mem_singleton.mp ha
      exact ⟨_, _, rfl⟩
    | _ => exact .inl (of_decide_eq_false rfl)
  | _ => exact pays_of_drops heval (fun _ => rfl) (.inl (of_decide_eq_false rfl))

/-- The statements that delete link challenges. -/
def Purges : AccountStmt → Prop
  | .deleteLinkChallenges .. | .deleteWebSessions .. | .deleteOwned .. => True
  | _ => False

/-- A statement that deletes link challenges only drops rows, if it is about them at all.

**Proof sketch.** By the statement: its actions are deletions, of link challenges or of what they
are deleted with. -/
lemma linkChallenges_purged (hpurges : Purges o)
    (heval : accountConduct.eval o busy s = .ok (r, ws)) :
    .linkChallenges ∉ o.tables ∨ ∀ w ∈ ws, ∃ t row, w = .drop t row := by
  cases o with
  | deleteLinkChallenges finishedCutoff batchSize =>
    refine .inr (drops_of_eval (fun as h a ha => ?_) heval)
    obtain ⟨-, rfl⟩ := Prod.mk.inj (Except.ok.inj h)
    obtain rfl := List.mem_singleton.mp ha
    exact ⟨_, _, rfl⟩
  | deleteWebSessions revokedCutoff expiredCutoff batchSize =>
    refine .inr (drops_of_eval (fun as h a ha => ?_) heval)
    obtain ⟨-, rfl⟩ := Prod.mk.inj (Except.ok.inj h)
    rcases List.mem_cons.mp ha with rfl | ha
    · exact ⟨_, _, rfl⟩
    · obtain rfl := List.mem_singleton.mp ha
      exact ⟨_, _, rfl⟩
  | deleteOwned t userId =>
    cases t with
    | linkChallenges =>
      refine .inr (drops_of_eval (fun as h a ha => ?_) heval)
      obtain ⟨-, rfl⟩ := Prod.mk.inj (Except.ok.inj h)
      obtain rfl := List.mem_singleton.mp ha
      exact ⟨_, _, rfl⟩
    | webSessions =>
      refine .inr (drops_of_eval (fun as h a ha => ?_) heval)
      obtain ⟨-, rfl⟩ := Prod.mk.inj (Except.ok.inj h)
      rcases List.mem_cons.mp ha with rfl | ha
      · exact ⟨_, _, rfl⟩
      · obtain rfl := List.mem_singleton.mp ha
        exact ⟨_, _, rfl⟩
    | _ => exact .inl (of_decide_eq_false rfl)
  | _ => cases hpurges

/-- What a confirmation makes of the challenges.

**Proof sketch.** Only the row of the challenge changes, for which it is assumed, and of no other is
anything spent. -/
lemma pays_of_confirm {challengeId : UUID} {now : Instant} {r : Unit}
    {live : LinkChallengeRecord → Bool} {spends earns : UUID → (o : AccountStmt) → o.Resp → ℕ}
    (heval : accountConduct.eval (.confirmChallenge challengeId now) busy s = .ok (r, ws))
    (hown : liveCount live ((s.find .linkChallenges challengeId).map (setConfirmed now).set) +
      spends challengeId (.confirmChallenge challengeId now) r ≤
        liveCount live (s.find .linkChallenges challengeId))
    (hother : ∀ key, key ≠ challengeId → spends key (.confirmChallenge challengeId now) r = 0) :
    (rowLedger .linkChallenges live spends earns).Pays (.confirmChallenge challengeId now) r s
      (s.applyAll ws) := by
  intro key
  show liveCount live (Store.find (s.applyAll ws) .linkChallenges key) +
      spends key (.confirmChallenge challengeId now) r ≤
    liveCount live (s.find .linkChallenges key) + earns key (.confirmChallenge challengeId now) r
  rw [confirmed_of_eval heval key]
  by_cases hkey : key = challengeId
  · subst hkey
    have hset : (s.find .linkChallenges key).map (fun x : LinkChallengeRecord =>
        if x.id = key then (setConfirmed now).set x else x) =
          (s.find .linkChallenges key).map (setConfirmed now).set := by
      refine Option.map_congr fun x hx => if_pos ?_
      exact Table.key_of_find hx
    rw [hset]
    exact Nat.le_trans hown (Nat.le_add_right _ _)
  · have hkeep : (s.find .linkChallenges key).map (fun x : LinkChallengeRecord =>
        if x.id = challengeId then (setConfirmed now).set x else x) = s.find .linkChallenges key := by
      refine (Option.map_congr fun x hx => if_neg ?_).trans Option.map_id'
      have hid : x.id = key := Table.key_of_find hx
      exact fun h => hkey (hid.symm.trans h)
    rw [hkeep, hother key hkey]
    exact Nat.le_add_right _ _

/-- The statements on link challenges pay for the claims.

**Proof sketch.** By the statement. A challenge that is created earns the one unit it is worth, one
that is claimed was worth it and is not any more, and a confirmation leaves what was claimed. -/
lemma claim_pays (hs : s.Intact) (heval : accountConduct.eval o busy s = .ok (r, ws)) :
    claimLedger.Pays o r s (s.applyAll ws) := by
  cases o with
  | createChallenge challenge =>
    obtain ⟨-, -, rfl, -⟩ := inserted_of_eval rfl rfl heval
    refine pays_of_put (t := .linkChallenges) ?_ fun _ _ => rfl
    have hearns : creates challenge.id (.createChallenge challenge) r = 1 := if_pos rfl
    show liveCount isUnclaimed (some challenge) + 0 ≤ _ + creates challenge.id _ r
    rw [hearns]
    exact Nat.le_trans (liveCount_le_one _ _) (Nat.le_add_left _ _)
  | claimChallenge tokenHash telegramUserId displayName now =>
    cases r with
    | none =>
      rw [unclaimed_of_eval heval]
      exact pays_of_nil fun _ => rfl
    | some challenge =>
      obtain ⟨x, hx, hunclaimed, -, rfl, rfl⟩ := claimed_of_eval hs heval
      refine pays_of_put (t := .linkChallenges) ?_ fun key hkey => if_neg fun h => hkey h.symm
      have hspends : claims x.id (.claimChallenge tokenHash telegramUserId displayName now)
          (some ((setClaimed telegramUserId displayName now).set x)) = 1 := if_pos rfl
      have hbefore : s.find .linkChallenges x.id = some x := hx
      show 0 + claims x.id _ _ ≤ liveCount isUnclaimed (s.find .linkChallenges x.id) + 0
      rw [hspends, hbefore]
      show 1 ≤ (isUnclaimed x).toNat
      unfold isUnclaimed
      rw [hunclaimed]
      exact Nat.le_refl _
  | confirmChallenge challengeId now =>
    refine pays_of_confirm heval ?_ fun _ _ => rfl
    cases s.find .linkChallenges challengeId with
    | none => exact Nat.le_refl _
    | some x => exact Nat.le_refl _
  | deleteLinkChallenges | deleteWebSessions | deleteOwned =>
    exact pays_of_drops heval (fun _ => rfl) (linkChallenges_purged trivial heval)
  | _ => exact pays_of_drops heval (fun _ => rfl) (.inl (of_decide_eq_false rfl))

/-- The statements on link challenges pay for the confirmations, if only a claimed challenge is
confirmed.

**Proof sketch.** By the statement. A claim earns what the challenge is worth then, a confirmation
spends it, and a challenge that is created is not claimed, so it is worth nothing. -/
lemma confirm_pays {k : Standing} (hmay : k.mayDo o) (hs : s.Intact)
    (hclaimed : ∀ challenge connection, k.phase = .linking challenge connection →
      s.find .linkChallenges challenge.id = some challenge ∧ isUnconfirmed challenge = true)
    (heval : accountConduct.eval o busy s = .ok (r, ws)) :
    confirmLedger.Pays o r s (s.applyAll ws) := by
  cases o with
  | createChallenge challenge =>
    obtain ⟨-, -, rfl, -⟩ := inserted_of_eval rfl rfl heval
    refine pays_of_put (t := .linkChallenges) ?_ fun _ _ => rfl
    obtain ⟨-, hunclaimed, -⟩ := hmay
    show (isUnconfirmed challenge).toNat + 0 ≤ _
    unfold isUnconfirmed
    rw [hunclaimed]
    exact Nat.zero_le _
  | claimChallenge tokenHash telegramUserId displayName now =>
    cases r with
    | none =>
      rw [unclaimed_of_eval heval]
      exact pays_of_nil fun _ => rfl
    | some challenge =>
      obtain ⟨x, hx, -, -, rfl, rfl⟩ := claimed_of_eval hs heval
      refine pays_of_put (t := .linkChallenges) ?_ fun _ _ => rfl
      have hearns : claims x.id (.claimChallenge tokenHash telegramUserId displayName now)
          (some ((setClaimed telegramUserId displayName now).set x)) = 1 := if_pos rfl
      show liveCount isUnconfirmed _ + 0 ≤ _ + claims x.id _ _
      rw [hearns]
      exact Nat.le_trans (liveCount_le_one _ _) (Nat.le_add_left _ _)
  | confirmChallenge challengeId now =>
    obtain ⟨challenge, connection, hphase, rfl, -⟩ := hmay
    obtain ⟨hfind, hlive⟩ := hclaimed challenge connection hphase
    refine pays_of_confirm heval ?_ fun key hkey => if_neg fun h => hkey h.symm
    have hspends : confirms challenge.id (.confirmChallenge challenge.id now) r = 1 := if_pos rfl
    rw [hspends, hfind]
    show (isUnconfirmed ((setConfirmed now).set challenge)).toNat + 1 ≤
      (isUnconfirmed challenge).toNat
    have hsealed : isUnconfirmed ((setConfirmed now).set challenge) = false :=
      Bool.and_false _
    rw [hlive, hsealed]
    exact Nat.le_refl _
  | deleteLinkChallenges | deleteWebSessions | deleteOwned =>
    exact pays_of_drops heval (fun _ => rfl) (linkChallenges_purged trivial heval)
  | _ => exact pays_of_drops heval (fun _ => rfl) (.inl (of_decide_eq_false rfl))

end Pays

/-! ## Runs -/

section Runs

variable {ι : Type} [DecidableEq ι] {c c' : AccountSystem ι} {j : ι}

/-- A session that confirms a challenge knows that it was claimed and not confirmed. -/
lemma AccountsKept.unconfirmed (h : AccountsKept c) (hopen : (c.sessions j).closed = false)
    {challenge : LinkChallengeRecord} {connection : ConnectionRecord}
    (hphase : (standing c j).phase = .linking challenge connection) :
    Store.find (c.view accountDatabase j) .linkChallenges challenge.id = some challenge ∧
      isUnconfirmed challenge = true := by
  have hsubject : lockedChallenge (standing c j) =
      some (challenge.id, Confirmable (standing c j) challenge connection.linkedAt false) := by
    unfold lockedChallenge
    rw [hphase]
    rfl
  obtain ⟨-, -, hseen, hclaimed, hunconfirmed, -⟩ := (h.link j).apply hopen hsubject
  refine ⟨hseen, ?_⟩
  unfold isUnconfirmed
  rw [hclaimed, hunconfirmed]
  rfl

variable [PythonRuntime] {runtime : SignInRuntime} {db : AccountData}
  {requests : ι → AccountRequest} {tapes : ι → Stream' AccountReading} {ls : List (Label ι)}

/-- The ledgers are balanced in every run.

**Proof sketch.** Induction on the run, together with the account model's own invariant, which says
what the session that confirms knows of its challenge. -/
lemma balanced_run (hdb : db.Intact)
    (hrun : run accountDatabase (accountsStarted runtime db requests tapes) ls = some c) :
    Balanced signInLedger (fun id => signInLedger.level id db) c ∧
      Balanced claimLedger (fun id => claimLedger.level id db) c ∧
      Balanced confirmLedger (fun id => confirmLedger.level id db) c := by
  suffices hall : AccountsKept c ∧ Balanced signInLedger (fun id => signInLedger.level id db) c ∧
      Balanced claimLedger (fun id => claimLedger.level id db) c ∧
      Balanced confirmLedger (fun id => confirmLedger.level id db) c from hall.2
  refine run_induction (P := fun c => AccountsKept c ∧
    Balanced signInLedger (fun id => signInLedger.level id db) c ∧
    Balanced claimLedger (fun id => claimLedger.level id db) c ∧
    Balanced confirmLedger (fun id => confirmLedger.level id db) c) ?_ ?_ hrun
  · rintro c j c' ⟨h, hsignIn, hclaim, hconfirm⟩ hopen hmove
    have hs := h.guarding.sound
    refine ⟨h.move hopen hmove, hsignIn.move hs (fun o f r ws _ heval _ => signIn_pays heval) hopen
      hmove, hclaim.move hs (fun o f r ws _ heval _ => claim_pays (h.guarding.views j) heval) hopen
      hmove, hconfirm.move hs (fun o f r ws hp heval _ => ?_) hopen hmove⟩
    exact confirm_pays ((h.tracks j).mayDo hp) (h.guarding.views j)
      (fun challenge connection hphase => h.unconfirmed hopen hphase) heval
  · exact ⟨AccountsKept.start runtime requests tapes hdb,
      Balanced.start (c := accountsStarted runtime db requests tapes) rfl fun _ => rfl,
      Balanced.start (c := accountsStarted runtime db requests tapes) rfl fun _ => rfl,
      Balanced.start (c := accountsStarted runtime db requests tapes) rfl fun _ => rfl⟩

/-- **Sign-in links are used once**: in every run, the transactions that were committed consumed a
challenge at most as often as they issued it, not counting one that was there unconsumed at the
start. -/
theorem sign_in_once (hdb : db.Intact)
    (hrun : run accountDatabase (accountsStarted runtime db requests tapes) ls = some c) (id : UUID) :
    committedCount (consumes id) c ≤ committedCount (issues id) c +
      liveCount isUnconsumed (db.find .loginChallenges id) :=
  (balanced_run hdb hrun).1.committed_le id

/-- **Telegram links are claimed and confirmed once**: in every run, the transactions that were
committed claimed a challenge at most as often as they created it, and confirmed it at most as often as
they claimed it, not counting one that was there at the start. -/
theorem link_once (hdb : db.Intact)
    (hrun : run accountDatabase (accountsStarted runtime db requests tapes) ls = some c) (id : UUID) :
    committedCount (claims id) c ≤ committedCount (creates id) c +
        liveCount isUnclaimed (db.find .linkChallenges id) ∧
      committedCount (confirms id) c ≤ committedCount (claims id) c +
        liveCount isUnconfirmed (db.find .linkChallenges id) :=
  ⟨(balanced_run hdb hrun).2.1.committed_le id, (balanced_run hdb hrun).2.2.committed_le id⟩

end Runs

/-! ## In the ceremony -/

section Ceremony

/-- Ann's sign-in link is used by somebody else as well, and consumed once. -/
theorem sign_in_once_ceremony :
    letI := PythonRuntime.ascii
    ∃ c, run accountDatabase ceremony (ceremonyLabels.take 22 ++ List.replicate 6 (.go 7)) = some c ∧
      (c.sessions 7).closed = true ∧ committedCount (issues 0) c = 1 ∧
      committedCount (consumes 0) c = 1 := by
  let _ := PythonRuntime.ascii
  have heval : (run accountDatabase ceremony (ceremonyLabels.take 22 ++
      List.replicate 6 (.go 7))).map (fun c => ((c.sessions 7).closed, committedCount (issues 0) c,
        decide (0 < committedCount (consumes 0) c))) = some (true, 1, true) := by
    decide +kernel
  obtain ⟨c, hrun, heval⟩ := Option.map_eq_some_iff.mp heval
  obtain ⟨hclosed, heval⟩ := Prod.mk.inj heval
  obtain ⟨hissued, hconsumed⟩ := Prod.mk.inj heval
  have honce := sign_in_once Store.intact_empty hrun 0
  rw [hissued] at honce
  exact ⟨c, hrun, hclosed, hissued, Nat.le_antisymm honce (of_decide_eq_true hconsumed)⟩

/-- Ann's challenge is claimed once and confirmed once. -/
theorem link_once_ceremony :
    letI := PythonRuntime.ascii
    ∃ c, run accountDatabase ceremony ceremonyLabels = some c ∧
      committedCount (creates 2) c = 1 ∧ committedCount (confirms 2) c = 1 ∧
      committedCount (claims 2) c = 1 := by
  let _ := PythonRuntime.ascii
  have heval : (run accountDatabase ceremony ceremonyLabels).map (fun c =>
      (committedCount (creates 2) c, committedCount (confirms 2) c)) = some (1, 1) := by
    decide +kernel
  obtain ⟨c, hrun, heval⟩ := Option.map_eq_some_iff.mp heval
  obtain ⟨hcreated, hconfirmed⟩ := Prod.mk.inj heval
  obtain ⟨hclaims, hconfirms⟩ := link_once Store.intact_empty hrun 2
  rw [hcreated] at hclaims
  rw [hconfirmed] at hconfirms
  exact ⟨c, hrun, hcreated, hconfirmed, Nat.le_antisymm hclaims hconfirms⟩

end Ceremony

end MintFlow.Accounts
