import MintFlow.Accounts.Deletion
import MintFlow.Lib.Readings

set_option relaxedAutoImplicit false
set_option autoImplicit false

/-!
# Accounts: what the jobs clean up

The jobs delete rows in batches, by cutoffs that they compute from a reading of the clock. A row
goes only because it was kept as long as it is to be kept, because its account goes, or with the Web
session it belongs to.

## Main definitions

* `MintFlow.Accounts.AccountStmt.CutAt` — the cutoffs of a batch, at a time.
* `MintFlow.Accounts.AccountData.MayGo` — why a row may go.

## Main results

* `MintFlow.Accounts.retention_spares` — **Nothing else is deleted**, in any run.
-/

namespace MintFlow.Accounts

open Transact

/-! ## Cutoffs -/

/-- The cutoffs of a batch are those of a job that reads the time `now`. -/
def AccountStmt.CutAt (now : Instant) : AccountStmt → Prop
  | .deleteLoginChallenges consumedCutoff expiredCutoff _ =>
    consumedCutoff = now - recordRetention ∧ expiredCutoff = now - recordRetention
  | .deleteWebSessions revokedCutoff expiredCutoff _ =>
    revokedCutoff = now - recordRetention ∧ expiredCutoff = now - recordRetention
  | .deleteAuditRecords occurredCutoff _ => occurredCutoff = now - auditRetention
  | .deleteTombstones deletedCutoff _ => deletedCutoff = now - deletedAccountRetention
  | .deleteLinkChallenges finishedCutoff _ => finishedCutoff = now - recordRetention
  | .deleteUnlinkedConnections unlinkedCutoff _ => unlinkedCutoff = now - recordRetention
  | _ => True

/-- The cutoffs of a batch are computed from one of the readings of a session. -/
def AccountStmt.CutBy (tape : Stream' AccountReading) (o : AccountStmt) : Prop :=
  ∃ n, o.CutAt (tape.get n).now.astimezoneUtc

/-- A statement that deletes no batch has no cutoffs. -/
lemma cutAt_of_not_sweeps (now : Instant) {o : AccountStmt} (h : ¬ o.Sweeps) : o.CutAt now := by
  cases o <;> first | trivial | exact (h trivial).elim

section Programs

variable [PythonRuntime] {R : AccountReading → Prop} {D : AccountStmt → Prop} {α : Type}

section Plain

variable (hD : ∀ o : AccountStmt, ¬ o.Sweeps → D o)

omit [PythonRuntime] in
/-- A check. -/
lemma within_check {β ε : Type} {e : ε → AccountError} {x : Except ε β} {f : β → AccountProgram α}
    (hf : ∀ b, (f b).Within R D) : (Prog.lift e x >>= f).Within R D :=
  Prog.within_bind Prog.within_lift hf

omit [PythonRuntime] in
/-- The time that is read. -/
lemma within_utcNow {f : Instant → AccountProgram α}
    (hf : ∀ r, R r → (f r.now.astimezoneUtc).Within R D) : (utcNow >>= f).Within R D := by
  unfold utcNow
  intro r hr
  show (Prog.bind (Prog.bind (Prog.lift _ _) _) f).Within R D
  rw [Prog.bind_assoc]
  exact within_check fun _ => hf r hr

omit [PythonRuntime] in
/-- The size of a batch. -/
lemma within_validateBatchSize {batchSize : ℤ} {f : ℕ → AccountProgram α}
    (hf : ∀ size, (f size).Within R D) : (validateBatchSize batchSize >>= f).Within R D :=
  Prog.within_bind (Prog.within_bind Prog.within_lift fun _ => trivial) hf

omit [PythonRuntime] in
/-- A statement that is executed. -/
lemma within_execute {o : AccountStmt} {f : o.Resp → AccountProgram α} (ho : D o)
    (hf : ∀ r, (f r).Within R D) : (execute o >>= f).Within R D :=
  Prog.within_bind ⟨ho, fun _ => trivial⟩ hf

include hD

/-- A session that is opened. -/
lemma within_openSession (userId : UUID) (returnTarget : String) (consumedAt : Instant) :
    (openSession userId returnTarget consumedAt).Within R D :=
  fun _ _ => ⟨hD _ id, fun _ _ _ => ⟨hD _ id, fun _ => trivial⟩⟩

/-- Signing in. -/
lemma within_consume (tokenHash : String) (consumedAt : Instant) :
    (consume tokenHash consumedAt).Within R D := by
  refine ⟨hD _ id, fun r => ?_⟩
  cases r with
  | none => exact fun _ _ => ⟨hD _ id, fun _ => trivial⟩
  | some challenge =>
    refine ⟨hD _ id, fun _ => within_execute (hD _ id) fun r => ?_⟩
    cases r with
    | none =>
      exact fun _ _ => ⟨hD _ id, fun _ _ _ => ⟨hD _ id, fun _ => within_openSession hD _ _ _⟩⟩
    | some user =>
      dsimp only
      split_ifs
      · exact within_openSession hD _ _ _
      · exact fun _ _ => ⟨hD _ id, fun _ => trivial⟩

/-- A request that is authenticated. -/
lemma within_principal {sessionSecret : Option String}
    {f : AuthenticatedWebSession → AccountProgram α} (hf : ∀ session, (f session).Within R D) :
    (getAuthenticatedPrincipal sessionSecret >>= f).Within R D := by
  refine Prog.within_bind ?_ hf
  unfold getAuthenticatedPrincipal
  cases sessionSecret.filter isMagicLinkToken with
  | none => trivial
  | some secret =>
    refine within_utcNow fun _ _ => ⟨hD _ id, fun r => ?_⟩
    cases r <;> trivial

/-- A request with a CSRF token. -/
lemma within_csrfPrincipal {sessionSecret : Option String} {verified : Bool}
    {f : AuthenticatedWebSession → AccountProgram α} (hf : ∀ session, (f session).Within R D) :
    (getCsrfProtectedPrincipal sessionSecret verified >>= f).Within R D := by
  refine Prog.within_bind (within_principal hD fun session => ?_) hf
  cases verified <;> trivial

omit [PythonRuntime] in
/-- A revocation. -/
lemma within_revoke (sessionId : UUID) (revokedAt : Instant) :
    (revoke sessionId revokedAt).Within R D :=
  ⟨hD _ id, fun _ => ⟨hD _ id, fun _ _ _ => ⟨hD _ id, fun _ => trivial⟩⟩⟩

omit [PythonRuntime] in
/-- A confirmation. -/
lemma within_confirm (challengeId webSessionId : UUID) (now : Instant) :
    (confirm challengeId webSessionId now).Within R D := by
  refine within_execute (hD _ id) fun r => ?_
  cases r with
  | none => trivial
  | some challenge =>
    dsimp only
    cases challenge.claimedTelegramUserId with
    | none => trivial
    | some telegramUserId =>
      refine ⟨hD _ id, fun valid => ?_⟩
      cases valid with
      | false => trivial
      | true =>
        refine fun _ _ => ⟨hD _ id, fun inserted => ?_⟩
        cases inserted with
        | false => trivial
        | true => exact ⟨hD _ id, fun _ _ _ => ⟨hD _ id, fun _ => trivial⟩⟩

omit [PythonRuntime] in
/-- The tables of a user, one after the other. -/
lemma within_executeEach (userId : UUID) : ∀ ts, (executeEach ts userId).Within R D
  | [] => trivial
  | _ :: ts => ⟨hD _ id, fun _ => within_executeEach userId ts⟩

omit [PythonRuntime] in
/-- A deletion of an account. -/
lemma within_executeDeleteAccount (userId : UUID) : (executeDeleteAccount userId).Within R D := by
  refine fun _ _ => within_check fun _ => within_execute (hD _ id) fun locked => ?_
  cases locked with
  | false => trivial
  | true =>
    refine Prog.within_bind (within_executeEach hD userId ownedTables) fun _ => ?_
    exact ⟨hD _ id, fun _ => ⟨hD _ id, fun _ => ⟨hD _ id, fun _ => ⟨hD _ id, fun _ => trivial⟩⟩⟩⟩

omit [PythonRuntime] in
/-- The deletion of accounts that a backup brought back. -/
lemma within_deleteEach : ∀ userIds, (deleteEach userIds).Within R D
  | [] => trivial
  | userId :: userIds => Prog.within_bind (within_executeDeleteAccount hD userId) fun _ =>
    Prog.within_bind (within_deleteEach userIds) fun _ => trivial

end Plain

/-- **A batch** that a request deletes has the cutoffs of a time that the request read.

**Proof sketch.** Along each of the programs. Only the clean-up executes batches, with cutoffs that
it computes from the time it read; all other statements have none. -/
theorem AccountRequest.within_program
    (hcut : ∀ r, R r → ∀ o : AccountStmt, o.CutAt r.now.astimezoneUtc → D o) (hR : ∃ r, R r)
    (runtime : SignInRuntime) (q : AccountRequest) :
    (q.program runtime).Within R D := by
  obtain ⟨r₀, hr₀⟩ := hR
  have hD : ∀ o : AccountStmt, ¬ o.Sweeps → D o := fun o h =>
    hcut r₀ hr₀ o (cutAt_of_not_sweeps _ h)
  have hdone : ∀ {β : Type} {p : AccountProgram β} (answer : β → AccountAnswer), p.Within R D →
      (p.bind fun b => .pure (answer b)).Within R D :=
    fun answer hp => Prog.within_bind hp fun _ => trivial
  cases q with
  | requestMagicLink email returnTarget =>
    refine hdone _ (within_utcNow fun _ _ _ _ => ⟨hD _ id, fun _ _ _ => ?_⟩)
    exact ⟨hD _ id, fun _ => trivial⟩
  | consumeMagicLink token =>
    refine hdone _ (within_utcNow fun _ _ => ?_)
    exact Prog.within_bind (within_consume hD _ _) fun _ => trivial
  | createLinkChallenge secret verified =>
    refine hdone _ (within_csrfPrincipal hD fun session => within_utcNow fun _ _ _ _ => ?_)
    exact ⟨hD _ id, fun _ => trivial⟩
  | getLinkChallenge secret challengeId =>
    refine hdone _ (within_principal hD fun session => within_execute (hD _ id) fun r => ?_)
    cases r with
    | none => trivial
    | some challenge =>
      dsimp only
      split_ifs
      · trivial
      · exact within_utcNow fun _ _ => trivial
  | confirmLinkChallenge secret verified challengeId =>
    refine hdone _ (within_csrfPrincipal hD fun session => within_utcNow fun _ _ => ?_)
    refine Prog.within_bind (within_confirm hD _ _ _) fun r => ?_
    cases r <;> trivial
  | claimTelegramLink payload telegramUserId chatId displayName =>
    refine hdone _ (Prog.within_bind ?_ fun r => trivial)
    unfold claim
    split_ifs
    · refine within_utcNow fun _ _ => ⟨hD _ id, fun r => ?_⟩
      cases r with
      | none => trivial
      | some challenge => exact fun _ _ => ⟨hD _ id, fun _ => trivial⟩
    · trivial
  | getConnection secret =>
    exact hdone _ (within_principal hD fun session => ⟨hD _ id, fun _ => trivial⟩)
  | deleteConnection secret verified =>
    refine hdone _ (within_csrfPrincipal hD fun session => within_utcNow fun _ _ => ?_)
    refine ⟨hD _ id, fun r => ?_⟩
    cases r with
    | none => trivial
    | some connectionId => exact ⟨hD _ id, fun _ _ _ => ⟨hD _ id, fun _ => trivial⟩⟩
  | deleteAccount secret verified typedEmail =>
    refine hdone _ (within_csrfPrincipal hD fun session => ?_)
    split_ifs
    · trivial
    refine within_execute (hD _ id) fun accountEmail => ?_
    cases runtime.normalizeEmail typedEmail with
    | none => trivial
    | some typed =>
      dsimp only
      split_ifs
      · exact Prog.within_bind (within_executeDeleteAccount hD _) fun _ => trivial
      · trivial
  | logout secret =>
    refine hdone _ ⟨hD _ id, fun found => ?_⟩
    cases found with
    | none => trivial
    | some sessionId =>
      exact within_utcNow fun _ _ => Prog.within_bind (within_revoke hD _ _) fun _ => trivial
  | revokeWebSession sessionId => exact hdone _ (within_utcNow fun _ _ => within_revoke hD _ _)
  | revokeAllWebSessions userId =>
    refine hdone _ (within_utcNow fun _ _ => ⟨hD _ id, fun rowcount _ _ => ?_⟩)
    exact ⟨hD _ id, fun _ => trivial⟩
  | cleanUpAuthentication batchSize =>
    refine hdone _ (within_validateBatchSize fun size r hr => ?_)
    refine within_check fun _ => within_execute (hD _ id) fun restored => ?_
    refine Prog.within_bind trivial fun _ =>
      Prog.within_bind (within_deleteEach hD restored) fun accounts => ?_
    refine ⟨hcut r hr _ rfl, fun _ => ⟨hcut r hr _ ⟨rfl, rfl⟩, fun _ => ?_⟩⟩
    exact ⟨hcut r hr _ ⟨rfl, rfl⟩, fun _ => ⟨hcut r hr _ rfl, fun _ => trivial⟩⟩
  | cleanUpTelegram batchSize =>
    refine hdone _ (within_validateBatchSize fun size => ?_)
    refine within_utcNow fun r hr => ⟨hcut r hr _ rfl, fun _ => ⟨hcut r hr _ rfl, fun _ => trivial⟩⟩
  | deactivate userId =>
    exact hdone _ fun _ _ => within_check fun _ => ⟨hD _ id, fun _ => trivial⟩

end Programs

/-! ## Batches -/

section Batches

variable {o : AccountStmt} {busy : Lock layout → Bool} {s : AccountData} {ws : List (Change layout)}

/-- A transaction that deleted a batch only reads from there on. -/
lemma Turn.swept {r : o.Resp} {p p' : Phase} (h : Turn o r p p') {sweep : AccountStmt}
    (hp : p' = .swept sweep) : p = p' ∧ o.tables = [] ∨ p = .idle ∧ o = sweep := by
  cases h with
  | reads htables => exact .inl ⟨rfl, htables⟩
  | logs _ hlog =>
    rw [hp] at hlog
    exact hlog.elim
  | sweeps _ => exact .inr ⟨rfl, Phase.swept.inj hp⟩
  | _ => cases hp

/-- With a link challenge, a batch of Web sessions deletes the session of the challenge.

**Proof sketch.** The challenge was dropped because it is of a session that the batch selects. The
challenges go first and leave the sessions as they are, so that this one is dropped as well. -/
lemma session_of_cascade {revokedCutoff expiredCutoff : Instant} {batchSize r : ℕ}
    (heval : accountConduct.eval (.deleteWebSessions revokedCutoff expiredCutoff batchSize) busy s =
      .ok (r, ws)) {y : LinkChallengeRecord} (hy : .drop .linkChallenges y ∈ ws) :
    ∃ w : WebSessionRecord, (w.id, w.userId) = (y.initiatingWebSessionId, y.initiatingUserId) ∧
      .drop .webSessions w ∈ ws := by
  rcases Conduct.eval_eq_ok heval with ⟨as, hperform, hchanges, -⟩ | ⟨-, -, -, -, -, rfl⟩
  swap
  · cases hy
  obtain ⟨-, rfl⟩ := Prod.mk.inj (Except.ok.inj hperform)
  obtain ⟨ws₁, h₁, hrest⟩ := Option.bind_eq_some_iff.mp hchanges
  obtain ⟨ws₂, h₂, rfl⟩ := Option.map_eq_some_iff.mp hrest
  rw [Action.changesAll_singleton] at h₂
  rcases List.mem_append.mp hy with hy | hy
  · obtain ⟨x, hx, hdrop⟩ := Action.makes_of_changes h₁ hy
    obtain ⟨-, hyx⟩ := Change.drop.inj hdrop
    obtain rfl := eq_of_heq hyx
    obtain ⟨w, hw, hselected⟩ := List.any_eq_true.mp hx
    obtain ⟨hselects, hkey⟩ := Bool.and_eq_true_iff.mp hselected
    refine ⟨w, of_decide_eq_true hkey, List.mem_append_right _ ?_⟩
    refine Action.drop_of_changes h₂ ?_ hselects
    -- The challenges that are dropped first leave the sessions alone.
    have hsame : s.applyAll ws₁ .webSessions = s .webSessions := by
      refine Store.applyAll_of_ne fun w' hw' => ?_
      obtain ⟨x', -, rfl⟩ := Action.makes_of_changes h₁ hw'
      exact of_decide_eq_false rfl
    rw [hsame]
    exact hw
  · obtain ⟨x, -, hdrop⟩ := Action.makes_of_changes h₂ hy
    cases hdrop

end Batches

/-! ## What every configuration keeps -/

section Kept

variable {ι : Type} [DecidableEq ι] {tapes : ι → Stream' AccountReading} {c c' : AccountSystem ι}
  {i j : ι}

/-- What a session knows of the batch that it deleted. -/
structure Sweeping (tape : Stream' AccountReading) (pending : List (Change layout))
    (sweep : AccountStmt) : Prop where
  cut : sweep.CutBy tape
  cascades : ∀ revokedCutoff expiredCutoff batchSize,
    sweep = .deleteWebSessions revokedCutoff expiredCutoff batchSize →
    ∀ y : LinkChallengeRecord, .drop .linkChallenges y ∈ pending →
      ∃ w : WebSessionRecord, (w.id, w.userId) = (y.initiatingWebSessionId, y.initiatingUserId) ∧
        .drop .webSessions w ∈ pending

/-- A session with the readings of a tape. -/
abbrev Reads (tape : Stream' AccountReading) (c : AccountSystem ι) (i : ι) : Prop :=
  Supplied (fun r => ∃ n, r = tape.get n) (AccountStmt.CutBy tape) c i

/-- **What every configuration keeps**, with the batches that are being deleted. -/
structure RetentionKept (tapes : ι → Stream' AccountReading) (c : AccountSystem ι) : Prop where
  kept : AccountsKept c
  reads : ∀ i, Reads (tapes i) c i
  sweeping : ∀ i sweep, (standing c i).phase = .swept sweep →
    Sweeping (tapes i) (c.sessions i).pending sweep

/-- What a session knows of its batch stays so.

**Proof sketch.** If another session moves, nothing changes here. A batch is executed by a
transaction that has written nothing, at a cutoff of a time it read, and what follows it only reads.
Once the transaction ends, nothing is pending. -/
lemma RetentionKept.sweeping_of_move (h : RetentionKept tapes c)
    (hmove : Move accountDatabase c j c') (i : ι) (sweep : AccountStmt)
    (hphase : (standing c' i).phase = .swept sweep) :
    Sweeping (tapes i) (c'.sessions i).pending sweep := by
  by_cases hj : j = i
  swap
  · unfold standing at hphase
    rw [history_stable hj hmove] at hphase
    rw [session_stable hj hmove]
    exact h.sweeping i sweep hphase
  subst hj
  unfold standing at hphase
  rcases own_of_move accountTracker hmove with
    ⟨o, f, r, ws, hp, heval, hpending, hstate, -⟩ | ⟨hpending, hend⟩ | ⟨hpending, hhistory, -⟩
  · have hturn := turn_of_mayDo ((h.kept.tracks j).mayDo hp) r
    rw [hstate] at hphase
    rw [hpending]
    rcases hturn.swept hphase with ⟨hsame, htables⟩ | ⟨hidle, rfl⟩
    · obtain ⟨rfl, -⟩ := eval_reads htables heval
      rw [List.append_nil]
      exact h.sweeping j sweep (hsame.trans hphase)
    · -- Nothing was pending before the batch.
      have hnothing : (c.sessions j).pending = [] := by
        refine List.eq_nil_iff_forall_not_mem.mpr fun w hw => ?_
        refine not_fits_of_quiet ?_ (h.kept.wrote j w hw)
        exact congrArg Phase.isBusy hidle
      rw [hnothing, List.nil_append]
      refine ⟨(h.reads j).executes hp, ?_⟩
      rintro revokedCutoff expiredCutoff batchSize rfl y hy
      exact session_of_cascade heval hy
  · rcases hend with ⟨-, hhistory⟩ | hcommitted | hrolledBack
    · rw [hhistory] at hphase
      refine ⟨(h.sweeping j sweep hphase).cut, fun _ _ _ _ y hy => ?_⟩
      rw [hpending] at hy
      cases hy
    · rw [hcommitted] at hphase
      cases hphase
    · rw [hrolledBack] at hphase
      cases hphase
  · rw [hhistory] at hphase
    rw [hpending]
    exact h.sweeping j sweep hphase

/-- **It is kept** in every run from a database that satisfies its constraints. -/
theorem RetentionKept.run [PythonRuntime] {runtime : SignInRuntime} {db : AccountData}
    {requests : ι → AccountRequest} {ls : List (Label ι)} (hdb : db.Intact)
    (hrun : run accountDatabase (accountsStarted runtime db requests tapes) ls = some c) :
    RetentionKept tapes c := by
  refine run_induction (P := RetentionKept tapes) (fun _ _ _ h ho hm => ?_) ?_ hrun
  · exact ⟨h.kept.move ho hm, fun i => (h.reads i).move hm, h.sweeping_of_move hm⟩
  · refine ⟨AccountsKept.start runtime requests tapes hdb, fun i => ?_, fun i sweep hphase => ?_⟩
    · refine ⟨fun n => ⟨n, rfl⟩, (requests i).within_program ?_ ⟨_, 0, rfl⟩ runtime⟩
      rintro r ⟨n, rfl⟩ o hcut
      exact ⟨n, hcut⟩
    · cases hphase

end Kept

/-! ## Why a row goes -/

/-- A row that was kept as long as it is to be kept, at the time `now`. Users, their addresses and
their conversations are kept as long as the account. -/
def Outdated (now : Instant) : (t : AccountTable) → t.Row → Prop
  | .loginChallenges, x => x.isFinished (now - recordRetention) (now - recordRetention) = true
  | .webSessions, x => x.isFinished (now - recordRetention) (now - recordRetention) = true
  | .auditRecords, x => x.isOld (now - auditRetention) = true
  | .linkChallenges, x => x.isFinished (now - recordRetention) = true
  | .connections, x => x.isOld (now - recordRetention) = true
  | .deletedAccounts, x => x.deletedAt ≤ now - deletedAccountRetention
  | _, _ => False

namespace AccountData

variable (s s' : AccountData)

/-- The account of a user goes. -/
def Leaves (userId : UUID) : Prop := (s.find .users userId).isSome ∧ s'.find .users userId = none

/-- The Web session with a key goes. -/
def Closes (key : UUID × UUID) : Prop :=
  (s.find .webSessions key).isSome ∧ s'.find .webSessions key = none

/-- A connection ends. -/
def Unlinks : Prop :=
  ∃ y ∈ s .connections, y.isActive = true ∧
    ∃ y' ∈ s' .connections, y'.id = y.id ∧ y'.isActive = false

/-- A row goes with the row it belongs to, and an account leaves its tombstone. -/
def Follows : (t : AccountTable) → t.Row → Prop
  | .users, x => ∃ y ∈ s' .deletedAccounts, y.userId = x.id
  | .emailIdentities, x => s.Leaves s' x.userId
  | .loginChallenges, x => ∃ userId, s.Leaves s' userId ∧ Identified s x.canonicalEmail userId
  | .webSessions, x => s.Leaves s' x.userId
  | .auditRecords, _ => False
  | .linkChallenges, x => s.Leaves s' x.initiatingUserId ∨
      s.Closes s' (x.initiatingWebSessionId, x.initiatingUserId)
  | .connections, x => s.Leaves s' x.userId
  | .conversations, x => s.Leaves s' x ∨ s.Unlinks s'
  | .deletedAccounts, _ => False

end AccountData

section Retention

variable {ι : Type} [DecidableEq ι] {tapes : ι → Stream' AccountReading} {c c' : AccountSystem ι}
  {j : ι}

/-- A transaction that deletes an account makes it go. -/
lemma AccountsKept.leaves (h : AccountsKept c) (hopen : (c.sessions j).closed = false)
    (hview : c'.db = c.view accountDatabase j) {row : DeletedAccountRecord}
    (hburied : (standing c j).phase = .buried row) : c.db.Leaves c'.db row.userId := by
  rw [hview]
  exact h.erased hopen hburied

/-- What a batch deletes was kept long enough, or is a link challenge of a Web session.

**Proof sketch.** By the batch: its cutoff is the time less the period, and of two tables only the
sessions have challenges that go with them. -/
lemma outdated_of_expires {t : AccountTable} {x : t.Row} {sweep : AccountStmt} {now : Instant}
    (hcut : sweep.CutAt now) (hexpires : sweep.Expires t x) :
    Outdated now t x ∨ t = .linkChallenges ∧ ∃ revokedCutoff expiredCutoff batchSize,
      sweep = .deleteWebSessions revokedCutoff expiredCutoff batchSize := by
  cases sweep with
  | deleteLoginChallenges consumedCutoff expiredCutoff batchSize =>
    obtain ⟨rfl, rfl⟩ := hcut
    cases t <;> first | exact .inl hexpires | cases hexpires
  | deleteWebSessions revokedCutoff expiredCutoff batchSize =>
    obtain ⟨rfl, rfl⟩ := hcut
    cases t with
    | linkChallenges => exact .inr ⟨rfl, _, _, _, rfl⟩
    | webSessions => exact .inl hexpires
    | _ => cases hexpires
  | deleteAuditRecords occurredCutoff batchSize =>
    obtain rfl : occurredCutoff = now - auditRetention := hcut
    cases t <;> first | exact .inl hexpires | cases hexpires
  | deleteTombstones deletedCutoff batchSize =>
    obtain rfl : deletedCutoff = now - deletedAccountRetention := hcut
    cases t <;> first | exact .inl hexpires | cases hexpires
  | deleteLinkChallenges finishedCutoff batchSize =>
    obtain rfl : finishedCutoff = now - recordRetention := hcut
    cases t <;> first | exact .inl hexpires | cases hexpires
  | deleteUnlinkedConnections unlinkedCutoff batchSize =>
    obtain rfl : unlinkedCutoff = now - recordRetention := hcut
    cases t <;> first | exact .inl hexpires | cases hexpires
  | _ => cases hexpires

/-- A Web session that a batch drops goes. -/
lemma RetentionKept.closes (h : RetentionKept tapes c) (hview : c'.db = c.view accountDatabase j)
    {sweep : AccountStmt} (hswept : (standing c j).phase = .swept sweep) {w : WebSessionRecord}
    (hdrop : .drop .webSessions w ∈ (c.sessions j).pending) :
    c.db.Closes c'.db (w.id, w.userId) := by
  have hput : ∀ z : WebSessionRecord, .put .webSessions z ∉ (c.sessions j).pending := fun z hz =>
    not_put_of_swept hswept (h.kept.wrote j _ hz)
  have hthere : w ∈ c.db .webSessions :=
    ((h.kept.guarding.responsible j).dropping .webSessions w hdrop).2.resolve_left (hput w)
  refine ⟨Option.isSome_iff_exists.mpr ⟨w, Table.find_of_mem hthere⟩, ?_⟩
  rw [hview]
  refine Table.find_eq_none.mpr fun z hz hkey => ?_
  rcases Store.mem_of_applyAll accountConduct hz with hnew | ⟨-, hno⟩
  · exact hput z hnew
  · refine hno _ hdrop (Store.row_mem_keys_drop.mpr ?_)
    exact congrArg (Lock.row (L := layout) .webSessions) hkey

/-- A conversation that ends without its account ends with a connection. -/
lemma AccountsKept.unlinks (h : AccountsKept c) (hopen : (c.sessions j).closed = false)
    (hview : c'.db = c.view accountDatabase j) {connectionId : UUID} {now : Instant}
    (hphase : (standing c j).phase = .unlinking connectionId now) : c.db.Unlinks c'.db := by
  have hsubject : lockedConnection (standing c j) =
      some (connectionId, Unlinked (standing c j) now) := by
    unfold lockedConnection
    rw [hphase]
  obtain ⟨row, hrow, hactive, hafter, -⟩ := ((h.connection j).apply hopen hsubject).2
  rw [hview]
  exact ⟨row, Table.mem_of_find hrow, hactive, _, Table.mem_of_find hafter, rfl, rfl⟩

variable [PythonRuntime] {runtime : SignInRuntime} {db : AccountData}
  {requests : ι → AccountRequest} {ls : List (Label ι)} {l : Label ι}

/-- **Nothing else is deleted**: a row that goes was kept long enough by one of the clock readings of
the session that deletes it, or goes with the row that it belongs to.

**Proof sketch.** The row is dropped by a transaction that commits: one that deletes an account and
has buried it, or one that has executed a batch. By the table: with the account it goes after its
user or the address, as the identities say, and with the batch it is outdated, or is a challenge
whose Web session goes too. Conversations also go with an unlinked connection. -/
theorem retention_spares (hdb : db.Intact)
    (hrun : run accountDatabase (accountsStarted runtime db requests tapes) ls = some c)
    (hstep : step accountDatabase c l = some c') {t : AccountTable} {x : t.Row} (hx : x ∈ c.db t)
    (hgone : c'.db.find t (t.key x) = none) :
    (∃ n, Outdated ((tapes l.who).get n).now.astimezoneUtc t x) ∨ c.db.Follows c'.db t x := by
  have h := RetentionKept.run hdb hrun
  obtain ⟨hopen, hmove⟩ := move_of_step hstep
  obtain ⟨hcommit, hview, -⟩ := h.kept.disappeared hmove hx hgone
  obtain ⟨-, -, y, hkey, hmem, hy⟩ := h.kept.guarding.disappeared hmove hx hgone
  have hfits : (standing c l.who).Fits (.drop t y) := h.kept.wrote l.who _ hmem
  -- What goes with an account.
  have howned : ∀ {userId : UUID}, (standing c l.who).phase.erases = some userId →
      t ≠ .auditRecords → t ≠ .deletedAccounts → c.db.Leaves c'.db userId ∧ y = x := by
    intro userId herases hrecords htombstones
    obtain ⟨row, hburied, rfl⟩ := buried_of_erases herases hcommit
    refine ⟨h.kept.leaves hopen hview hburied, hy.resolve_left fun hput => ?_⟩
    exact not_put_of_buried hburied hrecords htombstones (h.kept.wrote l.who _ hput)
  -- What goes in a batch.
  have hswept : (standing c l.who).phase.Expires t y →
      (∃ n, Outdated ((tapes l.who).get n).now.astimezoneUtc t x) ∨ y = x ∧ t = .linkChallenges ∧
        ∃ revokedCutoff expiredCutoff batchSize, (standing c l.who).phase =
          .swept (.deleteWebSessions revokedCutoff expiredCutoff batchSize) := by
    intro hexpires
    obtain ⟨sweep, hphase, hexpires⟩ := hexpires.swept
    obtain rfl : y = x := hy.resolve_left fun hput =>
      not_put_of_swept hphase (h.kept.wrote l.who _ hput)
    obtain ⟨n, hcut⟩ := (h.sweeping l.who sweep hphase).cut
    rcases outdated_of_expires hcut hexpires with hold | ⟨ht, _, _, _, rfl⟩
    · exact .inl ⟨n, hold⟩
    · exact .inr ⟨rfl, ht, _, _, _, hphase⟩
  cases t with
  | users =>
    obtain ⟨row, hburied, hrow⟩ := buried_of_erases hfits.1 hcommit
    refine .inr ⟨row, ?_, hrow.trans hkey⟩
    rw [hview]
    exact h.kept.interred hopen hburied
  | emailIdentities =>
    obtain ⟨hleaves, rfl⟩ := howned hfits (by decide) (by decide)
    exact .inr hleaves
  | loginChallenges =>
    rcases hfits with ⟨userId, herases⟩ | hexpires
    · obtain ⟨hleaves, rfl⟩ := howned herases (by decide) (by decide)
      exact .inr ⟨userId, hleaves, h.kept.identified l.who hopen _ _ (.inr ⟨herases, y, hmem, rfl⟩)⟩
    · exact .inl ((hswept hexpires).resolve_right fun hcascade => by cases hcascade.2.1)
  | webSessions =>
    rcases hfits with herases | hexpires
    · obtain ⟨hleaves, rfl⟩ := howned herases (by decide) (by decide)
      exact .inr hleaves
    · exact .inl ((hswept hexpires).resolve_right fun hcascade => by cases hcascade.2.1)
  | auditRecords =>
    exact .inl ((hswept hfits).resolve_right fun hcascade => by cases hcascade.2.1)
  | linkChallenges =>
    rcases hfits with herases | hexpires
    · obtain ⟨hleaves, rfl⟩ := howned herases (by decide) (by decide)
      exact .inr (.inl hleaves)
    · rcases hswept hexpires with hold | ⟨rfl, -, _, _, _, hphase⟩
      · exact .inl hold
      · obtain ⟨w, hkey, hdrop⟩ := (h.sweeping l.who _ hphase).cascades _ _ _ rfl y hmem
        refine .inr (.inr ?_)
        rw [← hkey]
        exact h.closes hview hphase hdrop
  | connections =>
    rcases hfits with herases | hexpires
    · obtain ⟨hleaves, rfl⟩ := howned herases (by decide) (by decide)
      exact .inr hleaves
    · exact .inl ((hswept hexpires).resolve_right fun hcascade => by cases hcascade.2.1)
  | conversations =>
    rcases hfits with herases | ⟨connectionId, now, hphase⟩
    · obtain ⟨hleaves, rfl⟩ := howned herases (by decide) (by decide)
      exact .inr (.inl hleaves)
    · exact .inr (.inr (h.kept.unlinks hopen hview hphase))
  | deletedAccounts =>
    exact .inl ((hswept hfits).resolve_right fun hcascade => by cases hcascade.2.1)

end Retention

/-! ## In a month -/

section Month

/-- Ann asks for a sign-in link and does not use it, and the jobs run. -/
def monthRequests : ℕ → AccountRequest
  | 0 => .requestMagicLink "ann@example.com" "/app"
  | _ => .cleanUpAuthentication 100

/-- The jobs run thirty days after the link has expired. -/
def monthTapes (i : ℕ) : Stream' AccountReading := fun _ =>
  ⟨Instant.toDateTime (if i = 0 then 0 else loginChallengeLifetime + recordRetention), i,
    ceremonyToken (Char.ofNat (97 + i))⟩

/-- The database is empty. -/
def month [PythonRuntime] : AccountSystem ℕ :=
  accountsStarted ceremonyRuntime (Store.empty layout) monthRequests monthTapes

/-- Ann's request, and the job up to the batch of sign-in challenges. -/
def monthLabels : List (Label ℕ) := List.replicate 8 (.go 0) ++ List.replicate 6 (.go 1)

/-- Ann's challenge goes when it was kept for thirty days. -/
theorem retention_spares_month :
    letI := PythonRuntime.ascii
    ∃ c c', run accountDatabase month monthLabels = some c ∧
      step accountDatabase c (.go 1) = some c' ∧ ceremonyChallenge ∈ c.db .loginChallenges ∧
      c'.db.find .loginChallenges 0 = none ∧
      ∃ n, Outdated ((monthTapes 1).get n).now.astimezoneUtc .loginChallenges
        ceremonyChallenge := by
  let _ := PythonRuntime.ascii
  have heval : (run accountDatabase month monthLabels).bind (fun c =>
      (step accountDatabase c (.go 1)).map fun c' =>
        ((c.db .emailIdentities).rows, c.db.find .loginChallenges 0,
          c'.db.find .loginChallenges 0)) = some ([], some ceremonyChallenge, none) := by
    decide +kernel
  obtain ⟨c, hrun, heval⟩ := Option.bind_eq_some_iff.mp heval
  obtain ⟨c', hstep, heval⟩ := Option.map_eq_some_iff.mp heval
  obtain ⟨hnobody, heval⟩ := Prod.mk.inj heval
  obtain ⟨hbefore, hgone⟩ := Prod.mk.inj heval
  have hx := Table.mem_of_find hbefore
  refine ⟨c, c', hrun, hstep, hx, hgone,
    (retention_spares Store.intact_empty hrun hstep hx hgone).resolve_right ?_⟩
  rintro ⟨userId, -, e, he, -⟩
  have hmem : e ∈ (c.db .emailIdentities).rows := he
  rw [hnobody] at hmem
  cases hmem

end Month

end MintFlow.Accounts
