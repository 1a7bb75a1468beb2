import MintFlow.Accounts.WebSessions

set_option relaxedAutoImplicit false
set_option autoImplicit false

/-!
# Accounts: the audit trail

Sign-ins are put on record, and sign-in links that no longer work, the ends of Web sessions, both
ends of the linking ceremony, unlinking and the deletion of an account. The record is part of the
transaction that does it: what is not on record is not committed.

## Main definitions

* `MintFlow.Accounts.Entry` — what is put on record.
* `MintFlow.Accounts.AccountStmt.deed` — the entry that a statement owes.
* `MintFlow.Accounts.owed` — the entries that a transaction still owes.

## Main results

* `MintFlow.Accounts.audit_complete` — **A committed transaction owes nothing**, in any run.
-/

namespace MintFlow.Accounts

open Transact Transact.Prog

/-! ## Entries -/

/-- What an audit record says, besides its id and its user. -/
structure Entry where
  eventType : AuthenticationAuditEventType
  outcome : AuthenticationAuditOutcome
  subjectRecordId : Option UUID
  occurredAt : Instant
deriving DecidableEq

/-- The entry of an audit record. -/
def AuditRecord.entry (record : AuditRecord) : Entry :=
  ⟨record.eventType, record.outcome, record.subjectRecordId, record.occurredAt⟩

/-- What a statement did that is to be put on record. -/
def AccountStmt.deed : (o : AccountStmt) → o.Resp → Option Entry
  | .consumeChallenge _ at_, none => some ⟨.loginFailed, .failed, none, at_⟩
  | .insertSession session, _ =>
    some ⟨.loginSucceeded, .succeeded, some session.id, session.issuedAt⟩
  | .revokeSession sessionId at_, rowcount =>
    some ⟨.currentSessionRevoked, if rowcount = (1 : ℕ) then .succeeded else .failed,
      some sessionId, at_⟩
  | .revokeSessions _ at_, _ => some ⟨.allSessionsRevoked, .succeeded, none, at_⟩
  | .claimChallenge _ _ _ at_, some challenge =>
    some ⟨.telegramLinkClaimed, .succeeded, some challenge.id, at_⟩
  | .insertConnection connection, true =>
    some ⟨.telegramLinked, .succeeded, some connection.id, connection.linkedAt⟩
  | .unlinkConnection _ at_, some connectionId =>
    some ⟨.telegramUnlinked, .succeeded, some connectionId, at_⟩
  | .putTombstone row, _ => some ⟨.accountDeleted, .succeeded, none, row.deletedAt⟩
  | _, _ => none

/-- **The tracker** of the entries that a transaction owes. -/
def auditTracker : Tracker accounting (List Entry) where
  start := []
  answers _ _ := True
  mayDo _ _ := True
  after
    | .appendAudit record, _, entries => entries.erase record.entry
    | o, r, entries => (o.deed r).elim entries fun entry => entries ++ [entry]
  maySend _ := True
  mayCommit entries := entries = []
  committed _ := []
  rolledBack _ := []
  mayFail _ _ := True

/-- The entries that a session owes after a history: those of its transaction that it has not put on
record. -/
def owed (es : List (Event accounting)) : List Entry := auditTracker.state es

/-! ## Programs -/

section Programs

variable [PythonRuntime] {α : Type} {Q : α → List Entry → Prop} {entries : List Entry}

/-- What owes nothing. -/
abbrev Settles {β : Type} (p : AccountProgram β) : Prop :=
  p.wp auditTracker.logic (fun _ entries => entries = []) []

omit [PythonRuntime] in
/-- A request may fail. -/
lemma mayFail_audited (e : AccountError) (entries : List Entry) : auditTracker.mayFail e entries :=
  trivial

omit [PythonRuntime] in
/-- A statement. -/
lemma wp_statement {o : AccountStmt} {f : o.Resp → AccountProgram α}
    (hf : ∀ r, (f r).wp auditTracker.logic Q (auditTracker.after o r entries)) :
    (execute o >>= f).wp auditTracker.logic Q entries :=
  (wp_bind _ _).mpr ⟨trivial, fun r _ => hf r⟩

omit [PythonRuntime] in
/-- An entry that is put on record. -/
lemma wp_record {eventType : AuthenticationAuditEventType} {outcome : AuthenticationAuditOutcome}
    {userId subjectRecordId : Option UUID} {occurredAt : Instant} {f : Unit → AccountProgram α}
    (hf : (f ()).wp auditTracker.logic Q []) :
    (audit eventType outcome userId subjectRecordId occurredAt >>= f).wp auditTracker.logic Q
      [⟨eventType, outcome, subjectRecordId, occurredAt⟩] := by
  intro r
  refine ⟨trivial, fun _ _ => ?_⟩
  show (f ()).wp auditTracker.logic Q ([_].erase _)
  have hsettled : ∀ entry : Entry, [entry].erase entry = [] := fun entry =>
    List.erase_cons_head entry []
  exact (hsettled _).symm ▸ hf

/-- A session that is opened. -/
lemma settles_openSession (userId : UUID) (returnTarget : String) (consumedAt : Instant) :
    Settles (openSession userId returnTarget consumedAt) := by
  intro r
  refine ⟨trivial, fun _ _ => wp_record ?_⟩
  exact ⟨rfl, rfl⟩

/-- Signing in. -/
lemma settles_consume (tokenHash : String) (consumedAt : Instant) :
    Settles (consume tokenHash consumedAt) := by
  refine wp_statement fun r => ?_
  cases r with
  | none =>
    refine wp_record ?_
    exact ⟨rfl, rfl⟩
  | some challenge =>
    refine ⟨trivial, fun _ _ => wp_statement fun r => ?_⟩
    cases r with
    | none =>
      intro user
      refine ⟨trivial, fun _ _ identity => ⟨trivial, fun _ _ => ?_⟩⟩
      exact settles_openSession _ _ _
    | some user =>
      dsimp only
      split_ifs
      · exact settles_openSession _ _ _
      · exact fun _ => ⟨trivial, fun _ _ => ⟨rfl, rfl⟩⟩

/-- A request that is authenticated. -/
lemma wp_authenticated {sessionSecret : Option String}
    {f : AuthenticatedWebSession → AccountProgram α}
    (hf : ∀ session, (f session).wp auditTracker.logic Q entries) :
    (getAuthenticatedPrincipal sessionSecret >>= f).wp auditTracker.logic Q entries := by
  unfold getAuthenticatedPrincipal
  cases sessionSecret.filter isMagicLinkToken with
  | none => trivial
  | some secret =>
    refine (wp_bind _ _).mpr (wp_clock mayFail_audited fun now => ⟨trivial, fun r _ => ?_⟩)
    cases r with
    | none => trivial
    | some session => exact hf session

/-- So does one whose CSRF token is right. -/
lemma wp_verified {sessionSecret : Option String} {verified : Bool}
    {f : AuthenticatedWebSession → AccountProgram α}
    (hf : ∀ session, (f session).wp auditTracker.logic Q entries) :
    (getCsrfProtectedPrincipal sessionSecret verified >>= f).wp auditTracker.logic Q entries := by
  refine (wp_bind _ _).mpr (wp_authenticated fun session => ?_)
  cases verified with
  | false => trivial
  | true => exact hf session

omit [PythonRuntime] in
/-- A revocation, also one that comes too late. -/
lemma settles_revoke (sessionId : UUID) (revokedAt : Instant) :
    Settles (revoke sessionId revokedAt) := by
  refine ⟨trivial, fun userId _ => wp_statement fun rowcount => wp_record ?_⟩
  exact ⟨rfl, rfl⟩

omit [PythonRuntime] in
/-- A confirmation.

**Proof sketch.** Along the program. Without a claimed challenge, a valid session and a new
connection it owes nothing, and otherwise the audit record follows both statements at once. -/
lemma settles_confirm (challengeId webSessionId : UUID) (now : Instant) :
    Settles (confirm challengeId webSessionId now) := by
  refine wp_statement fun r => ?_
  cases r with
  | none => exact ⟨rfl, rfl⟩
  | some challenge =>
    dsimp only
    cases challenge.claimedTelegramUserId with
    | none => exact ⟨rfl, rfl⟩
    | some telegramUserId =>
      refine ⟨trivial, fun valid _ => ?_⟩
      cases valid with
      | false => exact ⟨rfl, rfl⟩
      | true =>
        intro r
        refine ⟨trivial, fun inserted _ => ?_⟩
        cases inserted with
        | false => exact ⟨rfl, rfl⟩
        | true =>
          refine ⟨trivial, fun _ _ => wp_record ?_⟩
          exact ⟨rfl, rfl⟩

omit [PythonRuntime] in
/-- The tables of a user, one after the other. -/
lemma settles_executeEach (userId : UUID) : ∀ ts, Settles (executeEach ts userId)
  | [] => rfl
  | _ :: ts => ⟨trivial, fun _ _ => settles_executeEach userId ts⟩

omit [PythonRuntime] in
/-- A deletion of an account. -/
lemma settles_executeDeleteAccount (userId : UUID) : Settles (executeDeleteAccount userId) := by
  unfold executeDeleteAccount
  intro r
  refine wp_check mayFail_audited fun _ => wp_statement fun locked => ?_
  cases locked with
  | false => exact ⟨rfl, rfl⟩
  | true =>
    refine wp_bind_of (settles_executeEach userId ownedTables) fun _ entries hsettled => ?_
    rw [hsettled]
    refine ⟨trivial, fun _ _ => ⟨trivial, fun _ _ => ⟨trivial, fun _ _ => ⟨trivial, fun _ _ => ?_⟩⟩⟩⟩
    exact ⟨List.erase_cons_head _ [], rfl⟩

omit [PythonRuntime] in
/-- The deletion of accounts that a backup brought back. -/
lemma settles_deleteEach : ∀ userIds, Settles (deleteEach userIds)
  | [] => rfl
  | userId :: userIds => by
    refine wp_bind_of (settles_executeDeleteAccount userId) fun deleted _ hsettled => ?_
    rw [hsettled]
    exact wp_bind_of (settles_deleteEach userIds) fun rest _ hsettled => hsettled

/-- **Every request** commits what is on record only.

**Proof sketch.** By the request. Along its program, each statement that is a deed is followed by
its record before the commit, and before it fails or commits otherwise nothing is owed. -/
theorem AccountRequest.wp_audited (runtime : SignInRuntime) (q : AccountRequest) :
    (q.program runtime).wp auditTracker.logic (fun _ _ => True) [] := by
  have hdone : ∀ {β : Type} {p : AccountProgram β} (answer : β → AccountAnswer),
      p.wp auditTracker.logic (fun _ _ => True) [] →
      (p.bind fun b => .pure (answer b)).wp auditTracker.logic (fun _ _ => True) [] :=
    fun answer hp => wp_bind_of hp fun _ _ _ => trivial
  cases q with
  | requestMagicLink email returnTarget =>
    refine hdone _ (wp_clock mayFail_audited fun issuedAt r => ⟨trivial, fun _ _ => ?_⟩)
    exact ⟨rfl, fun r' => ⟨trivial, fun _ _ => ⟨rfl, trivial⟩⟩⟩
  | consumeMagicLink token =>
    refine hdone _ (wp_clock mayFail_audited fun now => ?_)
    exact wp_bind_of (settles_consume _ _) fun _ _ _ => trivial
  | createLinkChallenge secret verified =>
    refine hdone _ (wp_verified fun session => wp_clock mayFail_audited fun now r => ?_)
    exact ⟨trivial, fun _ _ => ⟨rfl, trivial⟩⟩
  | getLinkChallenge secret challengeId =>
    refine hdone _ (wp_authenticated fun session => wp_statement fun r => ?_)
    cases r with
    | none => trivial
    | some challenge =>
      dsimp only
      split_ifs
      · trivial
      · exact wp_clock mayFail_audited fun now => trivial
  | confirmLinkChallenge secret verified challengeId =>
    refine hdone _ (wp_verified fun session => wp_clock mayFail_audited fun now => ?_)
    refine wp_bind_of (settles_confirm challengeId session.sessionId now) fun r _ _ => ?_
    cases r with
    | none => trivial
    | some connection => exact ⟨trivial, trivial⟩
  | claimTelegramLink payload telegramUserId chatId displayName =>
    refine hdone _ (wp_bind_of (R := fun _ entries => entries = []) ?_ fun r _ hsettled => ?_)
    · unfold claim
      split_ifs
      · refine wp_clock mayFail_audited fun now => wp_statement fun r => ?_
        cases r with
        | none => exact ⟨rfl, rfl⟩
        | some challenge =>
          refine wp_record ?_
          exact ⟨rfl, rfl⟩
      · rfl
    · rw [hsettled]
      exact ⟨rfl, trivial, trivial⟩
  | getConnection secret =>
    exact hdone _ (wp_authenticated fun session => ⟨trivial, fun _ _ => trivial⟩)
  | deleteConnection secret verified =>
    refine hdone _ (wp_verified fun session => wp_clock mayFail_audited fun now => ?_)
    refine wp_statement fun r => ?_
    cases r with
    | none => exact ⟨rfl, trivial⟩
    | some connectionId =>
      refine ⟨trivial, fun _ _ => wp_record ?_⟩
      exact ⟨rfl, trivial⟩
  | deleteAccount secret verified typedEmail =>
    refine hdone _ (wp_verified fun session => ?_)
    split_ifs
    · trivial
    refine wp_statement fun accountEmail => ?_
    cases runtime.normalizeEmail typedEmail with
    | none => trivial
    | some typed =>
      dsimp only
      split_ifs
      · exact wp_bind_of (settles_executeDeleteAccount _) fun _ _ _ => trivial
      · trivial
  | logout secret =>
    refine hdone _ (wp_statement fun found => ⟨rfl, ?_⟩)
    cases found with
    | none => trivial
    | some sessionId =>
      refine wp_clock mayFail_audited fun now => ?_
      exact wp_bind_of (settles_revoke sessionId now) fun _ _ _ => trivial
  | revokeWebSession sessionId =>
    refine hdone _ (wp_clock mayFail_audited fun now => ?_)
    exact wp_mono _ (fun _ _ _ => trivial) (settles_revoke sessionId now)
  | revokeAllWebSessions userId =>
    refine hdone _ (wp_clock mayFail_audited fun now => ⟨trivial, fun rowcount _ => wp_record ?_⟩)
    exact ⟨rfl, trivial⟩
  | cleanUpAuthentication batchSize =>
    refine hdone _ ((wp_bind _ _).mpr (wp_check mayFail_audited fun _ => ?_))
    intro r
    refine wp_check mayFail_audited fun _ => wp_statement fun userIds => ⟨rfl, ?_⟩
    show ((deleteEach userIds).bind _).wp auditTracker.logic _ []
    refine wp_bind_of (settles_deleteEach userIds) fun accounts _ hsettled => ?_
    rw [hsettled]
    refine ⟨trivial, fun _ _ => ⟨rfl, trivial, fun _ _ => ⟨rfl, trivial, fun _ _ => ⟨rfl, trivial, ?_⟩⟩⟩⟩
    exact fun _ _ => ⟨rfl, trivial⟩
  | cleanUpTelegram batchSize =>
    refine hdone _ ((wp_bind _ _).mpr (wp_check mayFail_audited fun _ => ?_))
    refine wp_clock mayFail_audited fun now => ⟨trivial, fun _ _ => ⟨rfl, trivial, ?_⟩⟩
    exact fun _ _ => ⟨rfl, trivial⟩
  | deactivate userId =>
    exact hdone _ fun r => wp_check mayFail_audited fun _ => ⟨trivial, fun _ _ => ⟨rfl, trivial⟩⟩

end Programs

/-! ## Runs -/

section Runs

/-- A statement that owes an entry adds it. -/
lemma mem_owe {entry : Entry} {entries : List Entry} (deed : Option Entry)
    (h : entry ∈ entries ∨ deed = some entry) :
    entry ∈ deed.elim entries fun entry => entries ++ [entry] := by
  cases deed with
  | none => exact h.resolve_right fun hnone => by cases hnone
  | some entry' =>
    rcases h with hmem | hsome
    · exact List.mem_append_left _ hmem
    · obtain rfl := Option.some.inj hsome
      exact List.mem_append_right _ List.mem_cons_self

/-- What is owed after a statement: what was owed before that is not put on record, and its deed. -/
lemma mem_after {entry : Entry} {entries : List Entry} {o : AccountStmt} {r : o.Resp}
    (h : entry ∈ entries ∨ o.deed r = some entry) : entry ∈ auditTracker.after o r entries ∨
      ∃ record : AuditRecord, o = .appendAudit record ∧ record.entry = entry := by
  cases o with
  | appendAudit record =>
    by_cases hentry : record.entry = entry
    · exact .inr ⟨record, rfl, hentry⟩
    · have hmem := h.resolve_right fun hnone => by cases hnone
      exact .inl ((List.mem_erase_of_ne (Ne.symm hentry)).mpr hmem)
  | _ => exact .inl (mem_owe _ h)

/-- An entry that is owed stays so until it is put on record, or the transaction ends.

**Proof sketch.** Induction on what follows, from its end. The last event took the entry off, or it
was off before; and only its record takes it off, as the transaction does not end. -/
lemma recorded_of_owed {es es' : List (Event accounting)} {entry : Entry} (howed : entry ∈ owed es)
    (hsettled : entry ∉ owed (es ++ es')) (hcommitted : .committed ∉ es')
    (hrolledBack : .rolledBack ∉ es') :
    ∃ record : AuditRecord, (.did (AccountStmt.appendAudit record) () : Event accounting) ∈ es' ∧
      record.entry = entry := by
  induction es' using List.reverseRecOn with
  | nil =>
    rw [List.append_nil] at hsettled
    exact absurd howed hsettled
  | append_singleton es' e ih =>
    by_cases hbefore : entry ∈ owed (es ++ es')
    swap
    · obtain ⟨record, hmem, hentry⟩ := ih hbefore (fun h => hcommitted (List.mem_append_left _ h))
        fun h => hrolledBack (List.mem_append_left _ h)
      exact ⟨record, List.mem_append_left _ hmem, hentry⟩
    rw [← List.append_assoc] at hsettled
    unfold owed at hsettled
    rw [Tracker.state_append] at hsettled
    have hlast : e ∈ es' ++ [e] := List.mem_append_right _ List.mem_cons_self
    cases e with
    | committed => exact absurd hlast hcommitted
    | rolledBack => exact absurd hlast hrolledBack
    | did o r =>
      obtain ⟨record, rfl, hentry⟩ := (mem_after (.inl hbefore)).resolve_left hsettled
      exact ⟨record, hlast, hentry⟩

variable [PythonRuntime] {runtime : SignInRuntime} {ι : Type} [DecidableEq ι] {db : AccountData}
  {requests : ι → AccountRequest} {tapes : ι → Stream' AccountReading} {ls : List (Label ι)}
  {c : AccountSystem ι}

/-- **What is committed is on record**: in every run, a deed that a session committed is followed, in
the same transaction, by an audit record that says so.

**Proof sketch.** A commit owes nothing (`AccountRequest.wp_audited`), in every run. The deed owed
its entry, so that it was put on record in between (`recorded_of_owed`). -/
theorem audit_complete
    (hrun : run accountDatabase (accountsStarted runtime db requests tapes) ls = some c) {i : ι}
    {es es' : List (Event accounting)} {o : AccountStmt} {r : o.Resp} {entry : Entry}
    (hdeed : o.deed r = some entry)
    (hcommitted : es ++ .did o r :: es' ++ [.committed] <+: c.history i)
    (hsame : .committed ∉ es' ∧ .rolledBack ∉ es') :
    ∃ record : AuditRecord, (.did (AccountStmt.appendAudit record) () : Event accounting) ∈ es' ∧
      record.entry = entry := by
  have hsettled : owed (es ++ .did o r :: es') = [] :=
    vouched_of_run (T := auditTracker)
      (fun _ _ => ⟨fun _ _ _ _ _ _ => trivial, fun _ _ _ _ _ => trivial⟩) (fun _ => trivial) rfl
      (fun i => (requests i).wp_audited runtime) hrun i _ hcommitted
  rw [List.append_cons] at hsettled
  have howed : entry ∈ owed (es ++ [.did o r]) := by
    unfold owed
    rw [Tracker.state_append]
    refine (mem_after (.inr hdeed)).resolve_right ?_
    rintro ⟨record, rfl, -⟩
    cases hdeed
  refine recorded_of_owed howed ?_ hsame.1 hsame.2
  rw [hsettled]
  exact List.not_mem_nil

end Runs

/-! ## In the ceremony -/

section Ceremony

/-- What is seen of an event. -/
inductive Mark
  | opens
  | commits
  | rollsBack
  | other
deriving DecidableEq

/-- What is seen of an event: that a Web session was opened, or how the transaction ended. -/
def mark : Event accounting → Mark
  | .did (.insertSession _) _ => .opens
  | .did _ _ => .other
  | .committed => .commits
  | .rolledBack => .rollsBack

/-- What opens a Web session. -/
lemma opens_of_mark {e : Event accounting} (h : mark e = .opens) :
    ∃ session : WebSessionRecord, e = .did (AccountStmt.insertSession session) () := by
  cases e with
  | did o r =>
    cases o with
    | insertSession session => exact ⟨session, rfl⟩
    | _ => cases h
  | committed => cases h
  | rolledBack => cases h

/-- What is seen as a commit. -/
lemma commits_of_mark {e : Event accounting} (h : mark e = .commits) : e = .committed := by
  cases e with
  | did o r => cases o <;> cases h
  | committed => rfl
  | rolledBack => cases h

/-- Ann signs in, and it is on record. -/
theorem audit_complete_ceremony :
    letI := PythonRuntime.ascii
    ∃ (c : AccountSystem ℕ) (es es' : List (Event accounting)) (session : WebSessionRecord),
      run accountDatabase ceremony (ceremonyLabels.take 22) = some c ∧
      es ++ .did (AccountStmt.insertSession session) () :: es' ++ [.committed] <+: c.history 1 ∧
      ∃ record : AuditRecord, (.did (AccountStmt.appendAudit record) () : Event accounting) ∈ es' ∧
        record.entry = ⟨.loginSucceeded, .succeeded, some session.id, session.issuedAt⟩ := by
  let _ := PythonRuntime.ascii
  have heval : (run accountDatabase ceremony (ceremonyLabels.take 22)).map
      (fun c => (c.history 1).map mark) =
      some (List.replicate 5 .other ++ .opens :: ([.other] ++ [.commits])) := by
    decide +kernel
  obtain ⟨c, hrun, hmarks⟩ := Option.map_eq_some_iff.mp heval
  obtain ⟨es, rest, hhistory, -, hmarks⟩ := List.map_eq_append_iff.mp hmarks
  obtain ⟨e, rest, rfl, hopens, hmarks⟩ := List.map_eq_cons_iff.mp hmarks
  obtain ⟨es', rest, rfl, hother, hmarks⟩ := List.map_eq_append_iff.mp hmarks
  obtain ⟨e', rest, rfl, hcommits, hmarks⟩ := List.map_eq_cons_iff.mp hmarks
  obtain rfl := List.map_eq_nil_iff.mp hmarks
  obtain ⟨session, rfl⟩ := opens_of_mark hopens
  obtain rfl := commits_of_mark hcommits
  have hno : ∀ e ∈ es', mark e = .other := fun e he =>
    List.mem_singleton.mp (hother ▸ List.mem_map_of_mem he)
  have hprefix : es ++ .did (AccountStmt.insertSession session) () :: es' ++ [.committed] <+:
      c.history 1 := by
    rw [hhistory, List.append_assoc, List.cons_append]
  have hsame : .committed ∉ es' ∧ .rolledBack ∉ es' :=
    ⟨fun hmem => absurd (hno _ hmem) (by decide), fun hmem => absurd (hno _ hmem) (by decide)⟩
  exact ⟨c, es, es', session, hrun, hprefix, audit_complete hrun rfl hprefix hsame⟩

end Ceremony

end MintFlow.Accounts
