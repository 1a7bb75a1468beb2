import MintFlow.Accounts.Programs
import MintFlow.Lib.Integrity

set_option relaxedAutoImplicit false
set_option autoImplicit false

/-!
# Accounts: where a session stands

What a session did in its open transaction decides what it may do next: it inserts a Web session only
for a user it found by a consumed challenge, and a connection only for a challenge it locked and
checked. The request that is authenticated stays so until its transaction ends.

## Main definitions

* `MintFlow.Accounts.Phase`, `MintFlow.Accounts.Standing` — how far a transaction has come, and for
  whom.
* `MintFlow.Accounts.accountTracker` — the tracker.
* `MintFlow.Accounts.Turn` — what a statement makes of a phase.

## Main results

* `MintFlow.Accounts.turn_of_mayDo` — the turns are all there is.
* `MintFlow.Accounts.AccountRequest.wp_tracked` — every request meets the obligations.
-/

namespace MintFlow.Accounts

open Transact Transact.Prog

/-! ## Phases -/

/-- How far a transaction has come. -/
inductive Phase
  /-- Nothing was written. -/
  | idle
  /-- A sign-in challenge was consumed. -/
  | consumed (challenge : LoginChallengeRecord) (consumedAt : Instant)
  /-- Its user was found deactivated. -/
  | denied (challenge : LoginChallengeRecord) (consumedAt : Instant) (user : UserRecord)
  /-- Its user was inserted. -/
  | registering (challenge : LoginChallengeRecord) (consumedAt : Instant) (user : UserRecord)
  /-- Its user is known, and the identity if it was inserted. -/
  | admitted (challenge : LoginChallengeRecord) (consumedAt : Instant) (userId : UUID)
      (identity : Option EmailIdentityRecord)
  /-- The Web session was inserted. -/
  | signedIn (challenge : LoginChallengeRecord) (identity : Option EmailIdentityRecord)
      (session : WebSessionRecord)
  /-- A claimed link challenge was locked. -/
  | confirming (challenge : LinkChallengeRecord) (now : Instant)
  /-- Its session was found valid. -/
  | validated (challenge : LinkChallengeRecord) (now : Instant)
  /-- The connection was inserted. -/
  | linking (challenge : LinkChallengeRecord) (connection : ConnectionRecord)
  /-- The challenge was confirmed. -/
  | linked (challenge : LinkChallengeRecord) (connection : ConnectionRecord)
  /-- A connection was unlinked. -/
  | unlinking (connectionId : UUID) (now : Instant)
  /-- A user was locked for deletion, and the rows in these tables are deleted. -/
  | deleting (userId : UUID) (done : List AccountTable)
  /-- The user was deleted. -/
  | deleted (userId : UUID)
  /-- The tombstone was set. -/
  | buried (tombstone : DeletedAccountRecord)
  /-- A batch of retention was deleted. -/
  | swept (sweep : AccountStmt)
  /-- Something else was written. -/
  | working (stmt : AccountStmt) (answer : stmt.Resp)

/-- How far a transaction has come, and for which Web session, authenticated when. The accounts that a
backup brought back are remembered. -/
structure Standing where
  principal : Option (AuthenticatedWebSession × Instant)
  phase : Phase
  restored : List UUID

/-- The tables that a statement writes. -/
def AccountStmt.tables : AccountStmt → List AccountTable
  | .addLoginChallenge _ | .consumeChallenge .. | .deleteLoginChallenges .. => [.loginChallenges]
  | .insertUser _ | .deactivateUser .. => [.users]
  | .insertIdentity _ => [.emailIdentities]
  | .insertSession _ | .revokeSession .. | .revokeSessions .. => [.webSessions]
  | .appendAudit _ | .clearAudit _ | .deleteAuditRecords .. => [.auditRecords]
  | .createChallenge _ | .claimChallenge .. | .confirmChallenge .. | .deleteLinkChallenges .. =>
    [.linkChallenges]
  | .insertConnection _ | .unlinkConnection .. | .deleteUnlinkedConnections .. => [.connections]
  | .deleteConversation _ => [.conversations]
  | .deleteOwned .users _ => [.auditRecords, .users]
  | .deleteOwned .webSessions _ => [.linkChallenges, .webSessions]
  | .deleteOwned t _ => [t]
  | .putTombstone _ | .deleteTombstones .. => [.deletedAccounts]
  | .deleteWebSessions .. => [.linkChallenges, .webSessions]
  | _ => []

namespace Phase

/-- A transaction that begins to write. -/
def touched (o : AccountStmt) (r : o.Resp) : Phase → Phase
  | idle => working o r
  | p => p

/-- After the user of the address was looked up. -/
def found (user : UserRecord) : Phase → Phase
  | consumed challenge at_ =>
    if user.status = .active then admitted challenge at_ user.id none
    else denied challenge at_ user
  | p => p

/-- After a user was inserted. -/
def registered (user : UserRecord) : Phase → Phase
  | consumed challenge at_ => registering challenge at_ user
  | p => p

/-- After an identity was inserted. -/
def identified (identity : EmailIdentityRecord) : Phase → Phase
  | registering challenge at_ user => admitted challenge at_ user.id (some identity)
  | p => p

/-- After a Web session was inserted. -/
def opened (session : WebSessionRecord) : Phase → Phase
  | admitted challenge _ _ identity => signedIn challenge identity session
  | p => p

/-- After the session was found valid. -/
def approved : Phase → Phase
  | confirming challenge now => validated challenge now
  | p => p

/-- After the connection was inserted. -/
def connected (connection : ConnectionRecord) : Phase → Phase
  | validated challenge _ => linking challenge connection
  | p => p

/-- After the challenge was confirmed. -/
def sealed : Phase → Phase
  | linking challenge connection => linked challenge connection
  | p => p

/-- After the rows of the user in a table were deleted. -/
def removed (t : AccountTable) : Phase → Phase
  | deleting userId done => deleting userId (done ++ [t])
  | p => p

/-- After the user was deleted. -/
def erased (userId : UUID) : Phase → Phase
  | deleting .. => deleted userId
  | p => p

/-- After the tombstone was set. -/
def interred (tombstone : DeletedAccountRecord) : Phase → Phase
  | deleted _ => buried tombstone
  | p => p

/-- After a statement. -/
def after (p : Phase) : (o : AccountStmt) → o.Resp → Phase
  | .consumeChallenge _ at_, some challenge => consumed challenge at_
  | .consumeChallenge .., none => p
  | .selectIdentity _, some user => p.found user
  | .insertUser user, _ => p.registered user
  | .insertIdentity identity, _ => p.identified identity
  | .insertSession session, _ => p.opened session
  | .lockClaimed _ _ now, some challenge => confirming challenge now
  | .sessionIsValid .., true => p.approved
  | .insertConnection connection, true => p.connected connection
  | .insertConnection _, false => p
  | .confirmChallenge .., _ => p.sealed
  | .unlinkConnection _ now, some connectionId => unlinking connectionId now
  | .unlinkConnection .., none => p
  | .lockUser userId, true => deleting userId []
  | .deleteOwned .users userId, _ => p.erased userId
  | .deleteOwned t _, _ => p.removed t
  | .putTombstone row, _ => p.interred row
  | .deleteLoginChallenges consumedCutoff expiredCutoff batchSize, _ =>
    swept (.deleteLoginChallenges consumedCutoff expiredCutoff batchSize)
  | .deleteWebSessions revokedCutoff expiredCutoff batchSize, _ =>
    swept (.deleteWebSessions revokedCutoff expiredCutoff batchSize)
  | .deleteAuditRecords occurredCutoff batchSize, _ =>
    swept (.deleteAuditRecords occurredCutoff batchSize)
  | .deleteTombstones deletedCutoff batchSize, _ => swept (.deleteTombstones deletedCutoff batchSize)
  | .deleteLinkChallenges finishedCutoff batchSize, _ =>
    swept (.deleteLinkChallenges finishedCutoff batchSize)
  | .deleteUnlinkedConnections unlinkedCutoff batchSize, _ =>
    swept (.deleteUnlinkedConnections unlinkedCutoff batchSize)
  | o, r => if o.tables = [] then p else p.touched o r

/-- Whether an audit record may be appended. -/
def mayLog : Phase → Prop
  | confirming .. | validated .. | swept _ => False
  | _ => True

/-- Whether a transaction may be committed. -/
def mayCommit : Phase → Prop
  | consumed .. | registering .. | admitted .. | linking .. | deleting .. | deleted _ => False
  | _ => True

end Phase

namespace Standing

/-- What may be executed. -/
def mayDo (k : Standing) : AccountStmt → Prop
  | .addLoginChallenge challenge => k.phase = .idle ∧ challenge.consumedAt = none
  | .consumeChallenge .. => k.phase = .idle
  | .selectIdentity email =>
    ∃ challenge at_, k.phase = .consumed challenge at_ ∧ email = challenge.canonicalEmail
  | .insertUser user => user.status = .active ∧ ∃ challenge at_, k.phase = .consumed challenge at_
  | .insertIdentity identity => ∃ challenge at_ user, k.phase = .registering challenge at_ user ∧
      identity.userId = user.id ∧ identity.canonicalEmail = challenge.canonicalEmail
  | .insertSession session => session.revokedAt = none ∧
      session.expiresAt = session.issuedAt + webSessionLifetime ∧
      ∃ challenge identity, k.phase = .admitted challenge session.issuedAt session.userId identity
  | .authenticate .. => k.phase = .idle ∧ k.principal = none
  | .revokeSession .. | .revokeSessions .. | .claimChallenge .. | .deactivateUser .. =>
    k.phase = .idle
  | .lockUser userId => k.phase = .idle ∧ (userId ∈ k.restored ∨
      ∃ principal at_, k.principal = some (principal, at_) ∧ userId = principal.userId)
  | .unlinkConnection userId _ => k.phase = .idle ∧
      ∃ principal at_, k.principal = some (principal, at_) ∧ userId = principal.userId
  | .createChallenge challenge => k.phase = .idle ∧ challenge.claimedAt = none ∧
      ∃ principal at_, k.principal = some (principal, at_) ∧
        challenge.initiatingUserId = principal.userId ∧
        challenge.initiatingWebSessionId = principal.sessionId
  | .lockClaimed _ webSessionId _ => k.phase = .idle ∧
      ∃ principal at_, k.principal = some (principal, at_) ∧ webSessionId = principal.sessionId
  | .sessionIsValid webSessionId userId now =>
    ∃ challenge, k.phase = .confirming challenge now ∧ userId = challenge.initiatingUserId ∧
      ∃ principal at_, k.principal = some (principal, at_) ∧ webSessionId = principal.sessionId
  | .insertConnection connection => connection.unlinkedAt = none ∧
      ∃ challenge, k.phase = .validated challenge connection.linkedAt ∧
        connection.userId = challenge.initiatingUserId ∧
        challenge.claimedTelegramUserId = some connection.telegramUserId
  | .confirmChallenge challengeId now => ∃ challenge connection,
      k.phase = .linking challenge connection ∧ challengeId = challenge.id ∧
        now = connection.linkedAt
  | .appendAudit _ => k.phase.mayLog
  | .deleteConversation _ => ∃ connectionId now, k.phase = .unlinking connectionId now
  | .deleteOwned t userId => ∃ done, k.phase = .deleting userId done ∧
      ((∃ rest, ownedTables = done ++ t :: rest) ∨ t = .users ∧ done = ownedTables)
  | .clearAudit userId => ∃ done, k.phase = .deleting userId done
  | .putTombstone row => k.phase = .deleted row.userId
  | .deleteLoginChallenges .. | .deleteWebSessions .. | .deleteAuditRecords ..
  | .deleteTombstones .. | .deleteLinkChallenges .. | .deleteUnlinkedConnections .. =>
    k.phase = .idle
  | _ => True

/-- The principal after a statement. -/
def principalAfter (k : Standing) : (o : AccountStmt) → o.Resp →
    Option (AuthenticatedWebSession × Instant)
  | .authenticate _ now, some session => some (session, now)
  | _, _ => k.principal

/-- The accounts that a backup brought back, after a statement. -/
def restoredAfter (k : Standing) : (o : AccountStmt) → o.Resp → List UUID
  | .restoredDeletedAccounts _, userIds => k.restored ++ userIds
  | _, _ => k.restored

/-- The standing after a statement. -/
def after (k : Standing) (o : AccountStmt) (r : o.Resp) : Standing :=
  ⟨k.principalAfter o r, k.phase.after o r, k.restoredAfter o r⟩

/-- Before a transaction. -/
def fresh (restored : List UUID) : Standing := ⟨none, .idle, restored⟩

end Standing

/-- **The tracker** of account requests. -/
def accountTracker : Tracker accounting Standing where
  start := .fresh []
  answers _ _ := True
  mayDo o k := k.mayDo o
  after o r k := k.after o r
  maySend _ := True
  mayCommit k := k.phase.mayCommit
  committed k := .fresh k.restored
  rolledBack k := .fresh k.restored
  mayFail _ _ := True

/-! ## Turns -/

/-- The statements that delete a batch. -/
def AccountStmt.Sweeps : AccountStmt → Prop
  | .deleteLoginChallenges .. | .deleteWebSessions .. | .deleteAuditRecords ..
  | .deleteTombstones .. | .deleteLinkChallenges .. | .deleteUnlinkedConnections .. => True
  | _ => False

/-- The statements that write by themselves. -/
def AccountStmt.Works : AccountStmt → Prop
  | .addLoginChallenge challenge => challenge.consumedAt = none
  | .createChallenge challenge => challenge.claimedAt = none
  | .appendAudit _ | .revokeSession .. | .revokeSessions .. | .claimChallenge ..
  | .deactivateUser .. => True
  | _ => False

/-- **What a statement makes of a phase.** -/
inductive Turn : (o : AccountStmt) → o.Resp → Phase → Phase → Prop
  | reads {o : AccountStmt} {r : o.Resp} {p : Phase} : o.tables = [] → Turn o r p p
  | logs {record : AuditRecord} {r : Unit} {p : Phase} : p ≠ .idle → p.mayLog →
      Turn (.appendAudit record) r p p
  | consumes {tokenHash : String} {at_ : Instant} {challenge : LoginChallengeRecord} :
      Turn (.consumeChallenge tokenHash at_) (some challenge) .idle (.consumed challenge at_)
  | misses {tokenHash : String} {at_ : Instant} :
      Turn (.consumeChallenge tokenHash at_) none .idle .idle
  | finds {user : UserRecord} {challenge : LoginChallengeRecord} {at_ : Instant} :
      user.status = .active →
      Turn (.selectIdentity challenge.canonicalEmail) (some user) (.consumed challenge at_)
        (.admitted challenge at_ user.id none)
  | denies {user : UserRecord} {challenge : LoginChallengeRecord} {at_ : Instant} :
      user.status ≠ .active →
      Turn (.selectIdentity challenge.canonicalEmail) (some user) (.consumed challenge at_)
        (.denied challenge at_ user)
  | registers {user : UserRecord} {r : Unit} {challenge : LoginChallengeRecord} {at_ : Instant} :
      user.status = .active →
      Turn (.insertUser user) r (.consumed challenge at_) (.registering challenge at_ user)
  | identifies {identity : EmailIdentityRecord} {r : Unit} {challenge : LoginChallengeRecord}
      {at_ : Instant} {user : UserRecord} : identity.userId = user.id →
      identity.canonicalEmail = challenge.canonicalEmail →
      Turn (.insertIdentity identity) r (.registering challenge at_ user)
        (.admitted challenge at_ user.id (some identity))
  | opens {session : WebSessionRecord} {r : Unit} {challenge : LoginChallengeRecord}
      {identity : Option EmailIdentityRecord} : session.revokedAt = none →
      session.expiresAt = session.issuedAt + webSessionLifetime →
      Turn (.insertSession session) r (.admitted challenge session.issuedAt session.userId identity)
        (.signedIn challenge identity session)
  | locks {challengeId webSessionId : UUID} {now : Instant} {challenge : LinkChallengeRecord} :
      Turn (.lockClaimed challengeId webSessionId now) (some challenge) .idle
        (.confirming challenge now)
  | approves {webSessionId : UUID} {now : Instant} {challenge : LinkChallengeRecord} :
      Turn (.sessionIsValid webSessionId challenge.initiatingUserId now) true
        (.confirming challenge now) (.validated challenge now)
  | connects {connection : ConnectionRecord} {challenge : LinkChallengeRecord} :
      connection.unlinkedAt = none → connection.userId = challenge.initiatingUserId →
      challenge.claimedTelegramUserId = some connection.telegramUserId →
      Turn (.insertConnection connection) true (.validated challenge connection.linkedAt)
        (.linking challenge connection)
  | yields {connection : ConnectionRecord} {challenge : LinkChallengeRecord} :
      Turn (.insertConnection connection) false (.validated challenge connection.linkedAt)
        (.validated challenge connection.linkedAt)
  | seals {challenge : LinkChallengeRecord} {connection : ConnectionRecord} {r : Unit} :
      Turn (.confirmChallenge challenge.id connection.linkedAt) r (.linking challenge connection)
        (.linked challenge connection)
  | unlinks {userId connectionId : UUID} {now : Instant} :
      Turn (.unlinkConnection userId now) (some connectionId) .idle (.unlinking connectionId now)
  | passes {userId : UUID} {now : Instant} :
      Turn (.unlinkConnection userId now) none .idle .idle
  | forgets {userId connectionId : UUID} {now : Instant} {r : Unit} :
      Turn (.deleteConversation userId) r (.unlinking connectionId now) (.unlinking connectionId now)
  | reserves {userId : UUID} : Turn (.lockUser userId) true .idle (.deleting userId [])
  | removes {t : AccountTable} {userId : UUID} {done rest : List AccountTable} {r : Unit} :
      ownedTables = done ++ t :: rest →
      Turn (.deleteOwned t userId) r (.deleting userId done) (.deleting userId (done ++ [t]))
  | clears {userId : UUID} {done : List AccountTable} {r : Unit} :
      Turn (.clearAudit userId) r (.deleting userId done) (.deleting userId done)
  | erases {userId : UUID} {r : Unit} :
      Turn (.deleteOwned .users userId) r (.deleting userId ownedTables) (.deleted userId)
  | marks {row : DeletedAccountRecord} {r : Unit} :
      Turn (.putTombstone row) r (.deleted row.userId) (.buried row)
  | sweeps {o : AccountStmt} {r : o.Resp} : o.Sweeps → Turn o r .idle (.swept o)
  | works {o : AccountStmt} {r : o.Resp} : o.Works → Turn o r .idle (.working o r)

/-- A table whose turn it is to be deleted from. -/
lemma mem_ownedTables {done rest : List AccountTable} {t : AccountTable}
    (h : ownedTables = done ++ t :: rest) : t ∈ ownedTables :=
  h ▸ List.mem_append_right _ List.mem_cons_self

/-- The turns are all there is.

**Proof sketch.** By the statement. What may be done names the phase it is done in, and where the
answer decides how to go on, each answer has a turn of its own. -/
theorem turn_of_mayDo {k : Standing} {o : AccountStmt} (h : k.mayDo o) (r : o.Resp) :
    Turn o r k.phase (k.phase.after o r) := by
  obtain ⟨principal, p, restored⟩ := k
  cases o with
  | addLoginChallenge challenge =>
    obtain ⟨rfl, hnone⟩ := h
    exact .works (o := .addLoginChallenge challenge) hnone
  | consumeChallenge tokenHash at_ =>
    obtain rfl : p = .idle := h
    cases r with
    | none => exact .misses
    | some challenge => exact .consumes
  | selectIdentity email =>
    obtain ⟨challenge, at_, rfl, rfl⟩ := h
    cases r with
    | none => exact .reads rfl
    | some user =>
      show Turn _ _ (.consumed challenge at_) (if user.status = .active then _ else _)
      split_ifs with hactive
      · exact .finds hactive
      · exact .denies hactive
  | insertUser user =>
    obtain ⟨hactive, challenge, at_, rfl⟩ := h
    exact .registers hactive
  | insertIdentity identity =>
    obtain ⟨challenge, at_, user, rfl, huser, hemail⟩ := h
    exact .identifies huser hemail
  | insertSession session =>
    obtain ⟨hnone, hexpires, challenge, identity, rfl⟩ := h
    exact .opens hnone hexpires
  | appendAudit record =>
    cases p with
    | idle => exact .works (o := .appendAudit record) trivial
    | confirming challenge now => cases h
    | validated challenge now => cases h
    | swept sweep => cases h
    | _ => exact .logs nofun trivial
  | revokeSession sessionId revokedAt =>
    obtain rfl : p = .idle := h
    exact .works (o := .revokeSession sessionId revokedAt) trivial
  | revokeSessions userId revokedAt =>
    obtain rfl : p = .idle := h
    exact .works (o := .revokeSessions userId revokedAt) trivial
  | claimChallenge tokenHash telegramUserId displayName now =>
    obtain rfl : p = .idle := h
    exact .works (o := .claimChallenge tokenHash telegramUserId displayName now) trivial
  | deactivateUser userId now =>
    obtain rfl : p = .idle := h
    exact .works (o := .deactivateUser userId now) trivial
  | createChallenge challenge =>
    obtain ⟨rfl, hnone, -⟩ := h
    exact .works (o := .createChallenge challenge) hnone
  | unlinkConnection userId now =>
    obtain ⟨rfl, -⟩ := h
    cases r with
    | none => exact .passes
    | some connectionId => exact .unlinks
  | deleteConversation userId =>
    obtain ⟨connectionId, now, rfl⟩ := h
    exact .forgets
  | lockClaimed challengeId webSessionId now =>
    obtain ⟨rfl, -⟩ := h
    cases r with
    | none => exact .reads (o := .lockClaimed challengeId webSessionId now) rfl
    | some challenge => exact .locks
  | sessionIsValid webSessionId userId now =>
    obtain ⟨challenge, rfl, rfl, -⟩ := h
    cases r with
    | false => exact .reads (o := .sessionIsValid webSessionId _ now) rfl
    | true => exact .approves
  | insertConnection connection =>
    obtain ⟨hactive, challenge, rfl, huser, htelegram⟩ := h
    cases r with
    | false => exact .yields
    | true => exact .connects hactive huser htelegram
  | confirmChallenge challengeId now =>
    obtain ⟨challenge, connection, rfl, rfl, rfl⟩ := h
    exact .seals
  | lockUser userId =>
    obtain ⟨rfl, -⟩ := h
    cases r with
    | false => exact .reads (o := .lockUser userId) rfl
    | true => exact .reserves
  | deleteOwned t userId =>
    obtain ⟨done, rfl, ⟨rest, ht⟩ | ⟨rfl, rfl⟩⟩ := h
    · cases t with
      | users => exact absurd (mem_ownedTables ht) (by decide)
      | _ => exact .removes ht
    · exact .erases
  | clearAudit userId =>
    obtain ⟨done, rfl⟩ := h
    exact .clears
  | putTombstone row =>
    obtain rfl : p = .deleted row.userId := h
    exact .marks
  | deleteLoginChallenges consumedCutoff expiredCutoff batchSize =>
    obtain rfl : p = .idle := h
    exact .sweeps (o := .deleteLoginChallenges consumedCutoff expiredCutoff batchSize) trivial
  | deleteWebSessions revokedCutoff expiredCutoff batchSize =>
    obtain rfl : p = .idle := h
    exact .sweeps (o := .deleteWebSessions revokedCutoff expiredCutoff batchSize) trivial
  | deleteAuditRecords occurredCutoff batchSize =>
    obtain rfl : p = .idle := h
    exact .sweeps (o := .deleteAuditRecords occurredCutoff batchSize) trivial
  | deleteTombstones deletedCutoff batchSize =>
    obtain rfl : p = .idle := h
    exact .sweeps (o := .deleteTombstones deletedCutoff batchSize) trivial
  | deleteLinkChallenges finishedCutoff batchSize =>
    obtain rfl : p = .idle := h
    exact .sweeps (o := .deleteLinkChallenges finishedCutoff batchSize) trivial
  | deleteUnlinkedConnections unlinkedCutoff batchSize =>
    obtain rfl : p = .idle := h
    exact .sweeps (o := .deleteUnlinkedConnections unlinkedCutoff batchSize) trivial
  | advisoryLock email => exact .reads (o := .advisoryLock email) rfl
  | authenticate secretHash now => exact .reads (o := .authenticate secretHash now) rfl
  | findSessionId secretHash => exact .reads (o := .findSessionId secretHash) rfl
  | sessionUser sessionId => exact .reads (o := .sessionUser sessionId) rfl
  | challengeForSession challengeId webSessionId =>
    exact .reads (o := .challengeForSession challengeId webSessionId) rfl
  | activeConnectionForUser userId => exact .reads (o := .activeConnectionForUser userId) rfl
  | canonicalEmail userId => exact .reads (o := .canonicalEmail userId) rfl
  | restoredDeletedAccounts batchSize => exact .reads (o := .restoredDeletedAccounts batchSize) rfl

/-! ## The requests -/

section Programs

variable [PythonRuntime] {α : Type} {Q : α → Standing → Prop} {k : Standing} {restored : List UUID}

omit [PythonRuntime] in
lemma wp_execute {o : AccountStmt} {f : o.Resp → AccountProgram α} (ho : k.mayDo o)
    (hf : ∀ r, (f r).wp accountTracker.logic Q (k.after o r)) :
    (execute o >>= f).wp accountTracker.logic Q k :=
  (wp_bind _ _).mpr ⟨ho, fun r _ => hf r⟩

section Trackers

variable {K : Type} {T : Tracker accounting K} {k : K} {Q : α → K → Prop}

omit [PythonRuntime] in
/-- A check, for a tracker that lets requests fail. -/
lemma wp_check (hfail : ∀ e k, T.mayFail e k) {β ε : Type} {e : ε → AccountError} {x : Except ε β}
    {f : β → AccountProgram α} (hf : ∀ b, (f b).wp T.logic Q k) :
    (Prog.lift e x >>= f).wp T.logic Q k := by
  cases x with
  | ok b => exact hf b
  | error e => exact hfail _ _

omit [PythonRuntime] in
/-- The time that is read, for a tracker that lets requests fail. -/
lemma wp_clock (hfail : ∀ e k, T.mayFail e k) {f : Instant → AccountProgram α}
    (hf : ∀ now, (f now).wp T.logic Q k) : (utcNow >>= f).wp T.logic Q k := by
  unfold utcNow
  intro r
  show ((Prog.lift _ _ >>= _) >>= f).wp _ _ _
  refine (wp_bind _ _).mpr (wp_check hfail fun _ => ?_)
  exact hf _

end Trackers

omit [PythonRuntime] in
lemma wp_lift {β ε : Type} {e : ε → AccountError} {x : Except ε β} {f : β → AccountProgram α}
    (hf : ∀ b, (f b).wp accountTracker.logic Q k) :
    (Prog.lift e x >>= f).wp accountTracker.logic Q k :=
  wp_check (fun _ _ => trivial) hf

omit [PythonRuntime] in
lemma wp_utcNow {f : Instant → AccountProgram α}
    (hf : ∀ now, (f now).wp accountTracker.logic Q k) :
    (utcNow >>= f).wp accountTracker.logic Q k :=
  wp_clock (fun _ _ => trivial) hf

omit [PythonRuntime] in
/-- What a new session of an admitted user needs. -/
lemma wp_openSession [PythonRuntime] {principal : Option (AuthenticatedWebSession × Instant)}
    {challenge : LoginChallengeRecord} {consumedAt : Instant} {userId : UUID}
    {identity : Option EmailIdentityRecord} (returnTarget : String) :
    (openSession userId returnTarget consumedAt).wp accountTracker.logic (fun _ _ => True)
      ⟨principal, .admitted challenge consumedAt userId identity, restored⟩ := by
  intro r
  refine ⟨⟨rfl, rfl, challenge, identity, rfl⟩, fun _ _ => ?_⟩
  intro r'
  exact ⟨trivial, fun _ _ => ⟨trivial, trivial⟩⟩

/-- Signing in.

**Proof sketch.** Along the program. An address without a user registers one, and one with a user is
turned away unless active; with an active user of either kind a session is opened
(`wp_openSession`). -/
lemma wp_consume (tokenHash : String) (consumedAt : Instant) :
    (consume tokenHash consumedAt).wp accountTracker.logic (fun _ _ => True) (.fresh restored) := by
  refine ⟨rfl, fun r _ => ?_⟩
  cases r with
  | none =>
    intro r'
    exact ⟨trivial, fun _ _ => ⟨trivial, trivial⟩⟩
  | some challenge =>
    refine ⟨trivial, fun _ _ => ?_⟩
    refine ⟨⟨challenge, consumedAt, rfl, rfl⟩, fun r _ => ?_⟩
    cases r with
    | none =>
      intro user
      refine ⟨⟨rfl, challenge, consumedAt, rfl⟩, fun _ _ => ?_⟩
      intro identity
      refine ⟨⟨challenge, consumedAt, _, rfl, rfl, rfl⟩, fun _ _ => ?_⟩
      exact wp_openSession _
    | some user =>
      show (if user.status = .active then _ else _ : AccountProgram _).wp accountTracker.logic _
        ⟨none, if user.status = .active then _ else _, restored⟩
      split_ifs with hactive
      · exact wp_openSession _
      · intro r'
        exact ⟨trivial, fun _ _ => ⟨trivial, trivial⟩⟩

/-- A request that is authenticated goes on for its session. -/
lemma wp_principal {sessionSecret : Option String}
    {f : AuthenticatedWebSession → AccountProgram α}
    (hf : ∀ session at_, (f session).wp accountTracker.logic Q ⟨some (session, at_), .idle, restored⟩) :
    (getAuthenticatedPrincipal sessionSecret >>= f).wp accountTracker.logic Q (.fresh restored) := by
  unfold getAuthenticatedPrincipal
  cases sessionSecret.filter isMagicLinkToken with
  | none => trivial
  | some secret =>
    refine (wp_bind _ _).mpr (wp_utcNow fun now => ?_)
    refine ⟨⟨rfl, rfl⟩, fun r _ => ?_⟩
    cases r with
    | none => trivial
    | some session => exact hf session now

/-- So does one whose CSRF token is right. -/
lemma wp_csrfPrincipal {sessionSecret : Option String} {verified : Bool}
    {f : AuthenticatedWebSession → AccountProgram α}
    (hf : ∀ session at_, (f session).wp accountTracker.logic Q ⟨some (session, at_), .idle, restored⟩) :
    (getCsrfProtectedPrincipal sessionSecret verified >>= f).wp accountTracker.logic Q (.fresh restored) := by
  refine (wp_bind _ _).mpr (wp_principal fun session at_ => ?_)
  cases verified with
  | false => trivial
  | true => exact hf session at_

omit [PythonRuntime] in
/-- A revocation. -/
lemma wp_revoke (sessionId : UUID) (revokedAt : Instant) :
    (revoke sessionId revokedAt).wp accountTracker.logic (fun _ k => k = .fresh restored) (.fresh restored) := by
  refine ⟨trivial, fun userId _ => ⟨rfl, fun rowcount _ => ?_⟩⟩
  intro r
  exact ⟨trivial, fun _ _ => ⟨trivial, rfl⟩⟩

omit [PythonRuntime] in
/-- A confirmation.

**Proof sketch.** Along the program. A challenge that is not found or not claimed, a session no
longer valid and a connection that yields each end it. Otherwise the connection is inserted, the
challenge sealed and the audit record written. -/
lemma wp_confirm (challengeId : UUID) (session : AuthenticatedWebSession) (at_ now : Instant) :
    (confirm challengeId session.sessionId now).wp accountTracker.logic (fun _ _ => True)
      ⟨some (session, at_), .idle, restored⟩ := by
  refine wp_execute ⟨rfl, session, at_, rfl, rfl⟩ fun r => ?_
  cases r with
  | none => exact ⟨trivial, trivial⟩
  | some challenge =>
    dsimp only
    cases hclaimed : challenge.claimedTelegramUserId with
    | none => exact ⟨trivial, trivial⟩
    | some telegramUserId =>
      refine ⟨⟨challenge, rfl, rfl, session, at_, rfl, rfl⟩, fun valid _ => ?_⟩
      cases valid with
      | false => exact ⟨trivial, trivial⟩
      | true =>
        intro r
        refine ⟨⟨rfl, challenge, rfl, rfl, hclaimed⟩, fun inserted _ => ?_⟩
        cases inserted with
        | false => exact ⟨trivial, trivial⟩
        | true =>
          refine ⟨⟨challenge, _, rfl, rfl, rfl⟩, fun _ _ => ?_⟩
          intro r'
          exact ⟨trivial, fun _ _ => ⟨trivial, trivial⟩⟩

omit [PythonRuntime] in
/-- The tables of a user, one after the other. -/
lemma wp_executeEach {principal : Option (AuthenticatedWebSession × Instant)} {userId : UUID} :
    ∀ {done ts : List AccountTable}, ownedTables = done ++ ts →
      (executeEach ts userId).wp accountTracker.logic
        (fun _ k => k = ⟨principal, .deleting userId ownedTables, restored⟩)
        ⟨principal, .deleting userId done, restored⟩
  | done, [], h => by
    obtain rfl : done = ownedTables := (h.trans (List.append_nil done)).symm
    rfl
  | done, t :: ts, h => by
    refine ⟨⟨done, rfl, .inl ⟨ts, h⟩⟩, fun _ _ => ?_⟩
    have hnext : Standing.after ⟨principal, .deleting userId done, restored⟩
        (.deleteOwned t userId) () = ⟨principal, .deleting userId (done ++ [t]), restored⟩ := by
      cases t with
      | users => exact absurd (mem_ownedTables h) (by decide)
      | _ => rfl
    show (executeEach ts userId).wp accountTracker.logic _
      (Standing.after ⟨principal, .deleting userId done, restored⟩ (.deleteOwned t userId) ())
    rw [hnext]
    exact wp_executeEach (h.trans (List.append_cons done t ts))

omit [PythonRuntime] in
/-- A deletion of an account. -/
lemma wp_executeDeleteAccount {principal : Option (AuthenticatedWebSession × Instant)}
    {userId : UUID} (hallowed : userId ∈ restored ∨
      ∃ session at_, principal = some (session, at_) ∧ userId = session.userId) :
    (executeDeleteAccount userId).wp accountTracker.logic (fun _ k => k = .fresh restored)
      ⟨principal, .idle, restored⟩ := by
  unfold executeDeleteAccount
  intro r
  refine wp_lift fun _ => wp_execute ⟨rfl, hallowed⟩ fun locked => ?_
  cases locked with
  | false => exact ⟨trivial, rfl⟩
  | true =>
    refine wp_bind_of (wp_executeEach (List.nil_append ownedTables).symm) fun _ k hk => ?_
    rw [hk]
    refine ⟨⟨_, rfl⟩, fun _ _ => ⟨⟨_, rfl, .inr ⟨rfl, rfl⟩⟩, fun _ _ => ⟨rfl, fun _ _ => ?_⟩⟩⟩
    exact ⟨trivial, fun _ _ => ⟨trivial, rfl⟩⟩

omit [PythonRuntime] in
/-- The deletion of accounts that a backup brought back. -/
lemma wp_deleteEach : ∀ {userIds : List UUID}, (∀ userId ∈ userIds, userId ∈ restored) →
    (deleteEach userIds).wp accountTracker.logic (fun _ k => k = .fresh restored) (.fresh restored)
  | [], _ => rfl
  | userId :: userIds, h => by
    refine wp_bind_of (wp_executeDeleteAccount (.inl (h userId List.mem_cons_self)))
      fun deleted _ hk => ?_
    rw [hk]
    exact wp_bind_of (wp_deleteEach fun userId' h' => h userId' (List.mem_cons_of_mem _ h'))
      fun rest _ hk => hk

/-- **Every request** meets the obligations.

**Proof sketch.** By the request. Those of a signed-in user authenticate first (`wp_principal`,
`wp_csrfPrincipal`), and sign-in, claim, confirmation, unlinking and deletion each have a lemma of
their own. -/
theorem AccountRequest.wp_tracked (runtime : SignInRuntime) (q : AccountRequest) :
    (q.program runtime).wp accountTracker.logic (fun _ _ => True) (.fresh restored) := by
  have hdone : ∀ {β : Type} {p : AccountProgram β} {k : Standing} (answer : β → AccountAnswer),
      p.wp accountTracker.logic (fun _ _ => True) k →
      (p.bind fun b => .pure (answer b)).wp accountTracker.logic (fun _ _ => True) k :=
    fun answer hp => wp_bind_of hp fun _ _ _ => trivial
  cases q with
  | requestMagicLink email returnTarget =>
    refine hdone _ (wp_utcNow fun issuedAt r => ⟨⟨rfl, rfl⟩, fun _ _ => ⟨trivial, fun r' => ?_⟩⟩)
    exact ⟨trivial, fun _ _ => ⟨trivial, trivial⟩⟩
  | consumeMagicLink token =>
    exact hdone _ (wp_utcNow fun now => wp_bind_of (wp_consume _ _) fun _ _ _ => trivial)
  | createLinkChallenge secret verified =>
    refine hdone _ (wp_csrfPrincipal fun session at_ => wp_utcNow fun now r => ?_)
    exact ⟨⟨rfl, rfl, session, at_, rfl, rfl, rfl⟩, fun _ _ => ⟨trivial, trivial⟩⟩
  | getLinkChallenge secret challengeId =>
    refine hdone _ (wp_principal fun session at_ => wp_execute trivial fun r => ?_)
    cases r with
    | none => trivial
    | some challenge =>
      dsimp only
      split_ifs
      · trivial
      · exact wp_utcNow fun now => trivial
  | confirmLinkChallenge secret verified challengeId =>
    refine hdone _ (wp_csrfPrincipal fun session at_ => wp_utcNow fun now => ?_)
    refine wp_bind_of (wp_confirm challengeId session at_ now) fun r _ _ => ?_
    cases r with
    | none => trivial
    | some connection => exact ⟨trivial, trivial⟩
  | claimTelegramLink payload telegramUserId chatId displayName =>
    refine hdone _ (wp_bind_of (R := fun _ k => k = .fresh restored) ?_ fun r k hk => ?_)
    · unfold claim
      split_ifs
      · refine wp_utcNow fun now => ⟨rfl, fun r _ => ?_⟩
        cases r with
        | none => exact ⟨trivial, rfl⟩
        | some challenge =>
          intro r'
          exact ⟨trivial, fun _ _ => ⟨trivial, rfl⟩⟩
      · rfl
    · rw [hk]
      exact ⟨trivial, trivial, trivial⟩
  | getConnection secret => exact hdone _ (wp_principal fun session at_ => ⟨trivial, fun _ _ => trivial⟩)
  | deleteConnection secret verified =>
    refine hdone _ (wp_csrfPrincipal fun session at_ => wp_utcNow fun now => ?_)
    refine ⟨⟨rfl, session, at_, rfl, rfl⟩, fun r _ => ?_⟩
    cases r with
    | none => exact ⟨trivial, trivial⟩
    | some connectionId =>
      refine ⟨⟨connectionId, now, rfl⟩, fun _ _ r' => ?_⟩
      exact ⟨trivial, fun _ _ => ⟨trivial, trivial⟩⟩
  | deleteAccount secret verified typedEmail =>
    refine hdone _ (wp_csrfPrincipal fun session at_ => ?_)
    split_ifs
    · trivial
    refine wp_execute trivial fun accountEmail => ?_
    cases runtime.normalizeEmail typedEmail with
    | none => trivial
    | some typed =>
      dsimp only
      split_ifs
      · exact wp_bind_of (wp_executeDeleteAccount (.inr ⟨session, at_, rfl, rfl⟩)) fun _ _ _ => trivial
      · trivial
  | logout secret =>
    refine hdone _ ⟨trivial, fun found _ => ⟨trivial, ?_⟩⟩
    cases found with
    | none => trivial
    | some sessionId =>
      exact wp_utcNow fun now => wp_bind_of (wp_revoke sessionId now) fun _ _ _ => trivial
  | revokeWebSession sessionId =>
    refine hdone _ (wp_utcNow fun now => ?_)
    exact wp_mono _ (fun _ _ _ => trivial) (wp_revoke sessionId now)
  | revokeAllWebSessions userId =>
    refine hdone _ (wp_utcNow fun now => ⟨rfl, fun rowcount _ r => ?_⟩)
    exact ⟨trivial, fun _ _ => ⟨trivial, trivial⟩⟩
  | cleanUpAuthentication batchSize =>
    refine hdone _ ((wp_bind _ _).mpr (wp_lift fun _ => ?_))
    intro r
    refine wp_lift fun _ => wp_execute trivial fun userIds => ⟨trivial, ?_⟩
    show ((deleteEach userIds).bind _).wp accountTracker.logic _ (.fresh (restored ++ userIds))
    refine wp_bind_of (wp_deleteEach fun _ h => List.mem_append_right _ h) fun accounts k hk => ?_
    rw [hk]
    refine ⟨rfl, fun _ _ => ⟨trivial, rfl, fun _ _ => ⟨trivial, rfl, fun _ _ => ⟨trivial, rfl, ?_⟩⟩⟩⟩
    exact fun _ _ => ⟨trivial, trivial⟩
  | cleanUpTelegram batchSize =>
    refine hdone _ ((wp_bind _ _).mpr (wp_lift fun _ => ?_))
    refine wp_utcNow fun now => ⟨rfl, fun _ _ => ⟨trivial, rfl, fun _ _ => ⟨trivial, trivial⟩⟩⟩
  | deactivate userId =>
    refine hdone _ fun r => wp_lift fun _ => ⟨rfl, fun _ _ => ⟨trivial, trivial⟩⟩

end Programs

end MintFlow.Accounts
