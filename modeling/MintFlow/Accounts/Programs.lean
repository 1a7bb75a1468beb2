import MintFlow.Accounts.Database
import MintFlow.Telegram.Handler

set_option relaxedAutoImplicit false
set_option autoImplicit false

/-!
# Accounts: requests

Signing in, linking a Telegram account, signing out, deleting the account, and the jobs that clean up.
A request of a Web session is authenticated in the transaction in which it does its work.

## Main definitions

* `MintFlow.Accounts.consumeMagicLink` — signing in.
* `MintFlow.Accounts.getAuthenticatedPrincipal` — the session of a request.
* `MintFlow.Accounts.confirmTelegramLink`, `MintFlow.Accounts.claimTelegramLink` — the two ends of the
  linking ceremony.
* `MintFlow.Accounts.deleteAccount` — account deletion.
* `MintFlow.Accounts.AccountRequest`, `MintFlow.Accounts.accountsStarted` — the requests, and the
  database with its sessions.

## Implementation notes

`verified` says whether the origin and the CSRF token of a request are right. Rate limits and the
message with the link are modelled with sign-in requests, and what the jobs delete from other tables
with those. Which language a page speaks is left out. No request deactivates a user; an operator does.
-/

namespace MintFlow.Accounts

open Transact Transact.Prog

variable [PythonRuntime]

/-- A program on accounts. -/
abbrev AccountProgram := Prog accounting

/-- Execute one statement. -/
abbrev execute (o : AccountStmt) : AccountProgram o.Resp := Prog.perform (S := accounting) o

/-- Read the environment. -/
abbrev reading : AccountProgram AccountReading := Prog.input (S := accounting)

/-- Commit. -/
abbrev commit : AccountProgram Unit := Prog.commits (S := accounting)

/-- `_utc_now`. -/
def utcNow : AccountProgram Instant := do
  let r ← reading
  lift .valueError
    (require (r.now.utcoffset ≠ none) "clock must return a timezone-aware datetime")
  return r.now.astimezoneUtc

/-- Append an audit record. -/
def audit (eventType : AuthenticationAuditEventType) (outcome : AuthenticationAuditOutcome)
    (userId subjectRecordId : Option UUID) (occurredAt : Instant) : AccountProgram Unit := do
  let r ← reading
  execute (.appendAudit ⟨r.uuid, occurredAt, eventType, outcome, userId, subjectRecordId⟩)

/-! ## Signing in -/

/-- `RequestMagicLink.execute`, from the reservations on. -/
def issueLoginChallenge (canonicalEmail returnTarget : String) : AccountProgram Unit := do
  let issuedAt ← utcNow
  let r ← reading
  execute (.addLoginChallenge ⟨r.uuid, canonicalEmail, PythonRuntime.tokenHash r.token, issuedAt,
    issuedAt + loginChallengeLifetime, none, returnTarget⟩)
  commit
  audit .loginChallengeRequested .succeeded none (some r.uuid) issuedAt
  commit

/-- The session of a user who signed in, and the audit record; its secret and where to go. -/
def openSession (userId : UUID) (returnTarget : String) (consumedAt : Instant) :
    AccountProgram (Option (String × String)) := do
  let r ← reading
  execute (.insertSession ⟨r.uuid, userId, PythonRuntime.tokenHash r.token, consumedAt,
    consumedAt + webSessionLifetime, none⟩)
  audit .loginSucceeded .succeeded (some userId) (some r.uuid) consumedAt
  commit
  return some (r.token, returnTarget)

/-- `SqlAlchemyLoginChallengeConsumer.consume`, with the session of `new_web_session`. -/
def consume (tokenHash : String) (consumedAt : Instant) :
    AccountProgram (Option (String × String)) := do
  match ← execute (.consumeChallenge tokenHash consumedAt) with
  | none => do
    audit .loginFailed .failed none none consumedAt
    commit
    return none
  | some challenge => do
    execute (.advisoryLock challenge.canonicalEmail)
    match ← execute (.selectIdentity challenge.canonicalEmail) with
    | none => do
      let user ← reading
      execute (.insertUser ⟨user.uuid, .active, consumedAt, none⟩)
      let identity ← reading
      execute (.insertIdentity ⟨identity.uuid, user.uuid, challenge.canonicalEmail,
        challenge.canonicalEmail, consumedAt, consumedAt⟩)
      openSession user.uuid challenge.returnTarget consumedAt
    | some user =>
      if user.status = .active then openSession user.id challenge.returnTarget consumedAt
      else do
        audit .loginFailed .failed (some user.id) none consumedAt
        commit
        return none

/-- `consume_magic_link`: the secret of the session and where to go. -/
def consumeMagicLink (runtime : SignInRuntime) (token : String) :
    AccountProgram (Option (String × String)) := do
  let consumedAt ← utcNow
  let result ← consume (PythonRuntime.tokenHash token) consumedAt
  return result.filter fun r => decide (r.2 ∈ runtime.allowedReturnTargets)

/-! ## Web sessions -/

/-- `MAGIC_LINK_TOKEN_PATTERN`. -/
def isMagicLinkToken (token : String) : Bool :=
  decide (token.toList.length = 43) &&
    token.toList.all fun c => isDigit c || isLetter c || c = '_' || c = '-'

/-- `get_authenticated_principal`. -/
def getAuthenticatedPrincipal (sessionSecret : Option String) :
    AccountProgram AuthenticatedWebSession :=
  match sessionSecret.filter isMagicLinkToken with
  | none => .fail .unauthenticated
  | some secret => do
    let now ← utcNow
    match ← execute (.authenticate (PythonRuntime.tokenHash secret) now) with
    | none => .fail .unauthenticated
    | some session => return session

/-- `get_csrf_protected_principal`. -/
def getCsrfProtectedPrincipal (sessionSecret : Option String) (verified : Bool) :
    AccountProgram AuthenticatedWebSession := do
  let principal ← getAuthenticatedPrincipal sessionSecret
  if verified then return principal else .fail .csrfRejected

/-- `SqlAlchemyWebSessionRepository.revoke`. -/
def revoke (sessionId : UUID) (revokedAt : Instant) : AccountProgram Bool := do
  let userId ← execute (.sessionUser sessionId)
  let rowcount ← execute (.revokeSession sessionId revokedAt)
  audit .currentSessionRevoked (if rowcount = 1 then .succeeded else .failed) userId (some sessionId)
    revokedAt
  commit
  return decide (rowcount = 1)

/-- `RevokeWebSession.execute`. -/
def revokeWebSession (sessionId : UUID) : AccountProgram Bool := do
  let revokedAt ← utcNow
  revoke sessionId revokedAt

/-- `RevokeAllWebSessions.execute`. -/
def revokeAllWebSessions (userId : UUID) : AccountProgram ℕ := do
  let revokedAt ← utcNow
  let rowcount ← execute (.revokeSessions userId revokedAt)
  audit .allSessionsRevoked .succeeded (some userId) none revokedAt
  commit
  return rowcount

/-- `LogoutWebSession.execute`. -/
def logout (secret : String) : AccountProgram Unit := do
  let found ← execute (.findSessionId (PythonRuntime.tokenHash secret))
  commit
  match found with
  | none => return ()
  | some sessionId => do
    let revokedAt ← utcNow
    let _ ← revoke sessionId revokedAt
    return ()

/-! ## Linking a Telegram account -/

/-- `IssuedTelegramLink`; the link carries the token. -/
structure IssuedTelegramLink where
  challengeId : UUID
  token : String
  expiresAt : Instant
deriving DecidableEq

/-- `create_link_challenge`. -/
def createLinkChallenge (sessionSecret : Option String) (verified : Bool) :
    AccountProgram IssuedTelegramLink := do
  let session ← getCsrfProtectedPrincipal sessionSecret verified
  let now ← utcNow
  let r ← reading
  execute (.createChallenge ⟨r.uuid, PythonRuntime.tokenHash r.token, session.userId,
    session.sessionId, now, now + telegramLinkChallengeLifetime, none, none, none, none⟩)
  commit
  return ⟨r.uuid, r.token, now + telegramLinkChallengeLifetime⟩

/-- `TelegramLinkState`. -/
inductive TelegramLinkState
  | waitingForTelegram
  | awaitingConfirmation
  | connected
  | expired
deriving DecidableEq

/-- `TelegramLinkStatus`. -/
structure TelegramLinkStatus where
  challengeId : UUID
  state : TelegramLinkState
  expiresAt : Instant
  telegramDisplayName : Option String
deriving DecidableEq

/-- The state of a challenge that is not confirmed. -/
def LinkChallengeRecord.stateAt (row : LinkChallengeRecord) (now : Instant) : TelegramLinkState :=
  if row.expiresAt ≤ now then .expired
  else if row.claimedAt.isSome then .awaitingConfirmation
  else .waitingForTelegram

/-- `get_link_challenge`. -/
def getLinkChallenge (sessionSecret : Option String) (challengeId : UUID) :
    AccountProgram (Option TelegramLinkStatus) := do
  let session ← getAuthenticatedPrincipal sessionSecret
  match ← execute (.challengeForSession challengeId session.sessionId) with
  | none => return none
  | some challenge =>
    if challenge.confirmedAt.isSome then
      return some ⟨challenge.id, .connected, challenge.expiresAt,
        challenge.claimedTelegramDisplayName⟩
    else do
      let now ← utcNow
      let state := challenge.stateAt now
      return some ⟨challenge.id, state, challenge.expiresAt,
        if state = .expired then none else challenge.claimedTelegramDisplayName⟩

/-- `SqlAlchemyTelegramLinkRepository.confirm`. -/
def confirm (challengeId webSessionId : UUID) (now : Instant) :
    AccountProgram (Option ConnectionRecord) := do
  match ← execute (.lockClaimed challengeId webSessionId now) with
  | none => do
    commit
    return none
  | some challenge =>
    match challenge.claimedTelegramUserId with
    | none => do
      commit
      return none
    | some telegramUserId => do
      let valid ← execute (.sessionIsValid webSessionId challenge.initiatingUserId now)
      if valid then do
        let r ← reading
        let connection : ConnectionRecord := ⟨r.uuid, challenge.initiatingUserId, telegramUserId,
          challenge.claimedTelegramDisplayName, now, none⟩
        let inserted ← execute (.insertConnection connection)
        if inserted then do
          execute (.confirmChallenge challenge.id now)
          audit .telegramLinked .succeeded (some challenge.initiatingUserId) (some connection.id) now
          commit
          return some connection
        else do
          -- Either the user or the Telegram user is already connected: no transfer.
          commit
          return none
      else do
        commit
        return none

/-- `confirm_telegram_link`: a private chat has the id of the Telegram user. -/
def confirmTelegramLink (sessionSecret : Option String) (verified : Bool) (challengeId : UUID) :
    AccountProgram (Option ConnectionRecord) := do
  let session ← getCsrfProtectedPrincipal sessionSecret verified
  let now ← utcNow
  match ← confirm challengeId session.sessionId now with
  | none => return none
  | some connection => .emit ⟨connection.telegramUserId, .linked⟩ (.pure (some connection))

/-- `ClaimTelegramLink.execute`. -/
def claim (payload : String) (telegramUserId : ℤ) (displayName : Option String) :
    AccountProgram Bool :=
  if isStartPayload payload then do
    let now ← utcNow
    match ← execute (.claimChallenge (PythonRuntime.tokenHash payload) telegramUserId displayName
      now) with
    | none => do
      commit
      return false
    | some challenge => do
      audit .telegramLinkClaimed .succeeded (some challenge.initiatingUserId) (some challenge.id) now
      commit
      return true
  else .pure false

/-- The handling of a `/start` with a payload. -/
def claimTelegramLink (payload : String) (telegramUserId chatId : ℤ) (displayName : Option String) :
    AccountProgram Bool := do
  let claimed ← claim payload telegramUserId displayName
  commit
  .emit ⟨chatId, if claimed then .linkClaimed else .linkFailed⟩ (.pure claimed)

/-- `get_connection`. -/
def getConnection (sessionSecret : Option String) : AccountProgram (Option ConnectionRecord) := do
  let session ← getAuthenticatedPrincipal sessionSecret
  execute (.activeConnectionForUser session.userId)

/-- `delete_connection`. -/
def deleteConnection (sessionSecret : Option String) (verified : Bool) : AccountProgram Bool := do
  let session ← getCsrfProtectedPrincipal sessionSecret verified
  let now ← utcNow
  match ← execute (.unlinkConnection session.userId now) with
  | none => do
    commit
    return false
  | some connectionId => do
    execute (.deleteConversation session.userId)
    audit .telegramUnlinked .succeeded (some session.userId) (some connectionId) now
    commit
    return true

/-! ## Deleting an account -/

/-- `_DELETE_OWNED_ROWS`, up to the audit records and the user. -/
def ownedTables : List AccountTable :=
  [.conversations, .linkChallenges, .connections, .webSessions, .loginChallenges, .emailIdentities]

/-- Execute statements one after the other. -/
def executeEach : List AccountTable → UUID → AccountProgram Unit
  | [], _ => return ()
  | t :: ts, userId => do
    execute (.deleteOwned t userId)
    executeEach ts userId

/-- `PostgreSQLAccountDeletionRepository.delete_account`. -/
def deleteAccountRows (deletion : AccountDeletion) : AccountProgram Bool := do
  let locked ← execute (.lockUser deletion.userId)
  if locked then do
    executeEach ownedTables deletion.userId
    execute (.clearAudit deletion.userId)
    execute (.deleteOwned .users deletion.userId)
    execute (.putTombstone ⟨deletion.userId, deletion.deletedAt⟩)
    execute (.appendAudit ⟨deletion.auditId, deletion.deletedAt, deletion.eventType,
      deletion.outcome, none, none⟩)
    commit
    return true
  else do
    commit
    return false

/-- `DeleteAccount.execute`. -/
def executeDeleteAccount (userId : UUID) : AccountProgram Bool := do
  let r ← reading
  lift .valueError (require (r.now.utcoffset ≠ none) "occurred_at must be timezone-aware")
  deleteAccountRows (accountDeletion userId r.now.astimezoneUtc r.uuid)

/-- `ConfirmAndDeleteAccount.execute`. -/
def confirmAndDeleteAccount (runtime : SignInRuntime) (userId : UUID) (typedEmail : String) :
    AccountProgram Unit := do
  let accountEmail ← execute (.canonicalEmail userId)
  match runtime.normalizeEmail typedEmail with
  | none => .fail .deletionNotConfirmed
  | some typed =>
    if accountEmail = some typed.canonicalEmail then do
      let _ ← executeDeleteAccount userId
      return ()
    else .fail .deletionNotConfirmed

/-- `delete_account`. -/
def deleteAccount (runtime : SignInRuntime) (sessionSecret : Option String) (verified : Bool)
    (typedEmail : String) : AccountProgram Unit := do
  let principal ← getCsrfProtectedPrincipal sessionSecret verified
  if strip typedEmail = "" then .fail .deletionNotConfirmed
  else confirmAndDeleteAccount runtime principal.userId typedEmail

/-! ## Cleaning up -/

/-- `LOGIN_CHALLENGE_RETENTION`, `WEB_SESSION_RETENTION`, `TELEGRAM_LINK_CHALLENGE_RETENTION` and
`UNLINKED_TELEGRAM_CONNECTION_RETENTION`, in microseconds. -/
def recordRetention : ℤ := 30 * 86400000000

/-- `AUTHENTICATION_AUDIT_RETENTION`, in microseconds. -/
def auditRetention : ℤ := 90 * 86400000000

/-- `DELETED_ACCOUNT_RETENTION`, in microseconds. -/
def deletedAccountRetention : ℤ := 35 * 86400000000

/-- `validate_authentication_retention_batch_size`. -/
def validateBatchSize (batchSize : ℤ) : AccountProgram ℕ := do
  lift .valueError (require (0 < batchSize) "batch_size must be a positive integer")
  return batchSize.toNat

/-- Delete accounts again, one after the other; how many there were. -/
def deleteEach : List UUID → AccountProgram ℕ
  | [] => return 0
  | userId :: userIds => do
    let deleted ← executeDeleteAccount userId
    let rest ← deleteEach userIds
    return deleted.toNat + rest

/-- `CleanUpAuthenticationRetention.execute`. -/
def cleanUpAuthentication (batchSize : ℤ) : AccountProgram (List ℕ) := do
  let size ← validateBatchSize batchSize
  let r ← reading
  lift .valueError (require (r.now.utcoffset ≠ none) "now must be timezone-aware")
  let now := r.now.astimezoneUtc
  let restored ← execute (.restoredDeletedAccounts size)
  commit
  let accounts ← deleteEach restored
  let tombstones ← execute (.deleteTombstones (now - deletedAccountRetention) size)
  commit
  let challenges ← execute
    (.deleteLoginChallenges (now - recordRetention) (now - recordRetention) size)
  commit
  let sessions ← execute (.deleteWebSessions (now - recordRetention) (now - recordRetention) size)
  commit
  let records ← execute (.deleteAuditRecords (now - auditRetention) size)
  commit
  return [accounts, tombstones, challenges, sessions, records]

/-- `CleanUpTelegramRetention.execute`, as far as links go. -/
def cleanUpTelegram (batchSize : ℤ) : AccountProgram (List ℕ) := do
  let size ← validateBatchSize batchSize
  let now ← utcNow
  let challenges ← execute (.deleteLinkChallenges (now - recordRetention) size)
  commit
  let connections ← execute (.deleteUnlinkedConnections (now - recordRetention) size)
  commit
  return [challenges, connections]

/-- An operator deactivates a user, as `User.deactivate` has it. -/
def deactivate (userId : UUID) : AccountProgram Unit := do
  let r ← reading
  lift .valueError (require (r.now.utcoffset ≠ none) "now must be timezone-aware")
  execute (.deactivateUser userId r.now.astimezoneUtc)
  commit

/-! ## Requests -/

/-- A request, an update of the bot, or a job. -/
inductive AccountRequest
  | requestMagicLink (canonicalEmail returnTarget : String)
  | consumeMagicLink (token : String)
  | createLinkChallenge (sessionSecret : Option String) (verified : Bool)
  | getLinkChallenge (sessionSecret : Option String) (challengeId : UUID)
  | confirmLinkChallenge (sessionSecret : Option String) (verified : Bool) (challengeId : UUID)
  | claimTelegramLink (payload : String) (telegramUserId chatId : ℤ) (displayName : Option String)
  | getConnection (sessionSecret : Option String)
  | deleteConnection (sessionSecret : Option String) (verified : Bool)
  | deleteAccount (sessionSecret : Option String) (verified : Bool) (typedEmail : String)
  | logout (secret : String)
  | revokeWebSession (sessionId : UUID)
  | revokeAllWebSessions (userId : UUID)
  | cleanUpAuthentication (batchSize : ℤ)
  | cleanUpTelegram (batchSize : ℤ)
  | deactivate (userId : UUID)

/-- What is answered. -/
inductive AccountAnswer
  | done
  | signedIn (session : Option (String × String))
  | issued (link : IssuedTelegramLink)
  | status (status : Option TelegramLinkStatus)
  | connection (connection : Option ConnectionRecord)
  | decided (succeeded : Bool)
  | counts (counts : List ℕ)
deriving DecidableEq

/-- What a request does. -/
def AccountRequest.program (runtime : SignInRuntime) : AccountRequest → AccountProgram AccountAnswer
  | .requestMagicLink canonicalEmail returnTarget =>
    (issueLoginChallenge canonicalEmail returnTarget).bind fun _ => .pure .done
  | .consumeMagicLink token =>
    (Accounts.consumeMagicLink runtime token).bind fun r => .pure (.signedIn r)
  | .createLinkChallenge secret verified =>
    (Accounts.createLinkChallenge secret verified).bind fun r => .pure (.issued r)
  | .getLinkChallenge secret challengeId =>
    (Accounts.getLinkChallenge secret challengeId).bind fun r => .pure (.status r)
  | .confirmLinkChallenge secret verified challengeId =>
    (confirmTelegramLink secret verified challengeId).bind fun r => .pure (.connection r)
  | .claimTelegramLink payload telegramUserId chatId displayName =>
    (Accounts.claimTelegramLink payload telegramUserId chatId displayName).bind fun r =>
      .pure (.decided r)
  | .getConnection secret => (Accounts.getConnection secret).bind fun r => .pure (.connection r)
  | .deleteConnection secret verified =>
    (Accounts.deleteConnection secret verified).bind fun r => .pure (.decided r)
  | .deleteAccount secret verified typedEmail =>
    (Accounts.deleteAccount runtime secret verified typedEmail).bind fun _ => .pure .done
  | .logout secret => (Accounts.logout secret).bind fun _ => .pure .done
  | .revokeWebSession sessionId =>
    (Accounts.revokeWebSession sessionId).bind fun r => .pure (.decided r)
  | .revokeAllWebSessions userId =>
    (Accounts.revokeAllWebSessions userId).bind fun r => .pure (.counts [r])
  | .cleanUpAuthentication batchSize =>
    (Accounts.cleanUpAuthentication batchSize).bind fun r => .pure (.counts r)
  | .cleanUpTelegram batchSize =>
    (Accounts.cleanUpTelegram batchSize).bind fun r => .pure (.counts r)
  | .deactivate userId => (Accounts.deactivate userId).bind fun _ => .pure .done

/-- The database with its sessions, named by `ι`. -/
abbrev AccountSystem (ι : Type) :=
  Config accounting AccountData (Change layout) (Lock layout) ι AccountAnswer

/-- Every session is about to begin its request. -/
def accountsStarted {ι : Type} (runtime : SignInRuntime) (db : AccountData)
    (requests : ι → AccountRequest) (tapes : ι → Stream' AccountReading) : AccountSystem ι where
  db := db
  holders := fun _ => []
  sessions := fun i => ⟨(requests i).program runtime, tapes i, [], false⟩
  log := []
  sent := []

end MintFlow.Accounts
