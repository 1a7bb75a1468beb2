import MintFlow.Authentication.SignIn
import MintFlow.Domain.User
import MintFlow.Lib.Store
import MintFlow.Persistence.AccountDeletion

set_option relaxedAutoImplicit false
set_option autoImplicit false

/-!
# Accounts: the database

Users with their email identities, sign-in challenges, Web sessions, Telegram link challenges and
Telegram connections, and the statements that the repositories execute on them.

## Main definitions

* `MintFlow.Accounts.layout` — the tables with their constraints.
* `MintFlow.Accounts.AccountStmt`, `MintFlow.Accounts.AccountStmt.perform` — the statements and what
  they do.
* `MintFlow.Accounts.accountDatabase` — the database.

## Implementation notes

Preferences of a user and the length of a digest play no part and are left out, and so are the tables
of drafts, Expenses and receipts. A conversation is represented by its user. A Web session is keyed by
its id with its user, as the composite foreign key of link challenges refers to it. The advisory lock
of an address is named by the address: two addresses with one hash would wait for each other as well.
-/

namespace MintFlow.Accounts

open Transact

/-! ## Rows -/

/-- `UserRecord`, without preferences. -/
structure UserRecord where
  id : UUID
  status : UserStatus
  createdAt : Instant
  deactivatedAt : Option Instant
deriving DecidableEq

/-- `EmailIdentityRecord`. -/
structure EmailIdentityRecord where
  id : UUID
  userId : UUID
  canonicalEmail : String
  displayEmail : String
  verifiedAt : Instant
  createdAt : Instant
deriving DecidableEq

/-- `LoginChallengeRecord`. -/
structure LoginChallengeRecord where
  id : UUID
  canonicalEmail : String
  tokenHash : String
  issuedAt : Instant
  expiresAt : Instant
  consumedAt : Option Instant
  returnTarget : String
deriving DecidableEq

/-- `WebSessionRecord`. -/
structure WebSessionRecord where
  id : UUID
  userId : UUID
  secretHash : String
  issuedAt : Instant
  expiresAt : Instant
  revokedAt : Option Instant
deriving DecidableEq

/-- `AuthenticationAuditRecordModel`. -/
structure AuditRecord where
  id : UUID
  occurredAt : Instant
  eventType : AuthenticationAuditEventType
  outcome : AuthenticationAuditOutcome
  userId : Option UUID
  subjectRecordId : Option UUID
deriving DecidableEq

/-- `TelegramLinkChallengeRecord`. -/
structure LinkChallengeRecord where
  id : UUID
  tokenHash : String
  initiatingUserId : UUID
  initiatingWebSessionId : UUID
  issuedAt : Instant
  expiresAt : Instant
  claimedAt : Option Instant
  claimedTelegramUserId : Option ℤ
  claimedTelegramDisplayName : Option String
  confirmedAt : Option Instant
deriving DecidableEq

/-- `TelegramConnectionRecord`. -/
structure ConnectionRecord where
  id : UUID
  userId : UUID
  telegramUserId : ℤ
  telegramDisplayName : Option String
  linkedAt : Instant
  unlinkedAt : Option Instant
deriving DecidableEq

/-- `DeletedAccountRecord`. -/
structure DeletedAccountRecord where
  userId : UUID
  deletedAt : Instant
deriving DecidableEq

/-! ## Tables -/

/-- The tables. -/
inductive AccountTable
  | users
  | emailIdentities
  | loginChallenges
  | webSessions
  | auditRecords
  | linkChallenges
  | connections
  | conversations
  | deletedAccounts
deriving DecidableEq

namespace AccountTable

/-- The rows of a table; a conversation is represented by its user. -/
abbrev Row : AccountTable → Type
  | users => UserRecord
  | emailIdentities => EmailIdentityRecord
  | loginChallenges => LoginChallengeRecord
  | webSessions => WebSessionRecord
  | auditRecords => AuditRecord
  | linkChallenges => LinkChallengeRecord
  | connections => ConnectionRecord
  | conversations => UUID
  | deletedAccounts => DeletedAccountRecord

/-- Rows are compared. -/
instance instDecidableEqRow : (t : AccountTable) → DecidableEq t.Row
  | users => inferInstanceAs (DecidableEq UserRecord)
  | emailIdentities => inferInstanceAs (DecidableEq EmailIdentityRecord)
  | loginChallenges => inferInstanceAs (DecidableEq LoginChallengeRecord)
  | webSessions => inferInstanceAs (DecidableEq WebSessionRecord)
  | auditRecords => inferInstanceAs (DecidableEq AuditRecord)
  | linkChallenges => inferInstanceAs (DecidableEq LinkChallengeRecord)
  | connections => inferInstanceAs (DecidableEq ConnectionRecord)
  | conversations => inferInstanceAs (DecidableEq UUID)
  | deletedAccounts => inferInstanceAs (DecidableEq DeletedAccountRecord)

/-- The keys of a table. Link challenges refer to a Web session by its id and its user. -/
abbrev Key : AccountTable → Type
  | webSessions => UUID × UUID
  | _ => UUID

/-- Keys are compared. -/
instance instDecidableEqKey : (t : AccountTable) → DecidableEq t.Key
  | users => inferInstanceAs (DecidableEq UUID)
  | emailIdentities => inferInstanceAs (DecidableEq UUID)
  | loginChallenges => inferInstanceAs (DecidableEq UUID)
  | webSessions => inferInstanceAs (DecidableEq (UUID × UUID))
  | auditRecords => inferInstanceAs (DecidableEq UUID)
  | linkChallenges => inferInstanceAs (DecidableEq UUID)
  | connections => inferInstanceAs (DecidableEq UUID)
  | conversations => inferInstanceAs (DecidableEq UUID)
  | deletedAccounts => inferInstanceAs (DecidableEq UUID)

/-- The key of a row. -/
def key : (t : AccountTable) → t.Row → t.Key
  | users, row => row.id
  | emailIdentities, row => row.id
  | loginChallenges, row => row.id
  | webSessions, row => (row.id, row.userId)
  | auditRecords, row => row.id
  | linkChallenges, row => row.id
  | connections, row => row.id
  | conversations, userId => userId
  | deletedAccounts, row => row.userId

/-- All tables. -/
def all : List AccountTable :=
  [users, emailIdentities, loginChallenges, webSessions, auditRecords, linkChallenges, connections,
    conversations, deletedAccounts]

end AccountTable

/-- The values of unique columns, and advisory locks. -/
inductive AccountName
  | identityUser (userId : UUID)
  | identityEmail (canonicalEmail : String)
  | loginToken (tokenHash : String)
  | webSession (id : UUID)
  | sessionSecret (secretHash : String)
  | linkToken (tokenHash : String)
  | activeUser (userId : UUID)
  | activeTelegramUser (telegramUserId : ℤ)
  | advisory (canonicalEmail : String)
deriving DecidableEq

/-- A connection is active until it is unlinked. -/
def ConnectionRecord.isActive (row : ConnectionRecord) : Bool := row.unlinkedAt.isNone

/-- The unique values of a row. Those of a connection are unique while it is active. -/
def AccountTable.names : (t : AccountTable) → t.Row → List AccountName
  | emailIdentities, row => [.identityUser row.userId, .identityEmail row.canonicalEmail]
  | loginChallenges, row => [.loginToken row.tokenHash]
  | webSessions, row => [.webSession row.id, .sessionSecret row.secretHash]
  | linkChallenges, row => [.linkToken row.tokenHash]
  | connections, row =>
    if row.isActive then [.activeUser row.userId, .activeTelegramUser row.telegramUserId] else []
  | _, _ => []

/-- The rows that a row refers to. -/
def AccountTable.refs : (t : AccountTable) → t.Row → List (Sigma AccountTable.Key)
  | emailIdentities, row => [⟨users, row.userId⟩]
  | webSessions, row => [⟨users, row.userId⟩]
  | auditRecords, row => row.userId.toList.map fun userId => ⟨users, userId⟩
  | linkChallenges, row =>
    [⟨webSessions, (row.initiatingWebSessionId, row.initiatingUserId)⟩,
      ⟨users, row.initiatingUserId⟩]
  | connections, row => [⟨users, row.userId⟩]
  | conversations, userId => [⟨users, userId⟩]
  | _, _ => []

/-- `WEB_SESSION_LIFETIME`, in microseconds. -/
def webSessionLifetime : ℤ := 30 * 86400000000

/-- `TELEGRAM_LINK_CHALLENGE_LIFETIME`, in microseconds. -/
def telegramLinkChallengeLifetime : ℤ := 5 * 60000000

/-- The `CHECK` constraints. -/
def AccountTable.check : (t : AccountTable) → t.Row → Bool
  | users, row =>
    decide (row.status = .active ↔ row.deactivatedAt = none) &&
      row.deactivatedAt.all fun at_ => decide (row.createdAt ≤ at_)
  | loginChallenges, row => decide (row.issuedAt < row.expiresAt)
  | webSessions, row =>
    decide (row.issuedAt < row.expiresAt) &&
      decide (row.expiresAt ≤ row.issuedAt + webSessionLifetime) &&
      row.revokedAt.all fun at_ => decide (row.issuedAt ≤ at_)
  | linkChallenges, row =>
    decide (row.issuedAt < row.expiresAt) &&
      decide (row.expiresAt ≤ row.issuedAt + telegramLinkChallengeLifetime) &&
      decide (row.claimedAt.isNone = row.claimedTelegramUserId.isNone) &&
      (row.claimedAt.all fun at_ => decide (row.issuedAt ≤ at_)) &&
      (row.claimedTelegramDisplayName.isNone || row.claimedAt.isSome) &&
      row.confirmedAt.all fun at_ => row.claimedAt.any fun claimed => decide (claimed ≤ at_)
  | connections, row => row.unlinkedAt.all fun at_ => decide (row.linkedAt ≤ at_)
  | _, _ => true

/-- **The tables** with their constraints. -/
@[reducible] def layout : Layout where
  Tab := AccountTable
  Key := AccountTable.Key
  Row := AccountTable.Row
  key := AccountTable.key
  Name := AccountName
  names := AccountTable.names
  refs := AccountTable.refs
  check := AccountTable.check
  tables := AccountTable.all
  mem_tables t := by cases t <;> decide
  decTab := inferInstance
  decKey := AccountTable.instDecidableEqKey
  decName := inferInstance

/-- The rows of the tables. -/
abbrev AccountData := Store layout

/-! ## Updates -/

/-- `consumed_at`. -/
def setConsumed (at_ : Instant) : Rewrite layout .loginChallenges where
  set row := { row with consumedAt := some at_ }
  key_set _ := rfl
  names_set _ := List.Subset.refl _
  refs_set _ := List.Subset.refl _

/-- `revoked_at`. -/
def setRevoked (at_ : Instant) : Rewrite layout .webSessions where
  set row := { row with revokedAt := some at_ }
  key_set _ := rfl
  names_set _ := List.Subset.refl _
  refs_set _ := List.Subset.refl _

/-- `claimed_at`, `claimed_telegram_user_id` and `claimed_telegram_display_name`. -/
def setClaimed (telegramUserId : ℤ) (displayName : Option String) (at_ : Instant) :
    Rewrite layout .linkChallenges where
  set row := { row with
    claimedAt := some at_
    claimedTelegramUserId := some telegramUserId
    claimedTelegramDisplayName := displayName }
  key_set _ := rfl
  names_set _ := List.Subset.refl _
  refs_set _ := List.Subset.refl _

/-- `confirmed_at`. -/
def setConfirmed (at_ : Instant) : Rewrite layout .linkChallenges where
  set row := { row with confirmedAt := some at_ }
  key_set _ := rfl
  names_set _ := List.Subset.refl _
  refs_set _ := List.Subset.refl _

/-- `unlinked_at`. -/
def setUnlinked (at_ : Instant) : Rewrite layout .connections where
  set row := { row with unlinkedAt := some at_ }
  key_set _ := rfl
  names_set _ := List.nil_subset _
  refs_set _ := List.Subset.refl _

/-- `user_id` of an audit record is cleared. -/
def clearUser : Rewrite layout .auditRecords where
  set row := { row with userId := none }
  key_set _ := rfl
  names_set _ := List.Subset.refl _
  refs_set _ := List.nil_subset _

/-- A user who is deactivated, as `User.deactivate` has it. -/
def setDeactivated (at_ : Instant) : Rewrite layout .users where
  set row := { row with status := .deactivated, deactivatedAt := some at_ }
  key_set _ := rfl
  names_set _ := List.Subset.refl _
  refs_set _ := List.Subset.refl _

/-- `deleted_at` of a tombstone. -/
def setDeleted (at_ : Instant) : Rewrite layout .deletedAccounts where
  set row := { row with deletedAt := at_ }
  key_set _ := rfl
  names_set _ := List.Subset.refl _
  refs_set _ := List.Subset.refl _

/-! ## Statements -/

/-- What is raised. -/
inductive AccountError
  | valueError (message : String)
  | multipleResults
  | integrityError
  | unauthenticated
  | csrfRejected
  | deletionNotConfirmed
  | interrupted
deriving DecidableEq

/-- What the environment hands over: the clock, `uuid4` and a generated token. -/
structure AccountReading where
  now : DateTime
  uuid : UUID
  token : String

/-- `AuthenticatedWebSession`. -/
structure AuthenticatedWebSession where
  sessionId : UUID
  userId : UUID
deriving DecidableEq

/-- The statements. -/
inductive AccountStmt
  /-- `SqlAlchemyLoginChallengeStore.add`. -/
  | addLoginChallenge (challenge : LoginChallengeRecord)
  /-- The conditional update of `SqlAlchemyLoginChallengeConsumer.consume`. -/
  | consumeChallenge (tokenHash : String) (consumedAt : Instant)
  /-- `pg_advisory_xact_lock`. -/
  | advisoryLock (canonicalEmail : String)
  /-- The identity of an address and its user, `FOR UPDATE` of the user. -/
  | selectIdentity (canonicalEmail : String)
  | insertUser (user : UserRecord)
  | insertIdentity (identity : EmailIdentityRecord)
  | insertSession (session : WebSessionRecord)
  | appendAudit (record : AuditRecord)
  /-- `SqlAlchemyWebSessionRepository.authenticate`. -/
  | authenticate (secretHash : String) (now : Instant)
  /-- `find_session_id`. -/
  | findSessionId (secretHash : String)
  /-- The user of a session, in `revoke`. -/
  | sessionUser (sessionId : UUID)
  /-- The update of `revoke`. -/
  | revokeSession (sessionId : UUID) (revokedAt : Instant)
  /-- The update of `revoke_all`. -/
  | revokeSessions (userId : UUID) (revokedAt : Instant)
  /-- `create_challenge`. -/
  | createChallenge (challenge : LinkChallengeRecord)
  /-- The conditional update of `claim`. -/
  | claimChallenge (tokenHash : String) (telegramUserId : ℤ) (displayName : Option String)
      (now : Instant)
  /-- `challenge_for_session`. -/
  | challengeForSession (challengeId webSessionId : UUID)
  /-- The claimed challenge of a session, `FOR UPDATE`, in `confirm`. -/
  | lockClaimed (challengeId webSessionId : UUID) (now : Instant)
  /-- Whether the session is valid, in `confirm`. -/
  | sessionIsValid (webSessionId userId : UUID) (now : Instant)
  /-- The connection, under a savepoint, in `confirm`. -/
  | insertConnection (connection : ConnectionRecord)
  /-- `confirmed_at`, in `confirm`. -/
  | confirmChallenge (challengeId : UUID) (now : Instant)
  /-- `active_connection_for_user`. -/
  | activeConnectionForUser (userId : UUID)
  /-- The update of `unlink`. -/
  | unlinkConnection (userId : UUID) (now : Instant)
  /-- The deletion of the conversation, in `unlink`. -/
  | deleteConversation (userId : UUID)
  /-- An operator deactivates a user. -/
  | deactivateUser (userId : UUID) (now : Instant)
  /-- `canonical_email`. -/
  | canonicalEmail (userId : UUID)
  /-- `SELECT id FROM users … FOR UPDATE`, in `_delete`. -/
  | lockUser (userId : UUID)
  /-- The rows of a user in one table, in `_delete`. -/
  | deleteOwned (t : AccountTable) (userId : UUID)
  /-- The audit records of a user are cleared, in `_delete`. -/
  | clearAudit (userId : UUID)
  /-- The tombstone, in `_delete`. -/
  | putTombstone (row : DeletedAccountRecord)
  /-- `delete_login_challenges`. -/
  | deleteLoginChallenges (consumedCutoff expiredCutoff : Instant) (batchSize : ℕ)
  /-- `delete_web_sessions`. -/
  | deleteWebSessions (revokedCutoff expiredCutoff : Instant) (batchSize : ℕ)
  /-- `delete_authentication_audit_records`. -/
  | deleteAuditRecords (occurredCutoff : Instant) (batchSize : ℕ)
  /-- `restored_deleted_accounts`. -/
  | restoredDeletedAccounts (batchSize : ℕ)
  /-- `delete_deleted_account_tombstones`. -/
  | deleteTombstones (deletedCutoff : Instant) (batchSize : ℕ)
  /-- `delete_link_challenges`. -/
  | deleteLinkChallenges (finishedCutoff : Instant) (batchSize : ℕ)
  /-- `delete_unlinked_connections`. -/
  | deleteUnlinkedConnections (unlinkedCutoff : Instant) (batchSize : ℕ)

/-- What a statement answers. -/
abbrev AccountStmt.Resp : AccountStmt → Type
  | .consumeChallenge .. => Option LoginChallengeRecord
  | .selectIdentity _ => Option UserRecord
  | .authenticate .. => Option AuthenticatedWebSession
  | .findSessionId _ => Option UUID
  | .sessionUser _ => Option UUID
  | .revokeSession .. => ℕ
  | .revokeSessions .. => ℕ
  | .claimChallenge .. => Option LinkChallengeRecord
  | .challengeForSession .. => Option LinkChallengeRecord
  | .lockClaimed .. => Option LinkChallengeRecord
  | .sessionIsValid .. => Bool
  | .insertConnection _ => Bool
  | .activeConnectionForUser _ => Option ConnectionRecord
  | .unlinkConnection .. => Option UUID
  | .canonicalEmail _ => Option String
  | .lockUser _ => Bool
  | .restoredDeletedAccounts _ => List UUID
  | .deleteLoginChallenges .. => ℕ
  | .deleteWebSessions .. => ℕ
  | .deleteAuditRecords .. => ℕ
  | .deleteTombstones .. => ℕ
  | .deleteLinkChallenges .. => ℕ
  | .deleteUnlinkedConnections .. => ℕ
  | _ => Unit

/-- The messages that the bot sends about a link. -/
inductive LinkMessage
  | linked
  | linkClaimed
  | linkFailed
deriving DecidableEq

/-- A message to a Telegram chat. -/
structure LinkNotice where
  chatId : ℤ
  text : LinkMessage
deriving DecidableEq

/-- The signature of the programs. -/
abbrev accounting : Signature where
  Op := AccountStmt
  Resp := AccountStmt.Resp
  Input := AccountReading
  Output := LinkNotice
  Error := AccountError
  interrupted := .interrupted

/-! ## What statements select -/

/-- `one_or_none`. -/
def oneOrNone {α : Type} : List α → Except AccountError (Option α)
  | [] => .ok none
  | [a] => .ok (some a)
  | _ => .error .multipleResults

/-- The condition of `consume`. -/
def LoginChallengeRecord.isConsumable (tokenHash : String) (consumedAt : Instant)
    (row : LoginChallengeRecord) : Bool :=
  decide (row.tokenHash = tokenHash) && row.consumedAt.isNone && decide (consumedAt < row.expiresAt)

/-- Whether a session is neither revoked nor expired. -/
def WebSessionRecord.isValid (now : Instant) (row : WebSessionRecord) : Bool :=
  row.revokedAt.isNone && decide (now < row.expiresAt)

/-- A sign-in challenge that `delete_login_challenges` deletes. -/
def LoginChallengeRecord.isFinished (consumedCutoff expiredCutoff : Instant)
    (row : LoginChallengeRecord) : Bool :=
  row.consumedAt.elim (decide (row.expiresAt ≤ expiredCutoff)) fun at_ =>
    decide (at_ ≤ consumedCutoff)

/-- A Web session that `delete_web_sessions` deletes. -/
def WebSessionRecord.isFinished (revokedCutoff expiredCutoff : Instant) (row : WebSessionRecord) :
    Bool :=
  (row.revokedAt.any fun at_ => decide (at_ ≤ revokedCutoff)) ||
    decide (row.expiresAt ≤ expiredCutoff)

/-- An audit record that `delete_authentication_audit_records` deletes. -/
def AuditRecord.isOld (occurredCutoff : Instant) (row : AuditRecord) : Bool :=
  decide (row.occurredAt ≤ occurredCutoff)

/-- A link challenge that `delete_link_challenges` deletes. -/
def LinkChallengeRecord.isFinished (finishedCutoff : Instant) (row : LinkChallengeRecord) : Bool :=
  decide (row.confirmedAt.getD row.expiresAt ≤ finishedCutoff)

/-- A connection that `delete_unlinked_connections` deletes. -/
def ConnectionRecord.isOld (unlinkedCutoff : Instant) (row : ConnectionRecord) : Bool :=
  row.unlinkedAt.any fun at_ => decide (at_ ≤ unlinkedCutoff)

namespace AccountData

variable (s : AccountData)

/-- `_ACTIVE_USERS`. -/
def isActiveUser (userId : UUID) : Bool :=
  (s .users).rows.any fun user => decide (user.id = userId) && decide (user.status = .active)

/-- The users of an address. -/
def usersOfEmail (canonicalEmail : String) : List UserRecord :=
  ((s .emailIdentities).rows.filter fun row =>
    decide (row.canonicalEmail = canonicalEmail)).filterMap fun row => s.find .users row.userId

/-- The sessions that `authenticate` finds. -/
def authenticated (secretHash : String) (now : Instant) : List WebSessionRecord :=
  (s .webSessions).rows.filter fun row =>
    decide (row.secretHash = secretHash) && row.isValid now && s.isActiveUser row.userId

/-- The condition of `claim`. -/
def isClaimable (tokenHash : String) (telegramUserId : ℤ) (now : Instant)
    (row : LinkChallengeRecord) : Bool :=
  decide (row.tokenHash = tokenHash) && row.claimedAt.isNone && row.confirmedAt.isNone &&
    decide (now < row.expiresAt) && s.isActiveUser row.initiatingUserId &&
    !(s .connections).rows.any fun connection =>
      decide (connection.telegramUserId = telegramUserId) && connection.isActive

/-- The claimed challenge of a session, in `confirm`. -/
def claimed (challengeId webSessionId : UUID) (now : Instant) : List LinkChallengeRecord :=
  (s .linkChallenges).rows.filter fun row =>
    decide (row.id = challengeId) && decide (row.initiatingWebSessionId = webSessionId) &&
      row.claimedAt.isSome && row.confirmedAt.isNone && decide (now < row.expiresAt)

/-- `session_is_valid`, in `confirm`. -/
def sessionIsValid (webSessionId userId : UUID) (now : Instant) : Bool :=
  (s .webSessions).rows.any fun row =>
    decide (row.id = webSessionId) && decide (row.userId = userId) && row.isValid now &&
      s.isActiveUser row.userId

/-- The rows of a user. A login challenge belongs to the user of its address. -/
def owned (userId : UUID) : (t : AccountTable) → t.Row → Bool
  | .users, row => decide (row.id = userId)
  | .emailIdentities, row => decide (row.userId = userId)
  | .loginChallenges, row => (s .emailIdentities).rows.any fun identity =>
    decide (identity.userId = userId) && decide (identity.canonicalEmail = row.canonicalEmail)
  | .webSessions, row => decide (row.userId = userId)
  | .auditRecords, row => decide (row.userId = some userId)
  | .linkChallenges, row => decide (row.initiatingUserId = userId)
  | .connections, row => decide (row.userId = userId)
  | .conversations, owner => decide (owner = userId)
  | .deletedAccounts, row => decide (row.userId = userId)

/-- The candidates of a deletion in batches: in order, those that nobody holds. -/
def candidates (busy : Lock layout → Bool) (t : AccountTable) (eligible : t.Row → Bool)
    (moment : t.Row → Instant) (id : t.Row → UUID) (batchSize : ℕ) : List t.Row :=
  (((s t).rows.filter fun row => eligible row && !busy (.row t (AccountTable.key t row))).insertionSort
    fun a b => toLex (moment a, (id a).toNat) ≤ toLex (moment b, (id b).toNat)).take batchSize

/-- The candidates of `delete_login_challenges`. -/
def finishedLoginChallenges (busy : Lock layout → Bool) (consumedCutoff expiredCutoff : Instant) :
    ℕ → List LoginChallengeRecord :=
  s.candidates busy .loginChallenges
    (LoginChallengeRecord.isFinished consumedCutoff expiredCutoff)
    (fun row => row.consumedAt.getD row.expiresAt) LoginChallengeRecord.id

/-- The candidates of `delete_web_sessions`. -/
def finishedWebSessions (busy : Lock layout → Bool) (revokedCutoff expiredCutoff : Instant) :
    ℕ → List WebSessionRecord :=
  s.candidates busy .webSessions (WebSessionRecord.isFinished revokedCutoff expiredCutoff)
    (fun row => min (row.revokedAt.getD row.expiresAt) row.expiresAt) WebSessionRecord.id

/-- The candidates of `delete_authentication_audit_records`. -/
def oldAuditRecords (busy : Lock layout → Bool) (occurredCutoff : Instant) : ℕ → List AuditRecord :=
  s.candidates busy .auditRecords (AuditRecord.isOld occurredCutoff) AuditRecord.occurredAt
    AuditRecord.id

/-- A tombstone that `delete_deleted_account_tombstones` deletes. -/
def isOldTombstone (deletedCutoff : Instant) (row : DeletedAccountRecord) : Bool :=
  decide (row.deletedAt ≤ deletedCutoff) && (s.find .users row.userId).isNone

/-- The candidates of `delete_deleted_account_tombstones`. -/
def oldTombstones (busy : Lock layout → Bool) (deletedCutoff : Instant) :
    ℕ → List DeletedAccountRecord :=
  s.candidates busy .deletedAccounts (s.isOldTombstone deletedCutoff)
    DeletedAccountRecord.deletedAt DeletedAccountRecord.userId

/-- The candidates of `delete_link_challenges`. -/
def finishedLinkChallenges (busy : Lock layout → Bool) (finishedCutoff : Instant) :
    ℕ → List LinkChallengeRecord :=
  s.candidates busy .linkChallenges (LinkChallengeRecord.isFinished finishedCutoff)
    (fun row => row.confirmedAt.getD row.expiresAt) LinkChallengeRecord.id

/-- The candidates of `delete_unlinked_connections`. -/
def oldConnections (busy : Lock layout → Bool) (unlinkedCutoff : Instant) :
    ℕ → List ConnectionRecord :=
  s.candidates busy .connections (ConnectionRecord.isOld unlinkedCutoff)
    (fun row => row.unlinkedAt.getD row.linkedAt) ConnectionRecord.id

/-- `restored_deleted_accounts`. -/
def restoredDeletedAccounts (batchSize : ℕ) : List UUID :=
  ((((s .deletedAccounts).rows.filter fun row => (s.find .users row.userId).isSome).insertionSort
    fun a b => toLex (a.deletedAt, a.userId.toNat) ≤ toLex (b.deletedAt, b.userId.toNat)).take
      batchSize).map DeletedAccountRecord.userId

end AccountData

/-! ## What statements do -/

/-- Delete rows of a table. -/
def deleteRows (t : AccountTable) (rows : List t.Row) : Action layout :=
  .delete t fun row => decide (row ∈ rows)

/-- Delete Web sessions, and with them the link challenges that they initiated
(`ON DELETE CASCADE`). -/
def deleteSessions (selects : WebSessionRecord → Bool) (s : AccountData) : List (Action layout) :=
  [.delete .linkChallenges fun row => (s .webSessions).rows.any fun session => selects session &&
      decide ((session.id, session.userId) = (row.initiatingWebSessionId, row.initiatingUserId)),
    .delete .webSessions selects]

/-- Delete the rows of a user in one table. Audit records lose the user that is deleted
(`ON DELETE SET NULL`). -/
def deleteOwnedActions (userId : UUID) (s : AccountData) :
    (t : AccountTable) → List (Action layout)
  | .users =>
    [.update .auditRecords (s.owned userId .auditRecords) clearUser,
      .delete .users (s.owned userId .users)]
  | .webSessions => deleteSessions (s.owned userId .webSessions) s
  | t => [.delete t (s.owned userId t)]

namespace AccountStmt

/-- **What a statement answers and does.** -/
def perform : (o : AccountStmt) → (Lock layout → Bool) → AccountData →
    Except AccountError (o.Resp × List (Action layout))
  | addLoginChallenge challenge, _, _ => .ok ((), [.insert .loginChallenges challenge])
  | consumeChallenge tokenHash consumedAt, _, s =>
    (oneOrNone ((s .loginChallenges).rows.filter
      (LoginChallengeRecord.isConsumable tokenHash consumedAt))).map fun row =>
        (row.map (setConsumed consumedAt).set,
          [.update .loginChallenges (LoginChallengeRecord.isConsumable tokenHash consumedAt)
            (setConsumed consumedAt)])
  | advisoryLock _, _, _ => .ok ((), [])
  | selectIdentity email, _, s => (oneOrNone (s.usersOfEmail email)).map fun user => (user, [])
  | insertUser user, _, _ => .ok ((), [.insert .users user])
  | insertIdentity identity, _, _ => .ok ((), [.insert .emailIdentities identity])
  | insertSession session, _, _ => .ok ((), [.insert .webSessions session])
  | appendAudit record, _, _ => .ok ((), [.insert .auditRecords record])
  | authenticate secretHash now, _, s =>
    (oneOrNone (s.authenticated secretHash now)).map fun row =>
      (row.map fun session => ⟨session.id, session.userId⟩, [])
  | findSessionId secretHash, _, s =>
    .ok (((s .webSessions).rows.find? fun row => decide (row.secretHash = secretHash)).map
      WebSessionRecord.id, [])
  | sessionUser sessionId, _, s =>
    .ok (((s .webSessions).rows.find? fun row => decide (row.id = sessionId)).map
      WebSessionRecord.userId, [])
  | revokeSession sessionId revokedAt, _, s =>
    let selects := fun row : WebSessionRecord =>
      decide (row.id = sessionId) && row.revokedAt.isNone
    .ok (((s .webSessions).rows.filter selects).length,
      [.update .webSessions selects (setRevoked revokedAt)])
  | revokeSessions userId revokedAt, _, s =>
    let selects := fun row : WebSessionRecord =>
      decide (row.userId = userId) && row.revokedAt.isNone
    .ok (((s .webSessions).rows.filter selects).length,
      [.update .webSessions selects (setRevoked revokedAt)])
  | createChallenge challenge, _, _ => .ok ((), [.insert .linkChallenges challenge])
  | claimChallenge tokenHash telegramUserId displayName now, _, s =>
    let selects := s.isClaimable tokenHash telegramUserId now
    .ok ((((s .linkChallenges).rows.filter selects).map
        (setClaimed telegramUserId displayName now).set).head?,
      [.update .linkChallenges selects (setClaimed telegramUserId displayName now)])
  | challengeForSession challengeId webSessionId, _, s =>
    .ok ((s .linkChallenges).rows.find? fun row => decide (row.id = challengeId) &&
      decide (row.initiatingWebSessionId = webSessionId), [])
  | lockClaimed challengeId webSessionId now, _, s =>
    .ok ((s.claimed challengeId webSessionId now).head?, [])
  | sessionIsValid webSessionId userId now, _, s =>
    .ok (s.sessionIsValid webSessionId userId now, [])
  | insertConnection connection, _, _ => .ok (true, [.insert .connections connection])
  | confirmChallenge challengeId now, _, _ =>
    .ok ((), [.update .linkChallenges (fun row => decide (row.id = challengeId))
      (setConfirmed now)])
  | activeConnectionForUser userId, _, s =>
    .ok ((s .connections).rows.find? fun row => decide (row.userId = userId) && row.isActive, [])
  | unlinkConnection userId now, _, s =>
    let selects := fun row : ConnectionRecord => decide (row.userId = userId) && row.isActive
    .ok ((((s .connections).rows.filter selects).map ConnectionRecord.id).head?,
      [.update .connections selects (setUnlinked now)])
  | deleteConversation userId, _, s =>
    .ok ((), [.delete .conversations (s.owned userId .conversations)])
  | deactivateUser userId now, _, _ =>
    .ok ((), [.update .users (fun row => decide (row.id = userId) && decide (row.status = .active))
      (setDeactivated now)])
  | canonicalEmail userId, _, s =>
    .ok (((s .emailIdentities).rows.find? fun row => decide (row.userId = userId)).map
      EmailIdentityRecord.canonicalEmail, [])
  | lockUser userId, _, s => .ok ((s.find .users userId).isSome, [])
  | deleteOwned t userId, _, s => .ok ((), deleteOwnedActions userId s t)
  | clearAudit userId, _, s =>
    .ok ((), [.update .auditRecords (s.owned userId .auditRecords) clearUser])
  | putTombstone row, _, s =>
    .ok ((), if (s.find .deletedAccounts row.userId).isSome then
        [.update .deletedAccounts (fun r => decide (r.userId = row.userId)) (setDeleted row.deletedAt)]
      else [.insert .deletedAccounts row])
  | deleteLoginChallenges consumedCutoff expiredCutoff batchSize, busy, s =>
    let rows := s.finishedLoginChallenges busy consumedCutoff expiredCutoff batchSize
    .ok (rows.length, [deleteRows .loginChallenges rows])
  | deleteWebSessions revokedCutoff expiredCutoff batchSize, busy, s =>
    let rows := s.finishedWebSessions busy revokedCutoff expiredCutoff batchSize
    .ok (rows.length, deleteSessions (fun row => decide (row ∈ rows)) s)
  | deleteAuditRecords occurredCutoff batchSize, busy, s =>
    let rows := s.oldAuditRecords busy occurredCutoff batchSize
    .ok (rows.length, [deleteRows .auditRecords rows])
  | restoredDeletedAccounts batchSize, _, s => .ok (s.restoredDeletedAccounts batchSize, [])
  | deleteTombstones deletedCutoff batchSize, busy, s =>
    let rows := s.oldTombstones busy deletedCutoff batchSize
    .ok (rows.length, [deleteRows .deletedAccounts rows])
  | deleteLinkChallenges finishedCutoff batchSize, busy, s =>
    let rows := s.finishedLinkChallenges busy finishedCutoff batchSize
    .ok (rows.length, [deleteRows .linkChallenges rows])
  | deleteUnlinkedConnections unlinkedCutoff batchSize, busy, s =>
    let rows := s.oldConnections busy unlinkedCutoff batchSize
    .ok (rows.length, [deleteRows .connections rows])

/-- A violated constraint is raised, save for the connection, which is under a savepoint. -/
def violation : (o : AccountStmt) → Except AccountError o.Resp
  | insertConnection _ => .ok false
  | _ => .error .integrityError

/-- The locks that a statement takes on what it reads. -/
def waits : AccountStmt → AccountData → List (Lock layout × Strength)
  | advisoryLock email, _ => [(.name (.advisory email), .update)]
  | selectIdentity email, s => (s.usersOfEmail email).map fun user => (.row .users user.id, .update)
  | authenticate secretHash now, s => (s.authenticated secretHash now).flatMap fun row =>
    [(.row .webSessions (row.id, row.userId), .share), (.row .users row.userId, .share)]
  | lockClaimed challengeId webSessionId now, s =>
    (s.claimed challengeId webSessionId now).map fun row => (.row .linkChallenges row.id, .update)
  | lockUser userId, s => (s.find .users userId).toList.map fun user => (.row .users user.id, .update)
  | _, _ => []

end AccountStmt

/-- What the statements do. -/
def accountConduct : Conduct accounting layout where
  perform := AccountStmt.perform
  violation := AccountStmt.violation
  waits o _ s := o.waits s

/-- **The database.** -/
def accountDatabase : Backend accounting AccountData (Change layout) (Lock layout) :=
  accountConduct.backend

end MintFlow.Accounts
