import MintFlow.Authentication.RateLimit
import MintFlow.Lib.Tracking

set_option relaxedAutoImplicit false
set_option autoImplicit false

/-!
# Requesting a sign-in link

A request reserves a place for its network source, then one for its address, each in a transaction of
its own, and sends a link only when it got both. Expired buckets are deleted in batches, past those
that somebody holds.

## Main definitions

* `MintFlow.SignInRuntime` — what a process is configured with.
* `MintFlow.SignInStmt`, `MintFlow.signInDatabase` — the statements and what they do.
* `MintFlow.requestMagicLink` — a request.
* `MintFlow.cleanUpBuckets` — the part of retention that deletes buckets.

## Implementation notes

`email_validator` and the keyed digest are parameters. A link is represented by its token and its
return target. What else retention deletes is in other tables and other transactions.
-/

namespace MintFlow

open Transact Transact.Prog

/-! ## What is stored -/

/-- `LOGIN_CHALLENGE_LIFETIME`, in microseconds. -/
def loginChallengeLifetime : ℤ := 15 * 60000000

/-- `LoginChallenge`, as it is issued. -/
structure LoginChallenge where
  id : UUID
  canonicalEmail : String
  tokenHash : String
  issuedAt : Instant
  expiresAt : Instant
  returnTarget : String
deriving DecidableEq

/-- `AuthenticationAuditRecord` of a requested challenge. -/
structure RequestAudit where
  id : UUID
  occurredAt : Instant
  succeeded : Bool
  subjectRecordId : Option UUID
deriving DecidableEq

/-- The tables that a request writes. -/
structure SignInData where
  buckets : Buckets
  challenges : List LoginChallenge
  audit : List RequestAudit

/-! ## Statements -/

/-- What is raised. -/
inductive SignInError
  | valueError (message : String)
  | invalidReturnTarget
  | integrityError
  | interrupted
deriving DecidableEq

/-- What the environment hands over: the clock, `uuid4` and a generated token. -/
structure SignInReading where
  now : DateTime
  uuid : UUID
  token : String

/-- `MagicLinkMessage`. -/
structure MagicLinkMessage where
  recipientEmail : String
  token : String
  returnTarget : String
deriving DecidableEq

/-- The statements. -/
inductive SignInStmt
  /-- `PostgreSQLAuthenticationRateLimiter.reserve`. -/
  | reserve (reservation : RateLimitReservation)
  /-- `SqlAlchemyLoginChallengeStore.add`. -/
  | addChallenge (challenge : LoginChallenge)
  /-- `SqlAlchemyAuthenticationAuditAppender.append`. -/
  | appendAudit (record : RequestAudit)
  /-- `delete_rate_limit_buckets`. -/
  | deleteBuckets (expiredAt maximumAgeAt : ℤ) (batchSize : ℕ)

/-- What a statement answers. -/
abbrev SignInStmt.Resp : SignInStmt → Type
  | .reserve _ => Bool
  | .deleteBuckets .. => ℕ
  | _ => Unit

/-- The signature of the programs. -/
abbrev signIn : Signature where
  Op := SignInStmt
  Resp := SignInStmt.Resp
  Input := SignInReading
  Output := MagicLinkMessage
  Error := SignInError
  interrupted := .interrupted

/-- What is locked: the rows of the buckets, and the unique values of the other tables. -/
inductive SignInKey
  | bucket (key : BucketKey)
  | challengeId (id : UUID)
  | tokenHash (hash : String)
  | auditId (id : UUID)
deriving DecidableEq

/-- The writes. -/
inductive SignInWrite
  | putBucket (row : BucketRecord)
  | removeBucket (key : BucketKey)
  | addChallenge (challenge : LoginChallenge)
  | appendAudit (record : RequestAudit)

/-- What a write changes. -/
def SignInWrite.keys : SignInWrite → List SignInKey
  | .putBucket row => [.bucket row.key]
  | .removeBucket key => [.bucket key]
  | .addChallenge challenge => [.challengeId challenge.id, .tokenHash challenge.tokenHash]
  | .appendAudit record => [.auditId record.id]

/-- The effect of a write. -/
def SignInWrite.apply : SignInWrite → SignInData → SignInData
  | .putBucket row, db => { db with buckets := db.buckets.upsert row }
  | .removeBucket key, db => { db with buckets := db.buckets.discard fun row => decide (row.key = key) }
  | .addChallenge challenge, db => { db with challenges := db.challenges ++ [challenge] }
  | .appendAudit record, db => { db with audit := db.audit ++ [record] }

/-- Whether a row is held by another transaction. -/
def bucketLocked (busy : SignInKey → Bool) (key : BucketKey) : Bool := busy (.bucket key)

/-- The outcome of a statement. -/
def SignInStmt.evaluate (o : SignInStmt) (busy : SignInKey → Bool) (db : SignInData) :
    Except SignInError (o.Resp × List SignInWrite) :=
  match o with
  | .reserve reservation =>
    match db.buckets.reserve reservation with
    | some row => .ok (true, [.putBucket row])
    | none => .ok (false, [])
  | .addChallenge challenge =>
    if db.challenges.any fun c => decide (c.id = challenge.id ∨ c.tokenHash = challenge.tokenHash)
    then .error .integrityError
    else .ok ((), [.addChallenge challenge])
  | .appendAudit record =>
    if db.audit.any fun r => decide (r.id = record.id) then .error .integrityError
    else .ok ((), [.appendAudit record])
  | .deleteBuckets expiredAt maximumAgeAt batchSize =>
    let rows := db.buckets.expired expiredAt maximumAgeAt (bucketLocked busy) batchSize
    .ok (rows.length, rows.map fun row => .removeBucket row.key)

/-- The locks of a statement: an upsert locks its row whether or not it changes it. -/
def SignInStmt.locks (o : SignInStmt) (busy : SignInKey → Bool) (db : SignInData) :
    List (SignInKey × Strength) :=
  match o with
  | .reserve reservation => [(.bucket reservation.key, .noKeyUpdate)]
  | .addChallenge challenge =>
    [(.challengeId challenge.id, .update), (.tokenHash challenge.tokenHash, .update)]
  | .appendAudit record => [(.auditId record.id, .update)]
  | .deleteBuckets expiredAt maximumAgeAt batchSize =>
    (db.buckets.expired expiredAt maximumAgeAt (bucketLocked busy) batchSize).map fun row =>
      (.bucket row.key, .update)

/-- The database. -/
def signInDatabase : Backend signIn SignInData SignInWrite SignInKey where
  apply := SignInWrite.apply
  eval := SignInStmt.evaluate
  locks := SignInStmt.locks

/-! ## Programs -/

/-- A program of the authentication service. -/
abbrev SignInProgram := Prog signIn

/-- `NormalizedEmail`. -/
structure NormalizedEmail where
  canonicalEmail : String
  displayEmail : String
deriving DecidableEq

/-- What a process is configured with. -/
structure SignInRuntime where
  /-- `validate_email(…).normalized`, unless the address is not valid. -/
  validateEmail : String → Option String
  /-- `hmac.new(secret_key, …, sha256).digest()`. -/
  hmac : String → KeyDigest
  allowedReturnTargets : List String

namespace SignInRuntime

variable (runtime : SignInRuntime)

/-- `normalize_email`. -/
def normalizeEmail (submittedEmail : String) : Option NormalizedEmail :=
  (runtime.validateEmail (strip submittedEmail)).map fun canonical =>
    ⟨canonical, strip submittedEmail⟩

/-- `RateLimitDigester.digest`. -/
def digest (dimension : RateLimitDimension) (key : String) : KeyDigest :=
  runtime.hmac (dimension.value ++ "\x00" ++ key)

end SignInRuntime

/-- `reserve`, which commits. -/
def reserve (reservation : RateLimitReservation) : SignInProgram Bool :=
  .stmt (.reserve reservation) fun (allowed : Bool) => .commit (.pure allowed)

/-- `_append_request_audit`. -/
def appendRequestAudit (occurredAt : Instant) (succeeded : Bool) (subjectRecordId : Option UUID) :
    SignInProgram Unit :=
  .ask fun reading =>
    .stmt (.appendAudit ⟨reading.uuid, occurredAt, succeeded, subjectRecordId⟩) fun _ =>
      .commit (.pure ())

/-- The part of a request that follows both reservations. -/
def sendMagicLink [PythonRuntime] (email : NormalizedEmail) (returnTarget : String)
    (issuedAt : Instant) : SignInProgram Unit :=
  .ask fun reading =>
    .stmt (.addChallenge ⟨reading.uuid, email.canonicalEmail, PythonRuntime.tokenHash reading.token,
        issuedAt, issuedAt + loginChallengeLifetime, returnTarget⟩) fun _ =>
      .commit (.emit ⟨email.displayEmail, reading.token, returnTarget⟩
        (appendRequestAudit issuedAt true (some reading.uuid)))

/-- `RequestMagicLink.execute`, from the reading of the clock on. -/
def requestMagicLinkAt [PythonRuntime] (runtime : SignInRuntime)
    (submittedEmail networkSource returnTarget : String) (now : DateTime) : SignInProgram Unit := do
  lift .valueError
    (require (now.utcoffset ≠ none) "clock must return a timezone-aware datetime")
  let issuedAt := now.astimezoneUtc
  match runtime.normalizeEmail submittedEmail with
  | none => appendRequestAudit issuedAt false none
  | some email =>
    if returnTarget ∈ runtime.allowedReturnTargets then do
      let network ← lift .valueError (makeReservation .networkRequest
        (runtime.digest .networkRequest networkSource) issuedAt.toDateTime networkRequestLimit)
      let networkAllowed ← reserve network
      if networkAllowed then do
        let delivery ← lift .valueError (makeReservation .emailDelivery
          (runtime.digest .emailDelivery email.canonicalEmail) issuedAt.toDateTime emailDeliveryLimit)
        let emailAllowed ← reserve delivery
        if emailAllowed then sendMagicLink email returnTarget issuedAt
        else appendRequestAudit issuedAt false none
      else appendRequestAudit issuedAt false none
    else do
      appendRequestAudit issuedAt false none
      .fail .invalidReturnTarget

/-- `RequestMagicLink.execute`. -/
def requestMagicLink [PythonRuntime] (runtime : SignInRuntime)
    (submittedEmail networkSource returnTarget : String) : SignInProgram Unit :=
  .ask fun reading => requestMagicLinkAt runtime submittedEmail networkSource returnTarget reading.now

/-- The deletion of buckets in `CleanUpAuthenticationRetention.execute`, from the reading of the
clock on. -/
def cleanUpBucketsAt (batchSize : ℕ) (now : DateTime) : SignInProgram Unit := do
  lift .valueError (requireAware now)
  let utcNow := now.astimezoneUtc
  .stmt (.deleteBuckets utcNow (utcNow - rateLimitRetention) batchSize) fun _ => .commit (.pure ())

/-- The deletion of buckets in `CleanUpAuthenticationRetention.execute`. -/
def cleanUpBuckets (batchSize : ℤ) : SignInProgram Unit :=
  if 0 < batchSize then .ask fun reading => cleanUpBucketsAt batchSize.toNat reading.now
  else .fail (.valueError "batch_size must be a positive integer")

/-! ## What a statement does to a bucket -/

section Buckets

variable {db : SignInData} {key : BucketKey} {busy : SignInKey → Bool}

/-- A write on another row leaves a bucket alone. -/
lemma find_apply_of_not_mem {w : SignInWrite} (h : .bucket key ∉ w.keys) :
    (w.apply db).buckets.find key = db.buckets.find key := by
  cases w with
  | putBucket row =>
    have hne : key ≠ row.key := fun heq => h (by rw [heq]; exact List.mem_cons_self)
    show (db.buckets.upsert row).find key = _
    rw [Table.find_upsert, if_neg hne]
  | removeBucket key' =>
    have hne : key ≠ key' := fun heq => h (by rw [heq]; exact List.mem_cons_self)
    show (db.buckets.discard _).find key = _
    rw [Table.find_discard_key, if_neg hne]
  | addChallenge => rfl
  | appendAudit => rfl

/-- The lock on a bucket guards it.

**Proof sketch.** A write of another key leaves the bucket, and a write of its own gives it a value
that does not depend on what was there. -/
lemma guarded_bucket (key : BucketKey) : Guarded signInDatabase SignInWrite.keys (.bucket key)
    fun db => db.buckets.find key where
  frame w s h := find_apply_of_not_mem h
  local_ w s s' h := by
    by_cases hkey : .bucket key ∈ w.keys
    · cases w with
      | putBucket row =>
        obtain rfl : key = row.key := by simpa [SignInWrite.keys] using hkey
        show (s.buckets.upsert row).find _ = (s'.buckets.upsert row).find _
        rw [Table.find_upsert_self, Table.find_upsert_self]
      | removeBucket key' =>
        show (s.buckets.discard _).find _ = (s'.buckets.discard _).find _
        rw [Table.find_discard_key, Table.find_discard_key]
        split_ifs
        · rfl
        · exact h
      | addChallenge => exact h
      | appendAudit => exact h
    · show (w.apply s).buckets.find key = (w.apply s').buckets.find key
      rw [find_apply_of_not_mem hkey, find_apply_of_not_mem hkey]
      exact h

/-- Every write is on what its statement locks.

**Proof sketch.** By the statement: each locks the buckets and identifiers its writes are of. -/
lemma signInDatabase_covers : signInDatabase.Covers SignInWrite.keys := by
  intro o busy s r ws h w hw k hk
  cases o with
  | reserve reservation =>
    simp only [signInDatabase, SignInStmt.evaluate] at h
    cases hrow : s.buckets.reserve reservation with
    | none =>
      rw [hrow] at h
      obtain ⟨-, rfl⟩ := Prod.mk.inj (Except.ok.inj h)
      cases hw
    | some row =>
      rw [hrow] at h
      obtain ⟨-, rfl⟩ := Prod.mk.inj (Except.ok.inj h)
      obtain rfl := List.mem_singleton.mp hw
      obtain rfl := List.mem_singleton.mp hk
      refine ⟨.noKeyUpdate, ?_, Nat.le_refl _⟩
      rw [(Buckets.reserve_eq_some hrow).1]
      exact List.mem_singleton.mpr rfl
  | addChallenge challenge =>
    simp only [signInDatabase, SignInStmt.evaluate] at h
    split_ifs at h
    obtain ⟨-, rfl⟩ := Prod.mk.inj (Except.ok.inj h)
    obtain rfl := List.mem_singleton.mp hw
    refine ⟨.update, ?_, by decide⟩
    simp only [SignInWrite.keys, List.mem_cons, List.not_mem_nil, or_false] at hk
    rcases hk with rfl | rfl
    · exact List.mem_cons_self
    · exact List.mem_cons_of_mem _ List.mem_cons_self
  | appendAudit record =>
    simp only [signInDatabase, SignInStmt.evaluate] at h
    split_ifs at h
    obtain ⟨-, rfl⟩ := Prod.mk.inj (Except.ok.inj h)
    obtain rfl := List.mem_singleton.mp hw
    obtain rfl := List.mem_singleton.mp hk
    exact ⟨.update, List.mem_singleton.mpr rfl, by decide⟩
  | deleteBuckets expiredAt maximumAgeAt batchSize =>
    simp only [signInDatabase, SignInStmt.evaluate] at h
    obtain ⟨-, rfl⟩ := Prod.mk.inj (Except.ok.inj h)
    obtain ⟨row, hrow, rfl⟩ := List.mem_map.mp hw
    obtain rfl := List.mem_singleton.mp hk
    exact ⟨.update, List.mem_map.mpr ⟨row, hrow, rfl⟩, by decide⟩

end Buckets

end MintFlow
