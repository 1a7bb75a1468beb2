import MintFlow.Accounts.Effects

set_option relaxedAutoImplicit false
set_option autoImplicit false

/-!
# Accounts: what sessions write

The writes that a session has pending fit how far its transaction has come, and go on to fit as it
advances.

## Main definitions

* `MintFlow.Accounts.Standing.Fits` — the writes that fit a standing.

## Main results

* `MintFlow.Accounts.fits_after`, `MintFlow.Accounts.fits_of_eval` — old writes go on to fit, and new
  ones fit.
-/

namespace MintFlow.Accounts

open Transact

/-! ## What is written -/

namespace Phase

/-- The challenge that was consumed, and when. -/
def signIn : Phase → Option (LoginChallengeRecord × Instant)
  | consumed challenge at_ | denied challenge at_ _ | registering challenge at_ _
  | admitted challenge at_ _ _ => some (challenge, at_)
  | signedIn challenge _ session => some (challenge, session.issuedAt)
  | _ => none

/-- Whether a user signs in. -/
def isAdmitted : Phase → Bool
  | registering .. | admitted .. | signedIn .. => true
  | _ => false

/-- The identity that was inserted. -/
def identity : Phase → Option EmailIdentityRecord
  | admitted _ _ _ identity | signedIn _ identity _ => identity
  | _ => none

/-- The user who was found by an identity that was there. -/
def admittedBy : Phase → Option (String × UUID)
  | denied challenge _ user => some (challenge.canonicalEmail, user.id)
  | admitted challenge _ userId none => some (challenge.canonicalEmail, userId)
  | signedIn challenge none session => some (challenge.canonicalEmail, session.userId)
  | _ => none

/-- The Web session that was inserted. -/
def session : Phase → Option WebSessionRecord
  | signedIn _ _ session => some session
  | _ => none

/-- The challenge that is to be confirmed, and when. -/
def approval : Phase → Option (LinkChallengeRecord × Instant)
  | validated challenge now => some (challenge, now)
  | linking challenge connection | linked challenge connection =>
    some (challenge, connection.linkedAt)
  | _ => none

/-- The connection that was inserted. -/
def connection : Phase → Option ConnectionRecord
  | linking _ connection | linked _ connection => some connection
  | _ => none

/-- The user who is being deleted. -/
def erases : Phase → Option UUID
  | deleting userId _ | deleted userId => some userId
  | buried tombstone => some tombstone.userId
  | _ => none

/-- A transaction that has not written yet, and has not found a session valid. -/
def isQuiet : Phase → Bool
  | idle | confirming .. => true
  | _ => false

/-- Whether something was written that stands by itself. -/
def isWorking : Phase → Bool
  | working .. => true
  | _ => false

/-- A transaction that may have written. -/
def isBusy : Phase → Bool
  | idle | confirming .. | validated .. => false
  | _ => true

end Phase

/-- The rows that a batch of retention deletes. -/
def AccountStmt.Expires : AccountStmt → (t : AccountTable) → t.Row → Prop
  | .deleteLoginChallenges consumedCutoff expiredCutoff _, .loginChallenges, x =>
    x.isFinished consumedCutoff expiredCutoff = true
  | .deleteWebSessions revokedCutoff expiredCutoff _, .webSessions, x =>
    x.isFinished revokedCutoff expiredCutoff = true
  | .deleteWebSessions .., .linkChallenges, _ => True
  | .deleteAuditRecords occurredCutoff _, .auditRecords, x => x.isOld occurredCutoff = true
  | .deleteTombstones deletedCutoff _, .deletedAccounts, x => x.deletedAt ≤ deletedCutoff
  | .deleteLinkChallenges finishedCutoff _, .linkChallenges, x => x.isFinished finishedCutoff = true
  | .deleteUnlinkedConnections unlinkedCutoff _, .connections, x => x.isOld unlinkedCutoff = true
  | _, _, _ => False

/-- The rows that the batch of a transaction deletes. -/
def Phase.Expires : Phase → (t : AccountTable) → t.Row → Prop
  | .swept o, t, x => o.Expires t x
  | _, _, _ => False

/-- Only a batch of retention has such rows. -/
lemma Phase.Expires.swept {p : Phase} {t : AccountTable} {x : t.Row} (h : p.Expires t x) :
    ∃ o, p = .swept o ∧ o.Expires t x := by
  cases p with
  | swept o => exact ⟨o, rfl, h⟩
  | _ => cases h

/-- A connection is not deleted in batches before it is unlinked. -/
lemma Phase.Expires.unlinked {p : Phase} {x : ConnectionRecord} (h : p.Expires .connections x) :
    x.unlinkedAt.isSome = true := by
  obtain ⟨o, -, h⟩ := h.swept
  cases o with
  | deleteUnlinkedConnections unlinkedCutoff batchSize => exact Option.isSome_of_any h
  | _ => cases h

/-- The writes that fit a standing. -/
def Standing.Fits (k : Standing) : Change layout → Prop
  | .put .users x => x.status = .active ∧ k.phase.isAdmitted = true ∨
      x.status ≠ .active ∧ k.phase.isWorking = true
  | .put .emailIdentities x => k.phase.identity = some x
  | .put .loginChallenges x => (∃ at_, k.phase.signIn = some (x, at_)) ∨
      x.consumedAt = none ∧ k.phase.isWorking = true
  | .put .webSessions x => k.phase.session = some x ∨ ∃ at_, x.revokedAt = some at_ ∧
      (k.phase = .working (.revokeSession x.id at_) (1 : ℕ) ∨
        ∃ n : ℕ, k.phase = .working (.revokeSessions x.userId at_) n)
  | .put .auditRecords _ => k.phase.isBusy = true ∧ k.phase.mayLog
  | .put .linkChallenges x => (∃ challenge connection, k.phase = .linked challenge connection ∧
      x.id = challenge.id) ∨ (∃ tokenHash telegramUserId displayName at_,
        k.phase = .working (.claimChallenge tokenHash telegramUserId displayName at_) (some x) ∧
          x.claimedAt = some at_) ∨ k.phase = .working (.createChallenge x) () ∧
        ∃ principal at_, k.principal = some (principal, at_) ∧
          x.initiatingUserId = principal.userId ∧ x.initiatingWebSessionId = principal.sessionId
  | .put .connections x => k.phase.connection = some x ∨
      ∃ now, k.phase = .unlinking x.id now ∧ x.unlinkedAt.isSome
  | .put .conversations _ => False
  | .put .deletedAccounts x => k.phase = .buried x
  | .drop .users x => k.phase.erases = some x.id ∧ ∀ done, k.phase ≠ .deleting x.id done
  | .drop .emailIdentities x => k.phase.erases = some x.userId
  | .drop .loginChallenges x => (∃ userId, k.phase.erases = some userId) ∨
      k.phase.Expires .loginChallenges x
  | .drop .webSessions x => k.phase.erases = some x.userId ∨ k.phase.Expires .webSessions x
  | .drop .auditRecords x => k.phase.Expires .auditRecords x
  | .drop .linkChallenges x => k.phase.erases = some x.initiatingUserId ∨
      k.phase.Expires .linkChallenges x
  | .drop .connections x => k.phase.erases = some x.userId ∨ k.phase.Expires .connections x
  | .drop .conversations x => k.phase.erases = some x ∨ ∃ id now, k.phase = .unlinking id now
  | .drop .deletedAccounts x => k.phase.Expires .deletedAccounts x

section Fits

variable {o : AccountStmt} {busy : Lock layout → Bool} {s : AccountData} {ws : List (Change layout)}
  {principal : Option (AuthenticatedWebSession × Instant)} {p p' : Phase} {restored : List UUID}
  {w : Change layout}

/-- Nothing fits before anything was written. -/
lemma not_fits_of_quiet {k : Standing} (h : k.phase.isBusy = false) : ¬ k.Fits w := by
  obtain ⟨principal, p, restored⟩ := k
  intro hfits
  cases p with
  | idle | confirming challenge now | validated challenge now =>
    cases w with
    | put t x =>
      cases t <;>
        simp [Standing.Fits, Phase.signIn, Phase.isAdmitted, Phase.identity, Phase.session,
          Phase.connection, Phase.isBusy, Phase.isWorking] at hfits
    | drop t x => cases t <;> simp [Standing.Fits, Phase.erases, Phase.Expires] at hfits
  | _ => cases h

/-- A transaction that deleted an account puts nothing else than its tombstone and audit records. -/
lemma not_put_of_buried {k : Standing} {row : DeletedAccountRecord} (h : k.phase = .buried row)
    {t : AccountTable} {x : t.Row} (hrecords : t ≠ .auditRecords) (htombstones : t ≠ .deletedAccounts) :
    ¬ k.Fits (.put t x) := by
  intro hfits
  cases t with
  | auditRecords => exact hrecords rfl
  | deletedAccounts => exact htombstones rfl
  | _ =>
    simp [Standing.Fits, h, Phase.signIn, Phase.isAdmitted, Phase.identity, Phase.session,
      Phase.connection, Phase.isWorking] at hfits

/-- A transaction that deleted a batch puts nothing. -/
lemma not_put_of_swept {k : Standing} {sweep : AccountStmt} (h : k.phase = .swept sweep)
    {t : AccountTable} {x : t.Row} : ¬ k.Fits (.put t x) := by
  intro hfits
  cases t <;>
    simp [Standing.Fits, h, Phase.signIn, Phase.isAdmitted, Phase.identity, Phase.session,
      Phase.connection, Phase.isWorking, Phase.mayLog] at hfits

/-- A transaction that goes on after it has written. -/
inductive Advance : Phase → Phase → Prop
  | finds {challenge : LoginChallengeRecord} {at_ : Instant} {userId : UUID} :
      Advance (.consumed challenge at_) (.admitted challenge at_ userId none)
  | denies {challenge : LoginChallengeRecord} {at_ : Instant} {user : UserRecord} :
      Advance (.consumed challenge at_) (.denied challenge at_ user)
  | registers {challenge : LoginChallengeRecord} {at_ : Instant} {user : UserRecord} :
      Advance (.consumed challenge at_) (.registering challenge at_ user)
  | identifies {challenge : LoginChallengeRecord} {at_ : Instant} {user : UserRecord}
      {identity : EmailIdentityRecord} : Advance (.registering challenge at_ user)
        (.admitted challenge at_ user.id (some identity))
  | opens {challenge : LoginChallengeRecord} {identity : Option EmailIdentityRecord}
      {session : WebSessionRecord} :
      Advance (.admitted challenge session.issuedAt session.userId identity)
        (.signedIn challenge identity session)
  | seals {challenge : LinkChallengeRecord} {connection : ConnectionRecord} :
      Advance (.linking challenge connection) (.linked challenge connection)
  | removes {userId : UUID} {done : List AccountTable} {t : AccountTable} :
      Advance (.deleting userId done) (.deleting userId (done ++ [t]))
  | erases {userId : UUID} : Advance (.deleting userId ownedTables) (.deleted userId)
  | buries {row : DeletedAccountRecord} : Advance (.deleted row.userId) (.buried row)

/-- A turn begins a transaction, stays where it is, or advances. -/
lemma Turn.advance {r : o.Resp} (h : Turn o r p p') :
    p.isBusy = false ∨ p' = p ∨ Advance p p' := by
  cases h with
  | finds => exact .inr (.inr .finds)
  | denies => exact .inr (.inr .denies)
  | registers => exact .inr (.inr .registers)
  | identifies => exact .inr (.inr .identifies)
  | opens => exact .inr (.inr .opens)
  | seals => exact .inr (.inr .seals)
  | removes => exact .inr (.inr .removes)
  | erases => exact .inr (.inr .erases)
  | marks => exact .inr (.inr .buries)
  | reads | logs | clears | forgets => exact .inr (.inl rfl)
  | _ => exact .inl rfl

/-- What fits goes on to fit as the transaction advances. -/
lemma Advance.fits {principal' : Option (AuthenticatedWebSession × Instant)} {restored' : List UUID}
    (h : Advance p p') (hfits : Standing.Fits ⟨principal, p, restored⟩ w) :
    Standing.Fits ⟨principal', p', restored'⟩ w := by
  cases h <;> cases w with
  | put t x =>
    cases t <;>
      simp_all [Standing.Fits, Phase.signIn, Phase.isAdmitted, Phase.identity, Phase.session,
        Phase.connection, Phase.isBusy, Phase.isWorking, Phase.mayLog]
  | drop t x => cases t <;> simp_all [Standing.Fits, Phase.erases, Phase.Expires]

/-- Only before anything was written is a session authenticated. -/
lemma principalAfter_eq {k : Standing} (h : k.mayDo o) (r : o.Resp) :
    k.phase = .idle ∨ k.principalAfter o r = k.principal := by
  cases o with
  | authenticate secretHash now => exact .inl h.1
  | _ => exact .inr rfl

/-- **What was written** goes on to fit. -/
lemma fits_after {k : Standing} (h : k.mayDo o) (r : o.Resp) (hfits : k.Fits w) :
    (k.after o r).Fits w := by
  have hbusy : k.phase.isBusy ≠ false := fun hquiet => not_fits_of_quiet hquiet hfits
  have hprincipal : k.principalAfter o r = k.principal := by
    refine (principalAfter_eq h r).resolve_left fun hidle => hbusy ?_
    rw [hidle]
    rfl
  rcases (turn_of_mayDo h r).advance with hquiet | hsame | hadvance
  · exact absurd hquiet hbusy
  · have hafter : k.after o r = ⟨k.principal, k.phase, k.restoredAfter o r⟩ := by
      unfold Standing.after
      rw [hprincipal, hsame]
    rw [hafter]
    cases w with
    | put t x => cases t <;> exact hfits
    | drop t x => cases t <;> exact hfits
  · exact hadvance.fits hfits

/-- The candidates of a deletion in batches are eligible. -/
lemma eligible_of_mem_candidates {t : AccountTable} {eligible : t.Row → Bool}
    {moment : t.Row → Instant} {id : t.Row → UUID} {batchSize : ℕ} {x : t.Row}
    (hx : x ∈ s.candidates busy t eligible moment id batchSize) : eligible x = true := by
  have hsorted := List.mem_of_mem_take hx
  rw [List.mem_insertionSort] at hsorted
  exact (Bool.and_eq_true_iff.mp (List.mem_filter.mp hsorted).2).1

/-- What a statement writes, an action of it makes. -/
lemma makes_of_eval {r : o.Resp} (h : accountConduct.eval o busy s = .ok (r, ws)) (hw : w ∈ ws) :
    ∃ as, o.perform busy s = .ok (r, as) ∧ ∃ a ∈ as, a.Makes w := by
  rcases Conduct.eval_eq_ok h with ⟨as, hperform, hchanges, -⟩ | ⟨-, -, -, -, -, rfl⟩
  · exact ⟨as, hperform, Action.exists_makes hchanges hw⟩
  · cases hw

/-- What a statement of one action writes, the action makes. -/
lemma makes_of_action {r r₀ : o.Resp} {a : Action layout}
    (hperform : o.perform busy s = .ok (r₀, [a])) (h : accountConduct.eval o busy s = .ok (r, ws))
    (hw : w ∈ ws) : a.Makes w := by
  obtain ⟨as, hok, a', ha', hmakes⟩ := makes_of_eval h hw
  obtain ⟨-, rfl⟩ := Prod.mk.inj (Except.ok.inj (hok.symm.trans hperform))
  obtain rfl := List.mem_singleton.mp ha'
  exact hmakes

/-- What an insertion writes. -/
lemma put_of_insert {r r₀ : o.Resp} {t : AccountTable} {row : t.Row}
    (hperform : o.perform busy s = .ok (r₀, [.insert t row]))
    (h : accountConduct.eval o busy s = .ok (r, ws)) (hw : w ∈ ws) : w = .put t row :=
  makes_of_action hperform h hw

/-- What a deletion of an account writes.

**Proof sketch.** By the table. The rows are those of the user that the transaction deletes, apart
from the challenges, which go by their address. -/
lemma fits_of_deleteOwned {k : Standing} {t : AccountTable} {userId : UUID} {r : Unit}
    (h : k.mayDo (.deleteOwned t userId))
    (heval : accountConduct.eval (.deleteOwned t userId) busy s = .ok (r, ws)) (hw : w ∈ ws) :
    (k.after (.deleteOwned t userId) r).Fits w := by
  obtain ⟨principal, p, restored⟩ := k
  obtain ⟨done, rfl, ht⟩ := h
  have htable : t ∈ ownedTables ∨ t = .users :=
    ht.imp (fun ⟨_, hrest⟩ => mem_ownedTables hrest) And.left
  obtain ⟨as, hperform, a, ha, hmakes⟩ := makes_of_eval heval hw
  obtain ⟨-, rfl⟩ := Prod.mk.inj (Except.ok.inj hperform)
  cases t with
  | users =>
    rcases List.mem_cons.mp ha with rfl | ha
    · obtain ⟨x, -, rfl⟩ := hmakes
      exact ⟨rfl, trivial⟩
    · obtain rfl := List.mem_singleton.mp ha
      obtain ⟨x, hx, rfl⟩ := hmakes
      obtain rfl : x.id = userId := of_decide_eq_true hx
      exact ⟨rfl, fun _ h => by cases h⟩
  | webSessions =>
    rcases List.mem_cons.mp ha with rfl | ha
    · obtain ⟨x, hx, rfl⟩ := hmakes
      obtain ⟨session, -, hsession⟩ := List.any_eq_true.mp hx
      obtain ⟨hown, hkey⟩ := Bool.and_eq_true_iff.mp hsession
      obtain ⟨-, hkey⟩ := Prod.mk.inj (of_decide_eq_true hkey)
      exact .inl (congrArg some ((of_decide_eq_true hown).symm.trans hkey))
    · obtain rfl := List.mem_singleton.mp ha
      obtain ⟨x, hx, rfl⟩ := hmakes
      exact .inl (congrArg some (of_decide_eq_true hx).symm)
  | emailIdentities =>
    obtain rfl := List.mem_singleton.mp ha
    obtain ⟨x, hx, rfl⟩ := hmakes
    exact congrArg some (of_decide_eq_true hx).symm
  | loginChallenges =>
    obtain rfl := List.mem_singleton.mp ha
    obtain ⟨x, -, rfl⟩ := hmakes
    exact .inl ⟨userId, rfl⟩
  | linkChallenges =>
    obtain rfl := List.mem_singleton.mp ha
    obtain ⟨x, hx, rfl⟩ := hmakes
    exact .inl (congrArg some (of_decide_eq_true hx).symm)
  | connections =>
    obtain rfl := List.mem_singleton.mp ha
    obtain ⟨x, hx, rfl⟩ := hmakes
    exact .inl (congrArg some (of_decide_eq_true hx).symm)
  | conversations =>
    obtain rfl := List.mem_singleton.mp ha
    obtain ⟨x, hx, rfl⟩ := hmakes
    exact .inl (congrArg some (of_decide_eq_true hx).symm)
  | auditRecords => exact absurd htable (by decide)
  | deletedAccounts => exact absurd htable (by decide)

/-- **What a statement writes** fits.

**Proof sketch.** By the statement. The lemmas of its effect say which rows it writes and how, and
the phase that its answer leads to says that the transaction may write them. -/
lemma fits_of_eval {k : Standing} {r : o.Resp} (hs : s.Intact) (h : k.mayDo o)
    (heval : accountConduct.eval o busy s = .ok (r, ws)) (hw : w ∈ ws) : (k.after o r).Fits w := by
  have hreads : o.tables = [] → (k.after o r).Fits w := by
    intro htables
    obtain ⟨rfl, -⟩ := eval_reads htables heval
    cases hw
  obtain ⟨principal, p, restored⟩ := k
  cases o with
  | deleteOwned t userId => exact fits_of_deleteOwned h heval hw
  | consumeChallenge tokenHash at_ =>
    cases r with
    | none =>
      rw [missed_of_eval heval] at hw
      cases hw
    | some challenge =>
      obtain ⟨-, -, -, -, rfl, -⟩ := consumed_of_eval heval
      obtain rfl := List.mem_singleton.mp hw
      exact .inl ⟨at_, rfl⟩
  | unlinkConnection userId now =>
    cases r with
    | none =>
      rw [passed_of_eval heval] at hw
      cases hw
    | some connectionId =>
      obtain ⟨x, hx, -, -, rfl, -⟩ := unlinked_of_eval hs heval
      obtain rfl := List.mem_singleton.mp hw
      have hid : x.id = connectionId := Table.key_of_find hx
      exact .inr ⟨now, congrArg (Phase.unlinking · now) hid.symm, rfl⟩
  | insertConnection connection =>
    cases r with
    | false =>
      rw [yielded_of_eval heval] at hw
      cases hw
    | true =>
      obtain ⟨-, rfl, -⟩ := connected_of_eval heval
      obtain rfl := List.mem_singleton.mp hw
      obtain ⟨-, challenge, hp, -, -⟩ := h
      obtain rfl : p = .validated challenge connection.linkedAt := hp
      exact .inl rfl
  | addLoginChallenge challenge =>
    obtain rfl := put_of_insert rfl heval hw
    obtain ⟨rfl, hnone⟩ := h
    exact .inr ⟨hnone, rfl⟩
  | insertUser user =>
    obtain rfl := put_of_insert rfl heval hw
    obtain ⟨hactive, challenge, at_, rfl⟩ := h
    exact .inl ⟨hactive, rfl⟩
  | insertIdentity identity =>
    obtain rfl := put_of_insert rfl heval hw
    obtain ⟨challenge, at_, user, rfl, -, -⟩ := h
    rfl
  | insertSession session =>
    obtain rfl := put_of_insert rfl heval hw
    obtain ⟨-, -, challenge, identity, rfl⟩ := h
    exact .inl rfl
  | appendAudit record =>
    obtain rfl := put_of_insert rfl heval hw
    cases p with
    | confirming challenge now => cases h
    | validated challenge now => cases h
    | swept sweep => cases h
    | _ => exact ⟨rfl, trivial⟩
  | revokeSession sessionId revokedAt =>
    obtain ⟨x, rfl, rfl, rfl⟩ := revoked_of_eval hs heval hw
    obtain rfl : p = .idle := h
    exact .inr ⟨revokedAt, rfl, .inl rfl⟩
  | revokeSessions userId revokedAt =>
    obtain ⟨x, hx, rfl⟩ := makes_of_action rfl heval hw
    obtain rfl : p = .idle := h
    obtain rfl : x.userId = userId := of_decide_eq_true (Bool.and_eq_true_iff.mp hx).1
    exact .inr ⟨revokedAt, rfl, .inr ⟨r, rfl⟩⟩
  | createChallenge challenge =>
    obtain rfl := put_of_insert rfl heval hw
    obtain ⟨rfl, -, hprincipal⟩ := h
    exact .inr (.inr ⟨rfl, hprincipal⟩)
  | claimChallenge tokenHash telegramUserId displayName now =>
    obtain rfl : p = .idle := h
    cases r with
    | none =>
      rw [unclaimed_of_eval heval] at hw
      cases hw
    | some challenge =>
      obtain ⟨x, -, -, -, rfl, rfl⟩ := claimed_of_eval hs heval
      obtain rfl := List.mem_singleton.mp hw
      exact .inr (.inl ⟨tokenHash, telegramUserId, displayName, now, rfl, rfl⟩)
  | confirmChallenge challengeId now =>
    obtain ⟨x, hx, rfl⟩ := makes_of_action rfl heval hw
    obtain ⟨challenge, connection, rfl, hid, -⟩ := h
    exact .inl ⟨challenge, connection, rfl, (of_decide_eq_true hx).trans hid⟩
  | deleteConversation userId =>
    obtain ⟨x, -, rfl⟩ := makes_of_action rfl heval hw
    obtain ⟨connectionId, now, rfl⟩ := h
    exact .inr ⟨connectionId, now, rfl⟩
  | deactivateUser userId now =>
    obtain ⟨x, -, rfl⟩ := makes_of_action rfl heval hw
    obtain rfl : p = .idle := h
    exact .inr ⟨UserStatus.noConfusion, rfl⟩
  | clearAudit userId =>
    obtain ⟨x, -, rfl⟩ := makes_of_action rfl heval hw
    obtain ⟨done, rfl⟩ := h
    exact ⟨rfl, trivial⟩
  | putTombstone row =>
    obtain ⟨as, hperform, a, ha, hmakes⟩ := makes_of_eval heval hw
    obtain ⟨-, rfl⟩ := Prod.mk.inj (Except.ok.inj hperform)
    obtain rfl : p = .deleted row.userId := h
    split_ifs at ha
    · obtain rfl := List.mem_singleton.mp ha
      obtain ⟨x, hx, rfl⟩ := hmakes
      have hid : x.userId = row.userId := of_decide_eq_true hx
      show Phase.buried row = .buried ⟨x.userId, row.deletedAt⟩
      rw [hid]
    · obtain rfl := List.mem_singleton.mp ha
      obtain rfl : w = .put .deletedAccounts row := hmakes
      rfl
  | deleteLoginChallenges consumedCutoff expiredCutoff batchSize =>
    obtain ⟨x, hx, rfl⟩ := makes_of_action rfl heval hw
    exact .inr (eligible_of_mem_candidates (of_decide_eq_true hx))
  | deleteWebSessions revokedCutoff expiredCutoff batchSize =>
    obtain ⟨as, hperform, a, ha, hmakes⟩ := makes_of_eval heval hw
    obtain ⟨-, rfl⟩ := Prod.mk.inj (Except.ok.inj hperform)
    rcases List.mem_cons.mp ha with rfl | ha
    · obtain ⟨x, -, rfl⟩ := hmakes
      exact .inr trivial
    · obtain rfl := List.mem_singleton.mp ha
      obtain ⟨x, hx, rfl⟩ := hmakes
      exact .inr (eligible_of_mem_candidates (of_decide_eq_true hx))
  | deleteAuditRecords occurredCutoff batchSize =>
    obtain ⟨x, hx, rfl⟩ := makes_of_action rfl heval hw
    exact eligible_of_mem_candidates (of_decide_eq_true hx)
  | deleteTombstones deletedCutoff batchSize =>
    obtain ⟨x, hx, rfl⟩ := makes_of_action rfl heval hw
    have hold := eligible_of_mem_candidates (of_decide_eq_true hx)
    have hbefore : x.deletedAt ≤ deletedCutoff :=
      of_decide_eq_true (Bool.and_eq_true_iff.mp hold).1
    exact hbefore
  | deleteLinkChallenges finishedCutoff batchSize =>
    obtain ⟨x, hx, rfl⟩ := makes_of_action rfl heval hw
    exact .inr (eligible_of_mem_candidates (of_decide_eq_true hx))
  | deleteUnlinkedConnections unlinkedCutoff batchSize =>
    obtain ⟨x, hx, rfl⟩ := makes_of_action rfl heval hw
    exact .inr (eligible_of_mem_candidates (of_decide_eq_true hx))
  | _ => exact hreads rfl

end Fits

end MintFlow.Accounts
