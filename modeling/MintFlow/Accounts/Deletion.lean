import MintFlow.Accounts.Erasure

set_option relaxedAutoImplicit false
set_option autoImplicit false

/-!
# Accounts: deletion

When an account goes, everything of its user goes in the same step, a tombstone stays, and nothing of
anyone else is touched. It goes because a valid Web session of its own asked for it, or because the
cleanup found its tombstone next to it.

## Main results

* `MintFlow.Accounts.account_deleted` — **Deletion is complete and exact**.
* `MintFlow.Accounts.account_deletion_authorized` — **Deletion is authorized**.
-/

namespace MintFlow.Accounts

open Transact

/-- Nothing of a user is there, save for a tombstone. -/
structure AccountData.Forgotten (s : AccountData) (userId : UUID) : Prop where
  users : ∀ x ∈ s .users, x.id ≠ userId
  identities : ∀ x ∈ s .emailIdentities, x.userId ≠ userId
  sessions : ∀ x ∈ s .webSessions, x.userId ≠ userId
  challenges : ∀ x ∈ s .linkChallenges, x.initiatingUserId ≠ userId
  connections : ∀ x ∈ s .connections, x.userId ≠ userId
  conversations : ∀ x ∈ s .conversations, x ≠ userId
  records : ∀ x ∈ s .auditRecords, x.userId ≠ some userId
  tombstone : ∃ x ∈ s .deletedAccounts, x.userId = userId

/-- Everything of other users is as it was. -/
structure AccountData.Spares (s s' : AccountData) (userId : UUID) : Prop where
  users : ∀ x ∈ s .users, x.id ≠ userId → x ∈ s' .users
  identities : ∀ x ∈ s .emailIdentities, x.userId ≠ userId → x ∈ s' .emailIdentities
  signIns : ∀ x ∈ s .loginChallenges, ¬ Identified s x.canonicalEmail userId →
    x ∈ s' .loginChallenges
  sessions : ∀ x ∈ s .webSessions, x.userId ≠ userId → x ∈ s' .webSessions
  challenges : ∀ x ∈ s .linkChallenges, x.initiatingUserId ≠ userId → x ∈ s' .linkChallenges
  connections : ∀ x ∈ s .connections, x.userId ≠ userId → x ∈ s' .connections
  conversations : ∀ x ∈ s .conversations, x ≠ userId → x ∈ s' .conversations
  records : ∀ x ∈ s .auditRecords, x.userId ≠ some userId → x ∈ s' .auditRecords
  tombstones : ∀ x ∈ s .deletedAccounts, x.userId ≠ userId → x ∈ s' .deletedAccounts

section Deletion

variable {ι : Type} [DecidableEq ι] {c c' : AccountSystem ι} {j : ι}

/-- Where a user is gone, nothing refers to it.

**Proof sketch.** Each of the rows refers to its user, who is gone. Link challenges refer to their
Web session, which is of the same user. -/
lemma forgotten_of_consistent {s : AccountData} (h : s.Consistent) {userId : UUID}
    (hgone : s.find .users userId = none) (htombstone : ∃ x ∈ s .deletedAccounts, x.userId = userId) :
    s.Forgotten userId := by
  have hnone : ∀ {id : UUID}, (s.find .users id).isSome = true → id ≠ userId := by
    rintro id hsome rfl
    rw [hgone] at hsome
    cases hsome
  have hsession : ∀ x ∈ s .webSessions, x.userId ≠ userId := fun x hx => hnone (h.session_user x hx)
  exact {
    users := fun x hx => Table.find_eq_none.mp hgone x hx
    identities := fun x hx => hnone (h.identity_user x hx)
    sessions := hsession
    challenges := fun x hx huser => by
      obtain ⟨w, hw⟩ := Option.isSome_iff_exists.mp (h.challenge_session x hx)
      have hkey : AccountTable.key .webSessions w = (x.initiatingWebSessionId, x.initiatingUserId) :=
        Table.key_of_find hw
      exact hsession w (Table.mem_of_find hw) ((Prod.mk.inj hkey).2.trans huser)
    connections := fun x hx => hnone (h.connection_user x hx)
    conversations := fun x hx => hnone (h.conversation_user x hx)
    records := fun x hx huser => hnone (h.record_user x hx userId huser) rfl
    tombstone := htombstone }

/-- **A transaction that deleted an account** leaves the others alone.

**Proof sketch.** Table by table: what the transaction drops fits its standing, so that it is a row
of the user, and it puts nothing but its tombstone and audit records. Of the sign-in challenges it
drops those whose address the user is identified by. For the audit records this says nothing, since
it clears some of them; there the view itself is kept, as `Erasing.spared` has it. -/
lemma AccountsKept.spares (h : AccountsKept c) (hopen : (c.sessions j).closed = false)
    {row : DeletedAccountRecord} (hphase : (standing c j).phase = .buried row)
    (hrecords : ∀ x ∈ c.db .auditRecords, x.userId ≠ some row.userId →
      x ∈ c.view accountDatabase j .auditRecords) :
    AccountData.Spares c.db (c.view accountDatabase j) row.userId where
  users x hx hother := by
    refine h.mem_view hx (fun y hy _ => not_put_of_buried hphase (by decide) (by decide) hy)
      fun y _ hkey _ hy => ?_
    have hown : (standing c j).phase.erases = some y.id := hy.1
    rw [hphase] at hown
    exact hother ((Option.some.inj hown).trans hkey).symm
  identities x hx hother := by
    have hput : ∀ y, ¬ (standing c j).Fits (.put .emailIdentities y) := fun y hy =>
      not_put_of_buried hphase (by decide) (by decide) hy
    refine h.mem_view hx (fun y hy => (hput y hy).elim) fun y hyx _ _ hy => ?_
    obtain rfl := hyx.resolve_right (hput y)
    have hown : (standing c j).phase.erases = some y.userId := hy
    rw [hphase] at hown
    exact hother (Option.some.inj hown).symm
  signIns x hx hother := by
    have hput : ∀ y, ¬ (standing c j).Fits (.put .loginChallenges y) := fun y hy =>
      not_put_of_buried hphase (by decide) (by decide) hy
    refine h.mem_view hx (fun y hy => (hput y hy).elim) fun y hyx _ hdrop _ => ?_
    obtain rfl := hyx.resolve_right (hput y)
    refine hother (h.identified j hopen _ _ (.inr ⟨?_, y, hdrop, rfl⟩))
    rw [hphase]
    rfl
  sessions x hx hother := by
    have hput : ∀ y, ¬ (standing c j).Fits (.put .webSessions y) := fun y hy =>
      not_put_of_buried hphase (by decide) (by decide) hy
    refine h.mem_view hx (fun y hy => (hput y hy).elim) fun y hyx _ _ hy => ?_
    obtain rfl := hyx.resolve_right (hput y)
    rcases hy with hown | hexpires
    · rw [hphase] at hown
      exact hother (Option.some.inj hown).symm
    · rw [hphase] at hexpires
      exact hexpires
  challenges x hx hother := by
    have hput : ∀ y, ¬ (standing c j).Fits (.put .linkChallenges y) := fun y hy =>
      not_put_of_buried hphase (by decide) (by decide) hy
    refine h.mem_view hx (fun y hy => (hput y hy).elim) fun y hyx _ _ hy => ?_
    obtain rfl := hyx.resolve_right (hput y)
    rcases hy with hown | hexpires
    · rw [hphase] at hown
      exact hother (Option.some.inj hown).symm
    · rw [hphase] at hexpires
      exact hexpires
  connections x hx hother := by
    have hput : ∀ y, ¬ (standing c j).Fits (.put .connections y) := fun y hy =>
      not_put_of_buried hphase (by decide) (by decide) hy
    refine h.mem_view hx (fun y hy => (hput y hy).elim) fun y hyx _ _ hy => ?_
    obtain rfl := hyx.resolve_right (hput y)
    rcases hy with hown | hexpires
    · rw [hphase] at hown
      exact hother (Option.some.inj hown).symm
    · rw [hphase] at hexpires
      exact hexpires
  conversations x hx hother := by
    refine h.mem_view hx (fun y hy _ => hy.elim) fun y hyx _ _ hy => ?_
    obtain rfl := hyx.resolve_right id
    rcases hy with hown | ⟨id, now, hunlinking⟩
    · rw [hphase] at hown
      exact hother (Option.some.inj hown).symm
    · rw [hphase] at hunlinking
      cases hunlinking
  records := hrecords
  tombstones x hx hother := by
    refine h.mem_view hx (fun y hy hkey => ?_) fun y _ _ _ hy => ?_
    · have hput : (standing c j).phase = .buried y := hy
      rw [hphase] at hput
      obtain rfl := Phase.buried.inj hput
      exact hother hkey.symm
    · have hexpires : (standing c j).phase.Expires .deletedAccounts y := hy
      rw [hphase] at hexpires
      exact hexpires

/-- A sign-in challenge that is pending to be dropped in a transaction that deleted an account is not
seen. -/
lemma AccountsKept.gone_of_drop (h : AccountsKept c) {row : DeletedAccountRecord}
    (hphase : (standing c j).phase = .buried row) {x : LoginChallengeRecord}
    (hdrop : .drop .loginChallenges x ∈ (c.sessions j).pending) :
    Store.find (c.view accountDatabase j) .loginChallenges x.id = none := by
  refine Option.eq_none_iff_forall_ne_some.mpr fun y hfind => ?_
  have hid : y.id = x.id := Table.key_of_find hfind
  rcases Store.mem_of_applyAll accountConduct (Table.mem_of_find hfind) with hput | ⟨-, hkept⟩
  · exact not_put_of_buried hphase (by decide) (by decide) (h.wrote j _ hput)
  · refine hkept _ hdrop (Store.row_mem_keys_drop.mpr ?_)
    exact congrArg (rowLock .loginChallenges) hid

/-- An account that goes was deleted by a transaction that left its tombstone. -/
lemma AccountsKept.buried_of_gone (h : AccountsKept c) (hmove : Move accountDatabase c j c')
    {u : UserRecord} (hu : u ∈ c.db .users) (hgone : c'.db.find .users u.id = none) :
    c'.db = c.view accountDatabase j ∧
      ∃ row, (standing c j).phase = .buried row ∧ row.userId = u.id := by
  obtain ⟨hcommit, hview, y, hkey, hdrop, -⟩ := h.disappeared hmove hu hgone
  obtain ⟨row, hburied, hrow⟩ := buried_of_erases hdrop.1 hcommit
  exact ⟨hview, row, hburied, hrow.trans hkey⟩

/-- A session found an account among those that a backup brought back. -/
def FoundRestored (es : List (Event accounting)) (userId : UUID) : Prop :=
  ∃ (batchSize : ℕ) (userIds : List UUID),
    (.did (AccountStmt.restoredDeletedAccounts batchSize) userIds : Event accounting) ∈ es ∧
      userId ∈ userIds

/-- The accounts that a session remembers it found.

**Proof sketch.** Induction on the history, from its end: only the statement that looks for restored
accounts adds some, and it is in the history. -/
lemma foundRestored_of_restored {es : List (Event accounting)} {userId : UUID}
    (h : userId ∈ (accountTracker.state es).restored) : FoundRestored es userId := by
  induction es using List.reverseRecOn with
  | nil => cases h
  | append_singleton es e ih =>
    rw [Tracker.state_append] at h
    have hold : userId ∈ (accountTracker.state es).restored → FoundRestored (es ++ [e]) userId := by
      intro hmem
      obtain ⟨batchSize, userIds, hevent, huser⟩ := ih hmem
      exact ⟨batchSize, userIds, List.mem_append_left _ hevent, huser⟩
    cases e with
    | committed => exact hold h
    | rolledBack => exact hold h
    | did o r =>
      cases o with
      | restoredDeletedAccounts batchSize =>
        rcases List.mem_append.mp h with hmem | hnew
        · exact hold hmem
        · exact ⟨batchSize, r, List.mem_append_right _ List.mem_cons_self, hnew⟩
      | _ => exact hold h

variable [PythonRuntime] {runtime : SignInRuntime} {db : AccountData}
  {requests : ι → AccountRequest} {tapes : ι → Stream' AccountReading} {ls : List (Label ι)}
  {l : Label ι}

/-- **Deletion is complete and exact**: when an account goes, nothing of its user is left, except for a
tombstone, and nothing of other users is touched; of the sign-in challenges, those of other addresses
stay, and those of its own address are gone that were committed when the transaction deleted them.

**Proof sketch.** The step is the commit of a transaction that deleted the user and left the
tombstone. Whatever refers to the user is gone because the committed database satisfies its foreign
keys; sign-in challenges refer to nobody, and they were dropped at their turn. -/
theorem account_deleted (hdb : db.Intact)
    (hrun : run accountDatabase (accountsStarted runtime db requests tapes) ls = some c)
    (hstep : step accountDatabase c l = some c') {u : UserRecord} (hu : u ∈ c.db .users)
    (hgone : c'.db.find .users u.id = none) :
    AccountData.Forgotten c'.db u.id ∧ AccountData.Spares c.db c'.db u.id ∧
      ∃ before, DeletesSignIns (accountsStarted runtime db requests tapes) ls c l.who u.id before ∧
        ∀ x ∈ before.db .loginChallenges, Identified before.db x.canonicalEmail u.id →
          c'.db.find .loginChallenges x.id = none := by
  have herasing := Erasing.run hdb hrun
  have h := herasing.kept
  obtain ⟨hopen, hmove⟩ := move_of_step hstep
  obtain ⟨hview, row, hburied, hrow⟩ := h.buried_of_gone hmove hu hgone
  have herases : (standing c l.who).phase.erases = some row.userId := by
    rw [hburied]
    rfl
  refine ⟨forgotten_of_consistent (consistent_of_intact (h.move hopen hmove).guarding.intact) hgone
    ⟨row, ?_, hrow⟩, ?_, ?_⟩
  · rw [hview]
    exact h.interred hopen hburied
  · rw [hview, ← hrow]
    exact h.spares hopen hburied (herasing.spared l.who hopen row.userId herases)
  · have hforgot : (standing c l.who).phase.forgot = some u.id := by
      rw [hburied]
      exact congrArg some hrow
    obtain ⟨before, hmoment, hdrops⟩ := herasing.forgotten l.who hopen u.id hforgot
    refine ⟨before, hmoment, fun x hx hidentified => ?_⟩
    rw [hview]
    exact h.gone_of_drop hburied (hdrops x hx hidentified)

/-- **Deletion is authorized**: when an account goes, then the request that deletes it was authenticated
by a Web session of the account, which is not revoked, and its user is active; or it is a job that found
the account among those that a backup brought back.

**Proof sketch.** A user goes only with the commit of a deletion of the account, which was
authorized all along: by the list of restored accounts, or by the authenticated principal, whose
rows the session holds until it commits. -/
theorem account_deletion_authorized (hdb : db.Intact)
    (hrun : run accountDatabase (accountsStarted runtime db requests tapes) ls = some c)
    (hstep : step accountDatabase c l = some c') {u : UserRecord} (hu : u ∈ c.db .users)
    (hgone : c'.db.find .users u.id = none) :
    (u.status = .active ∧ ∃ session at_, (standing c l.who).principal = some (session, at_) ∧
        session.userId = u.id ∧ ∃ w ∈ c.db .webSessions, w.id = session.sessionId ∧
          w.userId = u.id ∧ w.revokedAt = none ∧ at_ < w.expiresAt) ∨
      FoundRestored (c.history l.who) u.id := by
  have h := AccountsKept.run hdb hrun
  obtain ⟨hopen, hmove⟩ := move_of_step hstep
  obtain ⟨-, row, hburied, hrow⟩ := h.buried_of_gone hmove hu hgone
  have herases : (standing c l.who).phase.erases = some u.id := by
    rw [hburied]
    exact congrArg some hrow
  rcases h.authorized l.who u.id herases with hrestored | ⟨session, at_, hprincipal, hsession⟩
  · exact .inr (foundRestored_of_restored hrestored)
  · obtain ⟨⟨w, hw, hid, howner, hrevoked, hexpires, -⟩, u', hu', huser, hactive⟩ :=
      h.authenticated hopen hprincipal
    obtain rfl : u' = u := Table.eq_of_key_eq hu' hu (huser.trans hsession.symm)
    exact .inl ⟨hactive, session, at_, hprincipal, hsession.symm, w, hw, hid,
      howner.trans hsession.symm, hrevoked, hexpires⟩

end Deletion

/-! ## In the ceremony -/

section Ceremony

/-- The user that Ann is. -/
def ceremonyUser : UserRecord := ⟨1, .active, 1, none⟩

/-- The user that Bob is. -/
def ceremonyOther : UserRecord := ⟨9, .active, 9, none⟩

/-- What is on record of Bob. -/
def ceremonyRecord : AuditRecord := ⟨9, 9, .loginSucceeded, .succeeded, some 9, some 9⟩

/-- After the ceremony Bob signs in, and Ann deletes her account, up to its last step. -/
def deletionLabels : List (Label ℕ) :=
  ceremonyLabels ++ List.replicate 8 (.go 8) ++ List.replicate 14 (.go 9) ++
    List.replicate 15 (.go 6)

/-- What is seen of a deletion: both users, what is on record of Bob, and Ann's sign-in challenge. -/
structure DeletionView where
  ann : Option UserRecord
  bob : Option UserRecord
  record : Option AuditRecord
  challenged : Bool
deriving DecidableEq

/-- What is seen of a deletion. -/
def deletionView (s : AccountData) : DeletionView :=
  ⟨s.find .users 1, s.find .users 9, s.find .auditRecords 9, (s.find .loginChallenges 0).isSome⟩

/-- Whether an event found accounts among those that a backup brought back. -/
def restores : Event accounting → Bool
  | .did (.restoredDeletedAccounts _) _ => true
  | _ => false

/-- The deletion of Ann's account. -/
lemma exists_ceremony_deletion [PythonRuntime]
    (h : (run accountDatabase ceremony deletionLabels).bind (fun c =>
      (step accountDatabase c (.go 6)).map fun c' =>
        (deletionView c.db, deletionView c'.db, (c.history 6).any restores)) =
      some (⟨some ceremonyUser, some ceremonyOther, some ceremonyRecord, true⟩,
        ⟨none, some ceremonyOther, some ceremonyRecord, false⟩, false)) :
    ∃ c c', run accountDatabase ceremony deletionLabels = some c ∧
      step accountDatabase c (.go 6) = some c' ∧
      deletionView c.db = ⟨some ceremonyUser, some ceremonyOther, some ceremonyRecord, true⟩ ∧
      deletionView c'.db = ⟨none, some ceremonyOther, some ceremonyRecord, false⟩ ∧
      ¬ FoundRestored (c.history 6) 1 := by
  obtain ⟨c, c', hrun, hstep, heval⟩ := exists_step h
  obtain ⟨hbefore, heval⟩ := Prod.mk.inj heval
  obtain ⟨hafter, hrestores⟩ := Prod.mk.inj heval
  refine ⟨c, c', hrun, hstep, hbefore, hafter, ?_⟩
  rintro ⟨batchSize, userIds, hmem, -⟩
  exact List.any_eq_false.mp hrestores _ hmem rfl

/-- Ann deletes her account: nothing of her is left, her sign-in challenge is gone, and Bob's account
is there as before, with what is on record of him. -/
theorem account_deleted_ceremony :
    letI := PythonRuntime.ascii
    ∃ c c', run accountDatabase ceremony deletionLabels = some c ∧
      step accountDatabase c (.go 6) = some c' ∧ ceremonyUser ∈ c.db .users ∧
      AccountData.Forgotten c'.db 1 ∧ ceremonyOther ∈ c'.db .users ∧
      ceremonyRecord ∈ c'.db .auditRecords ∧ (c.db.find .loginChallenges 0).isSome = true ∧
      (c'.db.find .loginChallenges 0).isSome = false ∧
      ∃ before, DeletesSignIns ceremony deletionLabels c 6 1 before := by
  let _ := PythonRuntime.ascii
  obtain ⟨c, c', hrun, hstep, hbefore, hafter, -⟩ := exists_ceremony_deletion (by decide +kernel)
  obtain ⟨hann, hbob, hrecord, hchallenge⟩ := DeletionView.mk.inj hbefore
  obtain ⟨hgone, -, -, hforgotten⟩ := DeletionView.mk.inj hafter
  obtain ⟨hforgot, hspares, before, hmoment, -⟩ :=
    account_deleted Store.intact_empty hrun hstep (Table.mem_of_find hann) hgone
  exact ⟨c, c', hrun, hstep, Table.mem_of_find hann, hforgot,
    hspares.users _ (Table.mem_of_find hbob) (by decide),
    hspares.records _ (Table.mem_of_find hrecord) (by decide), hchallenge, hforgotten, before,
    hmoment⟩

/-- Ann's own session deletes her account. -/
theorem account_deletion_authorized_ceremony :
    letI := PythonRuntime.ascii
    ∃ c c', run accountDatabase ceremony deletionLabels = some c ∧
      step accountDatabase c (.go 6) = some c' ∧ c'.db.find .users 1 = none ∧
      ∃ session at_, (standing c 6).principal = some (session, at_) ∧ session.userId = 1 ∧
        ∃ w ∈ c.db .webSessions, w.id = session.sessionId ∧ w.userId = 1 ∧ w.revokedAt = none := by
  let _ := PythonRuntime.ascii
  obtain ⟨c, c', hrun, hstep, hbefore, hafter, hrestored⟩ :=
    exists_ceremony_deletion (by decide +kernel)
  have hann := Table.mem_of_find (DeletionView.mk.inj hbefore).1
  have hgone := (DeletionView.mk.inj hafter).1
  obtain ⟨-, session, at_, hprincipal, hsession, w, hw, hid, howner, hrevoked, -⟩ :=
    (account_deletion_authorized Store.intact_empty hrun hstep hann hgone).resolve_right hrestored
  exact ⟨c, c', hrun, hstep, hgone, session, at_, hprincipal, hsession, w, hw, hid, howner, hrevoked⟩

end Ceremony

end MintFlow.Accounts
