import MintFlow.Accounts.WebSessions

set_option relaxedAutoImplicit false
set_option autoImplicit false

/-!
# Accounts: requests of a session, and links

A request that was authenticated keeps its Web session valid and its user active until its transaction
ends. A Telegram account is linked by a challenge that the Telegram user claimed and the Web session
that asked for it confirms; it is unlinked by its own user, or goes with the account.

## Main results

* `MintFlow.Accounts.principal_stays_valid` — **Authentication lasts** as long as its transaction.
* `MintFlow.Accounts.link_requested` — only a valid session asks for a link.
* `MintFlow.Accounts.connection_made` — **Linking is sound**.
* `MintFlow.Accounts.connection_ended` — **A link lasts** until its user ends it or is deleted.
-/

namespace MintFlow.Accounts

open Transact

section Links

variable {ι : Type} [DecidableEq ι] {c c' : AccountSystem ι} {i j : ι}

/-- A session whose request was authenticated counts on a valid Web session and an active user.

**Proof sketch.** The session holds the rows of the Web session and of its user, since it
authenticated: what it knows of them is true of the committed rows. -/
lemma AccountsKept.authenticated (h : AccountsKept c) (hopen : (c.sessions i).closed = false)
    {session : AuthenticatedWebSession} {at_ : Instant}
    (hprincipal : (standing c i).principal = some (session, at_)) :
    (∃ w ∈ c.db .webSessions, w.id = session.sessionId ∧ w.userId = session.userId ∧
      w.revokedAt = none ∧ at_ < w.expiresAt ∧
      ∀ challenge now, (standing c i).phase.approval = some (challenge, now) →
        now < w.expiresAt ∧ challenge.initiatingUserId = session.userId) ∧
      ∃ u ∈ c.db .users, u.id = session.userId ∧ u.status = .active := by
  have hsession : validSession (standing c i) =
      some ((session.sessionId, session.userId), Approved (standing c i) session at_) := by
    unfold validSession
    rw [hprincipal]
    rfl
  have huser : activeUser (standing c i) =
      some (session.userId, fun x _ => ∃ user, x = some user ∧ user.status = .active) := by
    unfold activeUser
    rw [hprincipal]
    rfl
  obtain ⟨-, w, hw, hvalid, -, happroval⟩ := (h.valid i).apply hopen hsession
  obtain ⟨-, u, hu, hactive⟩ := (h.active i).apply hopen huser
  have hkey : AccountTable.key .webSessions w = (session.sessionId, session.userId) :=
    Table.key_of_find hw
  obtain ⟨hid, howner⟩ := Prod.mk.inj hkey
  obtain ⟨hrevoked, hexpires⟩ := Bool.and_eq_true_iff.mp hvalid
  refine ⟨⟨w, Table.mem_of_find hw, hid, howner, Option.isNone_iff_eq_none.mp hrevoked,
    of_decide_eq_true hexpires, fun challenge now hchallenge => ?_⟩,
    u, Table.mem_of_find hu, Table.key_of_find hu, hactive⟩
  obtain ⟨hnow, hinitiator⟩ := happroval challenge now hchallenge
  exact ⟨of_decide_eq_true (Bool.and_eq_true_iff.mp hnow).2, hinitiator⟩

/-- What a session knows of the challenge that it confirmed. -/
lemma AccountsKept.confirmed (h : AccountsKept c) (hopen : (c.sessions j).closed = false)
    {challenge : LinkChallengeRecord} {connection : ConnectionRecord}
    (hphase : (standing c j).phase = .linked challenge connection) :
    Confirmable (standing c j) challenge connection.linkedAt true
        (c.db.find .linkChallenges challenge.id)
        (Store.find (c.view accountDatabase j) .linkChallenges challenge.id) ∧
      Linked challenge connection (c.db.find .connections connection.id)
        (Store.find (c.view accountDatabase j) .connections connection.id) := by
  have hchallenge : lockedChallenge (standing c j) =
      some (challenge.id, Confirmable (standing c j) challenge connection.linkedAt true) := by
    unfold lockedChallenge
    rw [hphase]
    rfl
  have hconnection : lockedConnection (standing c j) =
      some (connection.id, Linked challenge connection) := by
    unfold lockedConnection
    rw [hphase]
  exact ⟨((h.link j).apply hopen hchallenge).2, ((h.connection j).apply hopen hconnection).2⟩

variable [PythonRuntime] {runtime : SignInRuntime} {db : AccountData}
  {requests : ι → AccountRequest} {tapes : ι → Stream' AccountReading} {ls : List (Label ι)}
  {l : Label ι}

/-- **Authentication lasts**: from the statement that authenticates a request until its transaction
ends, the Web session stays as it was found, unrevoked and not expired then, and its user stays active,
whatever others do. -/
theorem principal_stays_valid (hdb : db.Intact)
    (hrun : run accountDatabase (accountsStarted runtime db requests tapes) ls = some c)
    (hopen : (c.sessions i).closed = false) {session : AuthenticatedWebSession} {at_ : Instant}
    (hprincipal : (standing c i).principal = some (session, at_)) :
    (∃ w ∈ c.db .webSessions, w.id = session.sessionId ∧ w.userId = session.userId ∧
      w.revokedAt = none ∧ at_ < w.expiresAt) ∧
      ∃ u ∈ c.db .users, u.id = session.userId ∧ u.status = .active := by
  obtain ⟨⟨w, hw, hid, huser, hrevoked, hexpires, -⟩, hactive⟩ :=
    (AccountsKept.run hdb hrun).authenticated hopen hprincipal
  exact ⟨⟨w, hw, hid, huser, hrevoked, hexpires⟩, hactive⟩

/-- **Asking for a link**: a link challenge that appears unclaimed belongs to a Web session that is not
revoked, of a user who is active.

**Proof sketch.** By what may write the row. A challenge that is confirmed or claimed was claimed by
then, so it was created, for the principal of an authenticated request. -/
theorem link_requested (hdb : db.Intact)
    (hrun : run accountDatabase (accountsStarted runtime db requests tapes) ls = some c)
    (hstep : step accountDatabase c l = some c') {x : LinkChallengeRecord}
    (hx : x ∈ c'.db .linkChallenges) (hno : x ∉ c.db .linkChallenges)
    (hunclaimed : x.claimedAt = none) :
    (∃ w ∈ c.db .webSessions, w.id = x.initiatingWebSessionId ∧ w.userId = x.initiatingUserId ∧
      w.revokedAt = none) ∧
      ∃ u ∈ c.db .users, u.id = x.initiatingUserId ∧ u.status = .active := by
  have h := AccountsKept.run hdb hrun
  obtain ⟨hopen, hmove⟩ := move_of_step hstep
  obtain ⟨-, hview, hfits⟩ := h.appeared hmove hx hno
  rcases hfits with ⟨challenge, connection, hphase, hid⟩ |
    ⟨tokenHash, telegramUserId, displayName, at_, -, hclaimed⟩ |
    ⟨-, session, at_, hprincipal, huser, hsession⟩
  · -- A challenge that is confirmed was claimed.
    obtain ⟨⟨-, hseen, hclaimed, -⟩, -⟩ := h.confirmed hopen hphase
    have hfind : Store.find (c.view accountDatabase l.who) .linkChallenges challenge.id = some x := by
      rw [← hid, ← hview]
      exact Table.find_of_mem hx
    have hset : x = (setConfirmed connection.linkedAt).set challenge :=
      Option.some.inj (hfind.symm.trans hseen)
    have hsame : x.claimedAt = challenge.claimedAt := by
      subst hset
      rfl
    rw [← hsame, hunclaimed] at hclaimed
    cases hclaimed
  · rw [hunclaimed] at hclaimed
    cases hclaimed
  · obtain ⟨⟨w, hw, hid, howner, hrevoked, -⟩, u, hu, huid, hactive⟩ :=
      h.authenticated hopen hprincipal
    exact ⟨⟨w, hw, hid.trans hsession.symm, howner.trans huser.symm, hrevoked⟩,
      u, hu, huid.trans huser.symm, hactive⟩

/-- **Linking is sound**: an active connection that appears is confirmed in the same step by the Web
session that asked for it. Its challenge is unconfirmed and not expired, and was claimed by the
Telegram user; the session is valid when it confirms, and its user is active. Neither the user nor the
Telegram user had an active connection, so none is transferred.

**Proof sketch.** The connection was inserted by a transaction that confirmed the challenge, whose
rows it holds (`AccountsKept.confirmed`), and found its Web session valid again. An active
connection of before is not dropped by it, so with the same user or Telegram account it would be the
new one (`one_connection`). -/
theorem connection_made (hdb : db.Intact)
    (hrun : run accountDatabase (accountsStarted runtime db requests tapes) ls = some c)
    (hstep : step accountDatabase c l = some c') {x : ConnectionRecord}
    (hx : x ∈ c'.db .connections) (hno : x ∉ c.db .connections) (hactive : x.unlinkedAt = none) :
    (∃ challenge ∈ c.db .linkChallenges, challenge.initiatingUserId = x.userId ∧
      challenge.claimedTelegramUserId = some x.telegramUserId ∧ challenge.confirmedAt = none ∧
      x.linkedAt < challenge.expiresAt ∧
      { challenge with confirmedAt := some x.linkedAt } ∈ c'.db .linkChallenges ∧
      ∃ w ∈ c.db .webSessions, w.id = challenge.initiatingWebSessionId ∧ w.userId = x.userId ∧
        w.revokedAt = none ∧ x.linkedAt < w.expiresAt) ∧
      (∃ u ∈ c.db .users, u.id = x.userId ∧ u.status = .active) ∧
      ∀ y ∈ c.db .connections, y.unlinkedAt = none →
        y.userId ≠ x.userId ∧ y.telegramUserId ≠ x.telegramUserId := by
  have h := AccountsKept.run hdb hrun
  obtain ⟨hopen, hmove⟩ := move_of_step hstep
  obtain ⟨hcommit, hview, hfits⟩ := h.appeared hmove hx hno
  rcases hfits with hphase | ⟨now, -, hunlinked⟩
  swap
  · rw [hactive] at hunlinked
    cases hunlinked
  obtain ⟨challenge, hlinked⟩ : ∃ challenge, (standing c l.who).phase = .linked challenge x := by
    generalize (standing c l.who).phase = p at hphase hcommit
    cases p <;> cases hphase
    · exact hcommit.elim
    · exact ⟨_, rfl⟩
  obtain ⟨⟨hdb', hseen, -, hunconfirmed, hexpires, session, at_, hprincipal, hsession⟩,
    ⟨hnew, -⟩, -, huser, htelegram⟩ := h.confirmed hopen hlinked
  obtain ⟨⟨w, hw, hid, howner, hrevoked, -, happroval⟩, u, hu, huid, huactive⟩ :=
    h.authenticated hopen hprincipal
  obtain ⟨hlive, hinitiator⟩ := happroval challenge x.linkedAt (by
    rw [hlinked]
    rfl)
  have hsame : session.userId = x.userId := hinitiator.symm.trans huser.symm
  refine ⟨⟨challenge, Table.mem_of_find hdb', huser.symm, htelegram, hunconfirmed, hexpires, ?_,
    w, hw, hid.trans hsession.symm, howner.trans hsame, hrevoked, hlive⟩,
    ⟨u, hu, huid.trans hsame, huactive⟩, fun y hy hyactive => ?_⟩
  · rw [hview]
    exact Table.mem_of_find hseen
  -- A connection that was active is still there, and the two would share a user.
  have hstays : y ∈ c'.db .connections := by
    rw [hview]
    refine h.mem_view hy (fun z hz hkey => ?_) fun z _ _ _ hz => ?_
    · rcases hz with hz | ⟨now, hz, -⟩
      · obtain rfl := Option.some.inj (hphase.symm.trans hz)
        have hid' : y.id = x.id := hkey.symm
        rw [← hid'] at hnew
        exact Option.eq_none_iff_forall_ne_some.mp hnew y (Table.find_of_mem hy)
      · rw [hlinked] at hz
        cases hz
    · rcases hz with hz | hz
      · rw [hlinked] at hz
        cases hz
      · rw [hlinked] at hz
        exact hz
  have hone := (consistent_of_intact (h.move hopen hmove).guarding.intact).one_connection y hstays x
    hx hyactive hactive
  refine ⟨fun hsame => hno ?_, fun hsame => hno ?_⟩
  · rw [← hone (.inl hsame)]
    exact hy
  · rw [← hone (.inr hsame)]
    exact hy

/-- **A link lasts**: an active connection that changes goes with its user, or is unlinked and otherwise
as it was, while a Web session of its user is not revoked and the user is active.

**Proof sketch.** If there is no row with its identifier any more, it was dropped, as active
connections only are in the deletion of an account, at whose commit the user is gone. Otherwise the
row was written over: not inserted, since the identifier was in use, so unlinked, by a session that
holds it and was authenticated by its user. -/
theorem connection_ended (hdb : db.Intact)
    (hrun : run accountDatabase (accountsStarted runtime db requests tapes) ls = some c)
    (hstep : step accountDatabase c l = some c') {y : ConnectionRecord}
    (hy : y ∈ c.db .connections) (hactive : y.unlinkedAt = none) (hno : y ∉ c'.db .connections) :
    c'.db.find .users y.userId = none ∨
      (∃ at_, { y with unlinkedAt := some at_ } ∈ c'.db .connections) ∧
        (∃ w ∈ c.db .webSessions, w.userId = y.userId ∧ w.revokedAt = none) ∧
        ∃ u ∈ c.db .users, u.id = y.userId ∧ u.status = .active := by
  have h := AccountsKept.run hdb hrun
  obtain ⟨hopen, hmove⟩ := move_of_step hstep
  have hfind : c.db.find .connections y.id = some y := Table.find_of_mem hy
  cases hafter : c'.db.find .connections y.id with
  | none =>
    left
    obtain ⟨hcommit, hview, y', hkey, hdrop, hsame⟩ := h.disappeared hmove hy hafter
    -- Whoever drops connections puts none in.
    have hown : y' = y := by
      refine hsame.resolve_left fun hput => ?_
      have hdrop' : (standing c l.who).phase.erases = some y'.userId ∨
        (standing c l.who).phase.Expires .connections y' := hdrop
      have hput' : (standing c l.who).phase.connection = some y' ∨
        ∃ now, (standing c l.who).phase = .unlinking y'.id now ∧ y'.unlinkedAt.isSome := hput
      generalize (standing c l.who).phase = p at hdrop' hput'
      cases p <;> simp [Phase.erases, Phase.connection, Phase.Expires] at hdrop' hput'
    subst hown
    rcases hdrop with herases | hexpires
    swap
    · have hunlinked := hexpires.unlinked
      rw [hactive] at hunlinked
      cases hunlinked
    obtain ⟨row, hburied, hrow⟩ := buried_of_erases herases hcommit
    rw [hview, ← hrow]
    exact (h.erased hopen hburied).2
  | some z =>
    right
    have hz : z ∈ c'.db .connections := Table.mem_of_find hafter
    have hid : z.id = y.id := Table.key_of_find hafter
    have hzno : z ∉ c.db .connections := by
      intro hmem
      obtain rfl : z = y := Table.eq_of_key_eq hmem hy hid
      exact hno hz
    obtain ⟨hcommit, hview, hfits⟩ := h.appeared hmove hz hzno
    rcases hfits with hphase | ⟨now, hphase, -⟩
    · obtain ⟨challenge, hlinked⟩ : ∃ challenge,
          (standing c l.who).phase = .linked challenge z := by
        generalize (standing c l.who).phase = p at hphase hcommit
        cases p <;> cases hphase
        · exact hcommit.elim
        · exact ⟨_, rfl⟩
      obtain ⟨-, ⟨hnew, -⟩, -⟩ := h.confirmed hopen hlinked
      rw [hid, hfind] at hnew
      cases hnew
    have hsubject : lockedConnection (standing c l.who) = some (y.id, Unlinked (standing c l.who) now)
        := by
      unfold lockedConnection
      rw [hphase, hid]
    obtain ⟨-, row, hrow, -, hseen, session, at_, hprincipal, hown⟩ :=
      (h.connection l.who).apply hopen hsubject
    obtain rfl : y = row := Option.some.inj (hfind.symm.trans hrow)
    obtain ⟨⟨w, hw, -, howner, hrevoked, -⟩, u, hu, huid, huactive⟩ :=
      h.authenticated hopen hprincipal
    refine ⟨⟨now, ?_⟩, ⟨w, hw, howner.trans hown.symm, hrevoked⟩,
      u, hu, huid.trans hown.symm, huactive⟩
    rw [hview]
    exact Table.mem_of_find hseen

end Links

/-! ## In the ceremony -/

section Ceremony

/-- Ann's session is valid while it asks for a link. -/
theorem principal_stays_valid_ceremony :
    letI := PythonRuntime.ascii
    ∃ c, run accountDatabase ceremony (ceremonyLabels.take 24) = some c ∧
      (standing c 2).principal = some (⟨1, 1⟩, 2) ∧
      ∃ w ∈ c.db .webSessions, w.id = 1 ∧ w.userId = 1 ∧ w.revokedAt = none ∧ 2 < w.expiresAt := by
  let _ := PythonRuntime.ascii
  have heval : (run accountDatabase ceremony (ceremonyLabels.take 24)).map (fun c =>
      ((c.sessions 2).closed, (standing c 2).principal)) = some (false, some (⟨1, 1⟩, 2)) := by
    decide +kernel
  obtain ⟨c, hrun, heval⟩ := Option.map_eq_some_iff.mp heval
  obtain ⟨hopen, hprincipal⟩ := Prod.mk.inj heval
  exact ⟨c, hrun, hprincipal, (principal_stays_valid Store.intact_empty hrun hopen hprincipal).1⟩

/-- The challenge for which Ann asks. -/
def ceremonyLink : LinkChallengeRecord :=
  ⟨2, ceremonyToken 'c', 1, 1, 2, 2 + telegramLinkChallengeLifetime, none, none, none, none⟩

/-- Ann's session is valid when she asks for a link. -/
theorem link_requested_ceremony :
    letI := PythonRuntime.ascii
    ∃ c c', run accountDatabase ceremony (ceremonyLabels.take 27) = some c ∧
      step accountDatabase c (.go 2) = some c' ∧ ceremonyLink ∈ c'.db .linkChallenges ∧
      ∃ w ∈ c.db .webSessions, w.id = 1 ∧ w.userId = 1 ∧ w.revokedAt = none := by
  let _ := PythonRuntime.ascii
  have heval : (run accountDatabase ceremony (ceremonyLabels.take 27)).bind (fun c =>
      (step accountDatabase c (.go 2)).map fun c' =>
        (c.db.find .linkChallenges 2, c'.db.find .linkChallenges 2)) =
      some (none, some ceremonyLink) := by
    decide +kernel
  obtain ⟨c, c', hrun, hstep, heval⟩ := exists_step heval
  obtain ⟨hnone, hsome⟩ := Prod.mk.inj heval
  have hx := Table.mem_of_find hsome
  obtain ⟨hvalid, -⟩ := link_requested Store.intact_empty hrun hstep hx (fun hmem => by
    have hfound : c.db.find .linkChallenges 2 = some ceremonyLink := Table.find_of_mem hmem
    rw [hnone] at hfound
    cases hfound) rfl
  exact ⟨c, c', hrun, hstep, hx, hvalid⟩

/-- Ann's connection. -/
def ceremonyConnection : ConnectionRecord := ⟨4, 1, 77, some "Ann", 4, none⟩

/-- Ann's connection is made of a challenge that she claimed in Telegram. -/
theorem connection_made_ceremony :
    letI := PythonRuntime.ascii
    ∃ c c', run accountDatabase ceremony (ceremonyLabels.take 47) = some c ∧
      step accountDatabase c (.go 4) = some c' ∧ ceremonyConnection ∈ c'.db .connections ∧
      ∃ challenge ∈ c.db .linkChallenges, challenge.claimedTelegramUserId = some 77 ∧
        { challenge with confirmedAt := some 4 } ∈ c'.db .linkChallenges := by
  let _ := PythonRuntime.ascii
  have heval : (run accountDatabase ceremony (ceremonyLabels.take 47)).bind (fun c =>
      (step accountDatabase c (.go 4)).map fun c' =>
        (c.db.find .connections 4, c'.db.find .connections 4)) =
      some (none, some ceremonyConnection) := by
    decide +kernel
  obtain ⟨c, c', hrun, hstep, heval⟩ := exists_step heval
  obtain ⟨hnone, hsome⟩ := Prod.mk.inj heval
  have hx := Table.mem_of_find hsome
  obtain ⟨⟨challenge, hchallenge, -, hclaimed, -, -, hconfirmed, -⟩, -⟩ :=
    connection_made Store.intact_empty hrun hstep hx (fun hmem => by
      have hfound : c.db.find .connections 4 = some ceremonyConnection := Table.find_of_mem hmem
      rw [hnone] at hfound
      cases hfound) rfl
  exact ⟨c, c', hrun, hstep, hx, challenge, hchallenge, hclaimed, hconfirmed⟩

/-- Ann unlinks her connection while her session is valid. -/
theorem connection_ended_ceremony :
    letI := PythonRuntime.ascii
    ∃ c c', run accountDatabase ceremony (ceremonyLabels ++ List.replicate 7 (.go 5)) = some c ∧
      step accountDatabase c (.go 5) = some c' ∧ ceremonyConnection ∈ c.db .connections ∧
      (∃ at_, { ceremonyConnection with unlinkedAt := some at_ } ∈ c'.db .connections) ∧
      ∃ w ∈ c.db .webSessions, w.userId = 1 ∧ w.revokedAt = none := by
  let _ := PythonRuntime.ascii
  have heval : (run accountDatabase ceremony (ceremonyLabels ++ List.replicate 7 (.go 5))).bind
      (fun c => (step accountDatabase c (.go 5)).map fun c' => (c.db.find .connections 4,
        decide (c'.db.find .connections 4 = some ceremonyConnection),
        (c'.db.find .users 1).isSome)) = some (some ceremonyConnection, false, true) := by
    decide +kernel
  obtain ⟨c, c', hrun, hstep, heval⟩ := exists_step heval
  obtain ⟨hbefore, heval⟩ := Prod.mk.inj heval
  obtain ⟨hafter, huser⟩ := Prod.mk.inj heval
  have hy := Table.mem_of_find hbefore
  have hno : ceremonyConnection ∉ c'.db .connections := fun hmem =>
    of_decide_eq_false hafter (Table.find_of_mem hmem)
  rcases connection_ended Store.intact_empty hrun hstep hy rfl hno with hgone | ⟨hended, hvalid, -⟩
  · have hnone : c'.db.find .users 1 = none := hgone
    rw [hnone] at huser
    cases huser
  · exact ⟨c, c', hrun, hstep, hy, hended, hvalid⟩

end Ceremony

end MintFlow.Accounts
