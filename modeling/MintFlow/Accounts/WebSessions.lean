import MintFlow.Accounts.Kept

set_option relaxedAutoImplicit false
set_option autoImplicit false

/-!
# Accounts: consistency and sign-in

Requests, updates of the bot and jobs are interleaved in any way and may be stopped at any point. The
database stays consistent throughout, and so does what each session sees of it. A Web session is opened
by consuming one sign-in challenge that nobody consumed before, for a user with its address, and a
challenge that is consumed opens one.

## Main definitions

* `MintFlow.Accounts.AccountData.Consistent` — the constraints, in the words of the records.

## Main results

* `MintFlow.Accounts.accounts_consistent` — **Consistency** in every run.
* `MintFlow.Accounts.web_session_opened` — **Sign-in is sound**.
* `MintFlow.Accounts.challenge_consumed` — **Sign-in is complete**.
-/

namespace MintFlow.Accounts

open Transact

/-! ## Consistency -/

/-- What the constraints say. -/
structure AccountData.Consistent (s : AccountData) : Prop where
  one_email : ∀ e ∈ s .emailIdentities, ∀ e' ∈ s .emailIdentities,
    e.canonicalEmail = e'.canonicalEmail ∨ e.userId = e'.userId → e = e'
  one_sign_in : ∀ x ∈ s .loginChallenges, ∀ y ∈ s .loginChallenges, x.tokenHash = y.tokenHash → x = y
  one_secret : ∀ x ∈ s .webSessions, ∀ y ∈ s .webSessions,
    x.id = y.id ∨ x.secretHash = y.secretHash → x = y
  one_link : ∀ x ∈ s .linkChallenges, ∀ y ∈ s .linkChallenges, x.tokenHash = y.tokenHash → x = y
  one_connection : ∀ x ∈ s .connections, ∀ y ∈ s .connections, x.unlinkedAt = none →
    y.unlinkedAt = none → x.userId = y.userId ∨ x.telegramUserId = y.telegramUserId → x = y
  identity_user : ∀ e ∈ s .emailIdentities, (s.find .users e.userId).isSome
  session_user : ∀ x ∈ s .webSessions, (s.find .users x.userId).isSome
  connection_user : ∀ x ∈ s .connections, (s.find .users x.userId).isSome
  conversation_user : ∀ x ∈ s .conversations, (s.find .users x).isSome
  record_user : ∀ x ∈ s .auditRecords, ∀ userId, x.userId = some userId →
    (s.find .users userId).isSome
  challenge_session : ∀ x ∈ s .linkChallenges,
    (s.find .webSessions (x.initiatingWebSessionId, x.initiatingUserId)).isSome
  deactivated : ∀ x ∈ s .users, (x.status = .active ↔ x.deactivatedAt = none) ∧
    ∀ at_, x.deactivatedAt = some at_ → x.createdAt ≤ at_
  expiring : ∀ x ∈ s .loginChallenges, x.issuedAt < x.expiresAt
  lifetime : ∀ x ∈ s .webSessions, x.issuedAt < x.expiresAt ∧
    x.expiresAt ≤ x.issuedAt + webSessionLifetime ∧ ∀ at_, x.revokedAt = some at_ → x.issuedAt ≤ at_
  link_lifetime : ∀ x ∈ s .linkChallenges, x.issuedAt < x.expiresAt ∧
    x.expiresAt ≤ x.issuedAt + telegramLinkChallengeLifetime
  claimed : ∀ x ∈ s .linkChallenges, x.claimedAt.isSome = x.claimedTelegramUserId.isSome ∧
    (∀ at_, x.claimedAt = some at_ → x.issuedAt ≤ at_) ∧
    (x.claimedTelegramDisplayName.isSome → x.claimedAt.isSome) ∧
    ∀ at_, x.confirmedAt = some at_ → ∃ claimed, x.claimedAt = some claimed ∧ claimed ≤ at_
  unlinked : ∀ x ∈ s .connections, ∀ at_, x.unlinkedAt = some at_ → x.linkedAt ≤ at_

/-- A database that satisfies its constraints is consistent.

**Proof sketch.** Each part is one of the constraints: two rows that share a value share a name, so
they are one row (`unique`); a key that is set finds its row (`refers`); and each row satisfies its
CHECK constraints (`checked`). -/
lemma consistent_of_intact {s : AccountData} (h : s.Intact) : s.Consistent where
  one_email e he e' he' hsame := by
    rcases hsame with hsame | hsame
    · refine h.unique .emailIdentities e he e' he' (.identityEmail e.canonicalEmail)
        (List.mem_cons_of_mem _ List.mem_cons_self) ?_
      rw [hsame]
      exact List.mem_cons_of_mem _ List.mem_cons_self
    · refine h.unique .emailIdentities e he e' he' (.identityUser e.userId) List.mem_cons_self ?_
      rw [hsame]
      exact List.mem_cons_self
  one_sign_in x hx y hy hsame := by
    refine h.unique .loginChallenges x hx y hy (.loginToken x.tokenHash) List.mem_cons_self ?_
    rw [hsame]
    exact List.mem_cons_self
  one_secret x hx y hy hsame := by
    rcases hsame with hsame | hsame
    · refine h.unique .webSessions x hx y hy (.webSession x.id) List.mem_cons_self ?_
      rw [hsame]
      exact List.mem_cons_self
    · refine h.unique .webSessions x hx y hy (.sessionSecret x.secretHash)
        (List.mem_cons_of_mem _ List.mem_cons_self) ?_
      rw [hsame]
      exact List.mem_cons_of_mem _ List.mem_cons_self
  one_link x hx y hy hsame := by
    refine h.unique .linkChallenges x hx y hy (.linkToken x.tokenHash) List.mem_cons_self ?_
    rw [hsame]
    exact List.mem_cons_self
  one_connection x hx y hy hactive hactive' hsame := by
    have hnames : ∀ z : ConnectionRecord, z.unlinkedAt = none →
        AccountTable.names .connections z =
          [.activeUser z.userId, .activeTelegramUser z.telegramUserId] := by
      intro z hz
      refine if_pos ?_
      unfold ConnectionRecord.isActive
      rw [hz]
      rfl
    rcases hsame with hsame | hsame
    · refine h.unique .connections x hx y hy (.activeUser x.userId) ?_ ?_
      · rw [show layout.names AccountTable.connections x = _ from hnames x hactive]
        exact List.mem_cons_self
      · rw [show layout.names AccountTable.connections y = _ from hnames y hactive', hsame]
        exact List.mem_cons_self
    · refine h.unique .connections x hx y hy (.activeTelegramUser x.telegramUserId) ?_ ?_
      · rw [show layout.names AccountTable.connections x = _ from hnames x hactive]
        exact List.mem_cons_of_mem _ List.mem_cons_self
      · rw [show layout.names AccountTable.connections y = _ from hnames y hactive', hsame]
        exact List.mem_cons_of_mem _ List.mem_cons_self
  identity_user e he := h.refers .emailIdentities e he ⟨.users, e.userId⟩ List.mem_cons_self
  session_user x hx := h.refers .webSessions x hx ⟨.users, x.userId⟩ List.mem_cons_self
  connection_user x hx := h.refers .connections x hx ⟨.users, x.userId⟩ List.mem_cons_self
  conversation_user x hx := h.refers .conversations x hx ⟨.users, x⟩ List.mem_cons_self
  record_user x hx userId huser := by
    refine h.refers .auditRecords x hx ⟨.users, userId⟩ ?_
    show (⟨.users, userId⟩ : Sigma AccountTable.Key) ∈ x.userId.toList.map _
    rw [huser]
    exact List.mem_cons_self
  challenge_session x hx := h.refers .linkChallenges x hx
    ⟨.webSessions, (x.initiatingWebSessionId, x.initiatingUserId)⟩ List.mem_cons_self
  deactivated x hx := by
    obtain ⟨hstatus, hcreated⟩ := Bool.and_eq_true_iff.mp (h.checked .users x hx)
    refine ⟨of_decide_eq_true hstatus, fun at_ hat => ?_⟩
    rw [hat] at hcreated
    exact of_decide_eq_true hcreated
  expiring x hx := of_decide_eq_true (h.checked .loginChallenges x hx)
  lifetime x hx := by
    have hcheck := h.checked .webSessions x hx
    obtain ⟨hcheck, hrevoked⟩ := Bool.and_eq_true_iff.mp hcheck
    obtain ⟨hissued, hexpires⟩ := Bool.and_eq_true_iff.mp hcheck
    refine ⟨of_decide_eq_true hissued, of_decide_eq_true hexpires, fun at_ hat => ?_⟩
    rw [hat] at hrevoked
    exact of_decide_eq_true hrevoked
  link_lifetime x hx := by
    obtain ⟨hcheck, -⟩ := Bool.and_eq_true_iff.mp (h.checked .linkChallenges x hx)
    obtain ⟨hcheck, -⟩ := Bool.and_eq_true_iff.mp hcheck
    obtain ⟨hcheck, -⟩ := Bool.and_eq_true_iff.mp hcheck
    obtain ⟨hcheck, -⟩ := Bool.and_eq_true_iff.mp hcheck
    obtain ⟨hissued, hexpires⟩ := Bool.and_eq_true_iff.mp hcheck
    exact ⟨of_decide_eq_true hissued, of_decide_eq_true hexpires⟩
  claimed x hx := by
    obtain ⟨hcheck, hconfirmed⟩ := Bool.and_eq_true_iff.mp (h.checked .linkChallenges x hx)
    obtain ⟨hcheck, hname⟩ := Bool.and_eq_true_iff.mp hcheck
    obtain ⟨hcheck, hissued⟩ := Bool.and_eq_true_iff.mp hcheck
    have hclaimed := of_decide_eq_true (Bool.and_eq_true_iff.mp hcheck).2
    refine ⟨?_, fun at_ hat => ?_, fun hsome => ?_, fun at_ hat => ?_⟩
    · rw [← Option.not_isNone, ← Option.not_isNone, hclaimed]
    · rw [hat] at hissued
      exact of_decide_eq_true hissued
    · refine ((Bool.or_eq_true_iff).mp hname).resolve_left fun hnone => ?_
      rw [← Option.not_isNone, hnone] at hsome
      cases hsome
    · rw [hat] at hconfirmed
      cases hclaim : x.claimedAt with
      | none =>
        rw [hclaim] at hconfirmed
        cases hconfirmed
      | some claimed =>
        rw [hclaim] at hconfirmed
        exact ⟨claimed, rfl, of_decide_eq_true hconfirmed⟩
  unlinked x hx at_ hat := by
    have hcheck : (x.unlinkedAt.all fun at_ => decide (x.linkedAt ≤ at_)) = true :=
      h.checked .connections x hx
    rw [hat] at hcheck
    exact of_decide_eq_true hcheck

section Runs

variable [PythonRuntime] {ι : Type} [DecidableEq ι] {runtime : SignInRuntime} {db : AccountData}
  {requests : ι → AccountRequest} {tapes : ι → Stream' AccountReading} {ls : List (Label ι)}
  {l : Label ι} {c c' : AccountSystem ι}

/-- **Consistency**: whatever requests, updates and jobs are interleaved, and wherever they are
stopped, what is committed is consistent, and so is what each session sees. -/
theorem accounts_consistent (hdb : db.Intact)
    (hrun : run accountDatabase (accountsStarted runtime db requests tapes) ls = some c) :
    AccountData.Consistent c.db ∧
      ∀ i, AccountData.Consistent (c.view accountDatabase i) := by
  have hkept := AccountsKept.run hdb hrun
  exact ⟨consistent_of_intact hkept.guarding.intact,
    fun i => consistent_of_intact (hkept.guarding.views i)⟩

end Runs

/-! ## Sign-in -/

section SignIn

variable {ι : Type} [DecidableEq ι] {c c' : AccountSystem ι} {j : ι}

/-- A user who signs in has the address of the challenge.

**Proof sketch.** Either the transaction put the identity in, or it relied on one, which is
committed and which it did not drop. -/
lemma AccountsKept.identified_of_signedIn (h : AccountsKept c)
    (hopen : (c.sessions j).closed = false) {challenge : LoginChallengeRecord}
    {identity : Option EmailIdentityRecord} {session : WebSessionRecord}
    (hphase : (standing c j).phase = .signedIn challenge identity session) :
    Identified (c.view accountDatabase j) challenge.canonicalEmail session.userId := by
  cases identity with
  | some e =>
    have hsubject : insertedIdentity (standing c j) =
        some (e.id, Identifying challenge.canonicalEmail session.userId e) := by
      unfold insertedIdentity
      rw [hphase]
    obtain ⟨-, ⟨-, hview⟩, hemail, huser⟩ := (h.identity j).apply hopen hsubject
    exact ⟨e, Table.mem_of_find hview, hemail, huser⟩
  | none =>
    obtain ⟨e, he, hemail, huser⟩ := h.identified j hopen _ _ (.inl (by
      rw [hphase]
      rfl))
    refine ⟨e, h.mem_view he (fun y hy => ?_) fun y _ _ _ hy => ?_, hemail, huser⟩
    · have hput : (standing c j).phase.identity = some y := hy
      rw [hphase] at hput
      cases hput
    · have hdrop : (standing c j).phase.erases = some y.userId := hy
      rw [hphase] at hdrop
      cases hdrop

/-- What a session that signed a user in knows of the challenge. -/
lemma AccountsKept.spent (h : AccountsKept c) (hopen : (c.sessions j).closed = false)
    {challenge : LoginChallengeRecord} {at_ : Instant}
    (hphase : (standing c j).phase.signIn = some (challenge, at_)) :
    Spent challenge at_ (c.db.find .loginChallenges challenge.id)
      (Store.find (c.view accountDatabase j) .loginChallenges challenge.id) :=
  ((h.challenge j).apply hopen (congrArg (Option.map _) hphase)).2

/-- What a session that signed a user in knows of the Web session. -/
lemma AccountsKept.opened (h : AccountsKept c) (hopen : (c.sessions j).closed = false)
    {session : WebSessionRecord} (hphase : (standing c j).phase.session = some session) :
    Opened session (c.db.find .webSessions (session.id, session.userId))
      (Store.find (c.view accountDatabase j) .webSessions (session.id, session.userId)) :=
  ((h.session j).apply hopen (congrArg (Option.map _) hphase)).2

variable [PythonRuntime] {runtime : SignInRuntime} {db : AccountData}
  {requests : ι → AccountRequest} {tapes : ι → Stream' AccountReading} {ls : List (Label ι)}
  {l : Label ι}

/-- **Sign-in is sound**: a live Web session that appears is new, and the same step consumed a sign-in
challenge that nobody had consumed and that was not expired; the session's user is active and has the
address of the challenge. In particular no session that was revoked comes back.

**Proof sketch.** The session that appears was inserted by a transaction that commits after signing
in. It consumed the challenge before and holds its row, the row of the user, who is active, and
relies on the identity. -/
theorem web_session_opened (hdb : db.Intact)
    (hrun : run accountDatabase (accountsStarted runtime db requests tapes) ls = some c)
    (hstep : step accountDatabase c l = some c') {x : WebSessionRecord}
    (hx : x ∈ c'.db .webSessions) (hno : x ∉ c.db .webSessions) (hlive : x.revokedAt = none) :
    c.db.find .webSessions (x.id, x.userId) = none ∧
      x.expiresAt = x.issuedAt + webSessionLifetime ∧
      (∃ u ∈ c'.db .users, u.id = x.userId ∧ u.status = .active) ∧
      ∃ challenge ∈ c.db .loginChallenges, challenge.consumedAt = none ∧
        x.issuedAt < challenge.expiresAt ∧
        { challenge with consumedAt := some x.issuedAt } ∈ c'.db .loginChallenges ∧
        ∃ e ∈ c'.db .emailIdentities, e.canonicalEmail = challenge.canonicalEmail ∧
          e.userId = x.userId := by
  have h := AccountsKept.run hdb hrun
  obtain ⟨hopen, hmove⟩ := move_of_step hstep
  obtain ⟨-, hview, hfits⟩ := h.appeared hmove hx hno
  rcases hfits with hphase | ⟨at_, hrevoked, -⟩
  swap
  · rw [hlive] at hrevoked
    cases hrevoked
  obtain ⟨⟨hnone, -⟩, -, hexpires⟩ := h.opened hopen hphase
  obtain ⟨challenge, identity, hsigned⟩ : ∃ challenge identity,
      (standing c l.who).phase = .signedIn challenge identity x := by
    generalize (standing c l.who).phase = p at hphase
    cases p <;> cases hphase
    exact ⟨_, _, rfl⟩
  have hsignIn : (standing c l.who).phase.signIn = some (challenge, x.issuedAt) := by
    rw [hsigned]
    rfl
  obtain ⟨⟨x₀, hx₀, hfresh, hbefore, hset⟩, hafter⟩ := h.spent hopen hsignIn
  have hsubject : lockedUser (standing c l.who) = some (x.userId, Admitted) := by
    unfold lockedUser
    rw [hsigned]
  obtain ⟨-, u, hu, hactive⟩ := (h.user l.who).apply hopen hsubject
  rw [hview]
  refine ⟨hnone, hexpires, ⟨u, Table.mem_of_find hu, Table.key_of_find hu, hactive⟩, x₀,
    Table.mem_of_find hx₀, hfresh, hbefore, ?_, ?_⟩
  · rw [show { x₀ with consumedAt := some x.issuedAt } = challenge from hset]
    exact Table.mem_of_find hafter
  · obtain ⟨e, he, hemail, huser⟩ := h.identified_of_signedIn hopen hsigned
    exact ⟨e, he, hemail.trans (congrArg LoginChallengeRecord.canonicalEmail hset).symm, huser⟩

/-- **Sign-in is complete**: a step that consumes a sign-in challenge does so before it expires, and
opens a live Web session for a user with its address, unless that user is deactivated.

**Proof sketch.** The challenge that appears consumed was set so by a transaction that commits,
after it has opened a Web session or turned a user away. In the first case the session is new; in
the second the row of the user is locked and not active, and the identity stays. -/
theorem challenge_consumed (hdb : db.Intact)
    (hrun : run accountDatabase (accountsStarted runtime db requests tapes) ls = some c)
    (hstep : step accountDatabase c l = some c') {challenge : LoginChallengeRecord} {at_ : Instant}
    (hchallenge : challenge ∈ c.db .loginChallenges) (hfresh : challenge.consumedAt = none)
    (hconsumed : { challenge with consumedAt := some at_ } ∈ c'.db .loginChallenges) :
    at_ < challenge.expiresAt ∧
      ((∃ x ∈ c'.db .webSessions, x ∉ c.db .webSessions ∧ x.issuedAt = at_ ∧ x.revokedAt = none ∧
          ∃ e ∈ c'.db .emailIdentities, e.canonicalEmail = challenge.canonicalEmail ∧
            e.userId = x.userId) ∨
        ∃ u ∈ c.db .users, u.status ≠ .active ∧ ∃ e ∈ c.db .emailIdentities,
          e.canonicalEmail = challenge.canonicalEmail ∧ e.userId = u.id) := by
  have h := AccountsKept.run hdb hrun
  obtain ⟨hopen, hmove⟩ := move_of_step hstep
  have hno : { challenge with consumedAt := some at_ } ∉ c.db .loginChallenges := by
    intro hmem
    have hsame := Table.eq_of_key_eq hmem hchallenge rfl
    have hnone := congrArg LoginChallengeRecord.consumedAt hsame
    rw [hfresh] at hnone
    cases hnone
  obtain ⟨hcommit, hview, hfits⟩ := h.appeared hmove hconsumed hno
  rcases hfits with ⟨at', hphase⟩ | ⟨hnone, -⟩
  swap
  · cases hnone
  obtain ⟨⟨x₀, hx₀, -, hbefore, hset⟩, -⟩ := h.spent hopen hphase
  obtain rfl : challenge = x₀ := by
    have hfind : c.db.find .loginChallenges challenge.id = some challenge :=
      Table.find_of_mem hchallenge
    exact Option.some.inj (hfind.symm.trans hx₀)
  obtain rfl : at' = at_ := Option.some.inj (congrArg LoginChallengeRecord.consumedAt hset)
  refine ⟨hbefore, ?_⟩
  rw [hview]
  have hcases : (∃ identity session, (standing c l.who).phase =
        .signedIn { challenge with consumedAt := some at' } identity session ∧
          session.issuedAt = at') ∨
      ∃ user, (standing c l.who).phase =
        .denied { challenge with consumedAt := some at' } at' user := by
    generalize (standing c l.who).phase = p at hphase hcommit
    cases p <;> cases hphase
    all_goals first
      | exact .inl ⟨_, _, rfl, rfl⟩
      | exact .inr ⟨_, rfl⟩
      | exact hcommit.elim
  rcases hcases with ⟨identity, session, hsigned, hissued⟩ | ⟨user, hdenied⟩
  · left
    have hidentified := h.identified_of_signedIn hopen hsigned
    have hsession : (standing c l.who).phase.session = some session := by
      rw [hsigned]
      rfl
    obtain ⟨⟨hnone, hseen⟩, hlive, -⟩ := h.opened hopen hsession
    refine ⟨session, Table.mem_of_find hseen, fun hmem => ?_, hissued, hlive,
      hidentified⟩
    exact Option.eq_none_iff_forall_ne_some.mp hnone session (Table.find_of_mem hmem)
  · right
    have hsubject : lockedUser (standing c l.who) = some (user.id, Deactivated) := by
      unfold lockedUser
      rw [hdenied]
    obtain ⟨-, u, hu, hinactive⟩ := (h.user l.who).apply hopen hsubject
    have hrelies : Relies c l.who challenge.canonicalEmail user.id := .inl (by
      rw [hdenied]
      rfl)
    obtain ⟨e, he, hemail, huser⟩ := h.identified l.who hopen _ _ hrelies
    have hid : u.id = user.id := Table.key_of_find hu
    exact ⟨u, Table.mem_of_find hu, hinactive, e, he, hemail, huser.trans hid.symm⟩

end SignIn

/-! ## A ceremony -/

section Ceremony

/-- A token. -/
def ceremonyToken (c : Char) : String := String.ofList (List.replicate 43 c)

/-- Every address is valid. -/
def ceremonyRuntime : SignInRuntime := ⟨some, fun _ => 0, ["/app"]⟩

/-- Ann asks for a sign-in link and signs in, asks for a Telegram link, claims it in Telegram and
confirms it. She may unlink it, or delete her account; and somebody may use her sign-in link again.
Bob asks for a sign-in link as well, and signs in. -/
def ceremonyRequests : ℕ → AccountRequest
  | 0 => .requestMagicLink "ann@example.com" "/app"
  | 1 => .consumeMagicLink (ceremonyToken 'a')
  | 2 => .createLinkChallenge (some (ceremonyToken 'b')) true
  | 3 => .claimTelegramLink (ceremonyToken 'c') 77 77 (some "Ann")
  | 4 => .confirmLinkChallenge (some (ceremonyToken 'b')) true 2
  | 5 => .deleteConnection (some (ceremonyToken 'b')) true
  | 6 => .deleteAccount (some (ceremonyToken 'b')) true "ann@example.com"
  | 7 => .consumeMagicLink (ceremonyToken 'a')
  | 8 => .requestMagicLink "bob@example.com" "/app"
  | _ => .consumeMagicLink (ceremonyToken 'i')

/-- Each request has its own clock reading, id and token. -/
def ceremonyTapes (i : ℕ) : Stream' AccountReading :=
  fun _ => ⟨Instant.toDateTime i, i, ceremonyToken (Char.ofNat (97 + i))⟩

/-- The requests are about to begin, with an empty database. -/
def ceremony [PythonRuntime] : AccountSystem ℕ :=
  accountsStarted ceremonyRuntime (Store.empty layout) ceremonyRequests ceremonyTapes

/-- The first five requests, one after the other. -/
def ceremonyLabels : List (Label ℕ) :=
  List.replicate 8 (.go 0) ++ List.replicate 14 (.go 1) ++ List.replicate 7 (.go 2) ++
    List.replicate 8 (.go 3) ++ List.replicate 13 (.go 4)

/-- After the ceremony the database is consistent, and it holds a connection. -/
theorem accounts_consistent_ceremony :
    letI := PythonRuntime.ascii
    ∃ c, run accountDatabase ceremony ceremonyLabels = some c ∧
      AccountData.Consistent c.db ∧ (c.db .connections).rows.length = 1 := by
  let _ := PythonRuntime.ascii
  have heval : (run accountDatabase ceremony ceremonyLabels).map
      (fun c => (c.db .connections).rows.length) = some 1 := by
    decide +kernel
  obtain ⟨c, hrun, hlength⟩ := Option.map_eq_some_iff.mp heval
  exact ⟨c, hrun, (accounts_consistent Store.intact_empty hrun).1, hlength⟩

/-- A step after some steps of the ceremony, and what is seen of both. -/
lemma exists_step [PythonRuntime] {α : Type} {ls : List (Label ℕ)} {l : Label ℕ}
    {f : AccountSystem ℕ → AccountSystem ℕ → α} {a : α}
    (h : (run accountDatabase ceremony ls).bind (fun c =>
      (step accountDatabase c l).map fun c' => f c c') = some a) :
    ∃ c c', run accountDatabase ceremony ls = some c ∧ step accountDatabase c l = some c' ∧
      f c c' = a := by
  obtain ⟨c, hrun, h⟩ := Option.bind_eq_some_iff.mp h
  obtain ⟨c', hstep, h⟩ := Option.map_eq_some_iff.mp h
  exact ⟨c, c', hrun, hstep, h⟩

/-- The Web session that Ann gets. -/
def ceremonySession : WebSessionRecord :=
  ⟨1, 1, ceremonyToken 'b', 1, 1 + webSessionLifetime, none⟩

/-- Ann signs in with her challenge. -/
theorem web_session_opened_ceremony :
    letI := PythonRuntime.ascii
    ∃ c c', run accountDatabase ceremony (ceremonyLabels.take 20) = some c ∧
      step accountDatabase c (.go 1) = some c' ∧ ceremonySession ∈ c'.db .webSessions ∧
      ∃ challenge ∈ c.db .loginChallenges, challenge.consumedAt = none ∧
        { challenge with consumedAt := some 1 } ∈ c'.db .loginChallenges := by
  let _ := PythonRuntime.ascii
  have heval : (run accountDatabase ceremony (ceremonyLabels.take 20)).bind (fun c =>
      (step accountDatabase c (.go 1)).map fun c' =>
        (c.db.find .webSessions (1, 1), c'.db.find .webSessions (1, 1))) =
      some (none, some ceremonySession) := by
    decide +kernel
  obtain ⟨c, c', hrun, hstep, heval⟩ := exists_step heval
  obtain ⟨hnone, hsome⟩ := Prod.mk.inj heval
  have hx := Table.mem_of_find hsome
  obtain ⟨-, -, -, challenge, hchallenge, hfresh, -, hconsumed, -⟩ := web_session_opened
    Store.intact_empty hrun hstep hx (fun hmem => by
      have hfound : c.db.find .webSessions (1, 1) = some ceremonySession := Table.find_of_mem hmem
      rw [hnone] at hfound
      cases hfound) rfl
  exact ⟨c, c', hrun, hstep, hx, challenge, hchallenge, hfresh, hconsumed⟩

/-- Ann's challenge. -/
def ceremonyChallenge : LoginChallengeRecord :=
  ⟨0, "ann@example.com", ceremonyToken 'a', 0, loginChallengeLifetime, none, "/app"⟩

/-- The challenge that Ann consumes opens her session. -/
theorem challenge_consumed_ceremony :
    letI := PythonRuntime.ascii
    ∃ c c', run accountDatabase ceremony (ceremonyLabels.take 20) = some c ∧
      step accountDatabase c (.go 1) = some c' ∧ c.db .users = Table.empty ∧
      ∃ x ∈ c'.db .webSessions, x.issuedAt = 1 ∧ x.revokedAt = none := by
  let _ := PythonRuntime.ascii
  have heval : (run accountDatabase ceremony (ceremonyLabels.take 20)).bind (fun c =>
      (step accountDatabase c (.go 1)).map fun c' => ((c.db .users).rows,
        c.db.find .loginChallenges 0, c'.db.find .loginChallenges 0)) =
      some ([], some ceremonyChallenge, some { ceremonyChallenge with consumedAt := some 1 }) := by
    decide +kernel
  obtain ⟨c, c', hrun, hstep, heval⟩ := exists_step heval
  obtain ⟨husers, heval⟩ := Prod.mk.inj heval
  obtain ⟨hbefore, hafter⟩ := Prod.mk.inj heval
  have hempty : c.db .users = Table.empty := by
    rcases hu : c.db .users with ⟨rows, hnodup⟩
    rw [hu] at husers
    obtain rfl : rows = [] := husers
    rfl
  obtain ⟨-, ⟨x, hx, -, hissued, hlive, -⟩ | ⟨u, hu, -⟩⟩ := challenge_consumed Store.intact_empty
    hrun hstep (Table.mem_of_find hbefore) rfl (Table.mem_of_find hafter)
  · exact ⟨c, c', hrun, hstep, hempty, x, hx, hissued, hlive⟩
  · rw [hempty] at hu
    cases hu

end Ceremony

end MintFlow.Accounts
