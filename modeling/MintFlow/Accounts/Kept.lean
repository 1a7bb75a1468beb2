import MintFlow.Accounts.Writes

set_option relaxedAutoImplicit false
set_option autoImplicit false

/-!
# Accounts: what sessions know

A session knows the rows it locked: the challenge it consumed, the user it admitted, the Web session
that was authenticated, the connection it inserted. What it knows is true when it commits, whatever
others did in the meantime.

## Main definitions

* `MintFlow.Accounts.Subject` — the row of a table that a session counts on.
* `MintFlow.Accounts.AccountsKept` — what every configuration keeps.

## Main results

* `MintFlow.Accounts.AccountsKept.run` — it is kept in every run.
-/

namespace MintFlow.Accounts

open Transact

/-! ## Subjects -/

/-- The row of a table that a session counts on, and what it knows of the row: as it is committed, and
as the session sees it. -/
abbrev Subject (t : AccountTable) :=
  Standing → Option (t.Key × (Option t.Row → Option t.Row → Prop))

/-- What a session knows of its subject. -/
def known {t : AccountTable} (subject : Subject t) : Knowledge Standing t.Key (Option t.Row) where
  counts k a := ∃ P, subject k = some (a, P)
  knows k a x v := ∀ P, subject k = some (a, P) → P x v

/-- A session holds the row of its subject, and is right about it. -/
abbrev Sure {ι : Type} [DecidableEq ι] (t : AccountTable) (m : Strength) (subject : Subject t)
    (c : AccountSystem ι) (i : ι) : Prop :=
  Certain accountDatabase accountTracker (rowLock t) m (fun key s => Store.find s t key)
    (known subject) c i

/-- A challenge that was consumed. -/
def Spent (challenge : LoginChallengeRecord) (at_ : Instant)
    (x v : Option LoginChallengeRecord) : Prop :=
  (∃ x₀, x = some x₀ ∧ x₀.consumedAt = none ∧ at_ < x₀.expiresAt ∧
    (setConsumed at_).set x₀ = challenge) ∧ v = some challenge

/-- The challenge that was consumed. -/
def consumedChallenge : Subject .loginChallenges := fun k =>
  k.phase.signIn.map fun signIn => (signIn.1.id, Spent signIn.1 signIn.2)

/-- A user who is active in the eyes of a session. -/
def Admitted (_ v : Option UserRecord) : Prop := ∃ user, v = some user ∧ user.status = .active

/-- A user who was there and is deactivated. -/
def Deactivated (x _ : Option UserRecord) : Prop := ∃ user, x = some user ∧ user.status ≠ .active

/-- A user who is deleted. -/
def Erased (x v : Option UserRecord) : Prop := x.isSome = true ∧ v = none

/-- A user who is to be deleted. -/
def Reserved (x _ : Option UserRecord) : Prop := x.isSome = true

/-- The user of a transaction. -/
def lockedUser : Subject .users := fun k =>
  match k.phase with
  | .denied _ _ user => some (user.id, Deactivated)
  | .registering _ _ user => some (user.id, Admitted)
  | .admitted _ _ userId _ => some (userId, Admitted)
  | .signedIn _ _ session => some (session.userId, Admitted)
  | .deleting userId _ => some (userId, Reserved)
  | .deleted userId => some (userId, Erased)
  | .buried tombstone => some (tombstone.userId, Erased)
  | _ => none

/-- A row that is new. -/
def Inserted {t : AccountTable} (row : t.Row) (x v : Option t.Row) : Prop := x = none ∧ v = some row

/-- An identity that is new, with the address of a challenge. -/
def Identifying (email : String) (userId : UUID) (identity : EmailIdentityRecord)
    (x v : Option EmailIdentityRecord) : Prop :=
  Inserted (t := .emailIdentities) identity x v ∧ identity.canonicalEmail = email ∧
    identity.userId = userId

/-- The identity that was inserted. -/
def insertedIdentity : Subject .emailIdentities := fun k =>
  match k.phase with
  | .admitted challenge _ userId (some identity) =>
    some (identity.id, Identifying challenge.canonicalEmail userId identity)
  | .signedIn challenge (some identity) session =>
    some (identity.id, Identifying challenge.canonicalEmail session.userId identity)
  | _ => none

/-- A Web session that is new, and live. -/
def Opened (session : WebSessionRecord) (x v : Option WebSessionRecord) : Prop :=
  Inserted (t := .webSessions) session x v ∧ session.revokedAt = none ∧
    session.expiresAt = session.issuedAt + webSessionLifetime

/-- The Web session that was inserted. -/
def insertedSession : Subject .webSessions := fun k =>
  k.phase.session.map fun session => ((session.id, session.userId), Opened session)

/-- The user of the session that was authenticated is active. -/
def activeUser : Subject .users := fun k =>
  k.principal.map fun principal => (principal.1.userId, fun x _ =>
    ∃ user, x = some user ∧ user.status = .active)

/-- The session that was authenticated is valid, and again when it confirms a link. -/
def Approved (k : Standing) (session : AuthenticatedWebSession) (at_ : Instant)
    (x v : Option WebSessionRecord) : Prop :=
  ∃ row, x = some row ∧ row.isValid at_ = true ∧ (k.phase.isQuiet = true → v = some row) ∧
    ∀ challenge now, k.phase.approval = some (challenge, now) →
      row.isValid now = true ∧ challenge.initiatingUserId = session.userId

/-- The session that was authenticated. -/
def validSession : Subject .webSessions := fun k =>
  k.principal.map fun principal =>
    ((principal.1.sessionId, principal.1.userId), Approved k principal.1 principal.2)

/-- The challenge of a transaction that confirms a link. -/
def linkOf : Phase → Option (LinkChallengeRecord × Instant × Bool)
  | .confirming challenge now | .validated challenge now => some (challenge, now, false)
  | .linking challenge connection => some (challenge, connection.linkedAt, false)
  | .linked challenge connection => some (challenge, connection.linkedAt, true)
  | _ => none

/-- A challenge that is confirmed, if it is `sealed`. -/
def Confirmable (k : Standing) (challenge : LinkChallengeRecord) (now : Instant) (sealed : Bool)
    (x v : Option LinkChallengeRecord) : Prop :=
  x = some challenge ∧
    v = some (if sealed then (setConfirmed now).set challenge else challenge) ∧
    challenge.claimedAt.isSome = true ∧ challenge.confirmedAt = none ∧ now < challenge.expiresAt ∧
    ∃ session at_, k.principal = some (session, at_) ∧
      challenge.initiatingWebSessionId = session.sessionId

/-- The challenge that is confirmed. -/
def lockedChallenge : Subject .linkChallenges := fun k =>
  (linkOf k.phase).map fun link => (link.1.id, Confirmable k link.1 link.2.1 link.2.2)

/-- A connection that was unlinked. -/
def Unlinked (k : Standing) (now : Instant) (x v : Option ConnectionRecord) : Prop :=
  ∃ row, x = some row ∧ row.isActive = true ∧ v = some ((setUnlinked now).set row) ∧
    ∃ session at_, k.principal = some (session, at_) ∧ row.userId = session.userId

/-- A connection that is new and active, of the users of a challenge. -/
def Linked (challenge : LinkChallengeRecord) (connection : ConnectionRecord)
    (x v : Option ConnectionRecord) : Prop :=
  Inserted (t := .connections) connection x v ∧ connection.unlinkedAt = none ∧
    connection.userId = challenge.initiatingUserId ∧
    challenge.claimedTelegramUserId = some connection.telegramUserId

/-- The connection of a transaction. -/
def lockedConnection : Subject .connections := fun k =>
  match k.phase with
  | .linking challenge connection | .linked challenge connection =>
    some (connection.id, Linked challenge connection)
  | .unlinking connectionId now => some (connectionId, Unlinked k now)
  | _ => none

/-- The tombstone that was set. -/
def tombstone : Subject .deletedAccounts := fun k =>
  match k.phase with
  | .buried row => some (row.userId, fun _ v => v = some row)
  | _ => none

/-! ## What a statement tells -/

section Tells

variable {t : AccountTable} {o : AccountStmt} {busy : Lock layout → Bool} {s db : AccountData}
  {ws : List (Change layout)} {k k' : Standing} {m : Strength}

/-- What a session knows of a subject after a statement: it knew the row, or locks it and knows what it
makes of it. -/
def TellsOf (subject : Subject t) (m : Strength) (k k' : Standing) (o : AccountStmt)
    (busy : Lock layout → Bool) (s db : AccountData) (ws : List (Change layout)) : Prop :=
  ∀ a P', subject k' = some (a, P') →
    (∃ P, subject k = some (a, P) ∧
      ∀ x, P x (s.find t a) → P' x (Store.find (s.applyAll ws) t a)) ∨
    (∃ n, (rowLock t a, n) ∈ accountConduct.locks o busy s ∧ m ≤ n) ∧
      P' (db.find t a) (Store.find (s.applyAll ws) t a)

/-- Every statement tells what becomes of a subject. -/
def Tells (subject : Subject t) (m : Strength) : Prop :=
  ∀ (k : Standing) (o : AccountStmt) busy (s db : AccountData) (r : o.Resp) ws, k.mayDo o →
    accountConduct.eval o busy s = .ok (r, ws) → s.Intact →
    (∀ t, (∀ w, k.Fits w → w.tab ≠ t) → s t = db t) →
    TellsOf subject m k (k.after o r) o busy s db ws

/-- A statement leaves the tables alone that are not its own. -/
lemma find_kept {r : o.Resp} (heval : accountConduct.eval o busy s = .ok (r, ws))
    (ht : t ∉ o.tables) (key : t.Key) : Store.find (s.applyAll ws) t key = s.find t key := by
  have hsame : s.applyAll ws t = s t :=
    Store.applyAll_of_ne fun w hw htab => ht (htab ▸ tab_mem_tables heval hw)
  exact congrArg (Table.find · key) hsame

/-- A statement on other tables leaves a subject as it was. -/
lemma tellsOf_of_not_mem {subject : Subject t} {r : o.Resp}
    (heval : accountConduct.eval o busy s = .ok (r, ws)) (ht : t ∉ o.tables)
    (hsame : subject k' = subject k) : TellsOf subject m k k' o busy s db ws := by
  intro a P' hP'
  refine .inl ⟨P', hsame ▸ hP', fun x hx => ?_⟩
  rw [find_kept heval ht]
  exact hx

/-- Where there is no subject, there is nothing to tell. -/
lemma tellsOf_of_none {subject : Subject t} (hnone : subject k' = none) :
    TellsOf subject m k k' o busy s db ws := by
  intro a P' hP'
  rw [hnone] at hP'
  cases hP'

/-- A statement that locks a row tells what it makes of it. -/
lemma tellsOf_of_lock {subject : Subject t} {key : t.Key} {P : Option t.Row → Option t.Row → Prop}
    {n : Strength} (hsubject : subject k' = some (key, P))
    (hlock : (rowLock t key, n) ∈ accountConduct.locks o busy s) (hmn : m ≤ n)
    (hP : P (db.find t key) (Store.find (s.applyAll ws) t key)) :
    TellsOf subject m k k' o busy s db ws := by
  intro a P' hP'
  obtain ⟨rfl, rfl⟩ := Prod.mk.inj (Option.some.inj (hsubject.symm.trans hP'))
  exact .inr ⟨⟨n, hlock, hmn⟩, hP⟩

/-- The rows of a table that nothing pending is in are as they are committed. -/
lemma find_eq_of_same (hsame : ∀ t, (∀ w, k.Fits w → w.tab ≠ t) → s t = db t)
    (ht : ∀ w, k.Fits w → w.tab ≠ t) (key : t.Key) : s.find t key = db.find t key :=
  congrArg (Table.find · key) (hsame t ht)

/-- A transaction that has not written sees what is committed. -/
lemma eq_of_quiet (hsame : ∀ t, (∀ w, k.Fits w → w.tab ≠ t) → s t = db t)
    (hquiet : k.phase.isBusy = false) : s = db :=
  funext fun t => hsame t fun _ hfits => absurd hfits (not_fits_of_quiet hquiet)

/-- What follows from the turns of a transaction. -/
lemma tells_of_turn {subject : Subject t} (h : ∀ principal (p p' : Phase) restored
    (o : AccountStmt) busy (s db : AccountData) (r : o.Resp) ws,
    Standing.mayDo ⟨principal, p, restored⟩ o → Turn o r p p' →
    accountConduct.eval o busy s = .ok (r, ws) → s.Intact →
    (∀ t, (∀ w, Standing.Fits ⟨principal, p, restored⟩ w → w.tab ≠ t) → s t = db t) →
    TellsOf subject m ⟨principal, p, restored⟩
      ⟨Standing.principalAfter ⟨principal, p, restored⟩ o r, p',
        Standing.restoredAfter ⟨principal, p, restored⟩ o r⟩ o busy s db ws) : Tells subject m :=
  fun k o busy s db r ws hmay heval hs hsame => h k.principal k.phase (k.phase.after o r) k.restored
    o busy s db r ws hmay (turn_of_mayDo hmay r) heval hs hsame

/-- A challenge is consumed as it is committed, and stays consumed. -/
lemma tells_consumedChallenge : Tells consumedChallenge .noKeyUpdate := by
  refine tells_of_turn fun principal p p' restored o busy s db r ws h hturn heval hs hsame => ?_
  cases hturn with
  | consumes =>
    obtain ⟨x, hx, hcan, hset, rfl, hlock⟩ := consumed_of_eval heval
    have hdb := eq_of_quiet hsame rfl
    obtain ⟨hcan, hexpires⟩ := Bool.and_eq_true_iff.mp hcan
    refine tellsOf_of_lock rfl hlock (Nat.le_refl _) ⟨⟨x, hdb ▸ hx, ?_, ?_, hset⟩, ?_⟩
    · exact Option.isNone_iff_eq_none.mp (Bool.and_eq_true_iff.mp hcan).2
    · exact of_decide_eq_true hexpires
    · exact (Store.find_put s _ _ _).trans (if_pos rfl)
  | reads htables => exact tellsOf_of_not_mem heval (htables ▸ List.not_mem_nil) rfl
  | logs | finds | denies | registers | identifies | opens =>
    exact tellsOf_of_not_mem heval (of_decide_eq_false rfl) rfl
  | _ => exact tellsOf_of_none rfl

/-- A user is locked before the user is admitted, turned away or deleted.

**Proof sketch.** By the turn. Those that lead to a phase with a locked user read, insert or reserve
it under its lock, and the others keep the phase or leave the user alone. -/
lemma tells_lockedUser : Tells lockedUser .update := by
  refine tells_of_turn fun principal p p' restored o busy s db r ws h hturn heval hs hsame => ?_
  cases hturn with
  | finds hactive =>
    obtain ⟨rfl, huser, -, hlock⟩ := found_of_eval heval
    exact tellsOf_of_lock rfl hlock (Nat.le_refl _) ⟨_, huser, hactive⟩
  | denies hinactive =>
    obtain ⟨rfl, huser, -, hlock⟩ := found_of_eval heval
    refine tellsOf_of_lock rfl hlock (Nat.le_refl _) ⟨_, ?_, hinactive⟩
    rw [← huser]
    refine (find_eq_of_same hsame (fun w hfits htab => ?_) _).symm
    cases w with
    | put t x =>
      obtain rfl : t = .users := htab
      rcases hfits with ⟨-, h⟩ | ⟨-, h⟩ <;> cases h
    | drop t x =>
      obtain rfl : t = .users := htab
      cases hfits.1
  | registers hactive =>
    obtain ⟨-, huser, -, hlock⟩ := inserted_of_eval rfl rfl heval
    exact tellsOf_of_lock rfl hlock (Nat.le_refl _) ⟨_, huser, hactive⟩
  | reserves =>
    obtain ⟨rfl, huser, hlock⟩ := reserved_of_eval heval
    exact tellsOf_of_lock rfl hlock (Nat.le_refl _) (eq_of_quiet hsame rfl ▸ huser)
  | erases =>
    intro a P' hP'
    obtain ⟨rfl, rfl⟩ := Prod.mk.inj (Option.some.inj hP')
    exact .inl ⟨Reserved, rfl, fun x hx => ⟨hx, erased_of_eval heval⟩⟩
  | @removes t _ _ _ _ ht =>
    refine tellsOf_of_not_mem heval ?_ rfl
    cases t with
    | users | auditRecords | deletedAccounts => exact absurd (mem_ownedTables ht) (by decide)
    | _ => exact of_decide_eq_false rfl
  | reads htables => exact tellsOf_of_not_mem heval (htables ▸ List.not_mem_nil) rfl
  | logs | identifies | opens | clears | marks =>
    exact tellsOf_of_not_mem heval (of_decide_eq_false rfl) rfl
  | _ => exact tellsOf_of_none rfl

/-- An identity that is inserted is new.

**Proof sketch.** Only one turn inserts an identity. The session has written none before, so that it
is also new in the committed state. -/
lemma tells_insertedIdentity : Tells insertedIdentity .update := by
  refine tells_of_turn fun principal p p' restored o busy s db r ws h hturn heval hs hsame => ?_
  cases hturn with
  | identifies huser hemail =>
    obtain ⟨hnone, hsome, -, hlock⟩ := inserted_of_eval rfl rfl heval
    refine tellsOf_of_lock rfl hlock (Nat.le_refl _) ⟨⟨?_, hsome⟩, hemail, huser⟩
    rw [← hnone]
    refine (find_eq_of_same hsame (fun w hfits htab => ?_) _).symm
    cases w with
    | put t x =>
      obtain rfl : t = .emailIdentities := htab
      cases hfits
    | drop t x =>
      obtain rfl : t = .emailIdentities := htab
      cases hfits
  | reads htables => exact tellsOf_of_not_mem heval (htables ▸ List.not_mem_nil) rfl
  | @opens session r challenge identity =>
    cases identity with
    | none => exact tellsOf_of_none rfl
    | some identity => exact tellsOf_of_not_mem heval (of_decide_eq_false rfl) rfl
  | logs => exact tellsOf_of_not_mem heval (of_decide_eq_false rfl) rfl
  | _ => exact tellsOf_of_none rfl

/-- A Web session that is inserted is new. -/
lemma tells_insertedSession : Tells insertedSession .update := by
  refine tells_of_turn fun principal p p' restored o busy s db r ws h hturn heval hs hsame => ?_
  cases hturn with
  | opens hlive hexpires =>
    obtain ⟨hnone, hsome, -, hlock⟩ := inserted_of_eval rfl rfl heval
    refine tellsOf_of_lock rfl hlock (Nat.le_refl _) ⟨⟨?_, hsome⟩, hlive, hexpires⟩
    rw [← hnone]
    refine (find_eq_of_same hsame (fun w hfits htab => ?_) _).symm
    cases w with
    | put t x =>
      obtain rfl : t = .webSessions := htab
      rcases hfits with h | ⟨at_, -, h | ⟨n, h⟩⟩ <;> cases h
    | drop t x =>
      obtain rfl : t = .webSessions := htab
      rcases hfits with h | h <;> cases h
  | reads htables => exact tellsOf_of_not_mem heval (htables ▸ List.not_mem_nil) rfl
  | logs => exact tellsOf_of_not_mem heval (of_decide_eq_false rfl) rfl
  | _ => exact tellsOf_of_none rfl

/-- A connection that is inserted is new, and one that is unlinked was active.

**Proof sketch.** By the turn. A connection is inserted where none was, or found active and
unlinked, each under its lock by a transaction that has written nothing before. -/
lemma tells_lockedConnection : Tells lockedConnection .noKeyUpdate := by
  refine tells_of_turn fun principal p p' restored o busy s db r ws h hturn heval hs hsame => ?_
  cases hturn with
  | connects hactive huser htelegram =>
    obtain ⟨hnone, rfl, hlock⟩ := connected_of_eval heval
    refine tellsOf_of_lock rfl hlock (by decide)
      ⟨⟨eq_of_quiet hsame rfl ▸ hnone, ?_⟩, hactive, huser, htelegram⟩
    exact (Store.find_put s _ _ _).trans (if_pos rfl)
  | unlinks =>
    obtain ⟨x, hx, hactive, huser, rfl, hlock⟩ := unlinked_of_eval hs heval
    obtain ⟨-, session, at_, hprincipal, hown⟩ := h
    refine tellsOf_of_lock rfl hlock (Nat.le_refl _)
      ⟨x, eq_of_quiet hsame rfl ▸ hx, hactive, ?_, session, at_, hprincipal, huser.trans hown⟩
    refine (Store.find_put s _ _ _).trans (if_pos ?_)
    exact (Table.key_of_find hx).symm
  | reads htables =>
    rcases principalAfter_eq h r with hidle | hprincipal
    · obtain rfl : p = .idle := hidle
      exact tellsOf_of_none rfl
    · rw [hprincipal]
      exact tellsOf_of_not_mem heval (htables ▸ List.not_mem_nil) rfl
  | logs | seals | forgets => exact tellsOf_of_not_mem heval (of_decide_eq_false rfl) rfl
  | _ => exact tellsOf_of_none rfl

/-- A challenge is confirmed as it is committed.

**Proof sketch.** The turn that locks the challenge finds it claimed, not confirmed, and of the
session. The one that seals it confirms what was locked. -/
lemma tells_lockedChallenge : Tells lockedChallenge .update := by
  refine tells_of_turn fun principal p p' restored o busy s db r ws h hturn heval hs hsame => ?_
  cases hturn with
  | locks =>
    obtain ⟨rfl, hx, hsession, hclaimed, hconfirmed, hexpires, hlock⟩ := locked_of_eval heval
    obtain ⟨-, session, at_, hprincipal, hid⟩ := h
    exact tellsOf_of_lock rfl hlock (Nat.le_refl _) ⟨eq_of_quiet hsame rfl ▸ hx, hx, hclaimed,
      hconfirmed, hexpires, session, at_, hprincipal, hsession.trans hid⟩
  | @seals challenge connection r =>
    intro a P' hP'
    obtain ⟨rfl, rfl⟩ := Prod.mk.inj (Option.some.inj hP')
    refine .inl ⟨_, rfl, fun x hx => ?_⟩
    obtain ⟨hdb, hview, hrest⟩ := hx
    refine ⟨hdb, ?_, hrest⟩
    rw [confirmed_of_eval heval, hview]
    exact congrArg some (if_pos rfl)
  | reads htables =>
    rcases principalAfter_eq h r with hidle | hprincipal
    · obtain rfl : p = .idle := hidle
      exact tellsOf_of_none rfl
    · rw [hprincipal]
      exact tellsOf_of_not_mem heval (htables ▸ List.not_mem_nil) rfl
  | logs | approves | connects | yields =>
    exact tellsOf_of_not_mem heval (of_decide_eq_false rfl) rfl
  | _ => exact tellsOf_of_none rfl

/-- A tombstone is set. -/
lemma tells_tombstone : Tells tombstone .noKeyUpdate := by
  refine tells_of_turn fun principal p p' restored o busy s db r ws h hturn heval hs hsame => ?_
  cases hturn with
  | marks =>
    obtain ⟨hfind, n, hlock, hle⟩ := buried_of_eval heval
    exact tellsOf_of_lock rfl hlock hle hfind
  | reads htables => exact tellsOf_of_not_mem heval (htables ▸ List.not_mem_nil) rfl
  | logs => exact tellsOf_of_not_mem heval (of_decide_eq_false rfl) rfl
  | _ => exact tellsOf_of_none rfl

/-- The user of the session that was authenticated stays active.

**Proof sketch.** Only the authentication changes the principal, and it locks the user it finds
active. -/
lemma tells_activeUser : Tells activeUser .share := by
  intro k o busy s db r ws h heval hs hsame
  have hkeep : k.principalAfter o r = k.principal →
      TellsOf activeUser .share k (k.after o r) o busy s db ws := by
    intro hprincipal a P' hP'
    have hsubject : activeUser (k.after o r) = activeUser k := by
      show (k.principalAfter o r).map _ = _
      rw [hprincipal]
      rfl
    rw [hsubject] at hP'
    obtain ⟨principal, -, hP⟩ := Option.map_eq_some_iff.mp hP'
    obtain ⟨-, rfl⟩ := Prod.mk.inj hP
    exact .inl ⟨_, hP', fun x hx => hx⟩
  cases o with
  | authenticate secretHash now =>
    obtain ⟨hidle, hnone⟩ := h
    cases r with
    | none => exact hkeep rfl
    | some session =>
      obtain ⟨rfl, -, huser, -, hlock⟩ := authenticated_of_eval heval
      have hquiet : k.phase.isBusy = false := hidle ▸ rfl
      exact tellsOf_of_lock rfl hlock (Nat.le_refl _) (eq_of_quiet hsame hquiet ▸ huser)
  | _ => exact hkeep rfl

/-- A turn to a transaction that has not written yet does nothing. -/
lemma Turn.of_quiet {p p' : Phase} {r : o.Resp} (hturn : Turn o r p p')
    (hquiet : p'.isQuiet = true) (heval : accountConduct.eval o busy s = .ok (r, ws)) :
    p.isQuiet = true ∧ ws = [] := by
  cases hturn with
  | reads htables => exact ⟨hquiet, (eval_reads htables heval).1⟩
  | logs hp hlog =>
    cases p with
    | idle => exact absurd rfl hp
    | confirming challenge now => cases hlog
    | _ => cases hquiet
  | misses => exact ⟨rfl, missed_of_eval heval⟩
  | passes => exact ⟨rfl, passed_of_eval heval⟩
  | locks => exact ⟨rfl, (locked_of_eval heval).1⟩
  | _ => cases hquiet

/-- A challenge that was approved stays approved, or is approved now. -/
lemma Turn.of_approval {principal : Option (AuthenticatedWebSession × Instant)} {p p' : Phase}
    {restored : List UUID} {r : o.Resp} (h : Standing.mayDo ⟨principal, p, restored⟩ o)
    (hturn : Turn o r p p') (heval : accountConduct.eval o busy s = .ok (r, ws))
    {approval : LinkChallengeRecord × Instant} (happroval : p'.approval = some approval) :
    p.approval = some approval ∨ p.isQuiet = true ∧ ∃ session at_,
      principal = some (session, at_) ∧ ∃ row ∈ s .webSessions, row.id = session.sessionId ∧
        row.userId = approval.1.initiatingUserId ∧ row.isValid approval.2 = true := by
  cases hturn with
  | approves =>
    obtain rfl := Option.some.inj happroval
    obtain ⟨-, row, hrow, hid, huser, hnow⟩ := approved_of_eval heval
    obtain ⟨-, -, -, session, at_, hprincipal, hsession⟩ := h
    exact .inr ⟨rfl, session, at_, hprincipal, row, hrow, hid.trans hsession, huser, hnow⟩
  | reads | logs | connects | yields | seals => exact .inl happroval
  | _ => cases happroval

/-- The session that was authenticated stays valid.

**Proof sketch.** Only the authentication changes the principal. What is then approved is the row
that was found valid again, which has the same identifier and so is the same row. -/
lemma tells_validSession : Tells validSession .share := by
  intro k o busy s db r ws h heval hs hsame
  have hturn := turn_of_mayDo h r
  have hkeep : k.principalAfter o r = k.principal →
      TellsOf validSession .share k (k.after o r) o busy s db ws := by
    intro hprincipal a P' hP'
    have hP : (k.principalAfter o r).map (fun principal =>
        ((principal.1.sessionId, principal.1.userId),
          Approved (k.after o r) principal.1 principal.2)) = some (a, P') := hP'
    rw [hprincipal] at hP
    obtain ⟨principal, hk, hP⟩ := Option.map_eq_some_iff.mp hP
    obtain ⟨rfl, rfl⟩ := Prod.mk.inj hP
    refine .inl ⟨Approved k principal.1 principal.2, ?_, fun x hx => ?_⟩
    · show k.principal.map _ = _
      rw [hk]
      rfl
    obtain ⟨row, rfl, hvalid, hquiet, happroval⟩ := hx
    refine ⟨row, rfl, hvalid, fun hquiet' => ?_, fun challenge now happroval' => ?_⟩
    · obtain ⟨hq, rfl⟩ := hturn.of_quiet hquiet' heval
      exact hquiet hq
    · rcases hturn.of_approval h heval happroval' with
        hold | ⟨hq, session, at_, hk', row', hrow', hid, huser, hnow⟩
      · exact happroval challenge now hold
      -- The session that is found valid is the one that was authenticated.
      obtain rfl := Option.some.inj (hk.symm.trans hk')
      have hrow := Table.mem_of_find (hquiet hq)
      have hkey : AccountTable.key .webSessions row = (session.sessionId, session.userId) :=
        Table.key_of_find (hquiet hq)
      obtain ⟨hrowid, hrowuser⟩ := Prod.mk.inj hkey
      have hsame : row' = row := by
        refine hs.unique .webSessions row' hrow' row hrow (.webSession row'.id) List.mem_cons_self ?_
        rw [hid, ← hrowid]
        exact List.mem_cons_self
      rw [← hsame]
      exact ⟨hnow, huser.symm.trans ((congrArg _ hsame).trans hrowuser)⟩
  cases o with
  | authenticate secretHash now =>
    obtain ⟨hidle, hnone⟩ := h
    cases r with
    | none => exact hkeep rfl
    | some session =>
      obtain ⟨rfl, ⟨row, hrow, hvalid⟩, -, hlock, -⟩ := authenticated_of_eval heval
      have hquiet : k.phase.isBusy = false := hidle ▸ rfl
      refine tellsOf_of_lock rfl hlock (Nat.le_refl _)
        ⟨row, eq_of_quiet hsame hquiet ▸ hrow, hvalid, fun _ => hrow, fun challenge now happroval => ?_⟩
      have hp : k.phase.approval = some (challenge, now) := happroval
      rw [hidle] at hp
      cases hp
  | _ => exact hkeep rfl

end Tells

/-! ## What every configuration keeps -/

section Kept

variable {ι : Type} [DecidableEq ι] {c c' : AccountSystem ι} {i j : ι}

/-- Where a session stands. -/
def standing (c : AccountSystem ι) (i : ι) : Standing := accountTracker.state (c.history i)

/-- A session relies on an identity of the user it holds: it found the user by it, or deletes the
sign-in challenges of its address. -/
def Relies (c : AccountSystem ι) (i : ι) (email : String) (userId : UUID) : Prop :=
  (standing c i).phase.admittedBy = some (email, userId) ∨
    (standing c i).phase.erases = some userId ∧
      ∃ y : LoginChallengeRecord, .drop .loginChallenges y ∈ (c.sessions i).pending ∧
        y.canonicalEmail = email

/-- An identity is there. -/
def Identified (s : AccountData) (email : String) (userId : UUID) : Prop :=
  ∃ e ∈ s .emailIdentities, e.canonicalEmail = email ∧ e.userId = userId

/-- An account is deleted for its own Web session, or because a backup brought it back. -/
def Standing.Authorized (k : Standing) : Prop :=
  ∀ userId, k.phase.erases = some userId → userId ∈ k.restored ∨
    ∃ session at_, k.principal = some (session, at_) ∧ userId = session.userId

/-- **What every configuration keeps.** -/
structure AccountsKept (c : AccountSystem ι) : Prop where
  guarding : Guarding accountConduct c
  tracks : ∀ i, Tracks accountTracker (fun _ _ => True) c i
  wrote : ∀ i, Wrote accountTracker Standing.Fits c i
  challenge : ∀ i, Sure .loginChallenges .noKeyUpdate consumedChallenge c i
  user : ∀ i, Sure .users .update lockedUser c i
  identity : ∀ i, Sure .emailIdentities .update insertedIdentity c i
  session : ∀ i, Sure .webSessions .update insertedSession c i
  active : ∀ i, Sure .users .share activeUser c i
  valid : ∀ i, Sure .webSessions .share validSession c i
  link : ∀ i, Sure .linkChallenges .update lockedChallenge c i
  connection : ∀ i, Sure .connections .noKeyUpdate lockedConnection c i
  tombstone : ∀ i, Sure .deletedAccounts .noKeyUpdate tombstone c i
  identified : ∀ i, (c.sessions i).closed = false → ∀ email userId, Relies c i email userId →
    Identified c.db email userId
  authorized : ∀ i, (standing c i).Authorized

/-- What nothing pending is in looks to a session as it is committed. -/
lemma AccountsKept.same (h : AccountsKept c) {t : AccountTable}
    (ht : ∀ w, (standing c i).Fits w → w.tab ≠ t) : c.view accountDatabase i t = c.db t :=
  Store.applyAll_of_ne fun w hw => ht w (h.wrote i w hw)

/-- **A subject** stays known.

**Proof sketch.** What is known of a row under its lock stays known (`certain_of_move`): a statement
keeps it or tells it anew, and no transaction begins with anything known. -/
lemma AccountsKept.sure_of_move (h : AccountsKept c) {t : AccountTable} {m : Strength}
    {subject : Subject t} (hm : .share ≤ m) (htells : Tells subject m)
    (hfresh : ∀ restored, subject (.fresh restored) = none)
    (hsure : ∀ i, Sure t m subject c i) (hopen : (c.sessions j).closed = false)
    (hmove : Move accountDatabase c j c') (i : ι) : Sure t m subject c' i := by
  refine certain_of_move hm h.guarding.sound
    (fun a => Store.guarded_row (X := accountConduct) t a) ?_ ?_ ?_ hopen hsure hmove i
  · intro o f r ws hp heval a hcounts
    obtain ⟨P', hP'⟩ := hcounts
    have htold := htells (standing c j) o (c.busy j) (c.view accountDatabase j) c.db r ws
      ((h.tracks j).mayDo hp) heval (h.guarding.views j) (fun t ht => h.same ht) a P' hP'
    rcases htold with ⟨P, hP, hkeep⟩ | ⟨hlock, hnew⟩
    · refine .inl ⟨⟨P, hP⟩, fun x hx P'' hP'' => ?_⟩
      obtain ⟨-, rfl⟩ := Prod.mk.inj (Option.some.inj (hP'.symm.trans hP''))
      exact hkeep x (hx P hP)
    · refine .inr ⟨hlock, fun P'' hP'' => ?_⟩
      obtain ⟨-, rfl⟩ := Prod.mk.inj (Option.some.inj (hP'.symm.trans hP''))
      exact hnew
  · intro k a hcounts
    obtain ⟨P, hP⟩ := hcounts
    cases (hfresh k.restored).symm.trans hP
  · intro k a hcounts
    obtain ⟨P, hP⟩ := hcounts
    cases (hfresh k.restored).symm.trans hP

/-- What a session knows of its subject while it is open. -/
lemma Sure.apply {t : AccountTable} {m : Strength} {subject : Subject t} (h : Sure t m subject c i)
    (hopen : (c.sessions i).closed = false) {key : t.Key}
    {P : Option t.Row → Option t.Row → Prop} (hsubject : subject (standing c i) = some (key, P)) :
    c.holds i (rowLock t key) m = true ∧
      P (c.db.find t key) (Store.find (c.view accountDatabase i) t key) := by
  obtain ⟨hlock, hknows⟩ := h hopen key ⟨P, hsubject⟩
  exact ⟨hlock, hknows P hsubject⟩

/-- A session holds the user whose identity it relies on. -/
lemma AccountsKept.holds_user (h : AccountsKept c) (hopen : (c.sessions i).closed = false)
    {email : String} {userId : UUID} (hrelies : Relies c i email userId) :
    c.holds i (rowLock .users userId) .update = true := by
  have hsubject : ∃ P, lockedUser (standing c i) = some (userId, P) := by
    unfold Relies at hrelies
    unfold lockedUser
    generalize (standing c i).phase = p at hrelies
    rcases hrelies with hrelies | ⟨hrelies, -⟩
    · rcases p with _ | _ | _ | _ | ⟨_, _, _, _ | _⟩ | ⟨_, _ | _, _⟩ <;> cases hrelies <;>
        exact ⟨_, rfl⟩
    · cases p <;> cases hrelies <;> exact ⟨_, rfl⟩
  obtain ⟨P, hP⟩ := hsubject
  exact ((h.user i).apply hopen hP).1

/-- The subject of a session that inserted an identity. -/
lemma insertedIdentity_of {k : Standing} {x : EmailIdentityRecord}
    (h : k.phase.identity = some x) :
    ∃ email userId, insertedIdentity k = some (x.id, Identifying email userId x) := by
  unfold insertedIdentity
  generalize k.phase = p at h
  rcases p with _ | _ | _ | _ | ⟨_, _, _, _ | _⟩ | ⟨_, _ | _, _⟩ <;> cases h
  · exact ⟨_, _, rfl⟩
  · exact ⟨_, _, rfl⟩

/-- A session that deletes an identity holds its user. -/
lemma AccountsKept.holds_of_drop (h : AccountsKept c) (hopen : (c.sessions i).closed = false)
    {userId : UUID} (herases : (standing c i).phase.erases = some userId) :
    c.holds i (rowLock .users userId) .update = true := by
  have hsubject : ∃ P, lockedUser (standing c i) = some (userId, P) := by
    unfold lockedUser
    generalize (standing c i).phase = p at herases
    cases p <;> cases herases <;> exact ⟨_, rfl⟩
  obtain ⟨P, hP⟩ := hsubject
  exact ((h.user i).apply hopen hP).1

/-- **An identity** stays while another session holds its user.

**Proof sketch.** A commit drops an identity only for a session that erases its user, which holds
the lock of the user: so does the other session, and no two do. A new identity has another
identifier. -/
lemma AccountsKept.identity_stays (h : AccountsKept c) (hij : j ≠ i)
    (hopen : (c.sessions j).closed = false) {e : EmailIdentityRecord}
    (he : e ∈ c.db .emailIdentities)
    (hlock : c.holds i (rowLock .users e.userId) .update = true)
    (hmove : Move accountDatabase c j c') : e ∈ c'.db .emailIdentities := by
  rcases db_of_move hmove with hdb | ⟨-, hdb⟩
  · rwa [hdb]
  rw [hdb]
  refine (RowSet.mem_applyAll (R := Store.rowSet accountConduct .emailIdentities)).mpr
    (.inr ⟨he, fun w hw hkey => ?_⟩)
  have hfits := h.wrote j w hw
  cases w with
  | put t x =>
    obtain ⟨rfl, hid⟩ := Lock.row.inj (Store.row_mem_keys_put.mp hkey)
    obtain ⟨email, userId, hsubject⟩ := insertedIdentity_of hfits
    obtain ⟨-, ⟨hnone, -⟩, -⟩ := (h.identity j).apply hopen hsubject
    rw [← show e.id = x.id from eq_of_heq hid] at hnone
    exact absurd (Table.find_of_mem he) (Option.eq_none_iff_forall_ne_some.mp hnone e)
  | drop t x =>
    obtain ⟨rfl, hid⟩ := Lock.row.inj (Store.row_mem_keys_drop.mp hkey)
    rcases ((h.guarding.responsible j).dropping _ x hw).2 with hput | hx
    · have hnew : (standing c j).phase.identity = some x := h.wrote j _ hput
      have herases : (standing c j).phase.erases = some x.userId := hfits
      generalize (standing c j).phase = p at hnew herases
      cases p <;> simp [Phase.identity, Phase.erases] at hnew herases
    · obtain rfl : e = x := Table.eq_of_key_eq he hx (eq_of_heq hid)
      exact hij (h.guarding.sound.eq_of_conflicts (h.holds_of_drop hopen hfits) hlock rfl)

/-- A deletion of an account goes on to its end. -/
lemma Turn.erases_of {o : AccountStmt} {r : o.Resp} {p p' : Phase} (h : Turn o r p p')
    {userId : UUID} (herases : p.erases = some userId) : p'.erases = some userId := by
  cases h with
  | reads | logs | removes | clears => exact herases
  | erases => exact herases
  | marks => exact herases
  | _ => cases herases

/-- Only a deletion of the challenges of an address drops some, in a transaction that deletes an
account.

**Proof sketch.** By the turn. Of those that lead to a phase that erases a user, only the deletion
of the challenges drops one, and it selects them by an identity of the user. -/
lemma Turn.identified_of_drop {o : AccountStmt} {r : o.Resp} {p p' : Phase} (hturn : Turn o r p p')
    {busy : Lock layout → Bool} {s : AccountData} {ws : List (Change layout)}
    (heval : accountConduct.eval o busy s = .ok (r, ws)) {userId : UUID}
    (herases : p'.erases = some userId) {y : LoginChallengeRecord}
    (hy : .drop .loginChallenges y ∈ ws) :
    (∃ done, p = .deleting userId done) ∧ Identified s y.canonicalEmail userId := by
  have htab : AccountTable.loginChallenges ∈ o.tables := tab_mem_tables heval hy
  cases hturn with
  | @removes t u done _ _ ht =>
    obtain rfl := Option.some.inj herases
    refine ⟨⟨done, rfl⟩, ?_⟩
    cases t with
    | loginChallenges =>
      obtain ⟨x, hx, hdrop⟩ := makes_of_action rfl heval hy
      obtain ⟨-, hxy⟩ := Change.drop.inj hdrop
      obtain rfl := eq_of_heq hxy
      obtain ⟨e, he, hown⟩ := List.any_eq_true.mp hx
      obtain ⟨huser, hemail⟩ := Bool.and_eq_true_iff.mp hown
      exact ⟨e, he, of_decide_eq_true hemail, of_decide_eq_true huser⟩
    | users | auditRecords | deletedAccounts => exact absurd (mem_ownedTables ht) (by decide)
    | _ => exact absurd htab (of_decide_eq_false rfl)
  | reads htables =>
    rw [htables] at htab
    cases htab
  | logs | reserves | clears | erases | marks => exact absurd htab (of_decide_eq_false rfl)
  | _ => cases herases

/-- Who admits a user by an identity has found it. -/
lemma Turn.identified_of_admitted {o : AccountStmt} {r : o.Resp} {p p' : Phase}
    (hturn : Turn o r p p') {busy : Lock layout → Bool} {s : AccountData}
    {ws : List (Change layout)} (heval : accountConduct.eval o busy s = .ok (r, ws)) {email : String}
    {userId : UUID} (hadmitted : p'.admittedBy = some (email, userId)) :
    p.admittedBy = some (email, userId) ∨
      (∃ challenge at_, p = .consumed challenge at_) ∧ Identified s email userId := by
  cases hturn with
  | finds | denies =>
    obtain ⟨rfl, rfl⟩ := Prod.mk.inj (Option.some.inj hadmitted)
    obtain ⟨-, -, hidentified, -⟩ := found_of_eval heval
    exact .inr ⟨⟨_, _, rfl⟩, hidentified⟩
  | reads | logs => exact .inl hadmitted
  | @opens session r challenge identity =>
    cases identity with
    | none => exact .inl hadmitted
    | some identity => cases hadmitted
  | _ => cases hadmitted

/-- **Identities** that a session relies on stay.

**Proof sketch.** If another session moves, the identity stays because this one holds its user
(`AccountsKept.identity_stays`). If it moves itself, it relied on the identity before, or sees it
now; and what it sees without having put it in is committed. -/
lemma AccountsKept.identified_of_move (h : AccountsKept c) (hopen : (c.sessions j).closed = false)
    (hmove : Move accountDatabase c j c') (i : ι) (hopen' : (c'.sessions i).closed = false)
    {email : String} {userId : UUID} (hrelies : Relies c' i email userId) :
    Identified c'.db email userId := by
  by_cases hj : j = i
  swap
  · unfold Relies standing at hrelies
    rw [history_stable hj hmove, session_stable hj hmove] at hrelies
    rw [session_stable hj hmove] at hopen'
    obtain ⟨e, he, hemail, huser⟩ := h.identified i hopen' email userId hrelies
    have hlock := h.holds_user hopen' hrelies
    rw [← huser] at hlock
    exact ⟨e, h.identity_stays hj hopen he hlock hmove, hemail, huser⟩
  subst hj
  rcases own_of_move accountTracker hmove with
    ⟨o, f, r, ws, hp, heval, hpending, hstate, hdb, -⟩ | ⟨hnone, hend⟩ | ⟨hpending, hhistory, hdb⟩
  · have hturn := turn_of_mayDo ((h.tracks j).mayDo hp) r
    -- An identity that the session sees and has not put in is committed.
    have hcommitted : ∀ email, Identified (c.view accountDatabase j) email userId →
        (∀ e, (standing c j).phase.identity ≠ some e) → Identified c.db email userId := by
      intro email hseen hno
      obtain ⟨e, he, hemail, huser⟩ := hseen
      rcases Store.mem_of_applyAll accountConduct he with hput | ⟨he, -⟩
      · exact absurd (h.wrote j _ hput) (hno e)
      · exact ⟨e, he, hemail, huser⟩
    unfold Relies standing at hrelies
    rw [hstate, hpending] at hrelies
    rw [hdb]
    rcases hrelies with hadmitted | ⟨herases, y, hy, rfl⟩
    · rcases hturn.identified_of_admitted heval hadmitted with hold | ⟨⟨challenge, at_, hp'⟩, hseen⟩
      · exact h.identified j hopen email userId (.inl hold)
      · refine hcommitted email hseen fun e he => ?_
        have he' : (accountTracker.state (c.history j)).phase.identity = some e := he
        rw [hp'] at he'
        cases he'
    · rcases List.mem_append.mp hy with hold | hnew
      · rcases h.wrote j _ hold with ⟨u, hu⟩ | hexpires
        · have hsame := hturn.erases_of hu
          obtain rfl : u = userId := Option.some.inj (hsame.symm.trans herases)
          exact h.identified j hopen _ u (.inr ⟨hu, y, hold, rfl⟩)
        · obtain ⟨sweep, hswept, -⟩ := hexpires.swept
          rcases hturn.advance with hquiet | hsame | hadvance
          · rw [hswept] at hquiet
            cases hquiet
          · have herases' : ((accountTracker.state (c.history j)).phase.after o r).erases =
                some userId := herases
            rw [hsame, hswept] at herases'
            cases herases'
          · rw [hswept] at hadvance
            cases hadvance
      · obtain ⟨⟨done, hp'⟩, hseen⟩ := hturn.identified_of_drop heval herases hnew
        refine hcommitted _ hseen fun e he => ?_
        have he' : (accountTracker.state (c.history j)).phase.identity = some e := he
        rw [hp'] at he'
        cases he'
  · exfalso
    have hidle : (standing c' j).phase = .idle := by
      rcases hend with ⟨hclosed, -⟩ | hcommitted | hrolledBack
      · rw [hclosed] at hopen'
        cases hopen'
      · exact congrArg Standing.phase hcommitted
      · exact congrArg Standing.phase hrolledBack
    unfold Relies at hrelies
    rw [hidle] at hrelies
    rcases hrelies with hadmitted | ⟨herases, -⟩
    · cases hadmitted
    · cases herases
  · unfold Relies standing at hrelies
    rw [hhistory, hpending] at hrelies
    rw [hdb]
    exact h.identified j hopen email userId hrelies

/-- A deletion of an account begins with its lock. -/
lemma Turn.erases_from {o : AccountStmt} {r : o.Resp} {p p' : Phase} (h : Turn o r p p')
    {userId : UUID} (herases : p'.erases = some userId) :
    p.erases = some userId ∨ p = .idle ∧ o = .lockUser userId := by
  cases h with
  | reserves =>
    obtain rfl := Option.some.inj herases
    exact .inr ⟨rfl, rfl⟩
  | reads | logs | removes | clears | erases | marks => exact .inl herases
  | _ => cases herases

/-- A statement that may be executed keeps a deletion authorized. -/
lemma Standing.Authorized.after {k : Standing} {o : AccountStmt} (h : k.Authorized) (hmay : k.mayDo o)
    (r : o.Resp) : (k.after o r).Authorized := by
  intro userId herases
  rcases (turn_of_mayDo hmay r).erases_from herases with hold | ⟨hidle, ho⟩
  · have hprincipal : k.principalAfter o r = k.principal := by
      refine (principalAfter_eq hmay r).resolve_left fun hidle => ?_
      rw [hidle] at hold
      cases hold
    have hrestored : ∀ userId ∈ k.restored, userId ∈ k.restoredAfter o r := by
      intro userId hmem
      cases o with
      | restoredDeletedAccounts batchSize => exact List.mem_append_left _ hmem
      | _ => exact hmem
    refine (h userId hold).imp (hrestored userId) fun hsession => ?_
    show ∃ session at_, k.principalAfter o r = some (session, at_) ∧ _
    rw [hprincipal]
    exact hsession
  · subst ho
    exact hmay.2

/-- A deletion stays authorized.

**Proof sketch.** A statement of the session keeps it (`Standing.Authorized.after`), the end of a
transaction erases nobody, and no other move changes where the session stands. -/
lemma AccountsKept.authorized_of_move (h : AccountsKept c) (hmove : Move accountDatabase c j c')
    (i : ι) : (standing c' i).Authorized := by
  by_cases hj : j = i
  swap
  · unfold standing
    rw [history_stable hj hmove]
    exact h.authorized i
  subst hj
  unfold standing
  rcases own_of_move accountTracker hmove with
    ⟨o, f, r, ws, hp, -, -, hstate, -⟩ | ⟨-, ⟨-, hhistory⟩ | hcommitted | hrolledBack⟩ |
    ⟨-, hhistory, -⟩
  · rw [hstate]
    exact (h.authorized j).after ((h.tracks j).mayDo hp) r
  · rw [hhistory]
    exact h.authorized j
  · rw [hcommitted]
    intro userId herases
    cases herases
  · rw [hrolledBack]
    intro userId herases
    cases herases
  · rw [hhistory]
    exact h.authorized j

/-- **It is kept** by every move.

**Proof sketch.** Part by part: the locked rows are told by the turns (`AccountsKept.sure_of_move`),
and what is written fits the phase it is written in. -/
theorem AccountsKept.move (h : AccountsKept c) (hopen : (c.sessions j).closed = false)
    (hmove : Move accountDatabase c j c') : AccountsKept c' where
  guarding := h.guarding.move hmove
  tracks i := (h.tracks i).move (fun _ => ⟨fun _ _ _ _ _ _ => trivial, fun _ _ _ _ _ => trivial⟩)
    (fun _ _ => trivial) hmove
  wrote := wrote_of_move (fun o f r ws hp heval => by
    have hmay := (h.tracks j).mayDo hp
    exact ⟨fun w _ hfits => fits_after hmay r hfits,
      fun w hw => fits_of_eval (h.guarding.views j) hmay heval hw⟩) h.wrote hmove
  challenge := h.sure_of_move (by decide) tells_consumedChallenge (fun _ => rfl) h.challenge hopen
    hmove
  user := h.sure_of_move (by decide) tells_lockedUser (fun _ => rfl) h.user hopen hmove
  identity := h.sure_of_move (by decide) tells_insertedIdentity (fun _ => rfl) h.identity hopen hmove
  session := h.sure_of_move (by decide) tells_insertedSession (fun _ => rfl) h.session hopen hmove
  active := h.sure_of_move (by decide) tells_activeUser (fun _ => rfl) h.active hopen hmove
  valid := h.sure_of_move (by decide) tells_validSession (fun _ => rfl) h.valid hopen hmove
  link := h.sure_of_move (by decide) tells_lockedChallenge (fun _ => rfl) h.link hopen hmove
  connection := h.sure_of_move (by decide) tells_lockedConnection (fun _ => rfl) h.connection hopen
    hmove
  tombstone := h.sure_of_move (by decide) tells_tombstone (fun _ => rfl) h.tombstone hopen hmove
  identified i hopen' _ _ hrelies := h.identified_of_move hopen hmove i hopen' hrelies
  authorized := h.authorized_of_move hmove

/-- Nothing is known before the first action.

**Proof sketch.** No session has written anything, and in the first phase none knows of a row. -/
lemma AccountsKept.start [PythonRuntime] (runtime : SignInRuntime) {db : AccountData}
    (requests : ι → AccountRequest) (tapes : ι → Stream' AccountReading) (hdb : db.Intact) :
    AccountsKept (accountsStarted runtime db requests tapes) := by
  have hsure : ∀ {t : AccountTable} {m : Strength} {subject : Subject t} (i : ι),
      subject (.fresh []) = none →
      Sure t m subject (accountsStarted runtime db requests tapes) i := by
    intro t m subject i hfresh _ a hcounts
    obtain ⟨P, hP⟩ := hcounts
    cases hfresh.symm.trans hP
  exact {
    guarding := Guarding.start (fun _ => rfl) (fun _ => rfl) hdb
    tracks := fun i => (requests i).wp_tracked runtime
    wrote := fun i w hw => absurd hw List.not_mem_nil
    challenge := fun i => hsure i rfl
    user := fun i => hsure i rfl
    identity := fun i => hsure i rfl
    session := fun i => hsure i rfl
    active := fun i => hsure i rfl
    valid := fun i => hsure i rfl
    link := fun i => hsure i rfl
    connection := fun i => hsure i rfl
    tombstone := fun i => hsure i rfl
    identified := fun i _ email userId hrelies => by
      rcases hrelies with hadmitted | ⟨herases, -⟩
      · cases hadmitted
      · cases herases
    authorized := fun i userId herases => by cases herases }

/-- **It is kept** in every run from a database that satisfies its constraints. -/
theorem AccountsKept.run [PythonRuntime] {runtime : SignInRuntime} {db : AccountData}
    {requests : ι → AccountRequest} {tapes : ι → Stream' AccountReading} {ls : List (Label ι)}
    (hdb : db.Intact)
    (hrun : run accountDatabase (accountsStarted runtime db requests tapes) ls = some c) :
    AccountsKept c :=
  run_induction (P := AccountsKept) (fun _ _ _ h ho hm => h.move ho hm)
    (AccountsKept.start runtime requests tapes hdb) hrun

/-! ## What a commit publishes -/

/-- **A row that appears** was written by the session that commits, whose transaction may be
committed. -/
lemma AccountsKept.appeared (h : AccountsKept c) (hmove : Move accountDatabase c j c')
    {t : AccountTable} {x : t.Row} (hx : x ∈ c'.db t) (hno : x ∉ c.db t) :
    (standing c j).phase.mayCommit ∧ c'.db = c.view accountDatabase j ∧
      (standing c j).Fits (.put t x) := by
  obtain ⟨⟨p, hp⟩, hdb, hput⟩ := Guarding.appeared hmove hx hno
  have hwp := h.tracks j
  unfold Tracks at hwp
  rw [hp] at hwp
  exact ⟨hwp.1, hdb, h.wrote j _ hput⟩

/-- **A row that disappears** was dropped by the session that commits, whose transaction may be
committed. -/
lemma AccountsKept.disappeared (h : AccountsKept c) (hmove : Move accountDatabase c j c')
    {t : AccountTable} {x : t.Row} (hx : x ∈ c.db t) (hno : c'.db.find t (t.key x) = none) :
    (standing c j).phase.mayCommit ∧ c'.db = c.view accountDatabase j ∧
      ∃ y, t.key y = t.key x ∧ (standing c j).Fits (.drop t y) ∧
        ((standing c j).Fits (.put t y) ∨ y = x) := by
  obtain ⟨⟨p, hp⟩, hdb, y, hkey, hdrop, hy⟩ := h.guarding.disappeared hmove hx hno
  have hwp := h.tracks j
  unfold Tracks at hwp
  rw [hp] at hwp
  exact ⟨hwp.1, hdb, y, hkey, h.wrote j _ hdrop, hy.imp_left (h.wrote j _)⟩

/-- An account that is deleted when the transaction is committed has its tombstone. -/
lemma buried_of_erases {p : Phase} {userId : UUID} (herases : p.erases = some userId)
    (hcommit : p.mayCommit) : ∃ row, p = .buried row ∧ row.userId = userId := by
  cases p with
  | buried row => exact ⟨row, rfl, Option.some.inj herases⟩
  | deleting userId done => exact hcommit.elim
  | deleted userId => exact hcommit.elim
  | _ => cases herases

/-- What a session that deleted an account knows of its user. -/
lemma AccountsKept.erased (h : AccountsKept c) (hopen : (c.sessions j).closed = false)
    {row : DeletedAccountRecord} (hphase : (standing c j).phase = .buried row) :
    Erased (c.db.find .users row.userId)
      (Store.find (c.view accountDatabase j) .users row.userId) := by
  have hsubject : lockedUser (standing c j) = some (row.userId, Erased) := by
    unfold lockedUser
    rw [hphase]
  exact ((h.user j).apply hopen hsubject).2

/-- A session that deleted an account sees its tombstone. -/
lemma AccountsKept.interred (h : AccountsKept c) (hopen : (c.sessions j).closed = false)
    {row : DeletedAccountRecord} (hphase : (standing c j).phase = .buried row) :
    row ∈ c.view accountDatabase j .deletedAccounts := by
  have hsubject : Accounts.tombstone (standing c j) =
      some (row.userId, fun _ v => v = some row) := by
    unfold Accounts.tombstone
    rw [hphase]
  exact Table.mem_of_find ((h.tombstone j).apply hopen hsubject).2

/-- A row that a session leaves alone is seen as it is committed. -/
lemma AccountsKept.mem_view (h : AccountsKept c) {t : AccountTable} {x : t.Row} (hx : x ∈ c.db t)
    (hput : ∀ y, (standing c j).Fits (.put t y) → t.key y ≠ t.key x)
    (hdrop : ∀ y, y = x ∨ (standing c j).Fits (.put t y) → t.key y = t.key x →
      .drop t y ∈ (c.sessions j).pending → ¬ (standing c j).Fits (.drop t y)) :
    x ∈ c.view accountDatabase j t := by
  refine (RowSet.mem_applyAll (R := Store.rowSet accountConduct t)).mpr
    (.inr ⟨hx, fun w hw hkey => ?_⟩)
  have hfits := h.wrote j w hw
  cases w with
  | put t' y =>
    obtain ⟨rfl, hid⟩ := Lock.row.inj (Store.row_mem_keys_put.mp hkey)
    exact hput y hfits (eq_of_heq hid).symm
  | drop t' y =>
    obtain ⟨rfl, hid⟩ := Lock.row.inj (Store.row_mem_keys_drop.mp hkey)
    refine hdrop y ?_ (eq_of_heq hid).symm hw hfits
    rcases ((h.guarding.responsible j).dropping _ y hw).2 with hnew | hy
    · exact .inr (h.wrote j _ hnew)
    · exact .inl (Table.eq_of_key_eq hy hx (eq_of_heq hid).symm)

end Kept

end MintFlow.Accounts
