import MintFlow.Accounts.Standing

set_option relaxedAutoImplicit false
set_option autoImplicit false

/-!
# Accounts: what statements leave

Each statement by itself: which tables it writes, what it found when it answers, and what is there
when it is done.

## Main results

* `MintFlow.Accounts.tab_mem_tables` — a statement writes its tables and no others.
* `MintFlow.Accounts.consumed_of_eval`, `MintFlow.Accounts.claimed_of_eval`, … — one lemma for each
  answer that a request relies on.
-/

namespace MintFlow.Accounts

open Transact

section Effects

variable {o : AccountStmt} {busy : Lock layout → Bool} {s : AccountData} {ws : List (Change layout)}

/-! ## Tables -/

/-- The lock on a row. -/
abbrev rowLock (t : AccountTable) (key : t.Key) : Lock layout := .row t key

/-- The table of an action. -/
def actionTable : Action layout → AccountTable
  | .insert t _ => t
  | .update t _ _ => t
  | .delete t _ => t

/-- A change is made in the table of its action. -/
lemma tab_of_makes {a : Action layout} {w : Change layout} (h : a.Makes w) :
    w.tab = actionTable a := by
  cases a with
  | insert t row =>
    obtain rfl : w = .put t row := h
    rfl
  | update t selects rewrite =>
    obtain ⟨x, -, rfl⟩ := h
    rfl
  | delete t selects =>
    obtain ⟨x, -, rfl⟩ := h
    rfl

/-- What `Except.map` makes of a result. -/
lemma map_eq_ok {ε α β : Type} {f : α → β} {x : Except ε α} {b : β} (h : x.map f = .ok b) :
    ∃ a, x = .ok a ∧ f a = b := by
  cases x with
  | error e => cases h
  | ok a => exact ⟨a, rfl, Except.ok.inj h⟩

/-- The actions of a statement are on its tables.

**Proof sketch.** By the statement, which names the tables of its actions. -/
lemma perform_tables {r : o.Resp} {as : List (Action layout)} (h : o.perform busy s = .ok (r, as))
    {a : Action layout} (ha : a ∈ as) : actionTable a ∈ o.tables := by
  cases o with
  | consumeChallenge tokenHash at_ =>
    obtain ⟨row, -, h⟩ := map_eq_ok h
    obtain ⟨-, rfl⟩ := Prod.mk.inj h
    obtain rfl := List.mem_singleton.mp ha
    exact List.mem_singleton_self _
  | selectIdentity email =>
    obtain ⟨row, -, h⟩ := map_eq_ok h
    obtain ⟨-, rfl⟩ := Prod.mk.inj h
    cases ha
  | authenticate secretHash now =>
    obtain ⟨row, -, h⟩ := map_eq_ok h
    obtain ⟨-, rfl⟩ := Prod.mk.inj h
    cases ha
  | deleteOwned t userId =>
    obtain ⟨-, rfl⟩ := Prod.mk.inj (Except.ok.inj h)
    cases t with
    | users =>
      rcases List.mem_cons.mp ha with rfl | ha
      · exact List.mem_cons_self
      · obtain rfl := List.mem_singleton.mp ha
        exact List.mem_cons_of_mem _ List.mem_cons_self
    | webSessions =>
      rcases List.mem_cons.mp ha with rfl | ha
      · exact List.mem_cons_self
      · obtain rfl := List.mem_singleton.mp ha
        exact List.mem_cons_of_mem _ List.mem_cons_self
    | _ =>
      obtain rfl := List.mem_singleton.mp ha
      exact List.mem_singleton_self _
  | deleteWebSessions revokedCutoff expiredCutoff batchSize =>
    obtain ⟨-, rfl⟩ := Prod.mk.inj (Except.ok.inj h)
    rcases List.mem_cons.mp ha with rfl | ha
    · exact List.mem_cons_self
    · obtain rfl := List.mem_singleton.mp ha
      exact List.mem_cons_of_mem _ List.mem_cons_self
  | putTombstone row =>
    obtain ⟨-, rfl⟩ := Prod.mk.inj (Except.ok.inj h)
    split_ifs at ha <;> obtain rfl := List.mem_singleton.mp ha <;> exact List.mem_singleton_self _
  | _ =>
    obtain ⟨-, rfl⟩ := Prod.mk.inj (Except.ok.inj h)
    first
      | (obtain rfl := List.mem_singleton.mp ha
         exact List.mem_singleton_self _)
      | cases ha

/-- **A statement** writes its tables and no others. -/
theorem tab_mem_tables {r : o.Resp} (h : accountConduct.eval o busy s = .ok (r, ws))
    {w : Change layout} (hw : w ∈ ws) : w.tab ∈ o.tables := by
  rcases Conduct.eval_eq_ok h with ⟨as, hperform, hchanges, -⟩ | ⟨-, -, -, -, -, rfl⟩
  · obtain ⟨a, ha, hmakes⟩ := Action.exists_makes hchanges hw
    rw [tab_of_makes hmakes]
    exact perform_tables hperform ha
  · cases hw

/-! ## Single statements -/

/-- A statement waits for what it reads. -/
lemma mem_locks_of_waits {l : Lock layout × Strength} (h : l ∈ o.waits s) :
    l ∈ accountConduct.locks o busy s := List.mem_append_left _ h

/-- A statement of one action that is not under a savepoint. -/
lemma eval_action {r r₀ : o.Resp} {a : Action layout} (hv : o.violation = .error .integrityError)
    (hperform : o.perform busy s = .ok (r₀, [a])) (h : accountConduct.eval o busy s = .ok (r, ws)) :
    r = r₀ ∧ a.changes s = some ws ∧ ∀ l ∈ a.locks s, l ∈ accountConduct.locks o busy s := by
  rcases Conduct.eval_eq_ok h with ⟨as, hok, hchanges, hlocks⟩ | ⟨r', as, -, -, hviolation, -⟩
  · obtain ⟨rfl, rfl⟩ := Prod.mk.inj (Except.ok.inj (hok.symm.trans hperform))
    rw [Action.changesAll_singleton] at hchanges
    refine ⟨rfl, hchanges, fun l hl => ?_⟩
    rw [hlocks]
    exact List.mem_append_right _ (List.mem_append_left _ hl)
  · cases hv.symm.trans hviolation

/-- A statement that only reads. -/
lemma eval_reads {r : o.Resp} (htables : o.tables = [])
    (h : accountConduct.eval o busy s = .ok (r, ws)) :
    ws = [] ∧ (o.violation = .error .integrityError → ∃ as, o.perform busy s = .ok (r, as)) := by
  refine ⟨List.eq_nil_iff_forall_not_mem.mpr fun w hw => ?_, fun hv => ?_⟩
  · have htab := tab_mem_tables h hw
    rw [htables] at htab
    cases htab
  · rcases Conduct.eval_eq_ok h with ⟨as, hok, -⟩ | ⟨r', as, -, -, hviolation, -⟩
    · exact ⟨as, hok⟩
    · cases hv.symm.trans hviolation

/-- A row that a session inserts was not there, and is there, under its lock. -/
lemma inserted_of_eval {t : AccountTable} {row : t.Row} {r r₀ : o.Resp}
    (hv : o.violation = .error .integrityError)
    (hperform : o.perform busy s = .ok (r₀, [.insert t row]))
    (h : accountConduct.eval o busy s = .ok (r, ws)) :
    s.find t (t.key row) = none ∧ Store.find (s.applyAll ws) t (t.key row) = some row ∧
      ws = [.put t row] ∧ (rowLock t (t.key row), .update) ∈ accountConduct.locks o busy s := by
  obtain ⟨-, hchanges, hlocks⟩ := eval_action hv hperform h
  obtain ⟨hadmits, rfl⟩ := Action.changes_insert hchanges
  obtain ⟨hnew, -⟩ := Store.admits_iff.mp hadmits
  refine ⟨Table.find_eq_none.mpr fun x hx => (hnew x hx).1, ?_, rfl, ?_⟩
  · exact (Store.find_put s t row _).trans (if_pos rfl)
  · exact hlocks _ List.mem_cons_self

/-- The one row of a query. -/
lemma oneOrNone_eq_some {α : Type} {l : List α} {a : α} (h : oneOrNone l = .ok (some a)) :
    l = [a] := by
  rcases l with _ | ⟨b, _ | ⟨b', l⟩⟩
  · cases h
  · obtain rfl := Option.some.inj (Except.ok.inj h)
    rfl
  · cases h

/-- No row of a query. -/
lemma oneOrNone_eq_none {α : Type} {l : List α} (h : oneOrNone l = .ok none) : l = [] := by
  rcases l with _ | ⟨b, _ | ⟨b', l⟩⟩
  · rfl
  · cases h
  · cases h

/-- A challenge that is consumed was consumable.

**Proof sketch.** The statement answers with the only row that it may consume, as it has set it, and
locks that row for the write. -/
lemma consumed_of_eval {tokenHash : String} {at_ : Instant} {challenge : LoginChallengeRecord}
    (h : accountConduct.eval (.consumeChallenge tokenHash at_) busy s = .ok (some challenge, ws)) :
    ∃ x, s.find .loginChallenges challenge.id = some x ∧ x.isConsumable tokenHash at_ = true ∧
      (setConsumed at_).set x = challenge ∧ ws = [.put .loginChallenges challenge] ∧
      (rowLock .loginChallenges challenge.id, .noKeyUpdate) ∈
        accountConduct.locks (.consumeChallenge tokenHash at_) busy s := by
  rcases Conduct.eval_eq_ok h with ⟨as, hperform, hchanges, hlocks⟩ | ⟨-, -, -, -, hv, -⟩
  swap
  · cases hv
  obtain ⟨row, hone, hrow⟩ := map_eq_ok hperform
  obtain ⟨hset, rfl⟩ := Prod.mk.inj hrow
  obtain ⟨x, rfl, rfl⟩ := Option.map_eq_some_iff.mp hset
  have hrows := oneOrNone_eq_some hone
  have hx : x ∈ (s .loginChallenges).rows.filter (LoginChallengeRecord.isConsumable tokenHash at_) :=
    hrows ▸ List.mem_singleton_self x
  obtain ⟨hmem, hcan⟩ := List.mem_filter.mp hx
  rw [Action.changesAll_singleton] at hchanges
  refine ⟨x, Table.find_of_mem hmem, hcan, rfl, ?_, ?_⟩
  · refine (Action.changes_update hchanges).trans ?_
    exact congrArg (fun l : List LoginChallengeRecord =>
      (l.map (setConsumed at_).set).map (Change.put (L := layout) .loginChallenges)) hrows
  · rw [hlocks]
    exact List.mem_append_right _ (List.mem_append_left _
      (List.mem_flatMap.mpr ⟨x, hx, List.mem_cons_self⟩))

/-- Where no challenge is consumed, nothing is written. -/
lemma missed_of_eval {tokenHash : String} {at_ : Instant}
    (h : accountConduct.eval (.consumeChallenge tokenHash at_) busy s = .ok (none, ws)) :
    ws = [] := by
  rcases Conduct.eval_eq_ok h with ⟨as, hperform, hchanges, -⟩ | ⟨-, -, -, -, hv, -⟩
  swap
  · cases hv
  obtain ⟨row, hone, hrow⟩ := map_eq_ok hperform
  obtain ⟨hset, rfl⟩ := Prod.mk.inj hrow
  obtain rfl := Option.map_eq_none_iff.mp hset
  rw [Action.changesAll_singleton] at hchanges
  refine (Action.changes_update hchanges).trans ?_
  exact congrArg (fun l : List LoginChallengeRecord =>
    (l.map (setConsumed at_).set).map (Change.put (L := layout) .loginChallenges))
      (oneOrNone_eq_none hone)

/-- A user who is found by an address has an identity with it, and is locked. -/
lemma found_of_eval {email : String} {user : UserRecord}
    (h : accountConduct.eval (.selectIdentity email) busy s = .ok (some user, ws)) :
    ws = [] ∧ s.find .users user.id = some user ∧
      (∃ e ∈ s .emailIdentities, e.canonicalEmail = email ∧ e.userId = user.id) ∧
      (rowLock .users user.id, .update) ∈ accountConduct.locks (.selectIdentity email) busy s := by
  obtain ⟨hws, hok⟩ := eval_reads rfl h
  obtain ⟨as, hperform⟩ := hok rfl
  obtain ⟨row, hone, hrow⟩ := map_eq_ok hperform
  obtain ⟨rfl, -⟩ := Prod.mk.inj hrow
  have huser : user ∈ s.usersOfEmail email := (oneOrNone_eq_some hone) ▸ List.mem_singleton_self user
  obtain ⟨e, he, hfind⟩ := List.mem_filterMap.mp huser
  obtain ⟨he, hemail⟩ := List.mem_filter.mp he
  have hid : user.id = e.userId := Table.key_of_find hfind
  refine ⟨hws, hid ▸ hfind, ⟨e, he, of_decide_eq_true hemail, hid.symm⟩, ?_⟩
  exact mem_locks_of_waits (List.mem_map.mpr ⟨user, huser, rfl⟩)

/-- An active user is there. -/
lemma isActiveUser_iff {userId : UUID} :
    s.isActiveUser userId = true ↔ ∃ u, s.find .users userId = some u ∧ u.status = .active := by
  unfold AccountData.isActiveUser
  rw [List.any_eq_true]
  constructor
  · rintro ⟨u, hu, h⟩
    obtain ⟨hid, hactive⟩ := Bool.and_eq_true_iff.mp h
    exact ⟨u, of_decide_eq_true hid ▸ Table.find_of_mem hu, of_decide_eq_true hactive⟩
  · rintro ⟨u, hu, hactive⟩
    refine ⟨u, Table.mem_of_find hu, ?_⟩
    rw [Bool.and_eq_true_iff]
    exact ⟨decide_eq_true (Table.key_of_find hu), decide_eq_true hactive⟩

/-- A session that is authenticated is valid and its user active; both are locked.

**Proof sketch.** The only row that matches is a valid session of an active user, and the statement
locks both rows. -/
lemma authenticated_of_eval {secretHash : String} {now : Instant} {session : AuthenticatedWebSession}
    (h : accountConduct.eval (.authenticate secretHash now) busy s = .ok (some session, ws)) :
    ws = [] ∧ (∃ row, s.find .webSessions (session.sessionId, session.userId) = some row ∧
        row.isValid now = true) ∧
      (∃ u, s.find .users session.userId = some u ∧ u.status = .active) ∧
      (rowLock .webSessions (session.sessionId, session.userId), .share) ∈
        accountConduct.locks (.authenticate secretHash now) busy s ∧
      (rowLock .users session.userId, .share) ∈
        accountConduct.locks (.authenticate secretHash now) busy s := by
  obtain ⟨hws, hok⟩ := eval_reads rfl h
  obtain ⟨as, hperform⟩ := hok rfl
  obtain ⟨row, hone, hrow⟩ := map_eq_ok hperform
  obtain ⟨hsession, -⟩ := Prod.mk.inj hrow
  obtain ⟨x, rfl, rfl⟩ := Option.map_eq_some_iff.mp hsession
  have hx : x ∈ s.authenticated secretHash now :=
    (oneOrNone_eq_some hone) ▸ List.mem_singleton_self x
  obtain ⟨hmem, hcond⟩ := List.mem_filter.mp hx
  obtain ⟨hcond, hactive⟩ := Bool.and_eq_true_iff.mp hcond
  have hlock : ∀ l ∈ [(rowLock .webSessions (x.id, x.userId), Strength.share),
      (rowLock .users x.userId, .share)],
      l ∈ accountConduct.locks (.authenticate secretHash now) busy s := fun l hl =>
    mem_locks_of_waits (List.mem_flatMap.mpr ⟨x, hx, hl⟩)
  exact ⟨hws, ⟨x, Table.find_of_mem hmem, (Bool.and_eq_true_iff.mp hcond).2⟩,
    isActiveUser_iff.mp hactive, hlock _ List.mem_cons_self,
    hlock _ (List.mem_cons_of_mem _ List.mem_cons_self)⟩

/-- A claimed challenge that is locked. -/
lemma locked_of_eval {challengeId webSessionId : UUID} {now : Instant}
    {challenge : LinkChallengeRecord}
    (h : accountConduct.eval (.lockClaimed challengeId webSessionId now) busy s =
      .ok (some challenge, ws)) :
    ws = [] ∧ s.find .linkChallenges challenge.id = some challenge ∧
      challenge.initiatingWebSessionId = webSessionId ∧ challenge.claimedAt.isSome = true ∧
      challenge.confirmedAt = none ∧ now < challenge.expiresAt ∧
      (rowLock .linkChallenges challenge.id, .update) ∈
        accountConduct.locks (.lockClaimed challengeId webSessionId now) busy s := by
  obtain ⟨hws, hok⟩ := eval_reads rfl h
  obtain ⟨as, hperform⟩ := hok rfl
  obtain ⟨hhead, -⟩ := Prod.mk.inj (Except.ok.inj hperform)
  have hx : challenge ∈ s.claimed challengeId webSessionId now := List.mem_of_mem_head? hhead
  obtain ⟨hmem, hcond⟩ := List.mem_filter.mp hx
  simp only [Bool.and_eq_true, decide_eq_true_eq, Option.isNone_iff_eq_none] at hcond
  obtain ⟨⟨⟨⟨-, hsession⟩, hclaimed⟩, hconfirmed⟩, hexpires⟩ := hcond
  exact ⟨hws, Table.find_of_mem hmem, hsession, hclaimed, hconfirmed, hexpires,
    mem_locks_of_waits (List.mem_map.mpr ⟨challenge, hx, rfl⟩)⟩

/-- A session that is found valid. -/
lemma approved_of_eval {webSessionId userId : UUID} {now : Instant}
    (h : accountConduct.eval (.sessionIsValid webSessionId userId now) busy s = .ok (true, ws)) :
    ws = [] ∧ ∃ row ∈ s .webSessions, row.id = webSessionId ∧ row.userId = userId ∧
      row.isValid now = true := by
  obtain ⟨hws, hok⟩ := eval_reads rfl h
  obtain ⟨as, hperform⟩ := hok rfl
  obtain ⟨hvalid, -⟩ := Prod.mk.inj (Except.ok.inj hperform)
  obtain ⟨row, hrow, hcond⟩ := List.any_eq_true.mp hvalid
  simp only [Bool.and_eq_true, decide_eq_true_eq] at hcond
  obtain ⟨⟨⟨hid, huser⟩, hvalid⟩, -⟩ := hcond
  exact ⟨hws, row, hrow, hid, huser, hvalid⟩

/-- A connection that was inserted. -/
lemma connected_of_eval {connection : ConnectionRecord}
    (h : accountConduct.eval (.insertConnection connection) busy s = .ok (true, ws)) :
    s.find .connections connection.id = none ∧ ws = [.put .connections connection] ∧
      (rowLock .connections connection.id, .update) ∈
        accountConduct.locks (.insertConnection connection) busy s := by
  rcases Conduct.eval_eq_ok h with ⟨as, hok, hchanges, hlocks⟩ | ⟨r', as, -, -, hviolation, -⟩
  · obtain ⟨-, rfl⟩ := Prod.mk.inj (Except.ok.inj hok)
    rw [Action.changesAll_singleton] at hchanges
    obtain ⟨hadmits, rfl⟩ := Action.changes_insert hchanges
    obtain ⟨hnew, -⟩ := Store.admits_iff.mp hadmits
    refine ⟨Table.find_eq_none.mpr fun x hx => (hnew x hx).1, rfl, ?_⟩
    rw [hlocks]
    exact List.mem_append_right _ (List.mem_append_left _ List.mem_cons_self)
  · cases hviolation

/-- Where a connection is refused, nothing is written. -/
lemma yielded_of_eval {connection : ConnectionRecord}
    (h : accountConduct.eval (.insertConnection connection) busy s = .ok (false, ws)) :
    ws = [] := by
  rcases Conduct.eval_eq_ok h with ⟨as, hok, -⟩ | ⟨r', as, -, -, -, rfl⟩
  · obtain ⟨hfalse, -⟩ := Prod.mk.inj (Except.ok.inj hok)
    cases hfalse
  · rfl

/-- A challenge that is confirmed. -/
lemma confirmed_of_eval {challengeId : UUID} {now : Instant} {r : Unit}
    (h : accountConduct.eval (.confirmChallenge challengeId now) busy s = .ok (r, ws)) (key : UUID) :
    Store.find (s.applyAll ws) .linkChallenges key =
      (s.find .linkChallenges key).map fun x =>
        if x.id = challengeId then (setConfirmed now).set x else x := by
  obtain ⟨-, hchanges, -⟩ := eval_action rfl rfl h
  refine (Action.find_update hchanges key).trans (Option.map_congr fun x _ => ?_)
  exact if_congr (decide_eq_true_iff) rfl rfl

/-- A user who is locked is there. -/
lemma reserved_of_eval {userId : UUID}
    (h : accountConduct.eval (.lockUser userId) busy s = .ok (true, ws)) :
    ws = [] ∧ (s.find .users userId).isSome = true ∧
      (rowLock .users userId, .update) ∈ accountConduct.locks (.lockUser userId) busy s := by
  obtain ⟨hws, hok⟩ := eval_reads rfl h
  obtain ⟨as, hperform⟩ := hok rfl
  obtain ⟨hsome, -⟩ := Prod.mk.inj (Except.ok.inj hperform)
  refine ⟨hws, hsome, ?_⟩
  obtain ⟨user, huser⟩ := Option.isSome_iff_exists.mp hsome
  have hid : user.id = userId := Table.key_of_find huser
  refine mem_locks_of_waits (List.mem_map.mpr ⟨user, ?_, by rw [hid]⟩)
  exact Option.mem_toList.mpr huser

/-- The row that a query finds, where it can find one at most. -/
lemma filter_eq_singleton {t : AccountTable} {selects : t.Row → Bool} {x : t.Row}
    (hx : x ∈ (s t).rows.filter selects)
    (hone : ∀ y ∈ s t, selects y = true → selects x = true → y = x) :
    (s t).rows.filter selects = [x] := by
  have hnodup : (((s t).rows.filter selects).map t.key).Nodup :=
    (s t).nodup.sublist (List.filter_sublist.map _)
  have hall : ∀ y ∈ (s t).rows.filter selects, y = x := fun y hy =>
    hone y (List.mem_filter.mp hy).1 (List.mem_filter.mp hy).2 (List.mem_filter.mp hx).2
  generalize (s t).rows.filter selects = l at hx hall hnodup
  rcases l with _ | ⟨a, _ | ⟨b, l⟩⟩
  · cases hx
  · rw [hall a List.mem_cons_self]
  · have hab : a = b := (hall a List.mem_cons_self).trans
      (hall b (List.mem_cons_of_mem _ List.mem_cons_self)).symm
    rw [hab] at hnodup
    exact absurd List.mem_cons_self (List.nodup_cons.mp hnodup).1

/-- A connection that is unlinked was the active one of its user.

**Proof sketch.** The row that is answered is an active connection of the user. There is no other,
since a user has one active connection at most. -/
lemma unlinked_of_eval {userId connectionId : UUID} {now : Instant} (hs : s.Intact)
    (h : accountConduct.eval (.unlinkConnection userId now) busy s = .ok (some connectionId, ws)) :
    ∃ x, s.find .connections connectionId = some x ∧ x.isActive = true ∧ x.userId = userId ∧
      ws = [.put .connections ((setUnlinked now).set x)] ∧
      (rowLock .connections connectionId, .noKeyUpdate) ∈
        accountConduct.locks (.unlinkConnection userId now) busy s := by
  rcases Conduct.eval_eq_ok h with ⟨as, hperform, hchanges, hlocks⟩ | ⟨-, -, -, -, hv, -⟩
  swap
  · cases hv
  obtain ⟨hhead, rfl⟩ := Prod.mk.inj (Except.ok.inj hperform)
  obtain ⟨x, hx, rfl⟩ := List.mem_map.mp (List.mem_of_mem_head? hhead)
  obtain ⟨hmem, hcond⟩ := List.mem_filter.mp hx
  obtain ⟨huser, hactive⟩ := Bool.and_eq_true_iff.mp hcond
  have hnames : ∀ y : ConnectionRecord, y.isActive = true →
      AccountName.activeUser y.userId ∈ layout.names AccountTable.connections y := by
    intro y hy
    show AccountName.activeUser y.userId ∈
      if y.isActive then [AccountName.activeUser y.userId, .activeTelegramUser y.telegramUserId]
      else []
    rw [if_pos hy]
    exact List.mem_cons_self
  have hrows := filter_eq_singleton (t := .connections) hx fun y hy hcond' _ => by
    obtain ⟨huser', hactive'⟩ := Bool.and_eq_true_iff.mp hcond'
    refine hs.unique .connections y hy x hmem _ (hnames y hactive') ?_
    rw [of_decide_eq_true huser', ← of_decide_eq_true huser]
    exact hnames x hactive
  rw [Action.changesAll_singleton] at hchanges
  refine ⟨x, Table.find_of_mem hmem, hactive, of_decide_eq_true huser, ?_, ?_⟩
  · refine (Action.changes_update hchanges).trans ?_
    exact congrArg (fun l : List ConnectionRecord =>
      (l.map (setUnlinked now).set).map (Change.put (L := layout) .connections)) hrows
  · rw [hlocks]
    exact List.mem_append_right _ (List.mem_append_left _
      (List.mem_flatMap.mpr ⟨x, hx, List.mem_cons_self⟩))

/-- Where no connection is unlinked, nothing is written. -/
lemma passed_of_eval {userId : UUID} {now : Instant}
    (h : accountConduct.eval (.unlinkConnection userId now) busy s = .ok (none, ws)) : ws = [] := by
  rcases Conduct.eval_eq_ok h with ⟨as, hperform, hchanges, -⟩ | ⟨-, -, -, -, hv, -⟩
  swap
  · cases hv
  obtain ⟨hhead, rfl⟩ := Prod.mk.inj (Except.ok.inj hperform)
  have hrows := List.map_eq_nil_iff.mp (List.head?_eq_none_iff.mp hhead)
  rw [Action.changesAll_singleton] at hchanges
  refine (Action.changes_update hchanges).trans ?_
  exact congrArg (fun l : List ConnectionRecord =>
    (l.map (setUnlinked now).set).map (Change.put (L := layout) .connections)) hrows

/-- A Web session that is revoked is the one with the id.

**Proof sketch.** Sessions have unique identifiers, so the rows that are revoked are at most one. -/
lemma revoked_of_eval {sessionId : UUID} {revokedAt : Instant} {r : ℕ} (hs : s.Intact)
    (h : accountConduct.eval (.revokeSession sessionId revokedAt) busy s = .ok (r, ws))
    {w : Change layout} (hw : w ∈ ws) :
    ∃ x : WebSessionRecord, x.id = sessionId ∧ w = .put .webSessions ((setRevoked revokedAt).set x) ∧
      r = 1 := by
  obtain ⟨rfl, hchanges, -⟩ := eval_action rfl rfl h
  have hws := Action.changes_update hchanges
  subst hws
  obtain ⟨y, hy, rfl⟩ := List.mem_map.mp hw
  obtain ⟨x, hx, rfl⟩ := List.mem_map.mp hy
  obtain ⟨hmem, hcond⟩ := List.mem_filter.mp hx
  have hid : x.id = sessionId := of_decide_eq_true (Bool.and_eq_true_iff.mp hcond).1
  have hrows := filter_eq_singleton (t := .webSessions) hx fun z hz hcond' _ => by
    have hid' : z.id = sessionId := of_decide_eq_true (Bool.and_eq_true_iff.mp hcond').1
    refine hs.unique .webSessions z hz x hmem (.webSession sessionId) ?_ ?_
    · rw [← hid']
      exact List.mem_cons_self
    · rw [← hid]
      exact List.mem_cons_self
  exact ⟨x, hid, rfl, congrArg List.length hrows⟩

/-- A challenge that is claimed was not claimed.

**Proof sketch.** The row that is answered was claimable. There is no other, since the hash of a
token is unique. -/
lemma claimed_of_eval {tokenHash : String} {telegramUserId : ℤ} {displayName : Option String}
    {now : Instant} {challenge : LinkChallengeRecord} (hs : s.Intact)
    (h : accountConduct.eval (.claimChallenge tokenHash telegramUserId displayName now) busy s =
      .ok (some challenge, ws)) :
    ∃ x, s.find .linkChallenges challenge.id = some x ∧ x.claimedAt = none ∧
      x.confirmedAt = none ∧ (setClaimed telegramUserId displayName now).set x = challenge ∧
      ws = [.put .linkChallenges challenge] := by
  rcases Conduct.eval_eq_ok h with ⟨as, hperform, hchanges, -⟩ | ⟨-, -, -, -, hv, -⟩
  swap
  · cases hv
  obtain ⟨hhead, rfl⟩ := Prod.mk.inj (Except.ok.inj hperform)
  obtain ⟨x, hx, rfl⟩ := List.mem_map.mp (List.mem_of_mem_head? hhead)
  obtain ⟨hmem, hcond⟩ := List.mem_filter.mp hx
  have htoken : ∀ y : LinkChallengeRecord, s.isClaimable tokenHash telegramUserId now y = true →
      y.tokenHash = tokenHash ∧ y.claimedAt = none ∧ y.confirmedAt = none := by
    intro y hy
    unfold AccountData.isClaimable at hy
    simp only [Bool.and_eq_true, decide_eq_true_eq, Option.isNone_iff_eq_none] at hy
    exact ⟨hy.1.1.1.1.1, hy.1.1.1.1.2, hy.1.1.1.2⟩
  have hrows := filter_eq_singleton (t := .linkChallenges) hx fun y hy hcond' _ => by
    refine hs.unique .linkChallenges y hy x hmem (.linkToken tokenHash) ?_ ?_
    · rw [← (htoken y hcond').1]
      exact List.mem_cons_self
    · rw [← (htoken x hcond).1]
      exact List.mem_cons_self
  rw [Action.changesAll_singleton] at hchanges
  refine ⟨x, Table.find_of_mem hmem, (htoken x hcond).2.1, (htoken x hcond).2.2, rfl, ?_⟩
  refine (Action.changes_update hchanges).trans ?_
  exact congrArg (fun l : List LinkChallengeRecord =>
    (l.map (setClaimed telegramUserId displayName now).set).map
      (Change.put (L := layout) .linkChallenges)) hrows

/-- Where no challenge is claimed, nothing is written. -/
lemma unclaimed_of_eval {tokenHash : String} {telegramUserId : ℤ} {displayName : Option String}
    {now : Instant}
    (h : accountConduct.eval (.claimChallenge tokenHash telegramUserId displayName now) busy s =
      .ok (none, ws)) : ws = [] := by
  rcases Conduct.eval_eq_ok h with ⟨as, hperform, hchanges, -⟩ | ⟨-, -, -, -, hv, -⟩
  swap
  · cases hv
  obtain ⟨hhead, rfl⟩ := Prod.mk.inj (Except.ok.inj hperform)
  have hrows := List.map_eq_nil_iff.mp (List.head?_eq_none_iff.mp hhead)
  rw [Action.changesAll_singleton] at hchanges
  refine (Action.changes_update hchanges).trans ?_
  exact congrArg (fun l : List LinkChallengeRecord =>
    (l.map (setClaimed telegramUserId displayName now).set).map
      (Change.put (L := layout) .linkChallenges)) hrows

/-- A user who was deleted is gone. -/
lemma erased_of_eval {userId : UUID} {r : Unit}
    (h : accountConduct.eval (.deleteOwned .users userId) busy s = .ok (r, ws)) :
    Store.find (s.applyAll ws) .users userId = none := by
  rcases Conduct.eval_eq_ok h with ⟨as, hperform, hchanges, -⟩ | ⟨-, -, -, -, hv, -⟩
  swap
  · cases hv
  obtain ⟨-, rfl⟩ := Prod.mk.inj (Except.ok.inj hperform)
  obtain ⟨ws₁, -, hchanges⟩ := Option.bind_eq_some_iff.mp hchanges
  obtain ⟨ws₂, hdelete, rfl⟩ := Option.map_eq_some_iff.mp hchanges
  rw [Action.changesAll_singleton] at hdelete
  rw [Store.applyAll_append, Action.changes_delete hdelete, Store.find_drops]
  split_ifs with hgone
  · rfl
  · refine Option.eq_none_iff_forall_ne_some.mpr fun user huser => hgone ?_
    have hid : user.id = userId := Table.key_of_find huser
    refine List.mem_map.mpr ⟨user, List.mem_filter.mpr ⟨Table.mem_of_find huser, ?_⟩, ?_⟩
    · exact decide_eq_true hid
    · rw [← hid]
      rfl

/-- A tombstone that was set is there.

**Proof sketch.** If the user has a tombstone it is updated, and otherwise one is inserted. -/
lemma buried_of_eval {row : DeletedAccountRecord} {r : Unit}
    (h : accountConduct.eval (.putTombstone row) busy s = .ok (r, ws)) :
    Store.find (s.applyAll ws) .deletedAccounts row.userId = some row ∧
      ∃ m, (rowLock .deletedAccounts row.userId, m) ∈
        accountConduct.locks (.putTombstone row) busy s ∧ .noKeyUpdate ≤ m := by
  cases hold : s.find .deletedAccounts row.userId with
  | some x =>
    have hperform : AccountStmt.perform (.putTombstone row) busy s = .ok ((),
        [.update .deletedAccounts (fun r => decide (r.userId = row.userId))
          (setDeleted row.deletedAt)]) := by
      show Except.ok ((), if (s.find .deletedAccounts row.userId).isSome then _ else _) = _
      rw [hold]
      rfl
    obtain ⟨-, hchanges, hlocks⟩ := eval_action rfl hperform h
    have hid : x.userId = row.userId := Table.key_of_find hold
    have hset : (setDeleted row.deletedAt).set x = row := by
      show DeletedAccountRecord.mk x.userId row.deletedAt = row
      rw [hid]
    refine ⟨?_, .noKeyUpdate, hlocks _ ?_, Nat.le_refl _⟩
    · refine (Action.find_update hchanges row.userId).trans ?_
      rw [hold]
      exact congrArg some ((if_pos (decide_eq_true hid)).trans hset)
    · refine List.mem_flatMap.mpr ⟨x, List.mem_filter.mpr ⟨Table.mem_of_find hold, ?_⟩, ?_⟩
      · exact decide_eq_true hid
      · rw [← hid]
        exact List.mem_cons_self
  | none =>
    have hperform : AccountStmt.perform (.putTombstone row) busy s = .ok ((),
        [.insert .deletedAccounts row]) := by
      show Except.ok ((), if (s.find .deletedAccounts row.userId).isSome then _ else _) = _
      rw [hold]
      rfl
    obtain ⟨-, hfind, -, hlock⟩ := inserted_of_eval rfl hperform h
    exact ⟨hfind, .update, hlock, by decide⟩

end Effects

end MintFlow.Accounts
