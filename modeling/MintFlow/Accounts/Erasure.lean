import MintFlow.Accounts.Links
import MintFlow.Lib.Outbox

set_option relaxedAutoImplicit false
set_option autoImplicit false

/-!
# Accounts: a deletion under way

A transaction that deletes an account works through the tables in their order. Until it comes to the
sign-in challenges it has left them alone, and the email identities that select them; the challenges
that are committed at that moment are dropped when it commits. Of the audit records it clears those of
its user, and sees the others as they are committed.

Both say more than what fits a standing: the sign-in challenges of an address do not refer to its user,
and a challenge that another session commits after they were deleted stays.

## Main definitions

* `MintFlow.Accounts.Phase.forgot` — the user whose sign-in challenges a transaction deleted.
* `MintFlow.Accounts.DeletesSignIns` — the moment at which a session deleted them.
* `MintFlow.Accounts.Erasing` — what is kept.

## Main results

* `MintFlow.Accounts.Erasing.run` — it holds in every run.
-/

namespace MintFlow.Accounts

open Transact

/-- The user whose sign-in challenges a transaction deleted. -/
def Phase.forgot : Phase → Option UUID
  | deleting userId done => if .loginChallenges ∈ done then some userId else none
  | deleted userId => some userId
  | buried tombstone => some tombstone.userId
  | _ => none

/-- Sign-in challenges and identities are left alone until it is their turn. -/
def Standing.InTurn (k : Standing) (w : Change layout) : Prop :=
  ∀ userId done, k.phase = .deleting userId done →
    w.tab = .loginChallenges ∨ w.tab = .emailIdentities → w.tab ∈ done

/-- The tables before the sign-in challenges are neither these nor the identities.

**Proof sketch.** The tables are all different, so the position of the sign-in challenges tells how
many there are before them, and these are the first four. -/
lemma not_mem_done {done rest : List AccountTable}
    (h : ownedTables = done ++ .loginChallenges :: rest) :
    .loginChallenges ∉ done ∧ .emailIdentities ∉ done := by
  have hnodup : ownedTables.Nodup := by decide
  rw [h] at hnodup
  have hno : .loginChallenges ∉ done := fun hmem =>
    (List.nodup_append.mp hnodup).2.2 _ hmem _ List.mem_cons_self rfl
  have hposition : List.idxOf .loginChallenges ownedTables = done.length := by
    rw [h, List.idxOf_append_of_notMem hno, List.idxOf_cons_self, Nat.add_zero]
  have hdone : done = ownedTables.take done.length := by rw [h, List.take_left]
  rw [← hposition] at hdone
  rw [hdone]
  decide

section Turns

variable {o : AccountStmt} {p p' : Phase} {userId : UUID}

/-- A transaction that works through the tables did so before, or has just locked the user.

**Proof sketch.** By the turn. The lock of the user begins the deletion, a table that is worked
through is added to those done, and nothing else in that phase writes challenges or identities. -/
lemma Turn.deleting_from {r : o.Resp} {done' : List AccountTable} (h : Turn o r p p')
    (hp' : p' = .deleting userId done') :
    (∃ done, p = .deleting userId done ∧ done ⊆ done' ∧ ∀ t ∈ o.tables,
      t = .loginChallenges ∨ t = .emailIdentities → t ∈ done') ∨
    p.isBusy = false ∧ o.tables = [] := by
  cases h with
  | reads htables =>
    refine .inl ⟨done', hp', List.Subset.refl _, fun t ht => ?_⟩
    rw [htables] at ht
    cases ht
  | logs =>
    refine .inl ⟨done', hp', List.Subset.refl _, fun t ht hcases => ?_⟩
    obtain rfl := List.mem_singleton.mp ht
    rcases hcases with h | h <;> cases h
  | reserves => exact .inr ⟨rfl, rfl⟩
  | @removes t u done rest _ ht =>
    obtain ⟨rfl, rfl⟩ := Phase.deleting.inj hp'
    refine .inl ⟨done, rfl, List.subset_append_left _ _, fun t' ht' hcases => ?_⟩
    have htables : t' = t ∨ t = .webSessions ∧ t' = .linkChallenges := by
      cases t with
      | users => exact absurd (mem_ownedTables ht) (by decide)
      | webSessions =>
        rcases List.mem_cons.mp ht' with rfl | ht'
        · exact .inr ⟨rfl, rfl⟩
        · exact .inl (List.mem_singleton.mp ht')
      | _ => exact .inl (List.mem_singleton.mp ht')
    rcases htables with rfl | ⟨-, rfl⟩
    · exact List.mem_append_right _ List.mem_cons_self
    · rcases hcases with h | h <;> cases h
  | clears =>
    obtain ⟨rfl, rfl⟩ := Phase.deleting.inj hp'
    refine .inl ⟨_, rfl, List.Subset.refl _, fun t ht hcases => ?_⟩
    obtain rfl := List.mem_singleton.mp ht
    rcases hcases with h | h <;> cases h
  | _ => cases hp'

/-- The sign-in challenges were deleted before, or are so now, in their turn. -/
lemma Turn.forgot_from {r : o.Resp} (h : Turn o r p p') (hforgot : p'.forgot = some userId) :
    p.forgot = some userId ∨ o = .deleteOwned .loginChallenges userId ∧
      ∃ done rest, p = .deleting userId done ∧ ownedTables = done ++ .loginChallenges :: rest := by
  cases h with
  | reads | logs | clears | marks => exact .inl hforgot
  | erases => exact .inl hforgot
  | reserves => cases hforgot
  | @removes t u done rest _ ht =>
    obtain ⟨hmem, hu⟩ := Option.ite_none_right_eq_some.mp hforgot
    obtain rfl := Option.some.inj hu
    rcases List.mem_append.mp hmem with hold | hnew
    · exact .inl (if_pos hold)
    · obtain rfl := List.mem_singleton.mp hnew
      exact .inr ⟨rfl, done, rest, rfl, ht⟩
  | _ => cases hforgot

end Turns

section Erasing

variable {ι : Type} [DecidableEq ι] {start c c' : AccountSystem ι} {ls : List (Label ι)}
  {l : Label ι} {i j : ι} {userId : UUID}

/-- **The moment** at which session `i` deleted the sign-in challenges of a user's address, in the
transaction it is in after the run: right before, the run was at `before`. -/
def DeletesSignIns (start : AccountSystem ι) (ls : List (Label ι)) (c : AccountSystem ι) (i : ι)
    (userId : UUID) (before : AccountSystem ι) : Prop :=
  ∃ (ls₁ : List (Label ι)) (l : Label ι) (ls₂ : List (Label ι)) (after : AccountSystem ι)
    (es : List (Event accounting)),
    ls = ls₁ ++ l :: ls₂ ∧ run accountDatabase start ls₁ = some before ∧
    step accountDatabase before l = some after ∧
    after.history i =
      before.history i ++ [.did (AccountStmt.deleteOwned .loginChallenges userId) ()] ∧
    c.history i = after.history i ++ es ∧ .committed ∉ es ∧ .rolledBack ∉ es

/-- It stays the moment while the transaction goes on. -/
lemma DeletesSignIns.next {before : AccountSystem ι} (h : DeletesSignIns start ls c i userId before)
    (hhistory : c'.history i = c.history i ∨
      ∃ (o : AccountStmt) (r : o.Resp), c'.history i = c.history i ++ [.did o r]) (l : Label ι) :
    DeletesSignIns start (ls ++ [l]) c' i userId before := by
  obtain ⟨ls₁, l₁, ls₂, after, es, rfl, hrun, hstep, hdid, hes, hcommitted, hrolledBack⟩ := h
  have hsplit : ls₁ ++ l₁ :: ls₂ ++ [l] = ls₁ ++ l₁ :: (ls₂ ++ [l]) := List.append_assoc _ _ _
  rcases hhistory with hsame | ⟨o, r, hsame⟩
  · exact ⟨ls₁, l₁, ls₂ ++ [l], after, es, hsplit, hrun, hstep, hdid, hsame.trans hes, hcommitted,
      hrolledBack⟩
  · refine ⟨ls₁, l₁, ls₂ ++ [l], after, es ++ [.did o r], hsplit, hrun, hstep, hdid, ?_, ?_, ?_⟩
    · rw [hsame, hes, List.append_assoc]
    · intro hmem
      exact hcommitted ((List.mem_append.mp hmem).resolve_right fun h => by
        cases List.mem_singleton.mp h)
    · intro hmem
      exact hrolledBack ((List.mem_append.mp hmem).resolve_right fun h => by
        cases List.mem_singleton.mp h)

/-- **What is kept** while accounts are deleted. Sign-in challenges and identities are left alone until
it is their turn; a session that deletes an account sees the audit records of others as they are
committed; and once it deleted the sign-in challenges of the address, those that were committed then
are pending to be dropped. -/
structure Erasing (start : AccountSystem ι) (ls : List (Label ι)) (c : AccountSystem ι) : Prop where
  kept : AccountsKept c
  inTurn : ∀ i, Wrote accountTracker Standing.InTurn c i
  spared : ∀ i, (c.sessions i).closed = false → ∀ userId,
    (standing c i).phase.erases = some userId →
    ∀ x ∈ c.db .auditRecords, x.userId ≠ some userId → x ∈ c.view accountDatabase i .auditRecords
  forgotten : ∀ i, (c.sessions i).closed = false → ∀ userId,
    (standing c i).phase.forgot = some userId →
    ∃ before, DeletesSignIns start ls c i userId before ∧ ∀ x ∈ before.db .loginChallenges,
      Identified before.db x.canonicalEmail userId → .drop .loginChallenges x ∈ (c.sessions i).pending

/-- The turns are kept by a statement. -/
lemma AccountsKept.inTurn_of_move (h : AccountsKept c)
    (hturns : ∀ i, Wrote accountTracker Standing.InTurn c i) (hmove : Move accountDatabase c j c')
    (i : ι) : Wrote accountTracker Standing.InTurn c' i := by
  refine wrote_of_move (fun o f r ws hp heval => ?_) hturns hmove i
  have hturn := turn_of_mayDo ((h.tracks j).mayDo hp) r
  refine ⟨fun w hw hfits userId done' hp' hcases => ?_, fun w hw userId done' hp' hcases => ?_⟩
  · rcases hturn.deleting_from hp' with ⟨done, hdone, hsub, -⟩ | ⟨hquiet, -⟩
    · exact hsub (hfits userId done hdone hcases)
    · exact absurd (h.wrote j w hw) (not_fits_of_quiet hquiet)
  · have htab := tab_mem_tables heval hw
    rcases hturn.deleting_from hp' with ⟨-, -, -, htables⟩ | ⟨-, hnone⟩
    · exact htables _ htab hcases
    · rw [hnone] at htab
      cases htab

/-- An audit record that an update of the records of a user rewrites is one of them. -/
lemma cleared_of_changes {s : AccountData} {ws : List (Change layout)}
    (h : (Action.update (L := layout) .auditRecords (s.owned userId .auditRecords) clearUser).changes s = some ws)
    {w : Change layout} (hw : w ∈ ws) :
    ∃ y ∈ s .auditRecords, y.userId = some userId ∧ w = .put .auditRecords (clearUser.set y) := by
  rw [Action.changes_update h, List.map_map] at hw
  obtain ⟨y, hy, rfl⟩ := List.mem_map.mp hw
  obtain ⟨hmem, howned⟩ := List.mem_filter.mp hy
  exact ⟨y, hmem, of_decide_eq_true howned, rfl⟩

/-- The audit records that the deletion of a user clears are those of the user. -/
lemma cleared_of_eval {busy : Lock layout → Bool} {s : AccountData} {r : Unit}
    {ws : List (Change layout)}
    (heval : accountConduct.eval (.deleteOwned .users userId) busy s = .ok (r, ws))
    {w : Change layout} (hw : w ∈ ws) (htab : w.tab = .auditRecords) :
    ∃ y ∈ s .auditRecords, y.userId = some userId ∧ w = .put .auditRecords (clearUser.set y) := by
  rcases Conduct.eval_eq_ok heval with ⟨as, hperform, hchanges, -⟩ | ⟨-, -, -, -, -, rfl⟩
  swap
  · cases hw
  obtain ⟨-, rfl⟩ := Prod.mk.inj (Except.ok.inj hperform)
  obtain ⟨ws₁, hclears, hrest⟩ := Option.bind_eq_some_iff.mp hchanges
  obtain ⟨ws₂, hdeletes, rfl⟩ := Option.map_eq_some_iff.mp hrest
  rcases List.mem_append.mp hw with hw | hw
  · exact cleared_of_changes hclears hw
  · obtain ⟨a, ha, hmakes⟩ := Action.exists_makes hdeletes hw
    obtain rfl := List.mem_singleton.mp ha
    obtain ⟨x, -, rfl⟩ := hmakes
    cases htab

/-- A statement of a transaction that deletes an account leaves the audit records of others alone.

**Proof sketch.** A write of the record would be the audit record of the deletion, with a new
identifier, or would clear the user of a record of that user. The other turns of the transaction do
not write audit records. -/
lemma Turn.spares {o : AccountStmt} {r : o.Resp} {p p' : Phase} (hturn : Turn o r p p')
    {busy : Lock layout → Bool} {s : AccountData} {ws : List (Change layout)}
    (heval : accountConduct.eval o busy s = .ok (r, ws)) (herases : p'.erases = some userId)
    {x : AuditRecord} (hx : x ∈ s .auditRecords) (hother : x.userId ≠ some userId) :
    x ∈ Store.applyAll s ws .auditRecords := by
  refine (RowSet.mem_applyAll (R := Store.rowSet accountConduct .auditRecords)).mpr
    (.inr ⟨hx, fun w hw hkey => ?_⟩)
  have htab : w.tab = .auditRecords := by
    cases w with
    | put t y => exact (Lock.row.inj (Store.row_mem_keys_put.mp hkey)).1.symm
    | drop t y => exact (Lock.row.inj (Store.row_mem_keys_drop.mp hkey)).1.symm
  have hmem : AccountTable.auditRecords ∈ o.tables := htab ▸ tab_mem_tables heval hw
  -- A record that is cleared is another one.
  have hclears : ∀ {u : UUID}, userId = u → (∃ y ∈ s .auditRecords, y.userId = some u ∧
      w = .put .auditRecords (clearUser.set y)) → False := by
    rintro u rfl ⟨y, hy, howner, rfl⟩
    obtain ⟨-, hid⟩ := Lock.row.inj (Store.row_mem_keys_put.mp hkey)
    obtain rfl : x = y := Table.eq_of_key_eq hx hy (eq_of_heq hid)
    exact hother howner
  cases hturn with
  | @logs record =>
    have hinserted := inserted_of_eval (o := .appendAudit record) rfl rfl heval
    obtain ⟨hnew, -, rfl, -⟩ := hinserted
    obtain rfl := List.mem_singleton.mp hw
    obtain ⟨-, hid⟩ := Lock.row.inj (Store.row_mem_keys_put.mp hkey)
    have hfind : s.find .auditRecords x.id = some x := Table.find_of_mem hx
    have hsame : x.id = record.id := eq_of_heq hid
    rw [hsame] at hfind
    exact Option.eq_none_iff_forall_ne_some.mp hnew x hfind
  | clears =>
    obtain ⟨-, hchanges, -⟩ := eval_action rfl rfl heval
    exact hclears (Option.some.inj herases).symm (cleared_of_changes hchanges hw)
  | erases => exact hclears (Option.some.inj herases).symm (cleared_of_eval heval hw htab)
  | @removes t _ _ _ _ ht =>
    cases t with
    | users | auditRecords | deletedAccounts => exact absurd (mem_ownedTables ht) (by decide)
    | _ => exact absurd hmem (of_decide_eq_false rfl)
  | reads htables =>
    rw [htables] at hmem
    cases hmem
  | reserves | marks => exact absurd hmem (of_decide_eq_false rfl)
  | _ => cases herases

/-- **Audit records of others** are seen as they are committed, after every move of a session that
deletes an account, and of another one.

**Proof sketch.** A move of another session changes only records that the session does not hold, and
these it sees as they are committed; those it holds do not change. Its own statements are
`Turn.spares`, and when it begins to delete the account it has written nothing. -/
lemma Erasing.spared_of_move (h : Erasing start ls c) (hopen : (c.sessions j).closed = false)
    (hmove : Move accountDatabase c j c') (i : ι) (hopen' : (c'.sessions i).closed = false)
    (herases : (standing c' i).phase.erases = some userId) {x : AuditRecord}
    (hx : x ∈ c'.db .auditRecords) (hother : x.userId ≠ some userId) :
    x ∈ c'.view accountDatabase i .auditRecords := by
  have hsound := h.kept.guarding.sound
  have hguard := Store.guarded_row (X := accountConduct) .auditRecords x.id
  by_cases hj : j = i
  swap
  · unfold standing at herases
    rw [history_stable hj hmove] at herases
    rw [session_stable hj hmove] at hopen'
    have hfind' : c'.db.find .auditRecords x.id = some x := Table.find_of_mem hx
    cases hlock : c.holds i (rowLock .auditRecords x.id) .noKeyUpdate with
    | true =>
      have hshare := Config.holds_mono (m := .share) (by decide) hlock
      have hdb : c'.db.find .auditRecords x.id = c.db.find .auditRecords x.id :=
        db_stable hsound hguard hshare hj hmove
      have hview : Store.find (c'.view accountDatabase i) .auditRecords x.id =
          Store.find (c.view accountDatabase i) .auditRecords x.id :=
        view_stable hsound hguard hshare hj hmove
      have hseen := h.spared i hopen' userId herases x (Table.mem_of_find (hdb ▸ hfind')) hother
      exact Table.mem_of_find (hview.trans (Table.find_of_mem hseen))
    | false =>
      have hlock' := (holds_stable hj hmove).trans hlock
      have hview : Store.find (c'.view accountDatabase i) .auditRecords x.id =
          c'.db.find .auditRecords x.id :=
        view_eq_of_not_holds (h.kept.guarding.move hmove).sound hguard hlock'
      exact Table.mem_of_find (hview.trans hfind')
  subst hj
  rcases own_of_move accountTracker hmove with
    ⟨o, f, r, ws, hp, heval, hpending, hstate, hdb, -⟩ | ⟨-, hend⟩ | ⟨hpending, hhistory, hdb⟩
  · have hturn := turn_of_mayDo ((h.kept.tracks j).mayDo hp) r
    have herases' : ((standing c j).phase.after o r).erases = some userId := by
      unfold standing at herases
      rw [hstate] at herases
      exact herases
    have hview : c'.view accountDatabase j = (c.view accountDatabase j).applyAll ws := by
      unfold Config.view
      rw [hpending, hdb, Backend.applyAll_append]
      rfl
    rw [hdb] at hx
    rw [hview]
    refine hturn.spares heval herases' ?_ hother
    rcases hturn.erases_from herases' with hold | ⟨hidle, -⟩
    · exact h.spared j hopen userId hold x hx hother
    · rw [h.kept.same fun w hfits => absurd hfits (not_fits_of_quiet (hidle ▸ rfl))]
      exact hx
  · exfalso
    have hidle : (standing c' j).phase = .idle := by
      rcases hend with ⟨hclosed, -⟩ | hcommitted | hrolledBack
      · rw [hclosed] at hopen'
        cases hopen'
      · exact congrArg Standing.phase hcommitted
      · exact congrArg Standing.phase hrolledBack
    rw [hidle] at herases
    cases herases
  · unfold standing at herases
    rw [hhistory] at herases
    rw [hdb] at hx
    unfold Config.view
    rw [hpending, hdb]
    exact h.spared j hopen userId herases x hx hother

/-- The sign-in challenges of an address are dropped when they are deleted in their turn.

**Proof sketch.** Neither the challenges nor the identities have been touched by the transaction so
far, so it sees the committed ones. By the identity that there is, the challenge is among those the
statement drops. -/
lemma drop_of_eval (hturns : ∀ i, Wrote accountTracker Standing.InTurn c i)
    {busy : Lock layout → Bool} {r : Unit} {ws : List (Change layout)} {done rest : List AccountTable}
    (hphase : (standing c j).phase = .deleting userId done)
    (hrest : ownedTables = done ++ .loginChallenges :: rest)
    (heval : accountConduct.eval (.deleteOwned .loginChallenges userId) busy
      (c.view accountDatabase j) = .ok (r, ws)) {x : LoginChallengeRecord}
    (hx : x ∈ c.db .loginChallenges) (hidentified : Identified c.db x.canonicalEmail userId) :
    .drop .loginChallenges x ∈ ws := by
  obtain ⟨hchallenges, hidentities⟩ := not_mem_done hrest
  have hsame : ∀ {t : AccountTable}, t = .loginChallenges ∨ t = .emailIdentities →
      c.view accountDatabase j t = c.db t := by
    intro t ht
    refine Store.applyAll_of_ne fun w hw htab => ?_
    have hmem := hturns j w hw userId done hphase (htab ▸ ht)
    rw [htab] at hmem
    rcases ht with rfl | rfl
    · exact hchallenges hmem
    · exact hidentities hmem
  obtain ⟨-, hchanges, -⟩ := eval_action rfl rfl heval
  obtain ⟨e, he, hemail, huser⟩ := hidentified
  refine Action.drop_of_changes hchanges ?_ (List.any_eq_true.mpr ⟨e, ?_, ?_⟩)
  · rw [hsame (.inl rfl)]
    exact hx
  · rw [hsame (.inr rfl)]
    exact he
  · rw [Bool.and_eq_true_iff]
    exact ⟨decide_eq_true huser, decide_eq_true hemail⟩

/-- **Sign-in challenges** that were committed when a session deleted them are still pending to be
dropped.

**Proof sketch.** If another session moves, or this one only goes on, the drops stay pending. The
statement that deletes the challenges drops all that are committed then (`drop_of_eval`), and that
moment is the state before. -/
lemma Erasing.forgotten_of_step (h : Erasing start ls c)
    (hrun : run accountDatabase start ls = some c) (hstep : step accountDatabase c l = some c') (i : ι)
    (hopen' : (c'.sessions i).closed = false)
    (hforgot : (standing c' i).phase.forgot = some userId) :
    ∃ before, DeletesSignIns start (ls ++ [l]) c' i userId before ∧
      ∀ x ∈ before.db .loginChallenges, Identified before.db x.canonicalEmail userId →
        .drop .loginChallenges x ∈ (c'.sessions i).pending := by
  obtain ⟨hopen, hmove⟩ := move_of_step hstep
  by_cases hj : l.who = i
  swap
  · unfold standing at hforgot
    rw [history_stable hj hmove] at hforgot
    rw [session_stable hj hmove] at hopen' ⊢
    obtain ⟨before, hmoment, hdrops⟩ := h.forgotten i hopen' userId hforgot
    exact ⟨before, hmoment.next (.inl (history_stable hj hmove)) l, hdrops⟩
  subst hj
  rcases own_of_move accountTracker hmove with
    ⟨o, f, r, ws, hp, heval, hpending, hstate, -, hhistory⟩ | ⟨-, hend⟩ | ⟨hpending, hhistory, -⟩
  · have hturn := turn_of_mayDo ((h.kept.tracks l.who).mayDo hp) r
    unfold standing at hforgot
    rw [hstate] at hforgot
    rw [hpending]
    rcases hturn.forgot_from hforgot with hold | ⟨rfl, done, rest, hphase, hrest⟩
    · obtain ⟨before, hmoment, hdrops⟩ := h.forgotten l.who hopen userId hold
      exact ⟨before, hmoment.next (.inr ⟨o, r, hhistory⟩) l,
        fun x hx hidentified => List.mem_append_left _ (hdrops x hx hidentified)⟩
    · have hdeletes : accountConduct.eval (.deleteOwned .loginChallenges userId) (c.busy l.who)
          (c.view accountDatabase l.who) = .ok (r, ws) := heval
      exact ⟨c, ⟨ls, l, [], c', [], rfl, hrun, hstep, hhistory, (List.append_nil _).symm,
        List.not_mem_nil, List.not_mem_nil⟩, fun x hx hidentified => List.mem_append_right _
          (drop_of_eval h.inTurn hphase hrest hdeletes hx hidentified)⟩
  · exfalso
    have hidle : (standing c' l.who).phase = .idle := by
      rcases hend with ⟨hclosed, -⟩ | hcommitted | hrolledBack
      · rw [hclosed] at hopen'
        cases hopen'
      · exact congrArg Standing.phase hcommitted
      · exact congrArg Standing.phase hrolledBack
    rw [hidle] at hforgot
    cases hforgot
  · unfold standing at hforgot
    rw [hhistory] at hforgot
    rw [hpending]
    obtain ⟨before, hmoment, hdrops⟩ := h.forgotten l.who hopen userId hforgot
    exact ⟨before, hmoment.next (.inl hhistory) l, hdrops⟩

/-- **It is kept** by every step. -/
theorem Erasing.step (h : Erasing start ls c) (hrun : run accountDatabase start ls = some c)
    (hstep : step accountDatabase c l = some c') : Erasing start (ls ++ [l]) c' where
  kept := h.kept.move (move_of_step hstep).1 (move_of_step hstep).2
  inTurn := h.kept.inTurn_of_move h.inTurn (move_of_step hstep).2
  spared i hopen' _ herases _ hx hother :=
    h.spared_of_move (move_of_step hstep).1 (move_of_step hstep).2 i hopen' herases hx hother
  forgotten i hopen' _ hforgot := h.forgotten_of_step hrun hstep i hopen' hforgot

/-- **It is kept** in every run from a database that satisfies its constraints.

**Proof sketch.** By induction on the run, from its end: the last step keeps what the run before it
kept, and the moment at which sign-in challenges were deleted lies in the run before it, or is the
last step. -/
theorem Erasing.run [PythonRuntime] {runtime : SignInRuntime} {db : AccountData}
    {requests : ι → AccountRequest} {tapes : ι → Stream' AccountReading} (hdb : db.Intact)
    (hrun : run accountDatabase (accountsStarted runtime db requests tapes) ls = some c) :
    Erasing (accountsStarted runtime db requests tapes) ls c := by
  induction ls using List.reverseRecOn generalizing c with
  | nil =>
    obtain rfl := Option.some.inj hrun
    exact {
      kept := AccountsKept.start runtime requests tapes hdb
      inTurn := fun i w hw => absurd hw List.not_mem_nil
      spared := fun i _ userId herases => by cases herases
      forgotten := fun i _ userId hforgot => by cases hforgot }
  | append_singleton ls l ih =>
    rw [run_append] at hrun
    obtain ⟨c₁, hrun₁, hlast⟩ := Option.bind_eq_some_iff.mp hrun
    obtain ⟨c₂, hstep, hnil⟩ := Option.bind_eq_some_iff.mp hlast
    obtain rfl := Option.some.inj hnil
    exact (ih hrun₁).step hrun₁ hstep

end Erasing

end MintFlow.Accounts
