import MintFlow.Persistence.Schema

set_option relaxedAutoImplicit false
set_option autoImplicit false

/-!
# Account deletion

One transaction in dependency order. Foreign keys stay `RESTRICT`, so every row goes by an explicit
statement and nothing is removed by an accidental cascade.

## Main definitions

* `MintFlow.deleteOwnedRows` — the statements, in their order.
* `MintFlow.deleteAccount` — the transaction, any statement of which may be interrupted.
* `MintFlow.Belongs` — the rows of a user.
* `MintFlow.erasedTable` — what is left of a table.

## Main results

* `MintFlow.account_deletion` — the account is erased, nothing else is, and it is all or nothing.
-/

namespace MintFlow

open Transact

/-! ## The statements -/

/-- `AuthenticationAuditEventType`. -/
inductive AuthenticationAuditEventType
  | loginChallengeRequested
  | loginSucceeded
  | loginFailed
  | currentSessionRevoked
  | allSessionsRevoked
  | telegramLinkClaimed
  | telegramLinked
  | telegramUnlinked
  | accountDeleted
deriving DecidableEq

/-- The stored value of an event type. -/
def AuthenticationAuditEventType.value : AuthenticationAuditEventType → String
  | .loginChallengeRequested => "login_challenge_requested"
  | .loginSucceeded => "login_succeeded"
  | .loginFailed => "login_failed"
  | .currentSessionRevoked => "current_session_revoked"
  | .allSessionsRevoked => "all_sessions_revoked"
  | .telegramLinkClaimed => "telegram_link_claimed"
  | .telegramLinked => "telegram_linked"
  | .telegramUnlinked => "telegram_unlinked"
  | .accountDeleted => "account_deleted"

/-- `AuthenticationAuditOutcome`. -/
inductive AuthenticationAuditOutcome
  | succeeded
  | failed
deriving DecidableEq

/-- The stored value of an outcome. -/
def AuthenticationAuditOutcome.value : AuthenticationAuditOutcome → String
  | .succeeded => "succeeded"
  | .failed => "failed"

/-- `AccountDeletion`, with the audit record the use case makes for it. -/
structure AccountDeletion where
  userId : UUID
  deletedAt : Instant
  auditId : UUID
  eventType : AuthenticationAuditEventType
  outcome : AuthenticationAuditOutcome

/-- `DeleteAccount.execute`, up to the repository. -/
def accountDeletion (userId : UUID) (now : Instant) (auditId : UUID) : AccountDeletion :=
  ⟨userId, now, auditId, .accountDeleted, .succeeded⟩

/-- `a = b` of a condition: no comparison with an unset value holds. -/
def sqlEq (a b : Option SqlValue) : Bool := a.isSome && decide (a = b)

/-- `column = :user_id`. -/
def columnIs (column : TableColumn) (userId : UUID) (r : SqlRow) : Bool :=
  sqlEq (r column) (some (.uuid userId))

/-- `column IN (SELECT selected FROM table WHERE owner = :user_id)`. -/
def columnInOwned (column : TableColumn) (table : TableName) (selected owner : TableColumn) (userId : UUID)
    (s : SqlState) (r : SqlRow) : Bool :=
  (s table).any fun row => columnIs owner userId row && sqlEq (r column) (row selected)

/-- The statements of the transaction after the lock. -/
inductive SqlStatement
  | delete (deletion : Deletion TableName TableColumn SqlValue)
  | clear (table : TableName) (column : TableColumn) (condition : SqlRow → Bool)
  | insertTombstone (userId : UUID) (deletedAt : Instant)
  | insertAudit (deletion : AccountDeletion)

/-- `_DELETE_OWNED_ROWS`. Drafts and Expenses reference each other, so one statement deletes both. -/
def deleteOwnedRows (userId : UUID) : List SqlStatement :=
  [.delete [(.telegramConversations, fun _ => columnIs .userId userId)],
    .delete [(.expenseChangeRecords, fun s r => columnIs .actorUserId userId r ||
      columnInOwned .expenseId .expenses .id .ownerId userId s r)],
    .delete [(.expenses, fun _ => columnIs .ownerId userId),
      (.captureDrafts, fun _ => columnIs .ownerId userId)],
    .delete [(.recognitionResults, fun _ => columnIs .ownerId userId)],
    .delete [(.receipts, fun _ => columnIs .ownerId userId)],
    .delete [(.telegramLinkChallenges, fun _ => columnIs .initiatingUserId userId)],
    .delete [(.telegramConnections, fun _ => columnIs .userId userId)],
    .delete [(.webSessions, fun _ => columnIs .userId userId)],
    .delete [(.loginChallenges,
      columnInOwned .canonicalEmail .emailIdentities .canonicalEmail .userId userId)],
    .delete [(.emailIdentities, fun _ => columnIs .userId userId)],
    .clear .authenticationAuditRecords .userId (columnIs .userId userId),
    .delete [(.users, fun _ => columnIs .id userId)]]

/-- Why the transaction failed. -/
inductive DeletionFailure
  | violation (violation : Violation TableName TableColumn)
  | uniqueViolation
  | checkViolation
  | interrupted
deriving DecidableEq

/-- A row of `deleted_accounts`. -/
def tombstone (userId : UUID) (deletedAt : Instant) : SqlRow
  | .userId => some (.uuid userId)
  | .deletedAt => some (.timestamp deletedAt)
  | _ => none

/-- The anonymous row of `authentication_audit_records`. -/
def auditRow (deletion : AccountDeletion) : SqlRow
  | .id => some (.uuid deletion.auditId)
  | .occurredAt => some (.timestamp deletion.deletedAt)
  | .eventType => some (.text deletion.eventType.value)
  | .outcome => some (.text deletion.outcome.value)
  | _ => none

/-- The checks of `authentication_audit_records`. -/
def auditChecks (r : SqlRow) : Bool :=
  decide (r .eventType ∈ ["login_challenge_requested", "login_succeeded", "login_failed",
    "current_session_revoked", "all_sessions_revoked", "telegram_link_claimed", "telegram_linked",
    "telegram_unlinked", "account_deleted"].map fun text => some (SqlValue.text text)) &&
  decide (r .outcome ∈ ["succeeded", "failed"].map fun text => some (SqlValue.text text))

/-- `execute`. -/
def SqlStatement.execute (s : SqlState) : SqlStatement → Except DeletionFailure SqlState
  | .delete deletion => (deleteRows foreignKeys deletion s).mapError .violation
  | .clear table column condition =>
    .ok (Function.update s table ((s table).map fun r =>
      if condition r then Function.update r column none else r))
  | .insertTombstone userId deletedAt =>
    let held := columnIs .userId userId
    .ok (Function.update s .deletedAccounts
      (if (s .deletedAccounts).any held then
        (s .deletedAccounts).map fun r =>
          if held r then Function.update r .deletedAt (some (.timestamp deletedAt)) else r
      else s .deletedAccounts ++ [tombstone userId deletedAt]))
  | .insertAudit deletion =>
    if (s .authenticationAuditRecords).any fun r => r .id = some (.uuid deletion.auditId) then
      .error .uniqueViolation
    else if auditChecks (auditRow deletion) then
      .ok (Function.update s .authenticationAuditRecords
        (s .authenticationAuditRecords ++ [auditRow deletion]))
    else .error .checkViolation

/-- Execute statements one after the other; the n-th of the transaction may be interrupted. -/
def executeAll (interrupted : ℕ → Bool) : ℕ → List SqlStatement → SqlState →
    Except DeletionFailure SqlState
  | _, [], s => .ok s
  | n, statement :: statements, s =>
    if interrupted n then .error .interrupted
    else (statement.execute s).bind (executeAll interrupted (n + 1) statements)

/-- The statements after the lock. -/
def deletionStatements (deletion : AccountDeletion) : List SqlStatement :=
  deleteOwnedRows deletion.userId ++
    [.insertTombstone deletion.userId deletion.deletedAt, .insertAudit deletion]

/-- `_delete`: lock the user, then delete; whether there was one. -/
def deleteLocked (interrupted : ℕ → Bool) (deletion : AccountDeletion) (s : SqlState) :
    Except DeletionFailure (Bool × SqlState) :=
  if interrupted 0 then .error .interrupted
  else if (s .users).any (columnIs .id deletion.userId) then
    (executeAll interrupted 1 (deletionStatements deletion) s).map fun s' => (true, s')
  else .ok (false, s)

/-- `delete_account`: commit everything or nothing. -/
def deleteAccount (interrupted : ℕ → Bool) (deletion : AccountDeletion) (s : SqlState) :
    Except DeletionFailure Bool × SqlState :=
  match deleteLocked interrupted deletion s with
  | .error failure => (.error failure, s)
  | .ok (deleted, s') =>
    -- the commit may be interrupted as well
    if interrupted ((deletionStatements deletion).length + 1) then (.error .interrupted, s)
    else (.ok deleted, s')

/-! ## What is erased -/

/-- A row belongs to a user: its user column says so. An image belongs to its receipt's user, and a
login challenge to the user of its address. Audit records stay. -/
def belongs (userId : UUID) (s : SqlState) : TableName → SqlRow → Bool
  | .authenticationAuditRecords, _ => false
  | .loginChallenges, r =>
    columnInOwned .canonicalEmail .emailIdentities .canonicalEmail .userId userId s r
  | .receiptImages, r =>
    (s .receipts).any fun p => columnIs .ownerId userId p && imageReceipt.refers r p
  | t, r => (userColumn t).any fun column => columnIs column userId r

/-- An audit record without the user. -/
def clearUser (userId : UUID) (r : SqlRow) : SqlRow :=
  if columnIs .userId userId r then Function.update r .userId none else r

/-- What is left of a table. -/
def erasedTable (userId : UUID) (s : SqlState) (t : TableName) : List SqlRow :=
  if t = .authenticationAuditRecords then (s t).map (clearUser userId)
  else (s t).filter fun r => !belongs userId s t r

/-- The state when some tables have been erased. -/
def erase (userId : UUID) (s : SqlState) (done : List TableName) : SqlState := fun t =>
  if t ∈ done then erasedTable userId s t else s t

/-! ## Rows that go together -/

/-- A column holds a user's identifier. -/
lemma columnIs_iff {column : TableColumn} {userId : UUID} {r : SqlRow} :
    columnIs column userId r = true ↔ r column = some (.uuid userId) := by
  unfold columnIs sqlEq
  cases h : r column <;> simp

/-- The tables whose rows do not belong to the user their column names. -/
def isSpecial (t : TableName) : Bool :=
  t = .authenticationAuditRecords || t = .loginChallenges || t = .receiptImages

/-- In other tables the user column says whose a row is. -/
lemma belongs_eq {userId : UUID} {s : SqlState} {t : TableName} (h : isSpecial t = false)
    (r : SqlRow) :
    belongs userId s t r = (userColumn t).any fun column => columnIs column userId r := by
  cases t <;> first | rfl | cases h

/-- A row that refers to a row of a user belongs to that user, audit records apart.

**Proof sketch.** By the foreign key: that of the images goes by their receipt, one to the users by
the user column itself, and for all others the owners of both rows agree. -/
lemma belongs_of_refers {userId : UUID} {s : SqlState} (hs : OwnersAgree s)
    {key : ForeignKey TableName TableColumn} (hkey : key ∈ foreignKeys)
    (haudit : key.child ≠ .authenticationAuditRecords) {r p : SqlRow} (hr : r ∈ s key.child)
    (hp : p ∈ s key.parent) (hrefers : key.refers r p = true)
    (hbelongs : belongs userId s key.parent p = true) : belongs userId s key.child r = true := by
  have hparent : ∀ key ∈ foreignKeys, isSpecial key.parent = false := by decide
  rw [belongs_eq (hparent key hkey), Option.any_eq_true] at hbelongs
  obtain ⟨c', hc', hp'⟩ := hbelongs
  by_cases himage : key.child = .receiptImages
  · have honly : ∀ key ∈ foreignKeys, key.child = .receiptImages → key = imageReceipt := by decide
    obtain rfl := honly key hkey himage
    obtain rfl : c' = .ownerId := (Option.some.inj hc').symm
    exact List.any_eq_true.mpr ⟨p, hp, by rw [hp', hrefers]; rfl⟩
  have hchild : ∀ key ∈ foreignKeys, key.child ≠ .authenticationAuditRecords →
      key.child ≠ .receiptImages → isSpecial key.child = false := by decide
  rw [belongs_eq (hchild key hkey haudit himage), Option.any_eq_true]
  rw [columnIs_iff] at hp'
  by_cases husers : key.parent = .users
  · -- the key is the user column itself
    have hcolumn : ∀ key ∈ foreignKeys, key.parent = .users →
        key.columns = (userColumn key.child).toList ∧ key.references = [.id] := by decide
    obtain ⟨hcolumns, hreferences⟩ := hcolumn key hkey husers
    have hcolumn : ∀ key ∈ foreignKeys, key.parent = .users → (userColumn key.child).isSome := by
      decide
    obtain ⟨c, hc⟩ := Option.isSome_iff_exists.mp (hcolumn key hkey husers)
    have hid : c' = .id := by
      rw [husers] at hc'
      exact (Option.some.inj hc').symm
    unfold ForeignKey.refers at hrefers
    rw [hcolumns, hreferences, hc, Bool.and_eq_true, decide_eq_true_eq] at hrefers
    have hequal : r c = p .id := by simpa using hrefers.2
    exact ⟨c, hc, columnIs_iff.mpr (by rw [hequal, ← hid, hp'])⟩
  · -- the owners agree
    have hcolumn : ∀ key ∈ foreignKeys, key.child ≠ .receiptImages →
        (userColumn key.child).isSome := by decide
    obtain ⟨c, hc⟩ := Option.isSome_iff_exists.mp (hcolumn key hkey himage)
    have hequal := hs key hkey husers r hr p hp hrefers c hc c' hc'
    exact ⟨c, hc, columnIs_iff.mpr (hequal.trans hp')⟩

/-- An audit record without the user refers to no row of the user. -/
lemma refers_clearUser {userId : UUID} {s : SqlState} {key : ForeignKey TableName TableColumn}
    (hkey : key ∈ foreignKeys) (haudit : key.child = .authenticationAuditRecords) (r : SqlRow)
    {p : SqlRow} (hbelongs : belongs userId s key.parent p = true) :
    key.refers (clearUser userId r) p = false := by
  have honly : ∀ key ∈ foreignKeys, key.child = .authenticationAuditRecords →
      key = references .authenticationAuditRecords .userId .users .setNull := by decide
  obtain rfl := honly key hkey haudit
  have hid : p .id = some (.uuid userId) := by
    have hany : (userColumn .users).any (fun column => columnIs column userId p) = true := hbelongs
    exact columnIs_iff.mp hany
  unfold ForeignKey.refers references clearUser
  by_cases hr : columnIs .userId userId r = true
  · simp [hr]
  · rw [if_neg hr]
    rw [columnIs_iff] at hr
    simp [hid, hr]

/-! ## One statement -/

section Statements

variable {userId : UUID} {s : SqlState}

/-- Which tables are erased does not depend on the order. -/
lemma erase_congr {done done' : List TableName} (h : ∀ t, t ∈ done ↔ t ∈ done') :
    erase userId s done = erase userId s done' := by
  funext t
  unfold erase
  simp only [h t]

/-- Nothing is erased at first. -/
lemma erase_nil : erase userId s [] = s := by
  funext t
  exact if_neg List.not_mem_nil

/-- Removing a user's rows of a table erases it. -/
lemma remove_erase {done : List TableName} {t : TableName} (ht : t ∉ done)
    (haudit : t ≠ .authenticationAuditRecords) {gone : SqlRow → Bool}
    (hgone : ∀ r ∈ s t, gone r = belongs userId s t r) :
    (erase userId s done).remove t gone = erase userId s (t :: done) := by
  funext t'
  unfold Rows.remove
  by_cases hsame : t' = t
  · subst hsame
    rw [Function.update_self]
    unfold erase erasedTable
    rw [if_neg ht, if_pos List.mem_cons_self, if_neg haudit]
    exact List.filter_congr fun r hr => by rw [hgone r hr]
  · rw [Function.update_of_ne hsame]
    unfold erase
    simp [hsame]

/-- Removing a user's rows of several tables erases these. -/
lemma foldl_remove_erase {start : SqlState} {targets : Deletion TableName TableColumn SqlValue}
    {done : List TableName} (hnodup : (targets.map Prod.fst ++ done).Nodup)
    (hgone : ∀ target ∈ targets, target.1 ≠ .authenticationAuditRecords ∧
      ∀ r ∈ s target.1, target.2 start r = belongs userId s target.1 r) :
    targets.foldl (fun s' target => s'.remove target.1 (target.2 start)) (erase userId s done) =
      erase userId s (targets.map Prod.fst ++ done) := by
  induction targets generalizing done with
  | nil => rfl
  | cons target targets ih =>
    obtain ⟨haudit, hrows⟩ := hgone target List.mem_cons_self
    obtain ⟨hnot, hrest⟩ := List.nodup_cons.mp hnodup
    have hmiddle : (targets.map Prod.fst ++ target.1 :: done).Nodup :=
      (List.perm_middle.nodup_iff).mpr hnodup
    rw [List.foldl_cons, remove_erase (fun h => hnot (List.mem_append_right _ h)) haudit hrows,
      ih hmiddle fun target' htarget' => hgone target' (List.mem_cons_of_mem _ htarget')]
    refine erase_congr fun t => ?_
    simp only [List.map_cons, List.mem_append, List.mem_cons, List.cons_append]
    tauto

/-- A row of an erased table refers to no row of the user. -/
lemma not_refers_of_erased (hs : OwnersAgree s) {done : List TableName}
    {key : ForeignKey TableName TableColumn} (hkey : key ∈ foreignKeys) (hdone : key.child ∈ done)
    {r p : SqlRow} (hr : r ∈ erase userId s done key.child) (hp : p ∈ s key.parent)
    (hbelongs : belongs userId s key.parent p = true) : key.refers r p = false := by
  unfold erase erasedTable at hr
  rw [if_pos hdone] at hr
  by_cases haudit : key.child = .authenticationAuditRecords
  · rw [if_pos haudit] at hr
    obtain ⟨r, -, rfl⟩ := List.mem_map.mp hr
    exact refers_clearUser hkey haudit r hbelongs
  · rw [if_neg haudit] at hr
    obtain ⟨hr, hleft⟩ := List.mem_filter.mp hr
    rw [← Bool.not_eq_true]
    intro hrefers
    rw [belongs_of_refers hs hkey haudit hr hp hrefers hbelongs] at hleft
    cases hleft

/-- **One statement.** Deleting a user's rows of some tables erases these, when the tables that
refer to them are erased before or with them.

**Proof sketch.** First the rows of all the tables go. Then each is followed along the keys, and no
row that is left refers to one of them, because the tables that could are erased already: so nothing
is restricted, cascaded or set to NULL. -/
lemma deleteRows_erase (hs : OwnersAgree s) {done : List TableName}
    {targets : Deletion TableName TableColumn SqlValue}
    (hnodup : (targets.map Prod.fst ++ done).Nodup)
    (hgone : ∀ target ∈ targets, target.1 ≠ .authenticationAuditRecords ∧
      ∀ r ∈ s target.1, target.2 (erase userId s done) r = belongs userId s target.1 r)
    (hchildren : ∀ key ∈ foreignKeys, key.parent ∈ targets.map Prod.fst →
      key.child ∈ targets.map Prod.fst ++ done) :
    deleteRows foreignKeys targets (erase userId s done) =
      .ok (erase userId s (targets.map Prod.fst ++ done)) := by
  have hfollow : ∀ rest : Deletion TableName TableColumn SqlValue, (∀ target ∈ rest, target ∈ targets) →
      rest.foldlM (fun s' target => followAll foreignKeys (foreignKeys.length + 1) target.1
        ((erase userId s done target.1).filter (target.2 (erase userId s done))) s')
        (erase userId s (targets.map Prod.fst ++ done)) =
          .ok (erase userId s (targets.map Prod.fst ++ done)) := by
    intro rest hrest
    induction rest with
    | nil => rfl
    | cons target rest ih =>
      have htarget := hrest target List.mem_cons_self
      have hnot : target.1 ∉ done := fun h =>
        (List.nodup_append.mp hnodup).2.2 target.1 (List.mem_map_of_mem htarget) target.1 h rfl
      have hunreferenced : ∀ key ∈ foreignKeys, Unreferenced key target.1
          ((erase userId s done target.1).filter (target.2 (erase userId s done)))
          (erase userId s (targets.map Prod.fst ++ done)) := by
        intro key hkey hparent r hr p hp
        obtain ⟨hp, hcond⟩ := List.mem_filter.mp hp
        have hp : p ∈ s target.1 := by
          unfold erase at hp
          rwa [if_neg hnot] at hp
        rw [(hgone target htarget).2 p hp] at hcond
        rw [← hparent] at hp hcond
        exact not_refers_of_erased hs hkey
          (hchildren key hkey (hparent ▸ List.mem_map_of_mem htarget)) hr hp hcond
      rw [List.foldlM_cons, followAll_unreferenced hunreferenced]
      exact ih fun target' htarget' => hrest target' (List.mem_cons_of_mem _ htarget')
  unfold deleteRows
  rw [foldl_remove_erase hnodup hgone]
  exact hfollow targets fun _ h => h

/-- **The receipts.** Deleting a user's receipts erases them and their images.

**Proof sketch.** Only the key of the images finds rows that refer to the receipts. It cascades to
the images, which nothing refers to. -/
lemma deleteRows_receipts (hs : OwnersAgree s) {done : List TableName}
    (hreceipts : TableName.receipts ∉ done) (himages : TableName.receiptImages ∉ done)
    (hchildren : ∀ key ∈ foreignKeys, key.parent = .receipts → key ≠ imageReceipt →
      key.child ∈ done) :
    deleteRows foreignKeys [(.receipts, fun _ => columnIs .ownerId userId)]
      (erase userId s done) = .ok (erase userId s (.receiptImages :: .receipts :: done)) := by
  have hrows : erase userId s done .receipts = s .receipts := if_neg hreceipts
  have hremove : (erase userId s done).remove .receipts (columnIs .ownerId userId) =
      erase userId s (.receipts :: done) :=
    remove_erase hreceipts (by decide) fun r _ => rfl
  have hothers : ∀ key ∈ foreignKeys, key ≠ imageReceipt → Unreferenced key .receipts
      ((s .receipts).filter (columnIs .ownerId userId)) (erase userId s (.receipts :: done)) := by
    intro key hkey hne hparent r hr p hp
    obtain ⟨hp, hcond⟩ := List.mem_filter.mp hp
    exact not_refers_of_erased hs hkey (List.mem_cons_of_mem _ (hchildren key hkey hparent hne)) hr
      (hparent ▸ hp) (hparent ▸ hcond)
  have hcascade : followAll foreignKeys (foreignKeys.length + 1) .receipts
      ((s .receipts).filter (columnIs .ownerId userId)) (erase userId s (.receipts :: done)) =
        .ok ((erase userId s (.receipts :: done)).remove .receiptImages
          (refersToAny imageReceipt ((s .receipts).filter (columnIs .ownerId userId)))) :=
    @followAll_cascade _ _ _ _ _ _ foreignKeys (by decide) (foreignKeys.length - 1) .receipts _ _
      imageReceipt (by decide) rfl rfl (by decide) hothers
  have himages' : (erase userId s (.receipts :: done)).remove .receiptImages
      (refersToAny imageReceipt ((s .receipts).filter (columnIs .ownerId userId))) =
        erase userId s (.receiptImages :: .receipts :: done) := by
    refine remove_erase (by simp [himages]) (by decide) fun r _ => ?_
    unfold refersToAny
    rw [List.any_filter]
    rfl
  unfold deleteRows
  simp only [List.foldl_cons, List.foldl_nil, List.foldlM_cons, List.foldlM_nil, hrows, hremove]
  rw [hcascade]
  exact congrArg Except.ok himages'

/-! ## The transaction -/

/-- A table that was not erased is as it was. -/
lemma erase_of_not_mem {done : List TableName} {t : TableName} (h : t ∉ done) :
    erase userId s done t = s t := if_neg h

/-- A statement on one table erases it. -/
lemma execute_delete (hs : OwnersAgree s) {done : List TableName} {t : TableName}
    {gone : SqlState → SqlRow → Bool} (hnodup : (t :: done).Nodup)
    (haudit : t ≠ .authenticationAuditRecords)
    (hgone : ∀ r ∈ s t, gone (erase userId s done) r = belongs userId s t r)
    (hchildren : ∀ key ∈ foreignKeys, key.parent = t → key.child ∈ done) :
    (SqlStatement.delete [(t, gone)]).execute (erase userId s done) =
      .ok (erase userId s (t :: done)) := by
  have hdelete := @deleteRows_erase userId s hs done [(t, gone)] hnodup
    (by rintro _ (_ | ⟨_, ⟨⟩⟩); exact ⟨haudit, hgone⟩)
    (fun key hkey hparent => List.mem_cons_of_mem _ (hchildren key hkey (by simpa using hparent)))
  show (deleteRows foreignKeys [(t, gone)] (erase userId s done)).mapError DeletionFailure.violation = _
  rw [hdelete]
  rfl

/-- The change records of a user are those of the user's Expenses.

**Proof sketch.** A record is deleted by its actor or by its Expense. The owner of the Expense is
its actor, so the second condition adds none. -/
lemma changeRecords_gone (hs : OwnersAgree s) {done : List TableName}
    (hdone : TableName.expenses ∉ done) {r : SqlRow} (hr : r ∈ s .expenseChangeRecords) :
    (columnIs .actorUserId userId r ||
      columnInOwned .expenseId .expenses .id .ownerId userId (erase userId s done) r) =
        belongs userId s .expenseChangeRecords r := by
  have hbelongs : belongs userId s .expenseChangeRecords r = columnIs .actorUserId userId r :=
    rfl
  rw [hbelongs]
  unfold columnInOwned
  rw [erase_of_not_mem hdone]
  cases hactor : columnIs .actorUserId userId r with
  | true => rfl
  | false =>
    rw [Bool.false_or, List.any_eq_false]
    rintro e he hboth
    obtain ⟨howner, hequal⟩ := Bool.and_eq_true_iff.mp hboth
    obtain ⟨hset, hequal⟩ := Bool.and_eq_true_iff.mp hequal
    -- the record refers to an Expense of the user, whose owner is its actor
    have hrefers : (references .expenseChangeRecords .expenseId .expenses .cascade).refers r e =
        true := by
      rw [of_decide_eq_true hequal] at hset
      simp [ForeignKey.refers, references, hset, of_decide_eq_true hequal]
    have hsame := hs (references .expenseChangeRecords .expenseId .expenses .cascade) (by decide)
      (by decide) r hr e he hrefers .actorUserId rfl .ownerId rfl
    rw [← Bool.not_eq_true, columnIs_iff, hsame] at hactor
    exact hactor (columnIs_iff.mp howner)

/-- The tables that are erased, the last first. -/
def erasedTables : List TableName :=
  [.users, .authenticationAuditRecords, .emailIdentities, .loginChallenges, .webSessions,
    .telegramConnections, .telegramLinkChallenges, .receiptImages, .receipts, .recognitionResults,
    .expenses, .captureDrafts, .expenseChangeRecords, .telegramConversations]

/-- The state before the last statements. -/
abbrev stage (userId : UUID) (s : SqlState) (left : ℕ) : SqlState :=
  erase userId s (erasedTables.drop left)

/-- The user column of a row that is no special one. -/
lemma columnIs_eq_any (column : TableColumn) (r : SqlRow) : columnIs column userId r =
    (some column).any fun column => columnIs column userId r := rfl

/-- Drafts and Expenses reference each other, and go in one statement.

**Proof sketch.** Of the tables that refer to either, each is the other or erased before, so that
`deleteRows_erase` applies to both at once. -/
lemma execute_drafts (hs : OwnersAgree s) :
    (SqlStatement.delete [(.expenses, fun _ => columnIs .ownerId userId),
      (.captureDrafts, fun _ => columnIs .ownerId userId)]).execute (stage userId s 12) =
        .ok (stage userId s 10) := by
  have hnodup : ([TableName.expenses, .captureDrafts] ++ erasedTables.drop 12).Nodup := by decide
  have hchildren : ∀ key ∈ foreignKeys, key.parent ∈ [TableName.expenses, .captureDrafts] →
      key.child ∈ [TableName.expenses, .captureDrafts] ++ erasedTables.drop 12 := by decide
  have hexpenses : TableName.expenses ≠ .authenticationAuditRecords := by decide
  have hdrafts : TableName.captureDrafts ≠ .authenticationAuditRecords := by decide
  have hdelete := @deleteRows_erase userId s hs (erasedTables.drop 12)
    [(.expenses, fun _ => columnIs .ownerId userId),
      (.captureDrafts, fun _ => columnIs .ownerId userId)] hnodup (by
      intro target htarget
      simp only [List.mem_cons, List.not_mem_nil, or_false] at htarget
      rcases htarget with rfl | rfl
      · exact ⟨hexpenses, fun r _ => columnIs_eq_any _ r⟩
      · exact ⟨hdrafts, fun r _ => columnIs_eq_any _ r⟩) hchildren
  show (deleteRows foreignKeys [(.expenses, fun _ => columnIs .ownerId userId),
    (.captureDrafts, fun _ => columnIs .ownerId userId)] (stage userId s 12)).mapError
      DeletionFailure.violation = _
  rw [hdelete]
  rfl

/-- The receipts go with their images. -/
lemma execute_receipts (hs : OwnersAgree s) :
    (SqlStatement.delete [(.receipts, fun _ => columnIs .ownerId userId)]).execute
      (stage userId s 9) = .ok (stage userId s 7) := by
  have hdelete := @deleteRows_receipts userId s hs (erasedTables.drop 9) (by decide) (by decide)
    (by decide)
  show (deleteRows foreignKeys [(.receipts, fun _ => columnIs .ownerId userId)]
    (stage userId s 9)).mapError DeletionFailure.violation = _
  rw [hdelete]
  rfl

/-- The audit records stay without the user. -/
lemma execute_audit : (SqlStatement.clear .authenticationAuditRecords .userId
    (columnIs .userId userId)).execute (stage userId s 2) = .ok (stage userId s 1) := by
  refine congrArg Except.ok (funext fun t => ?_)
  by_cases ht : t = .authenticationAuditRecords
  · subst ht
    have hbefore : stage userId s 2 .authenticationAuditRecords = s .authenticationAuditRecords :=
      erase_of_not_mem (by decide)
    rw [Function.update_self, hbefore]
    rfl
  · have hmem : t ∈ erasedTables.drop 1 ↔ t ∈ erasedTables.drop 2 := by
      have hcons : erasedTables.drop 1 = .authenticationAuditRecords :: erasedTables.drop 2 := rfl
      rw [hcons, List.mem_cons, or_iff_right ht]
    rw [Function.update_of_ne ht]
    unfold stage erase
    simp only [hmem]

/-- **The statements in order.** No statement is refused, and the user's rows are gone.

**Proof sketch.** One step for each statement: the tables that refer to its table are erased by
then, drafts and Expenses at once, and images with their receipts. -/
theorem executeAll_deleteOwnedRows (hs : OwnersAgree s) (n : ℕ) (rest : List SqlStatement) :
    executeAll (fun _ => false) n (deleteOwnedRows userId ++ rest) s =
      executeAll (fun _ => false) (n + 12) rest (erase userId s erasedTables) := by
  have hstep : ∀ {n : ℕ} {statement : SqlStatement} {statements : List SqlStatement}
      {start next : SqlState}, statement.execute start = .ok next →
        executeAll (fun _ => false) n (statement :: statements) start =
          executeAll (fun _ => false) (n + 1) statements next := by
    intro n statement statements start next h
    rw [executeAll, h]
    rfl
  have hconversations : (SqlStatement.delete [(.telegramConversations,
      fun _ => columnIs .userId userId)]).execute s = .ok (stage userId s 13) := by
    conv_lhs => rw [show s = erase userId s [] from erase_nil.symm]
    exact execute_delete hs (by decide) (by decide) (fun r _ => columnIs_eq_any _ r) (by decide)
  have hchanges : (SqlStatement.delete [(.expenseChangeRecords, fun s r =>
      columnIs .actorUserId userId r ||
        columnInOwned .expenseId .expenses .id .ownerId userId s r)]).execute (stage userId s 13) =
      .ok (stage userId s 12) := by
    have hexpenses : TableName.expenses ∉ erasedTables.drop 13 := by decide
    exact execute_delete hs (by decide) (by decide)
      (fun r hr => changeRecords_gone hs hexpenses hr) (by decide)
  have hresults : (SqlStatement.delete [(.recognitionResults,
      fun _ => columnIs .ownerId userId)]).execute (stage userId s 10) = .ok (stage userId s 9) :=
    execute_delete hs (by decide) (by decide) (fun r _ => columnIs_eq_any _ r) (by decide)
  have hchallenges : (SqlStatement.delete [(.telegramLinkChallenges,
      fun _ => columnIs .initiatingUserId userId)]).execute (stage userId s 7) =
      .ok (stage userId s 6) :=
    execute_delete hs (by decide) (by decide) (fun r _ => columnIs_eq_any _ r) (by decide)
  have hconnections : (SqlStatement.delete [(.telegramConnections,
      fun _ => columnIs .userId userId)]).execute (stage userId s 6) = .ok (stage userId s 5) :=
    execute_delete hs (by decide) (by decide) (fun r _ => columnIs_eq_any _ r) (by decide)
  have hsessions : (SqlStatement.delete [(.webSessions,
      fun _ => columnIs .userId userId)]).execute (stage userId s 5) = .ok (stage userId s 4) :=
    execute_delete hs (by decide) (by decide) (fun r _ => columnIs_eq_any _ r) (by decide)
  have hlogins : (SqlStatement.delete [(.loginChallenges, columnInOwned .canonicalEmail
      .emailIdentities .canonicalEmail .userId userId)]).execute (stage userId s 4) =
      .ok (stage userId s 3) := by
    have hidentities : erase userId s (erasedTables.drop 4) .emailIdentities =
        s .emailIdentities := erase_of_not_mem (by decide)
    refine execute_delete hs (by decide) (by decide) (fun r _ => ?_) (by decide)
    unfold columnInOwned
    rw [hidentities]
    rfl
  have hidentities : (SqlStatement.delete [(.emailIdentities,
      fun _ => columnIs .userId userId)]).execute (stage userId s 3) = .ok (stage userId s 2) :=
    execute_delete hs (by decide) (by decide) (fun r _ => columnIs_eq_any _ r) (by decide)
  have husers : (SqlStatement.delete [(.users, fun _ => columnIs .id userId)]).execute
      (stage userId s 1) = .ok (erase userId s erasedTables) :=
    execute_delete hs (by decide) (by decide) (fun r _ => columnIs_eq_any _ r) (by decide)
  unfold deleteOwnedRows
  simp only [List.cons_append, List.nil_append]
  rw [hstep hconversations, hstep hchanges, hstep (execute_drafts hs), hstep hresults,
    hstep (execute_receipts hs), hstep hchallenges, hstep hconnections, hstep hsessions,
    hstep hlogins, hstep hidentities, hstep execute_audit, hstep husers]

end Statements

/-! ## The account is erased -/

/-- What holds after the deletion of an account. -/
structure Erased (deletion : AccountDeletion) (s s' : SqlState) : Prop where
  /-- The tombstone is there, and the others are as they were. -/
  tombstone : ∃ r ∈ s' .deletedAccounts, r .userId = some (.uuid deletion.userId)
  tombstones : ((s' .deletedAccounts).filter fun r => !columnIs .userId deletion.userId r) =
    (s .deletedAccounts).filter fun r => !columnIs .userId deletion.userId r
  /-- No row names the user. -/
  unnamed : ∀ t, ∀ r ∈ s' t, ∀ c ∈ userColumn t, r c ≠ some (.uuid deletion.userId)
  /-- No login challenge is for an address of the user. -/
  addresses : ∀ r ∈ s' .loginChallenges, belongs deletion.userId s .loginChallenges r = false
  /-- No row refers to a row that belonged to the user. -/
  unreferring : ∀ key ∈ foreignKeys, ∀ r ∈ s' key.child, ∀ p ∈ s key.parent,
    belongs deletion.userId s key.parent p = true → key.refers r p = false
  /-- The rows that did not belong to the user are as they were. -/
  kept : ∀ t, t ≠ .authenticationAuditRecords → t ≠ .deletedAccounts →
    s' t = (s t).filter fun r => !belongs deletion.userId s t r
  /-- The audit records are as they were without the user, and there is one more. -/
  audit : s' .authenticationAuditRecords =
    (s .authenticationAuditRecords).map (clearUser deletion.userId) ++ [auditRow deletion]
  /-- Every foreign key holds. -/
  keys : KeysHold s'

/-- The state when the deletion is done. -/
def erasedState (deletion : AccountDeletion) (s : SqlState) : SqlState :=
  let erased := erase deletion.userId s erasedTables
  let held := columnIs .userId deletion.userId
  Function.update
    (Function.update erased .deletedAccounts
      (if (s .deletedAccounts).any held then
        (s .deletedAccounts).map fun r =>
          if held r then Function.update r .deletedAt (some (.timestamp deletion.deletedAt)) else r
      else s .deletedAccounts ++ [MintFlow.tombstone deletion.userId deletion.deletedAt]))
    .authenticationAuditRecords
    ((s .authenticationAuditRecords).map (clearUser deletion.userId) ++ [auditRow deletion])

section Account

variable {deletion : AccountDeletion} {s : SqlState}

/-- Rows outside the two tables that get a row. -/
lemma erasedState_of_ne {t : TableName} (haudit : t ≠ .authenticationAuditRecords)
    (htombstone : t ≠ .deletedAccounts) :
    erasedState deletion s t = (s t).filter fun r => !belongs deletion.userId s t r := by
  unfold erasedState
  rw [Function.update_of_ne haudit, Function.update_of_ne htombstone]
  by_cases hmem : t ∈ erasedTables
  · unfold erase erasedTable
    rw [if_pos hmem, if_neg haudit]
  · have hnone : ∀ r, belongs deletion.userId s t r = false := by
      cases t <;> first | exact fun _ => rfl | exact absurd (by decide) hmem
    rw [erase_of_not_mem hmem]
    exact (List.filter_eq_self.mpr fun r _ => by rw [hnone r]; rfl).symm

/-- The audit records. -/
lemma erasedState_audit : erasedState deletion s .authenticationAuditRecords =
    (s .authenticationAuditRecords).map (clearUser deletion.userId) ++ [auditRow deletion] := by
  unfold erasedState
  rw [Function.update_self]

/-- The tombstones. -/
lemma erasedState_tombstones : erasedState deletion s .deletedAccounts =
    if (s .deletedAccounts).any (columnIs .userId deletion.userId) then
      (s .deletedAccounts).map fun r =>
        if columnIs .userId deletion.userId r then
          Function.update r .deletedAt (some (.timestamp deletion.deletedAt)) else r
    else s .deletedAccounts ++ [MintFlow.tombstone deletion.userId deletion.deletedAt] := by
  unfold erasedState
  rw [Function.update_of_ne (by decide), Function.update_self]

/-- A row of the audit records names no user that it did not name before, nor the user. -/
lemma user_of_mem_audit {r : SqlRow} (hr : r ∈ erasedState deletion s .authenticationAuditRecords) :
    r .userId = none ∨
      (r ∈ s .authenticationAuditRecords ∧ r .userId ≠ some (.uuid deletion.userId)) := by
  rw [erasedState_audit, List.mem_append, List.mem_map, List.mem_singleton] at hr
  rcases hr with ⟨r, hr, rfl⟩ | rfl
  · unfold clearUser
    by_cases huser : columnIs .userId deletion.userId r = true
    · rw [if_pos huser]
      exact .inl (Function.update_self ..)
    · rw [if_neg huser]
      rw [columnIs_iff] at huser
      exact .inr ⟨hr, huser⟩
  · exact .inl rfl

/-- **Erasure.** What holds when the deletion is done.

**Proof sketch.** A row that is left refers to no row of the user, or it would belong to the user as
well (`belongs_of_refers`). An audit record no longer names the user at all. The other parts are
read off the definition of the erased state: it filters each table, updates the audit records, and
adds or overwrites one tombstone. -/
lemma erased_erasedState (hs : OwnersAgree s) (hkeys : KeysHold s) :
    Erased deletion s (erasedState deletion s) := by
  have hchild : ∀ key ∈ foreignKeys, key.child ≠ .deletedAccounts := by decide
  have hparent : ∀ key ∈ foreignKeys, key.parent ≠ .authenticationAuditRecords ∧
      key.parent ≠ .deletedAccounts := by decide
  have honly : ∀ key ∈ foreignKeys, key.child = .authenticationAuditRecords →
      key = references .authenticationAuditRecords .userId .users .setNull := by decide
  have hunreferring : ∀ key ∈ foreignKeys, ∀ r ∈ erasedState deletion s key.child,
      ∀ p ∈ s key.parent, belongs deletion.userId s key.parent p = true →
        key.refers r p = false := by
    intro key hkey r hr p hp hbelongs
    by_cases haudit : key.child = .authenticationAuditRecords
    · obtain rfl := honly key hkey haudit
      have hid : p .id = some (.uuid deletion.userId) := columnIs_iff.mp hbelongs
      rcases user_of_mem_audit hr with hnone | ⟨-, hother⟩
      · simp [ForeignKey.refers, references, hnone]
      · simp [ForeignKey.refers, references, hid, hother]
    · rw [erasedState_of_ne haudit (hchild key hkey)] at hr
      obtain ⟨hr, hleft⟩ := List.mem_filter.mp hr
      rw [← Bool.not_eq_true]
      intro hrefers
      rw [belongs_of_refers hs hkey haudit hr hp hrefers hbelongs] at hleft
      cases hleft
  constructor
  case tombstone =>
    rw [erasedState_tombstones]
    split
    · rename_i hany
      obtain ⟨r, hr, hheld⟩ := List.any_eq_true.mp hany
      refine ⟨_, List.mem_map_of_mem hr, ?_⟩
      rw [if_pos hheld, Function.update_of_ne (by decide)]
      exact columnIs_iff.mp hheld
    · exact ⟨_, List.mem_append_right _ List.mem_cons_self, rfl⟩
  case tombstones =>
    rw [erasedState_tombstones]
    split
    · -- the tombstone that is overwritten keeps its user
      rw [List.filter_map]
      have hheld : ∀ r : SqlRow, columnIs .userId deletion.userId
          (if columnIs .userId deletion.userId r then
            Function.update r .deletedAt (some (.timestamp deletion.deletedAt)) else r) =
          columnIs .userId deletion.userId r := by
        intro r
        split
        · unfold columnIs
          rw [Function.update_of_ne (by decide)]
        · rfl
      have hsame : (s .deletedAccounts).filter ((fun r => !columnIs .userId deletion.userId r) ∘
          fun r => if columnIs .userId deletion.userId r then
            Function.update r .deletedAt (some (.timestamp deletion.deletedAt)) else r) =
          (s .deletedAccounts).filter fun r => !columnIs .userId deletion.userId r :=
        List.filter_congr fun r _ => congrArg (!·) (hheld r)
      rw [hsame]
      refine (List.map_congr_left fun r hr => ?_).trans (List.map_id _)
      have hnot := (List.mem_filter.mp hr).2
      rw [Bool.not_eq_true'] at hnot
      rw [hnot]
      rfl
    · have hheld : columnIs .userId deletion.userId
          (MintFlow.tombstone deletion.userId deletion.deletedAt) = true :=
        columnIs_iff.mpr rfl
      simp [List.filter_append, hheld]
  case unnamed =>
    intro t r hr c hc hnamed
    by_cases haudit : t = .authenticationAuditRecords
    · subst haudit
      obtain rfl : c = .userId := (Option.some.inj hc).symm
      rcases user_of_mem_audit hr with hnone | ⟨-, hother⟩
      · rw [hnone] at hnamed
        cases hnamed
      · exact hother hnamed
    · have htombstone : t ≠ .deletedAccounts := by
        rintro rfl
        cases hc
      rw [erasedState_of_ne haudit htombstone] at hr
      obtain ⟨-, hleft⟩ := List.mem_filter.mp hr
      have hspecial : ∀ t, t ≠ TableName.authenticationAuditRecords → (userColumn t).isSome →
          isSpecial t = false := by
        intro t
        cases t <;> decide
      rw [belongs_eq (hspecial t haudit (by rw [hc]; rfl)), hc] at hleft
      rw [Option.any_some, columnIs_iff.mpr hnamed] at hleft
      cases hleft
  case addresses =>
    intro r hr
    rw [erasedState_of_ne (by decide) (by decide)] at hr
    simpa using (List.mem_filter.mp hr).2
  case unreferring => exact hunreferring
  case kept => exact fun t haudit htombstone => erasedState_of_ne haudit htombstone
  case audit => exact erasedState_audit
  case keys =>
    intro key hkey r hr hset
    have hbefore : r ∈ s key.child := by
      by_cases haudit : key.child = .authenticationAuditRecords
      · obtain rfl := honly key hkey haudit
        rcases user_of_mem_audit hr with hnone | ⟨hmem, -⟩
        · have hsome := hset .userId List.mem_cons_self
          rw [hnone] at hsome
          cases hsome
        · exact hmem
      · rw [erasedState_of_ne haudit (hchild key hkey)] at hr
        exact List.mem_of_mem_filter hr
    obtain ⟨p, hp, hrefers⟩ := hkeys key hkey r hbefore hset
    refine ⟨p, ?_, hrefers⟩
    rw [erasedState_of_ne (hparent key hkey).1 (hparent key hkey).2, List.mem_filter]
    refine ⟨hp, ?_⟩
    rw [Bool.not_eq_true', ← Bool.not_eq_true]
    intro hbelongs
    rw [hunreferring key hkey r hr p hp hbelongs] at hrefers
    cases hrefers

/-- A row of another user does not belong to the user, since addresses and receipts are unique.

**Proof sketch.** By the table. Most name their user in a column. A challenge belongs by its
address and an image by its receipt, and only one identity has the address, only one receipt the
identifier. -/
lemma not_belongs_of_belongs (hunique : UniqueKeysHold s) {userId other : UUID}
    (hne : other ≠ userId) {t : TableName} {r : SqlRow} (hother : belongs other s t r = true) :
    belongs userId s t r = false := by
  have hdistinct : ∀ {column : TableColumn} {r : SqlRow}, columnIs column other r = true →
      columnIs column userId r = false := by
    intro column r h
    rw [← Bool.not_eq_true, columnIs_iff]
    rw [columnIs_iff] at h
    intro h'
    exact hne (SqlValue.uuid.inj (Option.some.inj (h.symm.trans h')))
  by_cases hspecial : isSpecial t = false
  · rw [belongs_eq hspecial] at hother ⊢
    rw [Option.any_eq_true] at hother
    obtain ⟨c, hc, hother⟩ := hother
    rw [hc, Option.any_some, hdistinct hother]
  · rw [← Bool.not_eq_true]
    intro huser
    cases t with
    | loginChallenges =>
      obtain ⟨i, hi, hboth⟩ := List.any_eq_true.mp hother
      obtain ⟨i', hi', hboth'⟩ := List.any_eq_true.mp huser
      simp only [Bool.and_eq_true, sqlEq, decide_eq_true_eq] at hboth hboth'
      have hsame := hunique.eq (c := .canonicalEmail) (by decide) hi hi'
        (hboth.2.2 ▸ hboth.2.1) (hboth.2.2.symm.trans hboth'.2.2)
      rw [← hsame, hdistinct hboth.1] at hboth'
      cases hboth'.1
    | receiptImages =>
      obtain ⟨p, hp, hboth⟩ := List.any_eq_true.mp hother
      obtain ⟨p', hp', hboth'⟩ := List.any_eq_true.mp huser
      rw [Bool.and_eq_true] at hboth hboth'
      have hrefers := hboth.2
      have hrefers' := hboth'.2
      simp only [imageReceipt, references, ForeignKey.refers, List.all_cons, List.all_nil,
        Bool.and_true, List.map_cons, List.map_nil, List.cons.injEq, and_true, Bool.and_eq_true,
        decide_eq_true_eq] at hrefers hrefers'
      have hsame := hunique.eq (c := .id) (by decide) hp hp' (hrefers.2 ▸ hrefers.1)
        (hrefers.2.symm.trans hrefers'.2)
      rw [← hsame, hdistinct hboth.1] at hboth'
      cases hboth'.1
    | authenticationAuditRecords => cases huser
    | _ => exact hspecial rfl

/-- The audit row passes the checks of its table. -/
lemma auditChecks_auditRow (deletion : AccountDeletion) : auditChecks (auditRow deletion) = true := by
  obtain ⟨_, _, _, eventType, outcome⟩ := deletion
  cases eventType <;> cases outcome <;> rfl

/-- **The transaction without an interruption.** Only the identifier of the audit record may be
refused.

**Proof sketch.** The statements that delete rows all pass (`executeAll_deleteOwnedRows`), the
tombstone replaces the one there may be, and the audit record satisfies its CHECK constraints: only
its identifier may be taken, by a record the deletion left. -/
lemma executeAll_deletionStatements (hs : OwnersAgree s) (n : ℕ) :
    executeAll (fun _ => false) n (deletionStatements deletion) s =
      if (s .authenticationAuditRecords).any fun r => r .id = some (.uuid deletion.auditId) then
        .error .uniqueViolation
      else .ok (erasedState deletion s) := by
  have htombstones : erase deletion.userId s erasedTables .deletedAccounts = s .deletedAccounts :=
    erase_of_not_mem (by decide)
  have haudit : erase deletion.userId s erasedTables .authenticationAuditRecords =
      (s .authenticationAuditRecords).map (clearUser deletion.userId) := rfl
  have hids : ((s .authenticationAuditRecords).map (clearUser deletion.userId)).any
      (fun r => r .id = some (.uuid deletion.auditId)) =
        (s .authenticationAuditRecords).any fun r => r .id = some (.uuid deletion.auditId) := by
    rw [List.any_map]
    congr 1
    funext r
    have hid : clearUser deletion.userId r .id = r .id := by
      unfold clearUser
      split
      · exact Function.update_of_ne (by decide) ..
      · rfl
    simp only [Function.comp_apply, hid]
  unfold deletionStatements
  rw [executeAll_deleteOwnedRows hs]
  simp only [executeAll, SqlStatement.execute, Except.bind, Bool.false_eq_true, if_false,
    htombstones, Function.update_of_ne (show TableName.authenticationAuditRecords ≠ .deletedAccounts
      by decide), haudit, hids, auditChecks_auditRow, if_true]
  by_cases hany : ((s .authenticationAuditRecords).any fun r =>
      r .id = some (.uuid deletion.auditId)) = true
  · rw [if_pos hany, if_pos hany]
  · rw [if_neg hany, if_neg hany]
    rfl

/-- A transaction is interrupted, or runs as without an interruption. -/
lemma executeAll_interrupted (interrupted : ℕ → Bool) (n : ℕ) (statements : List SqlStatement)
    (s : SqlState) : executeAll interrupted n statements s = .error .interrupted ∨
      executeAll interrupted n statements s = executeAll (fun _ => false) n statements s := by
  induction statements generalizing n s with
  | nil => exact .inr rfl
  | cons statement statements ih =>
    rw [executeAll, executeAll]
    by_cases hn : interrupted n = true
    · exact .inl (if_pos hn)
    · rw [if_neg hn, if_neg Bool.false_ne_true]
      cases statement.execute s with
      | error failure => exact .inr rfl
      | ok next => exact ih (n + 1) next

/-- The four ends of the statements: interrupted, no user, an identifier in use, or done.

**Proof sketch.** The lock finds the user or not, and the statements are interrupted or run as if
they were not (`executeAll_interrupted`). -/
lemma deleteLocked_cases (hs : OwnersAgree s) (interrupted : ℕ → Bool)
    (deletion : AccountDeletion) :
    deleteLocked interrupted deletion s = .error .interrupted ∨
    ((s .users).any (columnIs .id deletion.userId) = false ∧
      deleteLocked interrupted deletion s = .ok (false, s)) ∨
    ((s .users).any (columnIs .id deletion.userId) = true ∧
      ((s .authenticationAuditRecords).any fun r => r .id = some (.uuid deletion.auditId)) = true ∧
      deleteLocked interrupted deletion s = .error .uniqueViolation) ∨
    ((s .users).any (columnIs .id deletion.userId) = true ∧
      deleteLocked interrupted deletion s = .ok (true, erasedState deletion s)) := by
  unfold deleteLocked
  by_cases hlock : interrupted 0 = true
  · exact .inl (if_pos hlock)
  rw [if_neg hlock]
  cases huser : (s .users).any (columnIs .id deletion.userId) with
  | false => exact .inr (.inl ⟨rfl, rfl⟩)
  | true =>
    rw [if_pos rfl]
    rcases executeAll_interrupted interrupted 1 (deletionStatements deletion) s with h | h
    · exact .inl (by rw [h]; rfl)
    · rw [h, executeAll_deletionStatements hs]
      cases hused : (s .authenticationAuditRecords).any fun r =>
          r .id = some (.uuid deletion.auditId) with
      | true => exact .inr (.inr (.inl ⟨rfl, rfl, rfl⟩))
      | false => exact .inr (.inr (.inr ⟨rfl, rfl⟩))

/-- What the transaction returns is what was committed, or it changed nothing. -/
lemma deleteAccount_eq (interrupted : ℕ → Bool) (deletion : AccountDeletion) (s : SqlState) :
    (∃ failure, deleteAccount interrupted deletion s = (.error failure, s) ∧
      (failure = .interrupted ∨ deleteLocked interrupted deletion s = .error failure)) ∨
    ∃ deleted s', deleteAccount interrupted deletion s = (.ok deleted, s') ∧
      deleteLocked interrupted deletion s = .ok (deleted, s') := by
  unfold deleteAccount
  cases deleteLocked interrupted deletion s with
  | error failure => exact .inl ⟨failure, rfl, .inr rfl⟩
  | ok result =>
    by_cases hcommit : interrupted ((deletionStatements deletion).length + 1) = true
    · exact .inl ⟨_, if_pos hcommit, .inl rfl⟩
    · exact .inr ⟨_, _, if_neg hcommit, rfl⟩

/-- Without an interruption the deletion of an existing user is done, if the identifier of its
audit record is new. -/
lemma deleteAccount_done (hs : OwnersAgree s) {interrupted : ℕ → Bool}
    (hquiet : ∀ n, interrupted n = false) (huser : ∃ r ∈ s .users, r .id = some (.uuid deletion.userId))
    (hfresh : ∀ r ∈ s .authenticationAuditRecords, r .id ≠ some (.uuid deletion.auditId)) :
    deleteAccount interrupted deletion s = (.ok true, erasedState deletion s) := by
  obtain rfl : interrupted = fun _ => false := funext hquiet
  have hexists : (s .users).any (columnIs .id deletion.userId) = true := by
    obtain ⟨r, hr, hid⟩ := huser
    exact List.any_eq_true.mpr ⟨r, hr, columnIs_iff.mpr hid⟩
  have hunused : ((s .authenticationAuditRecords).any fun r =>
      r .id = some (.uuid deletion.auditId)) = false := by
    rw [List.any_eq_false]
    intro r hr
    simpa using hfresh r hr
  unfold deleteAccount deleteLocked
  rw [if_neg Bool.false_ne_true, if_pos hexists, executeAll_deletionStatements hs, hunused]
  rfl

/-- **Account deletion.** On every state whose owners agree and whose keys hold, and whatever
statement is interrupted:

* no foreign key and no check is violated;
* a deletion that fails leaves the state as it was;
* so does one that finds no user, and returns false;
* one that returns true has erased the account: no row names the user or refers to a row of the
  user, the tombstone apart, and the other rows are as they were, the user cleared from the audit
  records and one audit record added;
* the rows of every other user are still there;
* without an interruption, and with a new identifier for the audit record, the deletion of an
  existing user returns true.

**Proof sketch.** A row that refers to a row of the user is the user's as well, so each statement
finds nothing left that refers to what it deletes. -/
theorem account_deletion (hs : OwnersAgree s) (hkeys : KeysHold s) (hunique : UniqueKeysHold s)
    (interrupted : ℕ → Bool) (deletion : AccountDeletion) :
    (∀ violation, (deleteAccount interrupted deletion s).1 ≠ .error (.violation violation)) ∧
    (deleteAccount interrupted deletion s).1 ≠ .error .checkViolation ∧
    (∀ failure, (deleteAccount interrupted deletion s).1 = .error failure →
      (deleteAccount interrupted deletion s).2 = s) ∧
    ((∀ r ∈ s .users, r .id ≠ some (.uuid deletion.userId)) →
      (deleteAccount interrupted deletion s).2 = s ∧
      (deleteAccount interrupted deletion s).1 ≠ .ok true) ∧
    ((deleteAccount interrupted deletion s).1 = .ok false →
      (deleteAccount interrupted deletion s).2 = s) ∧
    ((deleteAccount interrupted deletion s).1 = .ok true →
      Erased deletion s (deleteAccount interrupted deletion s).2) ∧
    (∀ other, other ≠ deletion.userId → ∀ t, ∀ r ∈ s t, belongs other s t r = true →
      r ∈ (deleteAccount interrupted deletion s).2 t) ∧
    ((∀ n, interrupted n = false) → (∃ r ∈ s .users, r .id = some (.uuid deletion.userId)) →
      (∀ r ∈ s .authenticationAuditRecords, r .id ≠ some (.uuid deletion.auditId)) →
      (deleteAccount interrupted deletion s).1 = .ok true) := by
  have hdone := fun hquiet huser hfresh =>
    congrArg Prod.fst (@deleteAccount_done deletion s hs interrupted hquiet huser hfresh)
  have hothers : ∀ other, other ≠ deletion.userId → ∀ t, ∀ r ∈ s t, belongs other s t r = true →
      r ∈ erasedState deletion s t := by
    intro other hne t r hr hother
    have haudit : t ≠ .authenticationAuditRecords := by
      rintro rfl
      cases hother
    have htombstone : t ≠ .deletedAccounts := by
      rintro rfl
      cases hother
    rw [erasedState_of_ne haudit htombstone, List.mem_filter,
      not_belongs_of_belongs hunique hne hother]
    exact ⟨hr, rfl⟩
  rcases deleteAccount_eq interrupted deletion s with
    ⟨failure, heq, hfailure⟩ | ⟨deleted, s', heq, hlocked⟩
  · have hnot : failure = .interrupted ∨ failure = .uniqueViolation := by
      rcases hfailure with rfl | hfailure
      · exact .inl rfl
      · rcases deleteLocked_cases hs interrupted deletion with h | ⟨-, h⟩ | ⟨-, -, h⟩ | ⟨-, h⟩
        · exact .inl (Except.error.inj (hfailure.symm.trans h))
        · cases hfailure.symm.trans h
        · exact .inr (Except.error.inj (hfailure.symm.trans h))
        · cases hfailure.symm.trans h
    rw [heq] at hdone ⊢
    refine ⟨?_, ?_, fun _ _ => rfl, fun _ => ⟨rfl, fun h => (by cases h)⟩, fun _ => rfl,
      fun h => (by cases h), fun _ _ t r hr _ => hr, hdone⟩
    · rintro violation h
      rcases hnot with rfl | rfl <;> cases h
    · rintro h
      rcases hnot with rfl | rfl <;> cases h
  · rw [heq] at hdone ⊢
    rcases deleteLocked_cases hs interrupted deletion with h | ⟨hnone, h⟩ | ⟨-, -, h⟩ | ⟨hsome, h⟩
    · cases hlocked.symm.trans h
    · obtain ⟨rfl, rfl⟩ := Prod.mk.inj (Except.ok.inj (hlocked.symm.trans h))
      exact ⟨fun _ h => (by cases h), fun h => (by cases h), fun _ h => (by cases h),
        fun _ => ⟨rfl, fun h => (by cases h)⟩, fun _ => rfl, fun h => (by cases h),
        fun _ _ t r hr _ => hr, hdone⟩
    · cases hlocked.symm.trans h
    · obtain ⟨rfl, rfl⟩ := Prod.mk.inj (Except.ok.inj (hlocked.symm.trans h))
      refine ⟨fun _ h => (by cases h), fun h => (by cases h), fun _ h => (by cases h),
        fun hnone => ?_, fun h => (by cases h), fun _ => erased_erasedState hs hkeys, hothers, hdone⟩
      obtain ⟨r, hr, hid⟩ := List.any_eq_true.mp hsome
      exact absurd (columnIs_iff.mp hid) (hnone r hr)

end Account

/-! ## Two accounts -/

/-- A row with some columns set. -/
def rowOf (fields : List (TableColumn × SqlValue)) : SqlRow := fun c =>
  (fields.find? fun field => field.1 = c).map Prod.snd

/-- A store of two accounts, of which the first has rows in every table. -/
def twoAccounts : SqlState
  | .users => [rowOf [(.id, .uuid 7)], rowOf [(.id, .uuid 8)]]
  | .emailIdentities =>
    [rowOf [(.id, .uuid 20), (.userId, .uuid 7), (.canonicalEmail, .text "seven@example.com")],
      rowOf [(.id, .uuid 21), (.userId, .uuid 8), (.canonicalEmail, .text "eight@example.com")]]
  | .loginChallenges =>
    [rowOf [(.id, .uuid 22), (.canonicalEmail, .text "seven@example.com")],
      rowOf [(.id, .uuid 23), (.canonicalEmail, .text "nine@example.com")]]
  | .webSessions => [rowOf [(.id, .uuid 24), (.userId, .uuid 7)]]
  | .authenticationAuditRecords =>
    [rowOf [(.id, .uuid 25), (.userId, .uuid 7)], rowOf [(.id, .uuid 26), (.userId, .uuid 8)]]
  | .categories => [rowOf [(.id, .uuid 27), (.key, .text "food")]]
  | .captureDrafts =>
    [rowOf [(.id, .uuid 28), (.ownerId, .uuid 7), (.expenseId, .uuid 29), (.receiptId, .uuid 30),
      (.recognitionResultId, .uuid 31)]]
  | .expenses =>
    [rowOf [(.id, .uuid 29), (.ownerId, .uuid 7), (.captureDraftId, .uuid 28),
      (.receiptId, .uuid 30), (.categoryKey, .text "food")]]
  | .expenseChangeRecords =>
    [rowOf [(.id, .uuid 32), (.expenseId, .uuid 29), (.actorUserId, .uuid 7)]]
  | .telegramLinkChallenges =>
    [rowOf [(.id, .uuid 33), (.initiatingUserId, .uuid 7), (.initiatingWebSessionId, .uuid 24)]]
  | .telegramConnections => [rowOf [(.id, .uuid 34), (.userId, .uuid 7)]]
  | .telegramConversations => [rowOf [(.userId, .uuid 7), (.activeDraftId, .uuid 28)]]
  | .receipts => [rowOf [(.id, .uuid 30), (.ownerId, .uuid 7)]]
  | .receiptImages => [rowOf [(.receiptId, .uuid 30)]]
  | .recognitionResults =>
    [rowOf [(.id, .uuid 31), (.ownerId, .uuid 7), (.receiptId, .uuid 30)]]
  | _ => []

/-- The first of two accounts is erased. -/
theorem account_deletion_first :
    (deleteAccount (fun _ => false) (accountDeletion 7 5 99) twoAccounts).1 = .ok true ∧
      Erased (accountDeletion 7 5 99) twoAccounts
        (deleteAccount (fun _ => false) (accountDeletion 7 5 99) twoAccounts).2 := by
  have howners : OwnersAgree twoAccounts := by
    unfold OwnersAgree
    decide +kernel
  have hkeys : KeysHold twoAccounts := by
    unfold KeysHold ForeignKey.Holds
    decide +kernel
  have hunique : UniqueKeysHold twoAccounts := by
    unfold UniqueKeysHold
    decide +kernel
  obtain ⟨-, -, -, -, -, herased, -, hdone⟩ :=
    account_deletion howners hkeys hunique (fun _ => false) (accountDeletion 7 5 99)
  have htrue := hdone (fun _ => rfl) (by decide +kernel) (by decide +kernel)
  exact ⟨htrue, herased htrue⟩

end MintFlow
