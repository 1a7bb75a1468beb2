import MintFlow.Lib.Relational
import MintFlow.Python
import Mathlib.Data.List.Pairwise

set_option relaxedAutoImplicit false
set_option autoImplicit false

/-!
# The schema

All tables with their foreign keys, as the statements that are written in SQL see them. A row has
the columns that a key or such a statement names, and the others under their names.

## Main definitions

* `MintFlow.TableName`, `MintFlow.TableColumn`, `MintFlow.SqlValue` — tables, columns and values.
* `MintFlow.foreignKeys` — the foreign keys.
* `MintFlow.userColumn` — the column that names the user a row belongs to.
-/

namespace MintFlow

open Transact

/-- The tables. -/
inductive TableName
  | users
  | emailIdentities
  | loginChallenges
  | authenticationRateLimitBuckets
  | webSessions
  | authenticationAuditRecords
  | deletedAccounts
  | categories
  | captureDrafts
  | expenses
  | expenseChangeRecords
  | telegramLinkChallenges
  | telegramConnections
  | telegramProcessedUpdates
  | telegramConversations
  | receipts
  | receiptImages
  | recognitionResults
  | exchangeRates
deriving DecidableEq

/-- The columns that keys and statements name, and the others. -/
inductive TableColumn
  | id
  | userId
  | ownerId
  | actorUserId
  | initiatingUserId
  | initiatingWebSessionId
  | canonicalEmail
  | expenseId
  | captureDraftId
  | receiptId
  | recognitionResultId
  | activeDraftId
  | key
  | categoryKey
  | occurredAt
  | eventType
  | outcome
  | subjectRecordId
  | deletedAt
  | other (name : String)
deriving DecidableEq

/-- The values of columns. -/
inductive SqlValue
  | uuid (value : UUID)
  | text (value : String)
  | timestamp (value : Instant)
  | number (value : ℤ)
  | boolean (value : Bool)
  | bytes (value : List UInt8)
deriving DecidableEq

/-- A row of a table. -/
abbrev SqlRow := Row TableColumn SqlValue

/-- The rows of all tables. -/
abbrev SqlState := Rows TableName TableColumn SqlValue

/-- A foreign key of one column to the identifier of a table. -/
def references (child : TableName) (column : TableColumn) (parent : TableName) (onDelete : OnDelete) :
    ForeignKey TableName TableColumn :=
  ⟨child, [column], parent, [.id], onDelete⟩

/-- The key that binds a link challenge to a session of the same user. -/
def linkChallengeSession : ForeignKey TableName TableColumn :=
  ⟨.telegramLinkChallenges, [.initiatingWebSessionId, .initiatingUserId], .webSessions,
    [.id, .userId], .cascade⟩

/-- The key of an image to its receipt. -/
def imageReceipt : ForeignKey TableName TableColumn :=
  references .receiptImages .receiptId .receipts .cascade

/-- The foreign keys of the tables, in their order. -/
def foreignKeys : List (ForeignKey TableName TableColumn) :=
  [references .emailIdentities .userId .users .restrict,
    references .webSessions .userId .users .restrict,
    references .authenticationAuditRecords .userId .users .setNull,
    references .captureDrafts .ownerId .users .restrict,
    references .captureDrafts .expenseId .expenses .restrict,
    references .captureDrafts .receiptId .receipts .restrict,
    references .captureDrafts .recognitionResultId .recognitionResults .setNull,
    references .expenses .ownerId .users .restrict,
    ⟨.expenses, [.categoryKey], .categories, [.key], .restrict⟩,
    references .expenses .captureDraftId .captureDrafts .restrict,
    references .expenses .receiptId .receipts .restrict,
    references .expenseChangeRecords .expenseId .expenses .cascade,
    references .expenseChangeRecords .actorUserId .users .restrict,
    linkChallengeSession,
    references .telegramLinkChallenges .initiatingUserId .users .restrict,
    references .telegramConnections .userId .users .restrict,
    references .telegramConversations .userId .users .restrict,
    references .telegramConversations .activeDraftId .captureDrafts .restrict,
    references .receipts .ownerId .users .restrict,
    imageReceipt,
    references .recognitionResults .receiptId .receipts .cascade,
    references .recognitionResults .ownerId .users .restrict]

/-- The column that names the user of a row, where a table has one. -/
def userColumn : TableName → Option TableColumn
  | .users => some .id
  | .emailIdentities | .webSessions | .authenticationAuditRecords | .telegramConnections
  | .telegramConversations => some .userId
  | .captureDrafts | .expenses | .receipts | .recognitionResults => some .ownerId
  | .expenseChangeRecords => some .actorUserId
  | .telegramLinkChallenges => some .initiatingUserId
  | _ => none

/-- The primary keys and unique constraints, those that hold for some rows only apart. -/
def uniqueKeys : List (TableName × List TableColumn) :=
  [(.users, [.id]), (.emailIdentities, [.id]), (.emailIdentities, [.userId]),
    (.emailIdentities, [.canonicalEmail]), (.loginChallenges, [.id]),
    (.loginChallenges, [.other "token_hash"]),
    (.authenticationRateLimitBuckets,
      [.other "dimension", .other "key_digest", .other "window_started_at"]),
    (.webSessions, [.id]), (.webSessions, [.other "secret_hash"]), (.webSessions, [.id, .userId]),
    (.authenticationAuditRecords, [.id]), (.deletedAccounts, [.userId]), (.categories, [.id]),
    (.categories, [.key]), (.captureDrafts, [.id]), (.captureDrafts, [.receiptId]),
    (.expenses, [.id]), (.expenses, [.captureDraftId]), (.expenseChangeRecords, [.id]),
    (.telegramLinkChallenges, [.id]), (.telegramLinkChallenges, [.other "token_hash"]),
    (.telegramConnections, [.id]), (.telegramProcessedUpdates, [.other "update_id"]),
    (.telegramConversations, [.userId]), (.receipts, [.id]), (.receiptImages, [.receiptId]),
    (.recognitionResults, [.id]), (.recognitionResults, [.receiptId, .other "attempt_id"]),
    (.exchangeRates, [.other "currency"])]

/-- No two rows of a table agree on a unique key whose columns are set. -/
def UniqueKeysHold (s : SqlState) : Prop :=
  ∀ key ∈ uniqueKeys, (s key.1).Pairwise fun r r' =>
    ¬ ((∀ c ∈ key.2, (r c).isSome) ∧ ∀ c ∈ key.2, r c = r' c)

/-- Rows that agree on a unique key are one row. -/
lemma UniqueKeysHold.eq {s : SqlState} (h : UniqueKeysHold s) {t : TableName} {c : TableColumn}
    (hkey : (t, [c]) ∈ uniqueKeys) {r r' : SqlRow} (hr : r ∈ s t) (hr' : r' ∈ s t)
    (hset : (r c).isSome) (hsame : r c = r' c) : r = r' := by
  by_contra hne
  have hpair : (s t).Pairwise fun r r' => ¬ ((r c).isSome ∧ r c = r' c) :=
    (h (t, [c]) hkey).imp fun hnot hboth =>
      hnot ⟨List.forall_mem_singleton.mpr hboth.1, List.forall_mem_singleton.mpr hboth.2⟩
  have hsymmetric : Std.Symm fun r r' : SqlRow => ¬ ((r c).isSome ∧ r c = r' c) :=
    ⟨fun a b hab hba => hab ⟨hba.2 ▸ hba.1, hba.2.symm⟩⟩
  exact hpair.forall hr hr' hne ⟨hset, hsame⟩

/-- Every foreign key holds. -/
def KeysHold (s : SqlState) : Prop := ∀ key ∈ foreignKeys, key.Holds s

/-- What the application maintains: a row that references a draft, an Expense, a receipt, a result
or a session has the same owner, and the actor of a change record owns its Expense. -/
def OwnersAgree (s : SqlState) : Prop :=
  ∀ key ∈ foreignKeys, key.parent ≠ .users →
    ∀ r ∈ s key.child, ∀ p ∈ s key.parent, key.refers r p = true →
      ∀ c ∈ userColumn key.child, ∀ c' ∈ userColumn key.parent, r c = p c'

end MintFlow
