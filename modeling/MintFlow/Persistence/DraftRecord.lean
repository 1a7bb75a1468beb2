import MintFlow.Domain.CaptureDraft

set_option relaxedAutoImplicit false
set_option autoImplicit false

/-!
# The stored form of a draft

A row of `capture_drafts` has a nullable column for every value and every provenance, so rows that
no draft produces can be written down; the CHECK constraints of the table rule them out. A text that
does not fit its column is refused.

## Main definitions

* `MintFlow.CaptureDraftRecord` — the columns.
* `MintFlow.CaptureDraft.toRecord` — the row a draft is stored as.
* `MintFlow.CaptureDraftRecord.checks` — the CHECK constraints, by name.
* `MintFlow.CaptureDraft.Consistent` — what they say about a draft.
* `MintFlow.CaptureDraft.TextsFit` — the texts of a draft fit their columns.

## Main results

* `MintFlow.CaptureDraft.satisfiesChecks_iff` — a draft's row satisfies every constraint exactly
  when the draft is consistent.
-/

namespace MintFlow

open Transact

/-! ## Texts -/

/-- The text has no zero character, which neither the driver nor the database takes. -/
def hasNoNul (s : String) : Bool := decide (Char.ofNat 0 ∉ s.toList)

/-- A text fits `String(limit)`. -/
def textFits (limit : ℕ) (s : String) : Bool := hasNoNul s && decide (s.length ≤ limit)

/-! ## Rows -/

/-- A row of `capture_drafts`. -/
structure CaptureDraftRecord where
  id : UUID
  ownerId : UUID
  source : String
  state : String
  revision : ℤ
  amountMinorUnits : Option ℤ
  amountCurrency : Option String
  amountSource : Option String
  transactionDate : Option Date
  transactionDateSource : Option String
  merchantName : Option String
  merchantSource : Option String
  categoryKey : Option String
  categoryKeySource : Option String
  note : Option String
  expenseId : Option UUID
  createdAt : Instant
  modifiedAt : Instant
  confirmedAt : Option Instant
  receiptId : Option UUID
  recognitionResultId : Option UUID

/-- `_to_record`. -/
def CaptureDraft.toRecord (draft : CaptureDraft) : CaptureDraftRecord where
  id := draft.id
  ownerId := draft.ownerId
  source := draft.source.value
  state := draft.state.value
  revision := draft.revision
  amountMinorUnits := draft.amount.map Money.minorUnits
  amountCurrency := draft.amount.map (·.currency.value)
  amountSource := draft.amountSource.map DraftFieldSource.value
  transactionDate := draft.transactionDate.map TransactionDate.value
  transactionDateSource := draft.transactionDateSource.map DraftFieldSource.value
  merchantName := draft.merchant.map MerchantName.value
  merchantSource := draft.merchantSource.map DraftFieldSource.value
  categoryKey := draft.categoryKey
  categoryKeySource := draft.categoryKeySource.map DraftFieldSource.value
  note := draft.note
  expenseId := draft.expenseId
  createdAt := draft.createdAt
  modifiedAt := draft.modifiedAt
  confirmedAt := draft.confirmedAt
  receiptId := draft.receiptId
  recognitionResultId := draft.recognitionResultId

namespace CaptureDraftRecord

/-- A nullable provenance column holds one of the three spellings. -/
def isFieldSource (s : Option String) : Bool :=
  match s with
  | none => true
  | some s => s ∈ ["recognition", "user", "default"]

/-- The CHECK constraints of `capture_drafts`, by name. -/
def checks (r : CaptureDraftRecord) : List (String × Bool) :=
  [("ck_capture_drafts_revision_non_negative", decide (0 ≤ r.revision)),
    ("ck_capture_drafts_source",
      r.source ∈ ["telegram_manual", "telegram_receipt", "web_manual"]),
    ("ck_capture_drafts_state",
      r.state ∈ ["collecting", "awaiting_recognition", "ready_for_review", "confirmed",
        "cancelled", "expired"]),
    ("ck_capture_drafts_confirmed_requires_expense_id",
      (r.state == "confirmed") == r.expenseId.isSome),
    ("ck_capture_drafts_confirmed_requires_confirmed_at",
      (r.state == "confirmed") == r.confirmedAt.isSome),
    ("ck_capture_drafts_amount_fields_together",
      (r.amountMinorUnits.isNone == r.amountCurrency.isNone) &&
        (r.amountMinorUnits.isNone == r.amountSource.isNone)),
    ("ck_capture_drafts_transaction_date_fields_together",
      r.transactionDate.isNone == r.transactionDateSource.isNone),
    ("ck_capture_drafts_merchant_fields_together",
      r.merchantName.isNone == r.merchantSource.isNone),
    ("ck_capture_drafts_category_key_fields_together",
      r.categoryKey.isNone == r.categoryKeySource.isNone),
    ("ck_capture_drafts_amount_source", isFieldSource r.amountSource),
    ("ck_capture_drafts_transaction_date_source", isFieldSource r.transactionDateSource),
    ("ck_capture_drafts_merchant_source", isFieldSource r.merchantSource),
    ("ck_capture_drafts_category_key_source", isFieldSource r.categoryKeySource),
    ("ck_capture_drafts_receipt_matches_source",
      (r.source == "telegram_receipt") == r.receiptId.isSome)]

/-- The first CHECK constraint that a row violates. -/
def violated (r : CaptureDraftRecord) : Option String :=
  (r.checks.find? fun c => !c.2).map Prod.fst

/-- Whether a row satisfies every CHECK constraint. -/
def SatisfiesChecks (r : CaptureDraftRecord) : Prop := ∀ c ∈ r.checks, c.2 = true

end CaptureDraftRecord

namespace CaptureDraft

/-- What the CHECK constraints say about a draft. -/
structure Consistent (d : CaptureDraft) : Prop where
  revision : 0 ≤ d.revision
  expense : d.state = .confirmed ↔ d.expenseId.isSome = true
  confirmed : d.state = .confirmed ↔ d.confirmedAt.isSome = true
  amount : d.amount.isSome = d.amountSource.isSome
  date : d.transactionDate.isSome = d.transactionDateSource.isSome
  merchant : d.merchant.isSome = d.merchantSource.isSome
  category : d.categoryKey.isSome = d.categoryKeySource.isSome
  receipt : d.source = .telegramReceipt ↔ d.receiptId.isSome = true

/-- The texts of a draft fit their columns. A name is never too long, and a note never can be. -/
structure TextsFit (d : CaptureDraft) : Prop where
  merchant : ∀ m ∈ d.merchant, hasNoNul m.value = true
  category : ∀ key ∈ d.categoryKey, textFits 32 key = true
  note : ∀ note ∈ d.note, hasNoNul note = true

instance decidableTextsFit (d : CaptureDraft) : Decidable d.TextsFit :=
  decidable_of_iff ((∀ m ∈ d.merchant, hasNoNul m.value = true) ∧
    (∀ key ∈ d.categoryKey, textFits 32 key = true) ∧ ∀ note ∈ d.note, hasNoNul note = true)
    ⟨fun h => ⟨h.1, h.2.1, h.2.2⟩, fun h => ⟨h.merchant, h.category, h.note⟩⟩

lemma isFieldSource_value (s : Option DraftFieldSource) :
    CaptureDraftRecord.isFieldSource (s.map DraftFieldSource.value) = true := by
  rcases s with - | - | - | - <;> decide

lemma source_value_eq (s : CaptureSource) :
    (s.value == "telegram_receipt") = decide (s = .telegramReceipt) := by
  cases s <;> decide

lemma state_value_eq (s : CaptureDraftState) :
    (s.value == "confirmed") = decide (s = .confirmed) := by
  cases s <;> decide

/-- **CHECK constraints.** The row of a draft satisfies every constraint exactly when the draft is
consistent.

**Proof sketch.** The texts of enumerated columns are always among those that their constraints
list, so what is left of the constraints is, column by column, what `Consistent` says of the
draft. -/
theorem satisfiesChecks_iff (d : CaptureDraft) : d.toRecord.SatisfiesChecks ↔ d.Consistent := by
  have hsource : d.source.value ∈ ["telegram_manual", "telegram_receipt", "web_manual"] := by
    cases d.source <;> decide
  have hstate : d.state.value ∈ ["collecting", "awaiting_recognition", "ready_for_review",
      "confirmed", "cancelled", "expired"] := by
    cases d.state <;> decide
  have hnone : ∀ {α β : Type} (a : Option α) (b : Option β),
      a.isNone = b.isNone ↔ a.isSome = b.isSome := by
    intro α β a b
    cases a <;> cases b <;> simp
  have hdecide : ∀ (p : Prop) [Decidable p] (b : Bool), decide p = b ↔ (p ↔ b = true) := by
    intro p _ b
    cases b <;> simp
  simp only [CaptureDraftRecord.SatisfiesChecks, CaptureDraftRecord.checks, toRecord,
    List.forall_mem_cons, isFieldSource_value, source_value_eq, state_value_eq, hsource, hstate,
    decide_true, beq_iff_eq, Bool.and_eq_true, Option.isNone_map, true_and, and_true,
    List.not_mem_nil, false_implies, implies_true, hnone, hdecide]
  constructor
  · rintro ⟨h₁, h₂, h₃, h₄, h₅, h₆, h₇, h₈⟩
    exact ⟨of_decide_eq_true h₁, h₂, h₃, h₄, h₅, h₆, h₇, h₈⟩
  · rintro ⟨h₁, h₂, h₃, h₄, h₅, h₆, h₇, h₈⟩
    exact ⟨decide_eq_true h₁, h₂, h₃, h₄, h₅, h₆, h₇, h₈⟩

end CaptureDraft

end MintFlow
