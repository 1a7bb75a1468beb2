import MintFlow.Lib.Snapshots
import MintFlow.Domain.DraftLifecycle
import MintFlow.Persistence.Statements

set_option relaxedAutoImplicit false
set_option autoImplicit false

/-!
# Drafts and Expenses as rows

The repositories keep each draft and each Expense as a row, by three lists of fields each: those of
a new row, those an update writes, and those a row is read from. A value is checked and normalized
again when it is read. A row that does not fit its columns, violates a constraint or points at a row
that is not there is refused.

## Main definitions

* `MintFlow.CaptureDraft.recordValues`, `MintFlow.CaptureDraftRecord.toDomain` — the other two lists
  of a draft.
* `MintFlow.ExpenseRecord` with `MintFlow.Expense.toRecord`, `MintFlow.Expense.recordValues` and
  `MintFlow.expenseFromRecord` — the three of an Expense.
* `MintFlow.draftRows`, `MintFlow.expenseRows` — the repositories.

## Main results

* `MintFlow.toDomain_toRecord`, `MintFlow.expenseFromRecord_toRecord` — every row that was made
  of an object is read as that object.
* `MintFlow.snapshots_survive_storage` — what was stored is read.

## Implementation notes

Timestamps are instants, and a text column gives back the text it took. Text of more characters than
the column has is refused; the column would cut off spaces at its end, but no key ends in one.
-/

namespace MintFlow

open Transact

/-! ## Reading values -/

/-- The member of an enumeration with a stored spelling. -/
def enumMember [PythonRuntime] {α : Type} (name : String) (members : List α) (spelling : α → String)
    (value : String) : Checked α :=
  match members.find? fun m => spelling m == value with
  | some m => .ok m
  | none => .error (PythonRuntime.repr value ++ " is not a valid " ++ name)

section Values

variable [PythonRuntime]

/-- `CaptureSource(value)`. -/
def CaptureSource.new (value : String) : Checked CaptureSource :=
  enumMember "CaptureSource" [.telegramManual, .telegramReceipt, .webManual] CaptureSource.value value

/-- `CaptureDraftState(value)`. -/
def CaptureDraftState.new (value : String) : Checked CaptureDraftState :=
  enumMember "CaptureDraftState"
    [.collecting, .awaitingRecognition, .readyForReview, .confirmed, .cancelled, .expired]
    CaptureDraftState.value value

/-- `DraftFieldSource(value)`. -/
def DraftFieldSource.new (value : String) : Checked DraftFieldSource :=
  enumMember "DraftFieldSource" [.recognition, .user, .default] DraftFieldSource.value value

lemma CaptureSource.new_value (s : CaptureSource) : CaptureSource.new s.value = .ok s := by
  cases s <;> rfl

lemma CaptureDraftState.new_value (s : CaptureDraftState) :
    CaptureDraftState.new s.value = .ok s := by
  cases s <;> rfl

lemma DraftFieldSource.new_value (s : DraftFieldSource) : DraftFieldSource.new s.value = .ok s := by
  cases s <;> rfl

omit [PythonRuntime] in
/-- An amount is accepted again. -/
lemma Money.new_self (m : Money) : Money.new m.minorUnits m.currency = .ok m := by
  unfold Money.new
  rw [dif_neg (not_lt.mpr m.nonneg), dif_neg (not_lt.mpr m.le_max)]

omit [PythonRuntime] in
/-- A date is accepted again. -/
lemma TransactionDate.new_value (d : TransactionDate) : TransactionDate.new d.value = .ok d :=
  dif_pos d.year_mem

omit [PythonRuntime] in
/-- A name is accepted again, and is not altered. -/
lemma MerchantName.new_value (m : MerchantName) : MerchantName.new m.value = .ok m := by
  unfold MerchantName.new
  simp only [m.normalized]
  rw [dif_neg m.ne_empty, dif_pos m.length_le]

omit [PythonRuntime] in
/-- A nullable column is read as the value it was made of, if the value is read from its form. -/
lemma mapM_map_of_forall {α β : Type} {f : β → Checked α} {g : α → β}
    (h : ∀ a, f (g a) = .ok a) (o : Option α) : (o.map g).mapM f = .ok o := by
  cases o with
  | none => rfl
  | some a =>
    rw [Option.map_some, Option.mapM_some, h]
    rfl

end Values

/-! ## Columns -/

/-- A number fits `Integer`. -/
def fitsInteger (n : ℤ) : Bool := decide (-2147483648 ≤ n ∧ n ≤ 2147483647)

/-- A number fits `BigInteger`. -/
def fitsBigInteger (n : ℤ) : Bool :=
  decide (-9223372036854775808 ≤ n ∧ n ≤ 9223372036854775807)

/-- The identifiers and keys in the tables that foreign keys point at. -/
structure OtherRows where
  users : UUID → Bool
  receipts : UUID → Bool
  expenses : UUID → Bool
  results : UUID → Bool
  drafts : UUID → Bool
  categories : String → Bool

/-- A column that an update leaves as it was, whose foreign key is not looked up again. -/
def unchanged {ρ γ : Type} [DecidableEq γ] (old : Option ρ) (column : ρ → γ) (row : ρ) : Bool :=
  old.any fun r => decide (column r = column row)

/-- Why a row is refused, if it is: a value does not fit, a CHECK constraint fails, a unique column
holds the value of another row, or a foreign key points at no row. -/
def refusal (fits : Bool) (checks : List (String × Bool)) (taken : Bool) (constraint table : String)
    (references : List (String × Bool)) : Option Error :=
  if fits = false then some .dataError
  else match checks.find? fun c => !c.2 with
    | some c => some (.checkViolation c.1)
    | none =>
      if taken then some (.uniqueViolation constraint)
      else (references.find? fun c => !c.2).map fun c => .foreignKeyViolation table c.1

/-- No entry of a list of checks failed. -/
lemma find?_not_eq_none {cs : List (String × Bool)} :
    (cs.find? fun c => !c.2) = none ↔ ∀ c ∈ cs, c.2 = true := by
  rw [List.find?_eq_none]
  exact forall₂_congr fun c _ => by cases c.2 <;> decide

/-- A row that is not refused fits, satisfies its constraints, shares the value of the unique column
with no other row and points at rows that are there.

**Proof sketch.** Cases on each of the four reasons in the order in which the statement looks at
them. -/
lemma refusal_eq_none {fits taken : Bool} {checks references : List (String × Bool)}
    {constraint table : String} :
    refusal fits checks taken constraint table references = none ↔
      fits = true ∧ (∀ c ∈ checks, c.2 = true) ∧ taken = false ∧ ∀ c ∈ references, c.2 = true := by
  rw [← find?_not_eq_none, ← find?_not_eq_none]
  unfold refusal
  cases fits with
  | false =>
    rw [if_pos rfl]
    refine iff_of_false ?_ ?_
    · intro h
      cases h
    · rintro ⟨h, -⟩
      cases h
  | true =>
    rw [if_neg (by decide)]
    cases checks.find? fun c => !c.2 with
    | some c =>
      refine iff_of_false ?_ ?_
      · intro h
        cases h
      · rintro ⟨-, h, -⟩
        cases h
    | none =>
      cases taken with
      | true =>
        refine iff_of_false ?_ ?_
        · intro h
          cases h
        · rintro ⟨-, -, h, -⟩
          cases h
      | false =>
        show (references.find? fun c => !c.2).map _ = none ↔ _
        rw [Option.map_eq_none_iff]
        exact ⟨fun h => ⟨rfl, rfl, rfl, h⟩, fun h => h.2.2.2⟩

section Fit

/-- Every amount of money fits its column: no currency has more than three decimal places. -/
lemma Money.fitsBigInteger (m : Money) : MintFlow.fitsBigInteger m.minorUnits = true := by
  have hcap : maxMinorUnits m.currency ≤ 999999999 * 10 ^ 3 := by
    have hpow : (10 : ℤ) ^ m.currency.minorUnitExponent ≤ 10 ^ 3 :=
      pow_le_pow_right₀ (by norm_num) m.currency.minorUnitExponent_le
    exact mul_le_mul_of_nonneg_left hpow (by decide)
  have hnonneg := m.nonneg
  have hle := m.le_max.trans hcap
  exact decide_eq_true ⟨by omega, by omega⟩

/-- Every currency code fits its column. -/
lemma CurrencyCode.textFits (c : CurrencyCode) : MintFlow.textFits 3 c.value = true := by
  have hall : (supportedCurrencyCodes.all (MintFlow.textFits 3)) = true := by decide
  exact List.all_eq_true.mp hall c.value c.supported

/-- A name fits its column exactly when it has no zero character. -/
lemma MerchantName.textFits (m : MerchantName) : MintFlow.textFits 140 m.value = hasNoNul m.value := by
  show (hasNoNul m.value && decide (m.value.length ≤ MerchantName.maxLength)) = hasNoNul m.value
  rw [decide_eq_true m.length_le, Bool.and_true]

/-- An optional name fits its column exactly when it has no zero character. -/
lemma all_textFits_merchant (merchant : Option MerchantName) :
    (merchant.map MerchantName.value).all (MintFlow.textFits 140) = true ↔
      ∀ m ∈ merchant, hasNoNul m.value = true := by
  cases merchant with
  | none => exact iff_of_true rfl fun m hm => by cases hm
  | some m =>
    show MintFlow.textFits 140 m.value = true ↔ _
    rw [m.textFits]
    exact ⟨fun h m' hm' => by cases hm'; exact h, fun h => h m rfl⟩

lemma CaptureSource.textFits (s : CaptureSource) : MintFlow.textFits 32 s.value = true := by
  cases s <;> decide

lemma CaptureDraftState.textFits (s : CaptureDraftState) : MintFlow.textFits 32 s.value = true := by
  cases s <;> decide

lemma DraftFieldSource.textFits (s : DraftFieldSource) : MintFlow.textFits 16 s.value = true := by
  cases s <;> decide

end Fit

/-! ## Drafts -/

/-- `_record_values`: the columns that an update writes, in the place of those of a row. -/
def CaptureDraft.recordValues (draft : CaptureDraft) (row : CaptureDraftRecord) :
    CaptureDraftRecord :=
  { row with
    ownerId := draft.ownerId
    source := draft.source.value
    state := draft.state.value
    revision := draft.revision
    amountMinorUnits := draft.amount.map Money.minorUnits
    amountCurrency := draft.amount.map (·.currency.value)
    amountSource := draft.amountSource.map DraftFieldSource.value
    transactionDate := draft.transactionDate.map TransactionDate.value
    transactionDateSource := draft.transactionDateSource.map DraftFieldSource.value
    merchantName := draft.merchant.map MerchantName.value
    merchantSource := draft.merchantSource.map DraftFieldSource.value
    categoryKey := draft.categoryKey
    categoryKeySource := draft.categoryKeySource.map DraftFieldSource.value
    note := draft.note
    expenseId := draft.expenseId
    modifiedAt := draft.modifiedAt
    confirmedAt := draft.confirmedAt
    recognitionResultId := draft.recognitionResultId }

namespace CaptureDraftRecord

/-- The amount of a row, if it has both of its columns. -/
def amount [PythonRuntime] (r : CaptureDraftRecord) : Checked (Option Money) :=
  match r.amountMinorUnits, r.amountCurrency with
  | some minorUnits, some currency => do
    let currency ← CurrencyCode.new currency
    let amount ← Money.new minorUnits currency
    return some amount
  | _, _ => .ok none

/-- `_to_domain`. -/
def toDomain [PythonRuntime] (r : CaptureDraftRecord) : Checked CaptureDraft := do
  let amount ← r.amount
  let source ← CaptureSource.new r.source
  let state ← CaptureDraftState.new r.state
  let amountSource ← r.amountSource.mapM DraftFieldSource.new
  let transactionDate ← r.transactionDate.mapM TransactionDate.new
  let transactionDateSource ← r.transactionDateSource.mapM DraftFieldSource.new
  let merchant ← r.merchantName.mapM MerchantName.new
  let merchantSource ← r.merchantSource.mapM DraftFieldSource.new
  let categoryKeySource ← r.categoryKeySource.mapM DraftFieldSource.new
  return {
    id := r.id
    ownerId := r.ownerId
    source := source
    state := state
    revision := r.revision
    amount := amount
    amountSource := amountSource
    transactionDate := transactionDate
    transactionDateSource := transactionDateSource
    merchant := merchant
    merchantSource := merchantSource
    categoryKey := r.categoryKey
    categoryKeySource := categoryKeySource
    note := r.note
    expenseId := r.expenseId
    createdAt := r.createdAt
    modifiedAt := r.modifiedAt
    confirmedAt := r.confirmedAt
    receiptId := r.receiptId
    recognitionResultId := r.recognitionResultId }

/-- The values fit their columns. -/
def fits (r : CaptureDraftRecord) : Bool :=
  textFits 32 r.source && textFits 32 r.state && fitsInteger r.revision &&
    r.amountMinorUnits.all fitsBigInteger && r.amountCurrency.all (textFits 3) &&
    r.amountSource.all (textFits 16) && r.transactionDateSource.all (textFits 16) &&
    r.merchantName.all (textFits 140) && r.merchantSource.all (textFits 16) &&
    r.categoryKey.all (textFits 32) && r.categoryKeySource.all (textFits 16) &&
    r.note.all hasNoNul

/-- The foreign keys, and whether the rows they point at are there. -/
def references (others : OtherRows) (old : Option CaptureDraftRecord) (r : CaptureDraftRecord) :
    List (String × Bool) :=
  [("owner_id", unchanged old ownerId r || others.users r.ownerId),
    ("expense_id", unchanged old expenseId r || r.expenseId.all others.expenses),
    ("receipt_id", unchanged old receiptId r || r.receiptId.all others.receipts),
    ("recognition_result_id",
      unchanged old recognitionResultId r || r.recognitionResultId.all others.results)]

/-- Another row has the receipt of a row. -/
def receiptTaken (t : Table CaptureDraftRecord.id) (r : CaptureDraftRecord) : Bool :=
  t.rows.any fun r' => decide (r'.id ≠ r.id) && r.receiptId.isSome && r'.receiptId == r.receiptId

/-- Why the database refuses a row, if it does. -/
def refuses (others : OtherRows) (t : Table CaptureDraftRecord.id)
    (old : Option CaptureDraftRecord) (r : CaptureDraftRecord) : Option Error :=
  refusal r.fits r.checks (receiptTaken t r) "uq_capture_drafts_receipt_id" "capture_drafts"
    (r.references others old)

end CaptureDraftRecord

section Drafts

variable [PythonRuntime]

/-- **Rows of drafts.** The row of a draft is read as that draft: no value is refused or altered. -/
theorem toDomain_toRecord (hupper : UpperKeepsCapitals) (d : CaptureDraft) :
    d.toRecord.toDomain = .ok d := by
  have hamount : d.toRecord.amount = .ok d.amount := by
    unfold CaptureDraftRecord.amount CaptureDraft.toRecord
    cases d.amount with
    | none => rfl
    | some m =>
      simp only [Option.map_some]
      rw [currencyCode_new_value hupper, Checked.bind_ok, Money.new_self]
      rfl
  unfold CaptureDraftRecord.toDomain
  rw [hamount]
  simp only [CaptureDraft.toRecord, CaptureSource.new_value, CaptureDraftState.new_value,
    mapM_map_of_forall DraftFieldSource.new_value, mapM_map_of_forall TransactionDate.new_value,
    mapM_map_of_forall MerchantName.new_value, Checked.bind_ok]
  rfl

/-- The repository of drafts. -/
def draftRows : Mapping CaptureDraft CaptureDraftRecord UUID String where
  id := CaptureDraft.id
  key := CaptureDraftRecord.id
  record := CaptureDraft.toRecord
  write := CaptureDraft.recordValues
  read := CaptureDraftRecord.toDomain
  key_record _ := rfl
  key_write _ _ := rfl
  write_write _ _ _ := rfl

omit [PythonRuntime] in
/-- **The columns an update leaves out.** Over the row of an earlier snapshot of it, a draft writes
its own row. -/
lemma recordValues_toRecord {d₀ d : CaptureDraft} (h : d₀.SameOrigin d) :
    d.recordValues d₀.toRecord = d.toRecord := by
  obtain ⟨hid, howner, hsource, hreceipt, hcreated⟩ := h
  unfold CaptureDraft.recordValues CaptureDraft.toRecord
  rw [hid, hreceipt, hcreated]

omit [PythonRuntime] in
/-- What of a draft its columns may not take: a large revision, a long key, zero characters. -/
structure CaptureDraft.Storable (d : CaptureDraft) : Prop extends d.TextsFit where
  revision : d.revision ≤ 2147483647

omit [PythonRuntime] in
/-- The row of a draft fits its columns exactly when the draft can be stored.

**Proof sketch.** Sources, states, codes and amounts always fit their columns, so what is left is
the revision, the key and the texts. -/
lemma fits_toRecord {d : CaptureDraft} (hrevision : 0 ≤ d.revision) :
    d.toRecord.fits = true ↔ d.Storable := by
  have hsource : ∀ s : Option DraftFieldSource,
      (s.map DraftFieldSource.value).all (textFits 16) = true := by
    intro s
    cases s with
    | none => rfl
    | some s => exact s.textFits
  have hunits : (d.amount.map Money.minorUnits).all fitsBigInteger = true := by
    cases d.amount with
    | none => rfl
    | some m => exact m.fitsBigInteger
  have hcode : (d.amount.map (·.currency.value)).all (textFits 3) = true := by
    cases d.amount with
    | none => rfl
    | some m => exact m.currency.textFits
  have hinteger : fitsInteger d.revision = true ↔ d.revision ≤ 2147483647 := by
    unfold fitsInteger
    rw [decide_eq_true_eq]
    omega
  unfold CaptureDraftRecord.fits CaptureDraft.toRecord
  simp only [Bool.and_eq_true, CaptureSource.textFits, CaptureDraftState.textFits, hsource, hunits,
    hcode, all_textFits_merchant, hinteger, true_and, and_true]
  simp only [Option.all_eq_true]
  constructor
  · rintro ⟨⟨⟨h₁, h₂⟩, h₃⟩, h₄⟩
    exact ⟨⟨h₂, h₃, h₄⟩, h₁⟩
  · rintro ⟨⟨h₂, h₃, h₄⟩, h₁⟩
    exact ⟨⟨⟨h₁, h₂⟩, h₃⟩, h₄⟩

end Drafts

/-- `get`: the draft with an identifier, if it is the owner's. -/
def CaptureDraftRecord.get [PythonRuntime] (t : Table CaptureDraftRecord.id)
    (draftId ownerId : UUID) : Checked (Option CaptureDraft) :=
  ((t.find draftId).filter fun r => decide (r.ownerId = ownerId)).mapM CaptureDraftRecord.toDomain

/-! ## Expenses -/

/-- A row of `expenses`. -/
structure ExpenseRecord where
  id : UUID
  ownerId : UUID
  amountMinorUnits : ℤ
  amountCurrency : String
  transactionDate : Date
  merchantName : Option String
  categoryKey : String
  note : Option String
  source : String
  captureDraftId : UUID
  receiptId : Option UUID
  createdAt : Instant
  modifiedAt : Instant
  deletedAt : Option Instant

/-- `_to_record`. -/
def Expense.toRecord (expense : Expense) : ExpenseRecord where
  id := expense.id
  ownerId := expense.ownerId
  amountMinorUnits := expense.money.minorUnits
  amountCurrency := expense.money.currency.value
  transactionDate := expense.transactionDate.value
  merchantName := expense.merchant.map MerchantName.value
  categoryKey := expense.categoryKey
  note := expense.note
  source := expense.source.value
  captureDraftId := expense.captureDraftId
  receiptId := expense.receiptId
  createdAt := expense.createdAt
  modifiedAt := expense.modifiedAt
  deletedAt := expense.deletedAt

/-- `_record_values`: the columns that an update writes, in the place of those of a row. -/
def Expense.recordValues (expense : Expense) (row : ExpenseRecord) : ExpenseRecord :=
  { row with
    amountMinorUnits := expense.money.minorUnits
    amountCurrency := expense.money.currency.value
    transactionDate := expense.transactionDate.value
    merchantName := expense.merchant.map MerchantName.value
    categoryKey := expense.categoryKey
    note := expense.note
    modifiedAt := expense.modifiedAt
    deletedAt := expense.deletedAt }

/-- `expense_from_record`. -/
def expenseFromRecord [PythonRuntime] (record : ExpenseRecord) : Checked Expense := do
  let currency ← CurrencyCode.new record.amountCurrency
  let money ← Money.new record.amountMinorUnits currency
  let transactionDate ← TransactionDate.new record.transactionDate
  let merchant ← record.merchantName.mapM MerchantName.new
  let source ← CaptureSource.new record.source
  return {
    id := record.id
    ownerId := record.ownerId
    money := money
    transactionDate := transactionDate
    merchant := merchant
    categoryKey := record.categoryKey
    note := record.note
    source := source
    captureDraftId := record.captureDraftId
    receiptId := record.receiptId
    createdAt := record.createdAt
    modifiedAt := record.modifiedAt
    deletedAt := record.deletedAt }

namespace ExpenseRecord

/-- The values fit their columns. -/
def fits (r : ExpenseRecord) : Bool :=
  fitsBigInteger r.amountMinorUnits && textFits 3 r.amountCurrency &&
    r.merchantName.all (textFits 140) && textFits 32 r.categoryKey && r.note.all hasNoNul &&
    textFits 32 r.source

/-- The CHECK constraints of `expenses`, by name. -/
def checks (r : ExpenseRecord) : List (String × Bool) :=
  [("ck_expenses_amount_positive", decide (0 < r.amountMinorUnits)),
    ("ck_expenses_source",
      decide (r.source ∈ ["telegram_manual", "telegram_receipt", "web_manual"]))]

/-- The foreign keys, and whether the rows they point at are there. -/
def references (others : OtherRows) (old : Option ExpenseRecord) (r : ExpenseRecord) :
    List (String × Bool) :=
  [("owner_id", unchanged old ownerId r || others.users r.ownerId),
    ("category_key", unchanged old categoryKey r || others.categories r.categoryKey),
    ("capture_draft_id", unchanged old captureDraftId r || others.drafts r.captureDraftId),
    ("receipt_id", unchanged old receiptId r || r.receiptId.all others.receipts)]

/-- Another row has the draft of a row. -/
def draftTaken (t : Table ExpenseRecord.id) (r : ExpenseRecord) : Bool :=
  t.rows.any fun r' => decide (r'.id ≠ r.id) && r'.captureDraftId == r.captureDraftId

/-- Why the database refuses a row, if it does. -/
def refuses (others : OtherRows) (t : Table ExpenseRecord.id) (old : Option ExpenseRecord)
    (r : ExpenseRecord) : Option Error :=
  refusal r.fits r.checks (draftTaken t r) "uq_expenses_capture_draft_id" "expenses"
    (r.references others old)

/-- `get`: the Expense with an identifier, if it is the owner's, in any deletion state. -/
def get [PythonRuntime] (t : Table ExpenseRecord.id) (expenseId ownerId : UUID) :
    Checked (Option Expense) :=
  ((t.find expenseId).filter fun r => decide (r.ownerId = ownerId)).mapM expenseFromRecord

end ExpenseRecord

/-- The repository of Expenses. -/
def expenseRows [PythonRuntime] : Mapping Expense ExpenseRecord UUID String where
  id := Expense.id
  key := ExpenseRecord.id
  record := Expense.toRecord
  write := Expense.recordValues
  read := expenseFromRecord
  key_record _ := rfl
  key_write _ _ := rfl
  write_write _ _ _ := rfl

/-- **Rows of Expenses.** The row of an Expense is read as that Expense: no value is refused or
altered. -/
theorem expenseFromRecord_toRecord [PythonRuntime] (hupper : UpperKeepsCapitals) (e : Expense) :
    expenseFromRecord e.toRecord = .ok e := by
  simp only [expenseFromRecord, Expense.toRecord, currencyCode_new_value hupper, Money.new_self,
    TransactionDate.new_value, mapM_map_of_forall MerchantName.new_value, CaptureSource.new_value,
    Checked.bind_ok]
  rfl

/-- **The columns an update leaves out.** Over the row of an earlier snapshot of it, an Expense
writes its own row. -/
lemma Expense.recordValues_toRecord {e₀ e : Expense} (h : e₀.Keeps e) :
    e.recordValues e₀.toRecord = e.toRecord := by
  unfold Expense.recordValues Expense.toRecord
  rw [h.id, h.ownerId, h.source, h.captureDraftId, h.receiptId, h.createdAt]

/-- The row of an Expense fits its columns exactly when the Expense can be stored. -/
lemma Expense.fits_toRecord (e : Expense) : e.toRecord.fits = true ↔ e.Storable := by
  unfold ExpenseRecord.fits Expense.toRecord
  simp only [Bool.and_eq_true, Money.fitsBigInteger, CurrencyCode.textFits, CaptureSource.textFits,
    all_textFits_merchant, true_and, and_true]
  simp only [Option.all_eq_true]
  constructor
  · rintro ⟨⟨h₁, h₂⟩, h₃⟩
    exact ⟨h₁, h₂, h₃⟩
  · rintro ⟨h₁, h₂, h₃⟩
    exact ⟨⟨h₁, h₂⟩, h₃⟩

/-- The constraints of `expenses` say that the amount is positive. -/
lemma Expense.satisfiesChecks_iff (e : Expense) :
    (∀ c ∈ e.toRecord.checks, c.2 = true) ↔ 0 < e.money.minorUnits := by
  have hsource : e.source.value ∈ ["telegram_manual", "telegram_receipt", "web_manual"] := by
    cases e.source <;> decide
  simp only [ExpenseRecord.checks, List.forall_mem_cons, List.not_mem_nil, false_implies,
    implies_true, and_true, decide_eq_true_eq]
  exact and_iff_left hsource

/-! ## What was stored is read -/

section Survival

variable [PythonRuntime]

omit [PythonRuntime] in
/-- The row that is found is read, when it is asked for by its owner. -/
lemma get_of_find {α ρ : Type} {o : Option ρ} {read : ρ → Checked α} {owned : ρ → Bool} {r : ρ} {a : α}
    (hfind : o = some r) (hread : read r = .ok a) (howned : owned r = true) :
    (o.filter owned).mapM read = .ok (some a) := by
  rw [hfind, Option.filter_some, if_pos howned, Option.mapM_some, hread]
  rfl

/-- A draft that was stored is read by its owner. -/
lemma get_draft (hupper : UpperKeepsCapitals) {d₀ d : CaptureDraft} (horigin : d₀.SameOrigin d)
    {others others' : OtherRows} {t t₀ t₁ t₂ : Table CaptureDraftRecord.id}
    {between : List (SnapshotStatement CaptureDraft OtherRows)} {duplicate : Error}
    (hcreate : draftRows.create CaptureDraftRecord.refuses duplicate others t d₀ = .ok t₀)
    (hrun : draftRows.run CaptureDraftRecord.refuses duplicate t₀ between = .ok t₁)
    (hupdate : draftRows.update CaptureDraftRecord.refuses others' t₁ d = .ok t₂) :
    CaptureDraftRecord.get t₂ d.id d.ownerId = .ok (some d) := by
  have hfind := Mapping.find_after horigin.1 hcreate hrun hupdate
  have hrow : d.recordValues d₀.toRecord = d.toRecord := recordValues_toRecord horigin
  exact get_of_find (hfind.trans (congrArg some hrow)) (toDomain_toRecord hupper d)
    (decide_eq_true rfl)

/-- An Expense that was stored is read by its owner. -/
lemma get_expense (hupper : UpperKeepsCapitals) {e₀ e : Expense} (hkeeps : e₀.Keeps e)
    {others others' : OtherRows} {t t₀ t₁ t₂ : Table ExpenseRecord.id}
    {between : List (SnapshotStatement Expense OtherRows)} {duplicate : Error}
    (hcreate : expenseRows.create ExpenseRecord.refuses duplicate others t e₀ = .ok t₀)
    (hrun : expenseRows.run ExpenseRecord.refuses duplicate t₀ between = .ok t₁)
    (hupdate : expenseRows.update ExpenseRecord.refuses others' t₁ e = .ok t₂) :
    ExpenseRecord.get t₂ e.id e.ownerId = .ok (some e) := by
  have hfind := Mapping.find_after hkeeps.id hcreate hrun hupdate
  have hrow : e.recordValues e₀.toRecord = e.toRecord := Expense.recordValues_toRecord hkeeps
  exact get_of_find (hfind.trans (congrArg some hrow)) (expenseFromRecord_toRecord hupper e)
    (decide_eq_true rfl)

/-- A reachable draft is refused only for a receipt that is not there, for what does not fit, for
another draft of its receipt, and for rows that are not there.

**Proof sketch.** A reachable draft that names its receipt is consistent, so its row satisfies the
constraints; one that does not violates the constraint on the receipt. -/
lemma refuses_draft {d₁ : CaptureDraft} (h₁ : d₁.Started) (os : List DraftOperation)
    (others : OtherRows) (t : Table CaptureDraftRecord.id) (old : Option CaptureDraftRecord) :
    let d := d₁.performAll os
    CaptureDraftRecord.refuses others t old d.toRecord = none ↔
      (d₁.source = .telegramReceipt → d₁.receiptId.isSome = true) ∧ d.Storable ∧
        CaptureDraftRecord.receiptTaken t d.toRecord = false ∧
        ∀ c ∈ d.toRecord.references others old, c.2 = true := by
  intro d
  obtain ⟨-, -, hsource, hreceipt, -⟩ := CaptureDraft.sameOrigin_performAll d₁ os
  unfold CaptureDraftRecord.refuses
  rw [refusal_eq_none]
  constructor
  · rintro ⟨hfits, hchecks, htaken, hreferences⟩
    have hd : d.Consistent := d.satisfiesChecks_iff.mp hchecks
    refine ⟨fun htelegram => ?_, (fits_toRecord hd.revision).mp hfits, htaken, hreferences⟩
    rw [← hreceipt]
    exact hd.receipt.mp (hsource.trans htelegram)
  · rintro ⟨hsome, hstorable, htaken, hreferences⟩
    have hd : d.Consistent :=
      CaptureDraft.consistent_performAll (h₁.created hsome).consistent os
    exact ⟨(fits_toRecord hd.revision).mpr hstorable, d.satisfiesChecks_iff.mpr hd, htaken,
      hreferences⟩

/-- A reachable Expense is refused only for what does not fit, for another Expense of its draft,
and for rows that are not there. -/
lemma refuses_expense {e₀ : Expense} (h₀ : e₀.Created) (os : List ExpenseOperation)
    (others : OtherRows) (t : Table ExpenseRecord.id) (old : Option ExpenseRecord) :
    let e := e₀.performAll os
    ExpenseRecord.refuses others t old e.toRecord = none ↔
      e.Storable ∧ ExpenseRecord.draftTaken t e.toRecord = false ∧
        ∀ c ∈ e.toRecord.references others old, c.2 = true := by
  intro e
  have hpositive : 0 < e.money.minorUnits := (e₀.keeps_performAll os).positive h₀.positive
  unfold ExpenseRecord.refuses
  rw [refusal_eq_none, e.fits_toRecord, e.satisfiesChecks_iff]
  constructor
  · rintro ⟨hfits, -, htaken, hreferences⟩
    exact ⟨hfits, htaken, hreferences⟩
  · rintro ⟨hfits, htaken, hreferences⟩
    exact ⟨hfits, hpositive, htaken, hreferences⟩

/-- **Snapshots survive storage.** Let a draft be started and changed by any operations to `d₀`, and
by any further ones to `d`: they have the same identifier, creation time and receipt, which are the
columns an update leaves out; and when `d₀` is created, any drafts whatsoever are created and
updated, and then `d` is updated, reading it by its identifier and owner gives exactly `d`. For an
Expense `e₀` that was created and changed to `e` the same holds with the columns of its own. The row
of any draft and of any Expense is read as exactly that draft or Expense: no currency, amount, date
or name is altered or refused. And no row is refused for its state: only for a number or text that
does not fit its column, for a receipt or a draft that another row has, for rows of other tables
that are not there, and, if the draft was started as a receipt's without one, for the receipt.

**Proof sketch.** No operation changes the origin, so writing `d` over the row of `d₀` is the row of
`d`, and what is written in between is written over; and the values of a row are valid as they
are. -/
theorem snapshots_survive_storage (hupper : UpperKeepsCapitals) (duplicate : Error) :
    (∀ (d₁ : CaptureDraft) (os os' : List DraftOperation), d₁.Started →
      let d₀ := d₁.performAll os
      let d := d₀.performAll os'
      (d.id = d₀.id ∧ d.createdAt = d₀.createdAt ∧ d.receiptId = d₀.receiptId) ∧
      (∀ others t t₀ between t₁ others' t₂,
        draftRows.create CaptureDraftRecord.refuses duplicate others t d₀ = .ok t₀ →
        draftRows.run CaptureDraftRecord.refuses duplicate t₀ between = .ok t₁ →
        draftRows.update CaptureDraftRecord.refuses others' t₁ d = .ok t₂ →
          CaptureDraftRecord.get t₂ d.id d.ownerId = .ok (some d)) ∧
      ∀ others t old, CaptureDraftRecord.refuses others t old d.toRecord = none ↔
        (d₁.source = .telegramReceipt → d₁.receiptId.isSome = true) ∧ d.Storable ∧
          CaptureDraftRecord.receiptTaken t d.toRecord = false ∧
          ∀ c ∈ d.toRecord.references others old, c.2 = true) ∧
    (∀ (e₀ : Expense) (os : List ExpenseOperation), e₀.Created →
      let e := e₀.performAll os
      (e.id = e₀.id ∧ e.ownerId = e₀.ownerId ∧ e.source = e₀.source ∧
        e.captureDraftId = e₀.captureDraftId ∧ e.receiptId = e₀.receiptId ∧
        e.createdAt = e₀.createdAt) ∧
      (∀ others t t₀ between t₁ others' t₂,
        expenseRows.create ExpenseRecord.refuses duplicate others t e₀ = .ok t₀ →
        expenseRows.run ExpenseRecord.refuses duplicate t₀ between = .ok t₁ →
        expenseRows.update ExpenseRecord.refuses others' t₁ e = .ok t₂ →
          ExpenseRecord.get t₂ e.id e.ownerId = .ok (some e)) ∧
      ∀ others t old, ExpenseRecord.refuses others t old e.toRecord = none ↔
        e.Storable ∧ ExpenseRecord.draftTaken t e.toRecord = false ∧
          ∀ c ∈ e.toRecord.references others old, c.2 = true) ∧
    (∀ d : CaptureDraft, d.toRecord.toDomain = .ok d) ∧
    ∀ e : Expense, expenseFromRecord e.toRecord = .ok e := by
  refine ⟨fun d₁ os os' h₁ => ?_, fun e₀ os h₀ => ?_, toDomain_toRecord hupper,
    expenseFromRecord_toRecord hupper⟩
  · have horigin := CaptureDraft.sameOrigin_performAll (d₁.performAll os) os'
    have hall : (d₁.performAll os).performAll os' = d₁.performAll (os ++ os') :=
      List.foldl_append.symm
    refine ⟨⟨horigin.1, horigin.2.2.2.2, horigin.2.2.2.1⟩, ?_, ?_⟩
    · intro others t t₀ between t₁ others' t₂ hcreate hrun hupdate
      exact get_draft hupper horigin hcreate hrun hupdate
    · intro others t old
      rw [hall]
      exact refuses_draft h₁ (os ++ os') others t old
  · have hkeeps := e₀.keeps_performAll os
    refine ⟨⟨hkeeps.id, hkeeps.ownerId, hkeeps.source, hkeeps.captureDraftId, hkeeps.receiptId,
      hkeeps.createdAt⟩, ?_, refuses_expense h₀ os⟩
    intro others t t₀ between t₁ others' t₂ hcreate hrun hupdate
    exact get_expense hupper hkeeps hcreate hrun hupdate

end Survival

/-! ## A corner shop -/

/-- The name of a shop. -/
def cornerShop : MerchantName := ⟨"Corner shop", by decide, by decide, by decide⟩

/-- Every row that is pointed at is there. -/
def OtherRows.full : OtherRows :=
  ⟨fun _ => true, fun _ => true, fun _ => true, fun _ => true, fun _ => true, fun _ => true⟩

/-- Create a snapshot, update it to others, and then to the last. -/
def storeAll {α ρ κ ε : Type} [DecidableEq κ] (m : Mapping α ρ κ ε)
    (refuses : m.Refusal OtherRows Error) (duplicate : Error) (first : α) (between : List α)
    (last : α) : Except Error (Table m.key) := do
  let t₀ ← m.create refuses duplicate .full .empty first
  let t₁ ← m.run refuses duplicate t₀ (between.map (SnapshotStatement.update OtherRows.full))
  m.update refuses .full t₁ last

/-- What is stored so was created, updated and updated at last. -/
lemma of_storeAll {α ρ κ ε : Type} [DecidableEq κ] {m : Mapping α ρ κ ε}
    {refuses : m.Refusal OtherRows Error} {duplicate : Error} {first last : α} {between : List α}
    (h : (storeAll m refuses duplicate first between last).toOption.isSome = true) :
    ∃ t₀ t₁ t₂, m.create refuses duplicate .full .empty first = .ok t₀ ∧
      m.run refuses duplicate t₀ (between.map (SnapshotStatement.update OtherRows.full)) = .ok t₁ ∧
      m.update refuses .full t₁ last = .ok t₂ := by
  obtain ⟨t₂, h⟩ := Option.isSome_iff_exists.mp h
  obtain ⟨t₀, h₀, h⟩ := Checked.bind_eq_ok.mp (Checked.of_toOption h)
  obtain ⟨t₁, h₁, h₂⟩ := Checked.bind_eq_ok.mp h
  exact ⟨t₀, t₁, t₂, h₀, h₁, h₂⟩

/-- What is done to a draft before it is stored. -/
def shopDraftBefore : List DraftOperation := [.setAmount 7 twelveFifty ⟨1, some 0⟩ .user]

/-- What is done to it afterwards. -/
def shopDraftAfter : List DraftOperation :=
  [.setMerchant 7 cornerShop ⟨2, some 0⟩ .user, .setTransactionDate 7 july29 ⟨3, some 0⟩ .default,
    .markReadyForReview 7 ⟨4, some 0⟩]

/-- What is done to an Expense. -/
def shopEdits : List ExpenseOperation :=
  [.editMerchant (some cornerShop) ⟨6, some 0⟩, .delete ⟨7, some 0⟩]

/-- A draft and an Expense of the shop, changed while they are stored. -/
theorem snapshots_survive_storage_shop :
    let _ := PythonRuntime.ascii
    ∃ (d : CaptureDraft) (t : Table CaptureDraftRecord.id) (e : Expense)
      (t' : Table ExpenseRecord.id),
      d.merchant = some cornerShop ∧ CaptureDraftRecord.get t d.id d.ownerId = .ok (some d) ∧
        e.merchant = some cornerShop ∧ ExpenseRecord.get t' e.id e.ownerId = .ok (some e) := by
  let _ := PythonRuntime.ascii
  have hdraft : (CaptureDraft.start 1 7 .webManual ⟨0, some 0⟩).toOption.any (fun d₁ =>
      let d₀ := d₁.performAll shopDraftBefore
      let d := d₀.performAll shopDraftAfter
      (storeAll draftRows CaptureDraftRecord.refuses (.uniqueViolation "pkey") d₀ [d₁] d
        ).toOption.isSome && d.merchant == some cornerShop) = true := by decide +kernel
  have hexpense : (Expense.create 9 7 twelveFifty july29 "uncategorized" 1 none none .webManual none
      ⟨5, some 0⟩).toOption.any (fun e₀ =>
      let e := e₀.performAll shopEdits
      (storeAll expenseRows ExpenseRecord.refuses (.uniqueViolation "pkey") e₀ [e, e₀] e
        ).toOption.isSome && e.merchant == some cornerShop) = true := by decide +kernel
  obtain ⟨d₁, hd₁, hd⟩ := (Option.any_eq_true _ _).mp hdraft
  obtain ⟨e₀, he₀, he⟩ := (Option.any_eq_true _ _).mp hexpense
  rw [Bool.and_eq_true, beq_iff_eq] at hd he
  obtain ⟨t₀, t₁, t₂, hcreate, hrun, hupdate⟩ := of_storeAll hd.1
  obtain ⟨t₀', t₁', t₂', hcreate', hrun', hupdate'⟩ := of_storeAll he.1
  obtain ⟨hdrafts, hexpenses, -, -⟩ :=
    snapshots_survive_storage upperKeepsCapitals_ascii (.uniqueViolation "pkey")
  have hread := (hdrafts d₁ shopDraftBefore shopDraftAfter
    (.inl ⟨1, 7, .webManual, ⟨0, some 0⟩, Checked.of_toOption hd₁⟩)).2.1
  have hread' := (hexpenses e₀ shopEdits ⟨9, 7, twelveFifty, july29, "uncategorized", 1, none, none,
    .webManual, none, ⟨5, some 0⟩, Checked.of_toOption he₀⟩).2.1
  exact ⟨_, t₂, _, t₂', hd.2, hread _ _ _ _ _ _ _ hcreate hrun hupdate, he.2,
    hread' _ _ _ _ _ _ _ hcreate' hrun' hupdate'⟩

end MintFlow
