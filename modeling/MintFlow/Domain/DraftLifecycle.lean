import MintFlow.Persistence.DraftRecord

set_option relaxedAutoImplicit false
set_option autoImplicit false

/-!
# The life of a draft

A draft is stepped by its operations; an operation that raises leaves it as it was. What one
operation can do is said once, and what every sequence of operations keeps follows by induction.

## Main definitions

* `MintFlow.DraftOperation` — an operation with its arguments.
* `MintFlow.CaptureDraft.perform`, `MintFlow.CaptureDraft.performAll` — one operation, and a
  sequence of them.
* `MintFlow.CaptureDraft.Created` — the drafts the program starts from.
* `MintFlow.CaptureDraft.Started` — those its constructors give, also when called otherwise.
* `MintFlow.CaptureDraft.Evolves` — how one operation may change a draft.

## Main results

* `MintFlow.CaptureDraft.evolves_perform` — every operation evolves the draft.
* `MintFlow.CaptureDraft.consistent_performAll` — every reachable draft is consistent.
* `MintFlow.CaptureDraft.draft_state_machine` — the state machine.
-/

namespace MintFlow

open Transact

/-- An operation on a draft, with its arguments. -/
inductive DraftOperation
  | setAmount (callerId : UUID) (amount : Money) (now : DateTime) (source : DraftFieldSource)
  | setTransactionDate (callerId : UUID) (date : TransactionDate) (now : DateTime)
      (source : DraftFieldSource)
  | setMerchant (callerId : UUID) (merchant : MerchantName) (now : DateTime)
      (source : DraftFieldSource)
  | setCategoryKey (callerId : UUID) (categoryKey : String) (now : DateTime)
      (source : DraftFieldSource)
  | setNote (callerId : UUID) (note : Option String) (now : DateTime)
  | applyRecognition (result : RecognitionResult) (fallbackCategoryKey : String) (now : DateTime)
  | continueManually (callerId : UUID) (now : DateTime)
  | markReadyForReview (callerId : UUID) (now : DateTime)
  | confirm (callerId expenseId : UUID) (now : DateTime)
  | cancel (callerId : UUID) (now : DateTime)
  | expire (now : DateTime)

namespace CaptureDraft

variable [PythonRuntime]

/-- What an operation returns or raises. -/
def apply (d : CaptureDraft) : DraftOperation → Checked CaptureDraft
  | .setAmount c m t s => d.setAmount c m t s
  | .setTransactionDate c v t s => d.setTransactionDate c v t s
  | .setMerchant c v t s => d.setMerchant c v t s
  | .setCategoryKey c k t s => d.setCategoryKey c k t s
  | .setNote c n t => d.setNote c n t
  | .applyRecognition r k t => d.applyRecognition r k t
  | .continueManually c t => d.continueManually c t
  | .markReadyForReview c t => d.markReadyForReview c t
  | .confirm c e t => d.confirm c e t
  | .cancel c t => d.cancel c t
  | .expire t => d.expire t

/-- The draft after an operation: an operation that raises leaves it as it was. -/
def perform (d : CaptureDraft) (o : DraftOperation) : CaptureDraft :=
  match d.apply o with
  | .ok d' => d'
  | .error _ => d

/-- The draft after a sequence of operations. -/
def performAll (d : CaptureDraft) (os : List DraftOperation) : CaptureDraft := os.foldl perform d

/-- The drafts the program starts from. -/
def Created (d : CaptureDraft) : Prop :=
  (∃ id owner source now, source ≠ .telegramReceipt ∧ start id owner source now = .ok d) ∨
    ∃ id owner receipt now, startFromReceipt id owner receipt now = .ok d

/-- The drafts that the two constructors give, with any arguments. -/
def Started (d : CaptureDraft) : Prop :=
  (∃ id owner source now, start id owner source now = .ok d) ∨
    ∃ id owner receipt now, startFromReceipt id owner receipt now = .ok d

/-- Who a draft is and where it comes from. -/
def SameOrigin (d d' : CaptureDraft) : Prop :=
  d'.id = d.id ∧ d'.ownerId = d.ownerId ∧ d'.source = d.source ∧ d'.receiptId = d.receiptId ∧
    d'.createdAt = d.createdAt

/-- Terminal states. -/
def isTerminal (d : CaptureDraft) : Prop :=
  d.state = .confirmed ∨ d.state = .cancelled ∨ d.state = .expired

/-- The values and provenances that count towards the revision. -/
def Content (d d' : CaptureDraft) : Prop :=
  d'.amount = d.amount ∧ d'.amountSource = d.amountSource ∧
    d'.transactionDate = d.transactionDate ∧ d'.transactionDateSource = d.transactionDateSource ∧
    d'.merchant = d.merchant ∧ d'.merchantSource = d.merchantSource ∧
    d'.categoryKey = d.categoryKey ∧ d'.categoryKeySource = d.categoryKeySource ∧
    d'.note = d.note

/-- How one operation `o` may change a draft. -/
structure Evolves (o : DraftOperation) (d d' : CaptureDraft) : Prop where
  /-- Terminal drafts do not change. -/
  absorbing : d.isTerminal → d' = d
  /-- Identity and origin stay. -/
  identity : d'.id = d.id ∧ d'.ownerId = d.ownerId ∧ d'.source = d.source ∧
    d'.receiptId = d.receiptId ∧ d'.createdAt = d.createdAt
  /-- The revision never decreases. -/
  revision_le : d.revision ≤ d'.revision
  /-- The revision grows when a value or a provenance changes. -/
  revision_lt : ¬ Content d d' → d.revision < d'.revision
  /-- Confirmation comes from review with an amount and a date. -/
  confirmed : d'.state = .confirmed → d.state ≠ .confirmed →
    d.state = .readyForReview ∧ d'.amount = d.amount ∧ d.amount.isSome = true ∧
      d'.transactionDate = d.transactionDate ∧ d.transactionDate.isSome = true
  /-- Only its own setter changes an amount the user supplied. -/
  amount : d.amountSource = some .user →
    (d'.amount = d.amount ∧ d'.amountSource = some .user) ∨ ∃ c m t s, o = .setAmount c m t s
  /-- Only its own setter changes a date the user supplied. -/
  date : d.transactionDateSource = some .user →
    (d'.transactionDate = d.transactionDate ∧ d'.transactionDateSource = some .user) ∨
      ∃ c v t s, o = .setTransactionDate c v t s
  /-- Only its own setter changes a merchant the user supplied. -/
  merchant : d.merchantSource = some .user →
    (d'.merchant = d.merchant ∧ d'.merchantSource = some .user) ∨
      ∃ c v t s, o = .setMerchant c v t s
  /-- Only its own setter changes a category the user supplied. -/
  category : d.categoryKeySource = some .user →
    (d'.categoryKey = d.categoryKey ∧ d'.categoryKeySource = some .user) ∨
      ∃ c v t s, o = .setCategoryKey c v t s
  /-- Only the user changes the note. -/
  note : d'.note = d.note ∨ ∃ c v t, o = .setNote c v t

/-! ## One operation -/

section Step

variable {d d' : CaptureDraft}

omit [PythonRuntime] in
/-- Leaving the draft as it was is an evolution by any operation. -/
lemma Evolves.refl (o : DraftOperation) (d : CaptureDraft) : Evolves o d d where
  absorbing _ := rfl
  identity := ⟨rfl, rfl, rfl, rfl, rfl⟩
  revision_le := le_rfl
  revision_lt h := absurd (by simp [Content]) h
  confirmed h h' := absurd h h'
  amount h := .inl ⟨rfl, h⟩
  date h := .inl ⟨rfl, h⟩
  merchant h := .inl ⟨rfl, h⟩
  category h := .inl ⟨rfl, h⟩
  note := .inl rfl

omit [PythonRuntime] in
/-- An open draft is not terminal. -/
lemma not_isTerminal_of_isOpen (h : d.isOpen = true) : ¬ d.isTerminal := by
  simp only [isOpen, openStates] at h
  rintro (h' | h' | h') <;> simp [h'] at h

omit [PythonRuntime] in
/-- A move of an open draft to another state that is not a confirmation, with a new stamp. -/
lemma Evolves.of_state (o : DraftOperation) (hopen : d.isOpen = true) {s : CaptureDraftState}
    (hs : s ≠ .confirmed) (t : Instant) :
    Evolves o d { d with state := s, modifiedAt := t } where
  absorbing h := absurd h (not_isTerminal_of_isOpen hopen)
  identity := ⟨rfl, rfl, rfl, rfl, rfl⟩
  revision_le := le_rfl
  revision_lt h := absurd (by simp [Content]) h
  confirmed h := absurd h hs
  amount h := .inl ⟨rfl, h⟩
  date h := .inl ⟨rfl, h⟩
  merchant h := .inl ⟨rfl, h⟩
  category h := .inl ⟨rfl, h⟩
  note := .inl rfl

/-- **One operation.** Whatever an operation returns is an evolution of the draft.

**Proof sketch.** Cases on the operation, by what it returns when it goes through (`setAmount_eq_ok`
and its siblings). The draft was open, or in the state that the operation asks for, and thus not
terminal. -/
lemma evolves_apply {o : DraftOperation} (hd : d.Consistent) (h : d.apply o = .ok d') :
    Evolves o d d' := by
  cases o with
  | setAmount c m t s =>
    obtain ⟨-, hopen, rfl⟩ := setAmount_eq_ok h
    have hterm := not_isTerminal_of_isOpen hopen
    constructor <;> simp_all
  | setTransactionDate c v t s =>
    obtain ⟨-, hopen, rfl⟩ := setTransactionDate_eq_ok h
    have hterm := not_isTerminal_of_isOpen hopen
    constructor <;> simp_all
  | setMerchant c v t s =>
    obtain ⟨-, hopen, rfl⟩ := setMerchant_eq_ok h
    have hterm := not_isTerminal_of_isOpen hopen
    constructor <;> simp_all
  | setCategoryKey c k t s =>
    obtain ⟨-, hopen, -, rfl⟩ := setCategoryKey_eq_ok h
    have hterm := not_isTerminal_of_isOpen hopen
    constructor <;> simp_all
  | setNote c n t =>
    obtain ⟨-, hopen, rfl⟩ := setNote_eq_ok h
    have hterm := not_isTerminal_of_isOpen hopen
    constructor <;> simp_all
  | applyRecognition r k t =>
    obtain ⟨-, -, -, hopen, -, rfl⟩ := applyRecognition_eq_ok h
    exact {
      absorbing := fun h => absurd h (not_isTerminal_of_isOpen hopen)
      identity := ⟨rfl, rfl, rfl, rfl, rfl⟩
      revision_le := by simp
      revision_lt := fun _ => by simp
      confirmed := fun h h' => by
        exfalso
        have hs : (d.filled r k).state = d.state := rfl
        simp only [stateAfterRecognition, hs] at h
        split_ifs at h
        simp_all
      amount := fun h => .inl (by
        have := recognized_user r.total d.amount h
        exact ⟨congrArg Prod.fst this, (congrArg Prod.snd this).trans h⟩)
      date := fun h => .inl (by
        have := recognized_user r.transactionDate d.transactionDate h
        exact ⟨congrArg Prod.fst this, (congrArg Prod.snd this).trans h⟩)
      merchant := fun h => .inl (by
        have := recognized_user r.merchant d.merchant h
        exact ⟨congrArg Prod.fst this, (congrArg Prod.snd this).trans h⟩)
      category := fun h => .inl (by
        obtain ⟨v, hv⟩ := Option.isSome_iff_exists.mp (hd.category.trans (by simp [h]))
        simp [filled, fillCategory, fillMerchant, fillTransactionDate, fillAmount, hv, h])
      note := .inl rfl }
  | continueManually c t =>
    obtain ⟨-, -, rfl⟩ := continueManually_eq_ok h
    split_ifs with hs
    · exact .refl _ _
    · rw [not_not] at hs
      exact .of_state _ (by simp [isOpen, openStates, hs]) (by simp) _
  | markReadyForReview c t =>
    obtain ⟨-, hs, -, rfl⟩ := markReadyForReview_eq_ok h
    exact .of_state _ (by simp [isOpen, openStates, hs]) (by simp) _
  | confirm c e t =>
    obtain ⟨-, hconf, -, rfl⟩ := confirm_eq_ok h
    obtain ⟨hs, ⟨m, hm⟩, v, hv⟩ := isConfirmable_iff.mp hconf
    have hterm := not_isTerminal_of_isOpen (d := d) (by simp [isOpen, openStates, hs])
    constructor <;> simp_all [Content]
  | cancel c t =>
    obtain ⟨-, hopen, -, rfl⟩ := cancel_eq_ok h
    exact .of_state _ hopen (by simp) _
  | expire t =>
    obtain ⟨hopen, -, rfl⟩ := expire_eq_ok h
    exact .of_state _ hopen (by simp) _

/-- No operation changes who a draft is and where it comes from.

**Proof sketch.** Cases on the operation: none of them sets the identifier, the owner, the source,
the time of creation or the receipt. -/
lemma sameOrigin_apply {o : DraftOperation} (h : d.apply o = .ok d') : d.SameOrigin d' := by
  cases o with
  | setAmount c m t s =>
    obtain ⟨-, -, rfl⟩ := setAmount_eq_ok h
    exact ⟨rfl, rfl, rfl, rfl, rfl⟩
  | setTransactionDate c v t s =>
    obtain ⟨-, -, rfl⟩ := setTransactionDate_eq_ok h
    exact ⟨rfl, rfl, rfl, rfl, rfl⟩
  | setMerchant c v t s =>
    obtain ⟨-, -, rfl⟩ := setMerchant_eq_ok h
    exact ⟨rfl, rfl, rfl, rfl, rfl⟩
  | setCategoryKey c k t s =>
    obtain ⟨-, -, -, rfl⟩ := setCategoryKey_eq_ok h
    exact ⟨rfl, rfl, rfl, rfl, rfl⟩
  | setNote c n t =>
    obtain ⟨-, -, rfl⟩ := setNote_eq_ok h
    exact ⟨rfl, rfl, rfl, rfl, rfl⟩
  | applyRecognition r k t =>
    obtain ⟨-, -, -, -, -, rfl⟩ := applyRecognition_eq_ok h
    exact ⟨rfl, rfl, rfl, rfl, rfl⟩
  | continueManually c t =>
    obtain ⟨-, -, rfl⟩ := continueManually_eq_ok h
    split_ifs <;> exact ⟨rfl, rfl, rfl, rfl, rfl⟩
  | markReadyForReview c t =>
    obtain ⟨-, -, -, rfl⟩ := markReadyForReview_eq_ok h
    exact ⟨rfl, rfl, rfl, rfl, rfl⟩
  | confirm c e t =>
    obtain ⟨-, -, -, rfl⟩ := confirm_eq_ok h
    exact ⟨rfl, rfl, rfl, rfl, rfl⟩
  | cancel c t =>
    obtain ⟨-, -, -, rfl⟩ := cancel_eq_ok h
    exact ⟨rfl, rfl, rfl, rfl, rfl⟩
  | expire t =>
    obtain ⟨-, -, rfl⟩ := expire_eq_ok h
    exact ⟨rfl, rfl, rfl, rfl, rfl⟩

/-- Every operation evolves a consistent draft. -/
lemma evolves_perform (hd : d.Consistent) (o : DraftOperation) : Evolves o d (d.perform o) := by
  unfold perform
  cases h : d.apply o with
  | ok d' => exact evolves_apply hd h
  | error e => exact .refl _ _

omit [PythonRuntime] in
/-- Filling in recognized values keeps a draft consistent. -/
lemma Consistent.filled (h : d.Consistent) (r : RecognitionResult) (k : String) :
    (d.filled r k).Consistent where
  revision := h.revision
  expense := h.expense
  confirmed := h.confirmed
  amount := recognized_isSome h.amount
  date := recognized_isSome h.date
  merchant := recognized_isSome h.merchant
  category := by
    have hc := h.category
    by_cases hk : d.categoryKey = none
    · simp [CaptureDraft.filled, fillCategory, fillMerchant, fillTransactionDate, fillAmount, hk]
    · simpa [CaptureDraft.filled, fillCategory, fillMerchant, fillTransactionDate, fillAmount, hk]
        using hc
  receipt := h.receipt

omit [PythonRuntime] in
/-- An open draft that moves to another state short of confirmation stays consistent. -/
lemma Consistent.of_state (h : d.Consistent) (hopen : d.isOpen = true) {s : CaptureDraftState}
    (hs : s ≠ .confirmed) (t : Instant) :
    Consistent { d with state := s, modifiedAt := t } := by
  have hd : d.state ≠ .confirmed := fun hd => not_isTerminal_of_isOpen hopen (.inl hd)
  have he : d.expenseId.isSome ≠ true := fun he => hd (h.expense.mpr he)
  have hc : d.confirmedAt.isSome ≠ true := fun hc => hd (h.confirmed.mpr hc)
  exact { h with
    expense := ⟨fun h => absurd h hs, fun h => absurd h he⟩
    confirmed := ⟨fun h => absurd h hs, fun h => absurd h hc⟩ }

/-- Every operation keeps a draft consistent.

**Proof sketch.** Cases on the operation. Each sets a value together with its source, moves the
revision up, and changes the state only along with what the state asks for. -/
lemma consistent_apply {o : DraftOperation} (hd : d.Consistent) (h : d.apply o = .ok d') :
    d'.Consistent := by
  have hrev := hd.revision
  cases o with
  | setAmount c m t s =>
    obtain ⟨-, -, rfl⟩ := setAmount_eq_ok h
    exact { hd with revision := by simp; omega, amount := rfl }
  | setTransactionDate c v t s =>
    obtain ⟨-, -, rfl⟩ := setTransactionDate_eq_ok h
    exact { hd with revision := by simp; omega, date := rfl }
  | setMerchant c v t s =>
    obtain ⟨-, -, rfl⟩ := setMerchant_eq_ok h
    exact { hd with revision := by simp; omega, merchant := rfl }
  | setCategoryKey c k t s =>
    obtain ⟨-, -, -, rfl⟩ := setCategoryKey_eq_ok h
    exact { hd with revision := by simp; omega, category := rfl }
  | setNote c n t =>
    obtain ⟨-, -, rfl⟩ := setNote_eq_ok h
    exact { hd with revision := by simp; omega }
  | applyRecognition r k t =>
    obtain ⟨-, -, -, hopen, -, rfl⟩ := applyRecognition_eq_ok h
    have hf : (d.filled r k).isOpen = true := hopen
    have hs : (d.filled r k).stateAfterRecognition ≠ .confirmed := by
      intro hs
      unfold stateAfterRecognition at hs
      split_ifs at hs
      exact not_isTerminal_of_isOpen hf (.inl hs)
    exact { (hd.filled r k).of_state hf hs t.astimezoneUtc with
      revision := by simp; omega }
  | continueManually c t =>
    obtain ⟨-, -, rfl⟩ := continueManually_eq_ok h
    split_ifs with hs
    · exact hd
    · rw [not_not] at hs
      exact hd.of_state (by simp [isOpen, openStates, hs]) (by simp) _
  | markReadyForReview c t =>
    obtain ⟨-, hs, -, rfl⟩ := markReadyForReview_eq_ok h
    exact hd.of_state (by simp [isOpen, openStates, hs]) (by simp) _
  | confirm c e t =>
    obtain ⟨-, -, -, rfl⟩ := confirm_eq_ok h
    exact { hd with expense := by simp, confirmed := by simp }
  | cancel c t =>
    obtain ⟨-, hopen, -, rfl⟩ := cancel_eq_ok h
    exact hd.of_state hopen (by simp) _
  | expire t =>
    obtain ⟨hopen, -, rfl⟩ := expire_eq_ok h
    exact hd.of_state hopen (by simp) _

/-- Every operation, raising or not, keeps a draft consistent. -/
lemma consistent_perform (hd : d.Consistent) (o : DraftOperation) : (d.perform o).Consistent := by
  unfold perform
  cases h : d.apply o with
  | ok d' => exact consistent_apply hd h
  | error e => exact hd

omit [PythonRuntime] in
/-- A started draft is one the program starts from, or a receipt draft without a receipt. -/
lemma Started.created (h : d.Started)
    (hreceipt : d.source = .telegramReceipt → d.receiptId.isSome = true) : d.Created := by
  rcases h with ⟨id, owner, source, now, h⟩ | h
  · refine .inl ⟨id, owner, source, now, fun hs => ?_, h⟩
    obtain ⟨-, rfl⟩ := start_eq_ok h
    exact absurd (hreceipt hs) Bool.false_ne_true
  · exact .inr h

omit [PythonRuntime] in
/-- Every created draft is consistent. -/
lemma Created.consistent (h : d.Created) : d.Consistent := by
  rcases h with ⟨id, owner, source, now, hs, h⟩ | ⟨id, owner, receipt, now, h⟩
  · obtain ⟨-, rfl⟩ := start_eq_ok h
    constructor <;> simp [hs]
  · obtain ⟨d₀, h₀, rfl⟩ := startFromReceipt_eq_ok h
    obtain ⟨-, rfl⟩ := start_eq_ok h₀
    constructor <;> simp

end Step

/-! ## Sequences of operations -/

section Run

variable {d₀ d : CaptureDraft}

/-- What holds of a draft and is kept by every operation holds after any number of them. -/
lemma performAll_induction {P : CaptureDraft → Prop} (hstep : ∀ d o, P d → P (d.perform o))
    (h₀ : P d₀) (os : List DraftOperation) : P (d₀.performAll os) := by
  induction os generalizing d₀ with
  | nil => exact h₀
  | cons o os ih => exact ih (hstep _ o h₀)

/-- After any operations a draft is who it was and comes from where it came. -/
lemma sameOrigin_performAll (d₀ : CaptureDraft) (os : List DraftOperation) :
    d₀.SameOrigin (d₀.performAll os) := by
  refine performAll_induction (P := d₀.SameOrigin) ?_ ⟨rfl, rfl, rfl, rfl, rfl⟩ os
  rintro d o ⟨h₁, h₂, h₃, h₄, h₅⟩
  unfold perform
  cases h : d.apply o with
  | error e => exact ⟨h₁, h₂, h₃, h₄, h₅⟩
  | ok d' =>
    obtain ⟨e₁, e₂, e₃, e₄, e₅⟩ := sameOrigin_apply h
    exact ⟨e₁.trans h₁, e₂.trans h₂, e₃.trans h₃, e₄.trans h₄, e₅.trans h₅⟩

/-- Every reachable draft is consistent. -/
lemma consistent_performAll (h₀ : d₀.Consistent) (os : List DraftOperation) :
    (d₀.performAll os).Consistent :=
  performAll_induction (P := Consistent) (fun _ o hd => consistent_perform hd o) h₀ os

/-- Identity and origin of a reachable draft are those it was created with, and its revision has
not decreased. -/
lemma identity_performAll (h₀ : d₀.Consistent) (os : List DraftOperation) :
    let d := d₀.performAll os
    (d.id = d₀.id ∧ d.ownerId = d₀.ownerId ∧ d.source = d₀.source ∧ d.receiptId = d₀.receiptId ∧
      d.createdAt = d₀.createdAt) ∧ d₀.revision ≤ d.revision := by
  refine (performAll_induction (P := fun d => d.Consistent ∧
    (d.id = d₀.id ∧ d.ownerId = d₀.ownerId ∧ d.source = d₀.source ∧ d.receiptId = d₀.receiptId ∧
      d.createdAt = d₀.createdAt) ∧ d₀.revision ≤ d.revision) ?_ ?_ os).2
  · rintro d o ⟨hd, ⟨h₁, h₂, h₃, h₄, h₅⟩, hle⟩
    have he := evolves_perform hd o
    obtain ⟨e₁, e₂, e₃, e₄, e₅⟩ := he.identity
    exact ⟨consistent_perform hd o, ⟨e₁.trans h₁, e₂.trans h₂, e₃.trans h₃, e₄.trans h₄,
      e₅.trans h₅⟩, hle.trans he.revision_le⟩
  · exact ⟨h₀, ⟨rfl, rfl, rfl, rfl, rfl⟩, le_rfl⟩

/-- **The draft state machine.** A draft the program creates, after any sequence of operations by
any callers with any arguments and times, satisfies every CHECK constraint of its table, has the
identity and origin it was created with and a revision that has not decreased; and whatever the next
operation is, it evolves the draft: confirmed, cancelled and expired are absorbing, the revision
grows whenever a value or a provenance changes, confirmation comes from review with an amount and a
date, and a value the user supplied changes only by its own setter.

**Proof sketch.** Consistency is an invariant of single operations, and one operation evolves a
consistent draft by a case split on the operation. -/
theorem draft_state_machine (h₀ : d₀.Created) (os : List DraftOperation) (o : DraftOperation) :
    let d := d₀.performAll os
    d.toRecord.SatisfiesChecks ∧
      (d.id = d₀.id ∧ d.ownerId = d₀.ownerId ∧ d.source = d₀.source ∧
        d.receiptId = d₀.receiptId ∧ d.createdAt = d₀.createdAt) ∧
      d₀.revision ≤ d.revision ∧ Evolves o d (d.perform o) := by
  have hd := consistent_performAll h₀.consistent os
  obtain ⟨hid, hrev⟩ := identity_performAll h₀.consistent os
  exact ⟨(satisfiesChecks_iff _).mpr hd, hid, hrev, evolves_perform hd o⟩

end Run

/-! ## A draft from start to confirmation -/

omit [PythonRuntime] in
/-- A manual draft that is given an amount and a date, reviewed and confirmed. -/
theorem draft_state_machine_confirmed :
    letI := PythonRuntime.ascii
    ∃ d₀ : CaptureDraft, d₀.Created ∧
      ∃ (m : Money) (v : TransactionDate),
        let os := [.setAmount 7 m ⟨1, some 0⟩ .user, .setTransactionDate 7 v ⟨2, some 0⟩ .default,
          .markReadyForReview 7 ⟨3, some 0⟩, .confirm 7 9 ⟨4, some 0⟩]
        (d₀.performAll os).state = .confirmed ∧ (d₀.performAll os).toRecord.SatisfiesChecks ∧
          Evolves (.cancel 7 ⟨5, some 0⟩) (d₀.performAll os)
            ((d₀.performAll os).perform (.cancel 7 ⟨5, some 0⟩)) := by
  let _ := PythonRuntime.ascii
  obtain ⟨d₀, h⟩ : ∃ d, start 1 7 .webManual ⟨0, some 0⟩ = .ok d := ⟨_, rfl⟩
  have h₀ : d₀.Created := .inl ⟨1, 7, .webManual, ⟨0, some 0⟩, by decide, h⟩
  refine ⟨d₀, h₀, ⟨1250, ⟨"EUR", by decide⟩, by decide, by decide⟩,
    ⟨⟨738000, by decide⟩, by decide⟩, ?_, ?_, ?_⟩
  · cases h
    rfl
  · exact (draft_state_machine h₀ _ (.cancel 7 ⟨5, some 0⟩)).1
  · exact (draft_state_machine h₀ _ (.cancel 7 ⟨5, some 0⟩)).2.2.2

end CaptureDraft

end MintFlow
