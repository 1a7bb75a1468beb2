import MintFlow.Domain.DraftLifecycle

set_option relaxedAutoImplicit false
set_option autoImplicit false

/-!
# Late recognition

A result may arrive at any moment while the owner fills in a draft. It fills only what the owner
left untouched, so the moment does not matter: an edit wins over the result whether it comes before
or after it.

## Main definitions

* `MintFlow.DraftField`, `MintFlow.DraftFields` — a value with its provenance, and those of a draft.
* `MintFlow.OwnerEdit` — an edit of one field by the owner.
* `MintFlow.settled`, `MintFlow.settledCategory` — what a field holds in the end.

## Main results

* `MintFlow.CaptureDraft.recognition_commutes` — **Late recognition**: the values and provenances do
  not depend on when the result was applied.
-/

namespace MintFlow

open Transact

/-! ## Fields -/

/-- The value of a field with its provenance. -/
abbrev DraftField (α : Type) := Option α × Option DraftFieldSource

/-- The field after the owner supplied some values, one after another. -/
def supplied {α : Type} (field : DraftField α) (values : List α) : DraftField α :=
  match values.getLast? with
  | some v => (some v, some .user)
  | none => field

/-- The category after recognition: the fallback, where there is none. -/
def fallenBack (fallbackCategoryKey : String) (field : DraftField String) : DraftField String :=
  if field.1 = none then (some fallbackCategoryKey, some .default) else field

section Supplied

variable {α : Type}

lemma supplied_nil (field : DraftField α) : supplied field [] = field := rfl

/-- What the owner supplied last counts. -/
lemma supplied_concat (field : DraftField α) (values : List α) (v : α) :
    supplied field (values ++ [v]) = (some v, some .user) := by
  rw [supplied, List.getLast?_concat]

/-- Values supplied in two parts are supplied in one. -/
lemma supplied_append (field : DraftField α) (values values' : List α) :
    supplied (supplied field values) values' = supplied field (values ++ values') := by
  rcases List.eq_nil_or_concat' values' with rfl | ⟨vs, v, rfl⟩
  · rw [supplied_nil, List.append_nil]
  · rw [supplied_concat, ← List.append_assoc, supplied_concat]

/-- A change that leaves what the owner supplied commutes with supplying. -/
lemma supplied_comm {f : DraftField α → DraftField α}
    (hf : ∀ v, f (some v, some .user) = (some v, some .user)) (field : DraftField α)
    (values : List α) : f (supplied field values) = supplied (f field) values := by
  rcases List.eq_nil_or_concat' values with rfl | ⟨vs, v, rfl⟩
  · rw [supplied_nil, supplied_nil]
  · rw [supplied_concat, supplied_concat, hf]

/-- So it does not matter between which values it happens. -/
lemma supplied_inserted {f : DraftField α → DraftField α}
    (hf : ∀ v, f (some v, some .user) = (some v, some .user)) (field : DraftField α)
    (values values' : List α) :
    supplied (f (supplied field values)) values' = supplied (f field) (values ++ values') := by
  rw [supplied_comm hf, supplied_append]

end Supplied

/-- The fields of a draft that recognition or the owner may set. -/
@[ext] structure DraftFields where
  amount : DraftField Money
  transactionDate : DraftField TransactionDate
  merchant : DraftField MerchantName
  categoryKey : DraftField String

/-- The fields of a draft. -/
def CaptureDraft.fields (d : CaptureDraft) : DraftFields where
  amount := (d.amount, d.amountSource)
  transactionDate := (d.transactionDate, d.transactionDateSource)
  merchant := (d.merchant, d.merchantSource)
  categoryKey := (d.categoryKey, d.categoryKeySource)

/-- The fields after recognition. -/
def DraftFields.recognize (f : DraftFields) (result : RecognitionResult)
    (fallbackCategoryKey : String) : DraftFields where
  amount := CaptureDraft.recognized result.total f.amount
  transactionDate := CaptureDraft.recognized result.transactionDate f.transactionDate
  merchant := CaptureDraft.recognized result.merchant f.merchant
  categoryKey := fallenBack fallbackCategoryKey f.categoryKey

/-! ## Edits -/

/-- An edit of one field by the owner. -/
inductive OwnerEdit
  | amount (amount : Money)
  | transactionDate (date : TransactionDate)
  | merchant (merchant : MerchantName)
  | categoryKey (categoryKey : String)

namespace OwnerEdit

/-- The operation of an edit. -/
def operation (ownerId : UUID) (now : DateTime) : OwnerEdit → DraftOperation
  | amount m => .setAmount ownerId m now .user
  | transactionDate v => .setTransactionDate ownerId v now .user
  | merchant v => .setMerchant ownerId v now .user
  | categoryKey k => .setCategoryKey ownerId k now .user

/-- The value of an edit, where it is one of the field. -/
def amount? : OwnerEdit → Option Money
  | amount m => some m
  | _ => none

def transactionDate? : OwnerEdit → Option TransactionDate
  | transactionDate v => some v
  | _ => none

def merchant? : OwnerEdit → Option MerchantName
  | merchant v => some v
  | _ => none

def categoryKey? : OwnerEdit → Option String
  | categoryKey k => some k
  | _ => none

variable [PythonRuntime]

/-- The edit is accepted from the owner of an open draft. -/
def isAccepted (now : DateTime) : OwnerEdit → Bool
  | categoryKey k => now.utcoffset.isSome && (requireStableKey k).isOk
  | _ => now.utcoffset.isSome

end OwnerEdit

/-- The fields after some edits. -/
def DraftFields.supply (f : DraftFields) (edits : List OwnerEdit) : DraftFields where
  amount := supplied f.amount (edits.filterMap OwnerEdit.amount?)
  transactionDate := supplied f.transactionDate (edits.filterMap OwnerEdit.transactionDate?)
  merchant := supplied f.merchant (edits.filterMap OwnerEdit.merchant?)
  categoryKey := supplied f.categoryKey (edits.filterMap OwnerEdit.categoryKey?)

lemma DraftFields.supply_append (f : DraftFields) (edits edits' : List OwnerEdit) :
    (f.supply edits).supply edits' = f.supply (edits ++ edits') := by
  simp only [supply, supplied_append, List.filterMap_append]

/-- Recognition between two edits has the effect it has before the first. -/
lemma DraftFields.supply_recognize (f : DraftFields) (result : RecognitionResult) (k : String)
    (edits edits' : List OwnerEdit) :
    ((f.supply edits).recognize result k).supply edits' =
      (f.recognize result k).supply (edits ++ edits') := by
  have hfill : ∀ {α : Type} (value : Option α) (v : α),
      CaptureDraft.recognized value (some v, some .user) = (some v, some .user) :=
    fun value v => CaptureDraft.recognized_user value (some v) rfl
  simp only [supply, recognize, List.filterMap_append]
  rw [supplied_inserted (hfill _), supplied_inserted (hfill _), supplied_inserted (hfill _),
    supplied_inserted fun v => rfl]

/-! ## Runs -/

namespace CaptureDraft

variable [PythonRuntime] {d : CaptureDraft}

/-- The operations of some edits. -/
def editsBy (ownerId : UUID) (edits : List (OwnerEdit × DateTime)) : List DraftOperation :=
  edits.map fun e => e.1.operation ownerId e.2

/-- The edits that are accepted. -/
def accepted (edits : List (OwnerEdit × DateTime)) : List OwnerEdit :=
  (edits.filter fun e => e.1.isAccepted e.2).map Prod.fst

/-- What an edit leaves as it was. -/
structure KeptBy (d d' : CaptureDraft) : Prop where
  owner : d'.ownerId = d.ownerId
  receipt : d'.receiptId = d.receiptId
  isOpen : d'.isOpen = d.isOpen
  result : d'.recognitionResultId = d.recognitionResultId

omit [PythonRuntime] in
/-- What a setter gives the owner of an open draft. -/
lemma editField_of_owner (now : DateTime) (guard : Checked Unit)
    (put : CaptureDraft → CaptureDraft) (hopen : d.isOpen = true) :
    if now.utcoffset.isSome && guard.isOk then
      d.editField d.ownerId now guard put =
        .ok { put d with revision := d.revision + 1, modifiedAt := now.astimezoneUtc }
    else ∃ message, d.editField d.ownerId now guard put = .error message := by
  have howner : d.ensureOwner d.ownerId = .ok () := ensureOwner_eq_ok.mpr rfl
  have heditable : d.ensureEditable = .ok () := ensureEditable_eq_ok.mpr hopen
  unfold editField
  rw [howner, heditable, Checked.bind_ok, Checked.bind_ok]
  cases hnow : now.utcoffset with
  | none => exact ⟨_, by rw [requireAware, require, if_neg (by simp [hnow])]; rfl⟩
  | some offset =>
    have haware : requireAware now = .ok () := requireAware_eq_ok.mpr (by simp [hnow])
    rw [haware, Checked.bind_ok]
    cases guard with
    | error message => exact ⟨message, rfl⟩
    | ok u => rfl

omit [PythonRuntime] in
/-- So an edit of an open draft by its owner sets its field when it is accepted, and keeps the
rest. -/
lemma perform_editField (now : DateTime) (guard : Checked Unit) (put : CaptureDraft → CaptureDraft)
    {fields : DraftFields} {d' : CaptureDraft} (hopen : d.isOpen = true)
    (hd' : d' = match d.editField d.ownerId now guard put with | .ok d' => d' | .error _ => d)
    (hkept : KeptBy d (put d)) (hfields : (put d).fields = fields) :
    KeptBy d d' ∧ d'.fields =
      if now.utcoffset.isSome && guard.isOk then fields else d.fields := by
  have h := editField_of_owner now guard put hopen
  split_ifs at h ⊢ with haccepted
  · rw [h] at hd'
    subst hd'
    exact ⟨⟨hkept.owner, hkept.receipt, hkept.isOpen, hkept.result⟩, hfields⟩
  · obtain ⟨message, h⟩ := h
    rw [h] at hd'
    subst hd'
    exact ⟨⟨rfl, rfl, rfl, rfl⟩, rfl⟩

/-- One edit of an open draft by its owner.

**Proof sketch.** Cases on the edit: each is the edit of one field (`perform_editField`), with its
own checks. -/
lemma fields_perform_edit (hopen : d.isOpen = true) (e : OwnerEdit) (now : DateTime) :
    KeptBy d (d.perform (e.operation d.ownerId now)) ∧
      (d.perform (e.operation d.ownerId now)).fields =
        if e.isAccepted now then d.fields.supply [e] else d.fields := by
  cases e with
  | amount m =>
    have h := perform_editField now (rejectRecognitionProvenance .user)
      (fun d => { d with amount := some m, amountSource := some .user }) hopen rfl
      ⟨rfl, rfl, rfl, rfl⟩ rfl
    rwa [show (rejectRecognitionProvenance .user).isOk = true from rfl, Bool.and_true] at h
  | transactionDate v =>
    have h := perform_editField now (rejectRecognitionProvenance .user)
      (fun d => { d with transactionDate := some v, transactionDateSource := some .user }) hopen rfl
      ⟨rfl, rfl, rfl, rfl⟩ rfl
    rwa [show (rejectRecognitionProvenance .user).isOk = true from rfl, Bool.and_true] at h
  | merchant v =>
    have h := perform_editField now (rejectRecognitionProvenance .user)
      (fun d => { d with merchant := some v, merchantSource := some .user }) hopen rfl
      ⟨rfl, rfl, rfl, rfl⟩ rfl
    rwa [show (rejectRecognitionProvenance .user).isOk = true from rfl, Bool.and_true] at h
  | categoryKey k =>
    exact perform_editField now (do rejectRecognitionProvenance .user; requireStableKey k)
      (fun d => { d with categoryKey := some k, categoryKeySource := some .user }) hopen rfl
      ⟨rfl, rfl, rfl, rfl⟩ rfl

/-- **Edits.** The edits of an open draft by its owner supply the values of those accepted. -/
lemma fields_performAll_edits (hopen : d.isOpen = true) (edits : List (OwnerEdit × DateTime)) :
    KeptBy d (d.performAll (editsBy d.ownerId edits)) ∧
      (d.performAll (editsBy d.ownerId edits)).fields = d.fields.supply (accepted edits) := by
  induction edits generalizing d with
  | nil => exact ⟨⟨rfl, rfl, rfl, rfl⟩, rfl⟩
  | cons e edits ih =>
    obtain ⟨hkept, hfields⟩ := fields_perform_edit hopen e.1 e.2
    obtain ⟨hkept', hfields'⟩ := ih (hkept.isOpen.trans hopen)
    rw [hkept.owner] at hkept' hfields'
    refine ⟨⟨hkept'.owner.trans hkept.owner, hkept'.receipt.trans hkept.receipt,
      hkept'.isOpen.trans hkept.isOpen, hkept'.result.trans hkept.result⟩, ?_⟩
    refine hfields'.trans ?_
    rw [hfields]
    cases haccepted : e.1.isAccepted e.2 with
    | true =>
      rw [if_pos rfl, DraftFields.supply_append]
      simp only [accepted, List.filter_cons, haccepted, if_true, List.map_cons, List.cons_append,
        List.nil_append]
    | false => simp [accepted, haccepted]

/-- **Recognition.** A result for an open draft is applied: the draft stays open.

**Proof sketch.** No check of the operation fails, so it fills the fields in; the result leaves
those that the user has supplied, and the state that follows is open. -/
lemma fields_perform_recognition {result : RecognitionResult} {k : String} {now : DateTime}
    (hopen : d.isOpen = true) (howner : result.ownerId = d.ownerId)
    (hreceipt : some result.receiptId = d.receiptId) (hnow : now.utcoffset.isSome = true)
    (hkey : requireStableKey k = .ok ()) :
    let d' := d.perform (.applyRecognition result k now)
    (d'.ownerId = d.ownerId ∧ d'.isOpen = true ∧ d'.recognitionResultId = some result.id) ∧
      d'.fields = d.fields.recognize result k := by
  have haware : requireAware now = .ok () :=
    requireAware_eq_ok.mpr (Option.isSome_iff_ne_none.mp hnow)
  have heditable : d.ensureEditable = .ok () := ensureEditable_eq_ok.mpr hopen
  have hresult : require (result.ownerId = d.ownerId ∧ some result.receiptId = d.receiptId)
      "result belongs to another draft" = .ok () := require_eq_ok.mpr ⟨howner, hreceipt⟩
  have happly : d.apply (.applyRecognition result k now) = .ok { d.filled result k with
      state := (d.filled result k).stateAfterRecognition
      recognitionResultId := some result.id
      revision := d.revision + 1
      modifiedAt := now.astimezoneUtc } := by
    show d.applyRecognition result k now = _
    rw [applyRecognition, haware, hresult, heditable, hkey]
    rfl
  have hstate : (d.filled result k).stateAfterRecognition ∈ openStates := by
    unfold stateAfterRecognition
    split_ifs
    · decide
    · decide
    · exact of_decide_eq_true hopen
  unfold perform
  rw [happly]
  exact ⟨⟨rfl, decide_eq_true hstate, rfl⟩, rfl⟩

/-- A draft that is edited, given a recognition result, and edited again. -/
def recognizedBetween (d : CaptureDraft) (result : RecognitionResult) (now : DateTime)
    (edits edits' : List (OwnerEdit × DateTime)) : CaptureDraft :=
  d.performAll (editsBy d.ownerId edits ++ .applyRecognition result uncategorizedKey now ::
    editsBy d.ownerId edits')

/-- The draft stays open, knows the result, and holds what the result gave before all edits.

**Proof sketch.** The edits before the result keep what it needs of the draft, and the edits after
it start from what it filled in. -/
lemma fields_recognizedBetween {result : RecognitionResult} {now : DateTime}
    (hopen : d.isOpen = true) (howner : result.ownerId = d.ownerId)
    (hreceipt : some result.receiptId = d.receiptId) (hnow : now.utcoffset.isSome = true)
    (edits edits' : List (OwnerEdit × DateTime)) :
    let d' := d.recognizedBetween result now edits edits'
    (d'.isOpen = true ∧ d'.recognitionResultId = some result.id) ∧
      d'.fields = (d.fields.recognize result uncategorizedKey).supply
        (accepted (edits ++ edits')) := by
  obtain ⟨hkept, hfields⟩ := fields_performAll_edits hopen edits
  obtain ⟨⟨howner₁, hopen₁, hresult₁⟩, hfields₁⟩ :=
    fields_perform_recognition (hkept.isOpen.trans hopen) (howner.trans hkept.owner.symm)
      (hreceipt.trans hkept.receipt.symm) hnow requireStableKey_uncategorized
  obtain ⟨hkept₂, hfields₂⟩ := fields_performAll_edits hopen₁ edits'
  rw [howner₁, hkept.owner] at hkept₂ hfields₂
  have hrun : d.recognizedBetween result now edits edits' =
      ((d.performAll (editsBy d.ownerId edits)).perform
        (.applyRecognition result uncategorizedKey now)).performAll (editsBy d.ownerId edits') := by
    unfold recognizedBetween performAll
    rw [List.foldl_append, List.foldl_cons]
  have haccepted : accepted (edits ++ edits') = accepted edits ++ accepted edits' := by
    simp only [accepted, List.filter_append, List.map_append]
  rw [hrun]
  refine ⟨⟨hkept₂.isOpen.trans hopen₁, hkept₂.result.trans hresult₁⟩, ?_⟩
  rw [hfields₂, hfields₁, hfields, DraftFields.supply_recognize, haccepted]

end CaptureDraft

/-! ## What a field holds in the end -/

/-- The last edited value with the owner's provenance; without an edit, the recognized value where
the field was empty or defaulted; and the prior value otherwise. -/
def settled {α : Type} (edited : List α) (recognized : Option α) (prior : DraftField α) :
    DraftField α :=
  match edited.getLast?, recognized with
  | some v, _ => (some v, some .user)
  | none, some v =>
    if prior.1 = none ∨ prior.2 = some .default then (some v, some .recognition) else prior
  | none, none => prior

/-- The last edited key with the owner's provenance; without an edit, the prior key; and for a
category never set, the fallback. -/
def settledCategory (edited : List String) (prior : DraftField String) : DraftField String :=
  match edited.getLast? with
  | some k => (some k, some .user)
  | none => if prior.1 = none then (some uncategorizedKey, some .default) else prior

/-- A field whose value and provenance are present together settles. -/
lemma supplied_recognized {α : Type} {prior : DraftField α} (h : prior.1.isSome = prior.2.isSome)
    (edited : List α) (value : Option α) :
    supplied (CaptureDraft.recognized value prior) edited = settled edited value prior := by
  have hempty : prior.1 = none ↔ prior.2 = none := by
    rw [← Option.not_isSome_iff_eq_none, ← Option.not_isSome_iff_eq_none, h]
  unfold supplied settled CaptureDraft.recognized CaptureDraft.recognitionMayFill
  cases edited.getLast? with
  | some v => rfl
  | none =>
    cases value with
    | none => rfl
    | some v => simp only [decide_eq_true_eq, hempty]

/-- A category settles. -/
lemma supplied_fallenBack (prior : DraftField String) (edited : List String) :
    supplied (fallenBack uncategorizedKey prior) edited = settledCategory edited prior := by
  unfold supplied settledCategory fallenBack
  cases edited.getLast? <;> rfl

/-- **Late recognition.** Take a receipt draft that the program reached by any operations and that is
open, a result for it, and any edits by its owner; the result is applied after the first `i` of the
edits. Whatever `i` is, the draft stays open and holds the same values with the same provenances:
the last value the owner gave a field; without one, what the result has for a field that was empty
or defaulted; and otherwise what was there before, the fallback category where there was none.

**Proof sketch.** Recognition leaves what the owner supplied, so it commutes with every edit and may
be moved in front of all of them. -/
theorem CaptureDraft.recognition_commutes [PythonRuntime] {d₀ : CaptureDraft} (h₀ : d₀.Created)
    (os : List DraftOperation) (result : RecognitionResult) (now : DateTime)
    (edits : List (OwnerEdit × DateTime)) :
    let d := d₀.performAll os
    d.isOpen = true → result.ownerId = d.ownerId → some result.receiptId = d.receiptId →
      now.utcoffset.isSome = true → ∀ i,
        let d' := d.recognizedBetween result now (edits.take i) (edits.drop i)
        let given := accepted edits
        d'.isOpen = true ∧ d'.recognitionResultId = some result.id ∧
          d'.fields.amount =
            settled (given.filterMap OwnerEdit.amount?) result.total d.fields.amount ∧
          d'.fields.transactionDate =
            settled (given.filterMap OwnerEdit.transactionDate?) result.transactionDate
              d.fields.transactionDate ∧
          d'.fields.merchant =
            settled (given.filterMap OwnerEdit.merchant?) result.merchant d.fields.merchant ∧
          d'.fields.categoryKey =
            settledCategory (given.filterMap OwnerEdit.categoryKey?) d.fields.categoryKey ∧
          ∀ j, (d.recognizedBetween result now (edits.take j) (edits.drop j)).fields =
            d'.fields := by
  intro d hopen howner hreceipt hnow i
  have hd : d.Consistent := consistent_performAll h₀.consistent os
  have hfields : ∀ i, (d.recognizedBetween result now (edits.take i) (edits.drop i)).fields =
      (d.fields.recognize result uncategorizedKey).supply (accepted edits) := by
    intro i
    rw [(fields_recognizedBetween hopen howner hreceipt hnow _ _).2, List.take_append_drop]
  obtain ⟨⟨hopen', hresult⟩, -⟩ :=
    fields_recognizedBetween hopen howner hreceipt hnow (edits.take i) (edits.drop i)
  refine ⟨hopen', hresult, ?_, ?_, ?_, ?_, fun j => (hfields j).trans (hfields i).symm⟩
  · rw [hfields i]
    exact supplied_recognized hd.amount _ _
  · rw [hfields i]
    exact supplied_recognized hd.date _ _
  · rw [hfields i]
    exact supplied_recognized hd.merchant _ _
  · rw [hfields i]
    exact supplied_fallenBack _ _

/-- A result that arrives between two edits of a receipt draft: the amount is the owner's, the
merchant is the recognized one, and the category falls back. -/
theorem CaptureDraft.recognition_commutes_receipt :
    letI := PythonRuntime.ascii
    ∃ (d : CaptureDraft) (result : RecognitionResult) (amount total : Money)
      (merchant : MerchantName), result.total = some total ∧ total ≠ amount ∧
        let d' := d.recognizedBetween result ⟨3, some 0⟩ [(.categoryKey "Food", ⟨1, some 0⟩)]
          [(.amount amount, ⟨2, some 0⟩)]
        d'.fields.amount = (some amount, some .user) ∧
          d'.fields.merchant = (some merchant, some .recognition) ∧
          d'.fields.categoryKey = (some uncategorizedKey, some .default) := by
  let _ := PythonRuntime.ascii
  obtain ⟨d₀, h⟩ : ∃ d, startFromReceipt 1 7 5 ⟨0, some 0⟩ = .ok d := ⟨_, rfl⟩
  have h₀ : d₀.Created := .inr ⟨1, 7, 5, ⟨0, some 0⟩, h⟩
  cases h
  let amount : Money := ⟨1250, ⟨"EUR", by decide⟩, by decide, by decide⟩
  let total : Money := ⟨1205, ⟨"EUR", by decide⟩, by decide, by decide⟩
  let merchant : MerchantName := ⟨"Kiosk", by decide, by decide, by decide⟩
  have h := CaptureDraft.recognition_commutes h₀ []
    ⟨3, 5, 4, 7, some merchant, none, some total, 2, by decide⟩ ⟨3, some 0⟩
    [(.categoryKey "Food", ⟨1, some 0⟩), (.amount amount, ⟨2, some 0⟩)] rfl rfl rfl rfl 1
  obtain ⟨-, -, hamount, -, hmerchant, hcategory, -⟩ := h
  exact ⟨_, _, amount, total, merchant, rfl, by decide, hamount, hmerchant, hcategory⟩

end MintFlow
