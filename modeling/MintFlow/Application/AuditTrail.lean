import MintFlow.Application.ConfirmSpec
import MintFlow.Application.EditExpense

set_option relaxedAutoImplicit false
set_option autoImplicit false

/-!
# The audit trail

Corrections, deletions and restorations of an Expense, served one after another as its row lock
orders them. The change records of an Expense are a journal: replayed over the values at
confirmation they give the values of today.

## Main definitions

* `MintFlow.ExpenseRequest`, `MintFlow.serveAll` — the three requests, and a serial run of them.
* `MintFlow.AuditState`, `MintFlow.replay` — the audited values, and the journal applied to them.
* `MintFlow.Follows` — every record of a journal fits the state it finds.
* `MintFlow.Trail` — the invariant: an Expense is what its journal says.

## Main results

* `MintFlow.served_of_program` — the three outcomes of one request.
* `MintFlow.audit_trail_replays` — the journal of any run replays to the current Expense.
-/

namespace MintFlow

open Transact Transact.Prog

/-! ## Requests -/

/-- A request on an Expense, with its caller. -/
inductive ExpenseRequest
  | edit (expenseId callerId : UUID) (command : ExpenseEdit)
  | delete (expenseId callerId : UUID)
  | restore (expenseId callerId : UUID)

/-- The Expense a request is about. -/
def ExpenseRequest.expenseId : ExpenseRequest → UUID
  | .edit id _ _ | .delete id _ | .restore id _ => id

/-! ## Journals -/

/-- The audited values of an Expense, and whether it is deleted. -/
@[ext] structure AuditState where
  values : ExpenseField → FieldValue
  deleted : Bool

/-- The audited values of an Expense. -/
def AuditState.of (e : Expense) : AuditState := ⟨expenseFieldValues e, !e.isActive⟩

/-- Write the new values of field changes. -/
def applyChanges (values : ExpenseField → FieldValue) (changes : List ExpenseFieldChange) :
    ExpenseField → FieldValue :=
  changes.foldl (fun v c => Function.update v c.field c.new) values

/-- Apply one change record. -/
def AuditState.apply (s : AuditState) (r : ExpenseChangeRecord) : AuditState :=
  match r.changeType with
  | .edited => { s with values := applyChanges s.values r.changes }
  | .deleted => { s with deleted := true }
  | .restored => { s with deleted := false }

/-- Apply change records, oldest first. -/
def replay (s : AuditState) (records : List ExpenseChangeRecord) : AuditState :=
  records.foldl AuditState.apply s

/-- A record fits the state it finds: an edit names the values that are there, and edits and
deletions find the Expense active, restorations find it deleted. -/
def Fits (s : AuditState) (r : ExpenseChangeRecord) : Prop :=
  (∀ c ∈ r.changes, c.old = s.values c.field) ∧ (s.deleted = true ↔ r.changeType = .restored)

/-- Every record of a journal fits the state it finds. -/
def Follows : AuditState → List ExpenseChangeRecord → Prop
  | _, [] => True
  | s, r :: rs => Fits s r ∧ Follows (s.apply r) rs

/-- Deletions and restorations in turn, starting with a deletion. -/
def alternating : ℕ → List ExpenseChangeType
  | 0 => []
  | 1 => [.deleted]
  | n + 2 => .deleted :: .restored :: alternating n

/-- The deletions and restorations of a journal. -/
def deletions (records : List ExpenseChangeRecord) : List ExpenseChangeType :=
  (records.map ExpenseChangeRecord.changeType).filter (· ≠ .edited)

/-- The stored change records of an Expense, in commit order. -/
def Database.recordsOf (db : Database) (id : UUID) : List ExpenseChangeRecord :=
  db.changeRecords.rows.filter fun r => decide (r.expenseId = id)

/-- The audited values determine the amount, currency, date, merchant, category, note and deletion
state of an Expense.

**Proof sketch.** Each audited value determines its field, since the values of one field are of one
kind and their wrapping is injective. -/
lemma AuditState.of_injective {e e' : Expense} (h : AuditState.of e = AuditState.of e') :
    e.money = e'.money ∧ e.transactionDate = e'.transactionDate ∧ e.merchant = e'.merchant ∧
      e.categoryKey = e'.categoryKey ∧ e.note = e'.note ∧ e.isActive = e'.isActive := by
  have hv : expenseFieldValues e = expenseFieldValues e' := congrArg AuditState.values h
  have hd : (!e.isActive) = !e'.isActive := congrArg AuditState.deleted h
  have hf (f : ExpenseField) := congrFun hv f
  refine ⟨?_, ?_, ?_, FieldValue.str.inj (hf .categoryKey),
    FieldValue.ofOption_injective (hf .note), by simpa using hd⟩
  · have hc : e.money.currency.value = e'.money.currency.value := FieldValue.str.inj (hf .currency)
    refine Money.ext' (FieldValue.int.inj (hf .amountMinorUnits)) ?_
    cases hm : e.money.currency
    cases hm' : e'.money.currency
    simp_all
  · have hd : e.transactionDate.value = e'.transactionDate.value :=
      FieldValue.isoDate.inj (hf .transactionDate)
    cases hm : e.transactionDate
    cases hm' : e'.transactionDate
    simp_all
  · have hn := FieldValue.ofOption_injective (hf .merchant)
    rcases hm : e.merchant with - | m <;> rcases hm' : e'.merchant with - | m' <;>
      simp only [hm, hm', Option.map_none, Option.map_some, reduceCtorEq, Option.some.injEq] at hn ⊢
    cases m
    cases m'
    simp_all

/-- Writing the differences between two Expenses over the values of the one gives the values of the
other.

**Proof sketch.** Induction on the fields that are still to come: a field has its new value already,
or the change that gives it is ahead. -/
lemma applyChanges_fieldChanges (before after : Expense) :
    applyChanges (expenseFieldValues before) (fieldChanges before after) =
      expenseFieldValues after := by
  -- Every field either has its new value already or is still to come.
  suffices h : ∀ (fs : List ExpenseField) (v : ExpenseField → FieldValue),
      (∀ f, v f = expenseFieldValues after f ∨ f ∈ fs ∧ v f = expenseFieldValues before f) →
      applyChanges v (fs.filterMap fun f =>
        if h : expenseFieldValues before f = expenseFieldValues after f then none
        else some ⟨f, _, _, h⟩) = expenseFieldValues after by
    refine h _ _ fun f => .inr ⟨?_, rfl⟩
    cases f <;> decide
  intro fs
  induction fs with
  | nil =>
    intro v hv
    funext f
    rcases hv f with h | ⟨hmem, -⟩
    · exact h
    · exact absurd hmem List.not_mem_nil
  | cons g fs ih =>
    intro v hv
    by_cases hg : expenseFieldValues before g = expenseFieldValues after g
    · rw [List.filterMap_cons_none (by simp [hg])]
      refine ih v fun f => ?_
      rcases hv f with h | ⟨hmem, h⟩
      · exact .inl h
      · rcases List.mem_cons.mp hmem with rfl | hmem
        · exact .inl (h.trans hg)
        · exact .inr ⟨hmem, h⟩
    · rw [List.filterMap_cons_some (b := ⟨g, _, _, hg⟩) (by simp [hg])]
      refine ih _ fun f => ?_
      by_cases hfg : f = g
      · subst hfg
        exact .inl (Function.update_self ..)
      · dsimp only
        rw [Function.update_of_ne hfg]
        rcases hv f with h | ⟨hmem, h⟩
        · exact .inl h
        · exact .inr ⟨(List.mem_cons.mp hmem).resolve_left hfg, h⟩

/-- Each difference names the value before. -/
lemma old_of_mem_fieldChanges {before after : Expense} {c : ExpenseFieldChange}
    (h : c ∈ fieldChanges before after) : c.old = expenseFieldValues before c.field := by
  obtain ⟨f, -, hf⟩ := List.mem_filterMap.mp h
  split_ifs at hf
  obtain rfl := Option.some.inj hf
  rfl

/-- Expenses have no differences exactly when they have the same audited values. -/
lemma fieldChanges_eq_nil {before after : Expense} : fieldChanges before after = [] ↔
    expenseFieldValues before = expenseFieldValues after := by
  constructor
  · intro h
    rw [← applyChanges_fieldChanges before after, h]
    rfl
  · intro h
    simp [fieldChanges, h]

/-- Replaying a longer journal. -/
lemma replay_append (s : AuditState) (xs ys : List ExpenseChangeRecord) :
    replay s (xs ++ ys) = replay (replay s xs) ys :=
  List.foldl_append

/-- A journal grows by a record that fits the state it replays to. -/
lemma Follows.append {s : AuditState} {rs : List ExpenseChangeRecord} {r : ExpenseChangeRecord}
    (h : Follows s rs) (hr : Fits (replay s rs) r) : Follows s (rs ++ [r]) := by
  induction rs generalizing s with
  | nil => exact ⟨hr, trivial⟩
  | cons q rs ih => exact ⟨h.1, ih h.2 hr⟩

/-- In a journal whose records fit, each fits the state its predecessors replay to. -/
lemma Follows.fits {s : AuditState} {xs ys : List ExpenseChangeRecord} {r : ExpenseChangeRecord}
    (h : Follows s (xs ++ r :: ys)) : Fits (replay s xs) r := by
  induction xs generalizing s with
  | nil => exact h.1
  | cons q xs ih => exact ih h.2

/-- A prefix of a journal whose records fit. -/
lemma Follows.take {s : AuditState} {xs ys : List ExpenseChangeRecord}
    (h : Follows s (xs ++ ys)) : Follows s xs := by
  induction xs generalizing s with
  | nil => trivial
  | cons q xs ih => exact ⟨h.1, ih h.2⟩

/-- One more turn. -/
lemma alternating_succ (n : ℕ) :
    alternating (n + 1) = alternating n ++ [if n % 2 = 0 then .deleted else .restored] := by
  induction n using alternating.induct with
  | case1 => rfl
  | case2 => rfl
  | case3 n ih =>
    have hmod : (n + 2) % 2 = n % 2 := by omega
    rw [alternating, ih, hmod]
    rfl

/-- **Alternation.** In a journal that starts from an active Expense, deletions and restorations
take turns, and the Expense is deleted after an odd number of them.

**Proof sketch.** Induction on the journal from its end. An edit counts as nothing; a deletion fits
an active state only and a restoration a deleted one, so the next one is the other. -/
lemma Follows.alternates {s : AuditState} {rs : List ExpenseChangeRecord} (hs : s.deleted = false)
    (h : Follows s rs) :
    deletions rs = alternating (deletions rs).length ∧
      ((replay s rs).deleted = true ↔ (deletions rs).length % 2 = 1) := by
  induction rs using List.reverseRecOn with
  | nil => simp [deletions, alternating, replay, hs]
  | append_singleton rs r ih =>
    obtain ⟨halt, hpar⟩ := ih h.take
    have hfit : Fits (replay s rs) r := Follows.fits h
    have hdel : deletions (rs ++ [r]) = deletions rs ++ deletions [r] := by simp [deletions]
    have hrep : replay s (rs ++ [r]) = (replay s rs).apply r := replay_append ..
    rw [hdel, hrep]
    cases ht : r.changeType with
    | edited =>
      have hnil : deletions [r] = [] := by simp [deletions, ht]
      rw [hnil, List.append_nil]
      refine ⟨halt, ?_⟩
      rw [AuditState.apply, ht]
      exact hpar
    | deleted =>
      have hone : deletions [r] = [.deleted] := by simp [deletions, ht]
      have hact : ¬ (replay s rs).deleted = true := fun hd => by simpa [ht] using hfit.2.mp hd
      have heven : (deletions rs).length % 2 = 0 := by
        have := mt hpar.mpr hact
        omega
      rw [hone, List.length_append, List.length_singleton, alternating_succ, if_pos heven, ← halt]
      refine ⟨rfl, ?_⟩
      rw [AuditState.apply, ht]
      simp only [true_iff]
      omega
    | restored =>
      have hone : deletions [r] = [.restored] := by simp [deletions, ht]
      have hodd : (deletions rs).length % 2 = 1 := hpar.mp (hfit.2.mpr ht)
      rw [hone, List.length_append, List.length_singleton, alternating_succ,
        if_neg (by omega), ← halt]
      refine ⟨rfl, ?_⟩
      rw [AuditState.apply, ht]
      simp only [Bool.false_eq_true, false_iff]
      omega

/-- The last turn says whether the Expense is deleted. -/
lemma Follows.getLast_deletions {s : AuditState} {rs : List ExpenseChangeRecord}
    (hs : s.deleted = false) (h : Follows s rs) :
    (replay s rs).deleted = true ↔ (deletions rs).getLast? = some .deleted := by
  obtain ⟨halt, hpar⟩ := h.alternates hs
  rw [hpar, halt]
  have hlen : (alternating (deletions rs).length).length = (deletions rs).length := by rw [← halt]
  rw [hlen]
  cases (deletions rs).length with
  | zero => simp [alternating]
  | succ n =>
    rw [alternating_succ, List.getLast?_concat]
    split_ifs with hn <;> simp <;> omega

/-! ## Corrections -/

/-- What a correction of an Expense cannot touch, and what it cannot spoil. -/
structure Corrects (before after : Expense) : Prop where
  id : after.id = before.id
  ownerId : after.ownerId = before.ownerId
  source : after.source = before.source
  captureDraftId : after.captureDraftId = before.captureDraftId
  receiptId : after.receiptId = before.receiptId
  createdAt : after.createdAt = before.createdAt
  deletedAt : after.deletedAt = before.deletedAt
  positive : 0 < before.money.minorUnits → 0 < after.money.minorUnits

lemma Corrects.refl (e : Expense) : Corrects e e := ⟨rfl, rfl, rfl, rfl, rfl, rfl, rfl, fun h => h⟩

/-- Two corrections make one. -/
lemma Corrects.trans {e₁ e₂ e₃ : Expense} (h : Corrects e₁ e₂) (h' : Corrects e₂ e₃) :
    Corrects e₁ e₃ where
  id := h'.id.trans h.id
  ownerId := h'.ownerId.trans h.ownerId
  source := h'.source.trans h.source
  captureDraftId := h'.captureDraftId.trans h.captureDraftId
  receiptId := h'.receiptId.trans h.receiptId
  createdAt := h'.createdAt.trans h.createdAt
  deletedAt := h'.deletedAt.trans h.deletedAt
  positive := h'.positive ∘ h.positive

/-- An Expense with the supplied fields of an edit. -/
def Expense.withEdit (e : Expense) (edit : ExpenseEdit) (modifiedAt : Instant) : Expense :=
  { e with
    money := edit.money.getD e.money
    transactionDate := edit.transactionDate.getD e.transactionDate
    merchant := edit.merchant.getD e.merchant
    categoryKey := edit.categoryKey.getD e.categoryKey
    note := edit.note.getD e.note
    modifiedAt := modifiedAt }

section Corrections

variable {e e' : Expense} {now : DateTime}

lemma editMoney_corrects {m : Money} (h : e.editMoney m now = .ok e') :
    Corrects e e' ∧ e' = { e with money := m, modifiedAt := now.astimezoneUtc } := by
  obtain ⟨_, -, h⟩ := Checked.bind_eq_ok.mp h
  obtain ⟨_, hpos, h⟩ := Checked.bind_eq_ok.mp h
  obtain rfl := Checked.pure_eq_ok.mp h
  exact ⟨{ Corrects.refl e with positive := fun _ => require_eq_ok.mp hpos }, rfl⟩

lemma editTransactionDate_corrects {d : TransactionDate}
    (h : e.editTransactionDate d now = .ok e') :
    Corrects e e' ∧ e' = { e with transactionDate := d, modifiedAt := now.astimezoneUtc } := by
  obtain ⟨_, -, h⟩ := Checked.bind_eq_ok.mp h
  obtain rfl := Checked.pure_eq_ok.mp h
  exact ⟨{ Corrects.refl e with }, rfl⟩

lemma editMerchant_corrects {m : Option MerchantName} (h : e.editMerchant m now = .ok e') :
    Corrects e e' ∧ e' = { e with merchant := m, modifiedAt := now.astimezoneUtc } := by
  obtain ⟨_, -, h⟩ := Checked.bind_eq_ok.mp h
  obtain rfl := Checked.pure_eq_ok.mp h
  exact ⟨{ Corrects.refl e with }, rfl⟩

lemma editCategory_corrects [PythonRuntime] {k : String} (h : e.editCategory k now = .ok e') :
    Corrects e e' ∧ e' = { e with categoryKey := k, modifiedAt := now.astimezoneUtc } := by
  obtain ⟨_, -, h⟩ := Checked.bind_eq_ok.mp h
  obtain ⟨_, -, h⟩ := Checked.bind_eq_ok.mp h
  obtain rfl := Checked.pure_eq_ok.mp h
  exact ⟨{ Corrects.refl e with }, rfl⟩

lemma editNote_corrects {n : Option String} (h : e.editNote n now = .ok e') :
    Corrects e e' ∧ e' = { e with note := n, modifiedAt := now.astimezoneUtc } := by
  obtain ⟨_, -, h⟩ := Checked.bind_eq_ok.mp h
  obtain rfl := Checked.pure_eq_ok.mp h
  exact ⟨{ Corrects.refl e with }, rfl⟩

end Corrections

/-- Updating a row with an Expense of the same origin leaves that Expense. -/
lemma updatedExpense_eq {before after : Expense} (h : Corrects before after) (t : Option Instant) :
    Database.updatedExpense before { after with deletedAt := t } = { after with deletedAt := t } := by
  obtain ⟨h₁, h₂, h₃, h₄, h₅, h₆, -, -⟩ := h
  cases before
  cases after
  simp_all [Database.updatedExpense]

section Edit

variable [PythonRuntime] {C : Database → Database → Prop} {F G : Error → Alone Database → Prop}
  {s : Alone Database} {caller : UUID} {now : Instant}

/-- Checking a date reads only. -/
lemma wp_requireAcceptableDate {date : TransactionDate} {Q : Unit → Alone Database → Prop}
    (hF : ∀ e, F e s) (hQ : Q () s) :
    (requireAcceptableDate date caller now).wp (alone C G F) Q s := by
  unfold requireAcceptableDate
  refine (wp_bind _ _).mpr ((wp_read rfl).mpr ?_)
  cases s.view.users.find caller with
  | none => exact hF _
  | some user =>
    refine (wp_bind _ _).mpr ?_
    cases isWithinFutureTolerance date now user.timezone with
    | error r => exact hF _
    | ok acceptable =>
      show Prog.wp _ (if acceptable = true then _ else _) _ _
      split_ifs
      · exact hQ
      · exact hF _

omit [PythonRuntime] in
/-- Checking a category reads only. -/
lemma wp_requireActiveCategory {key : String} {Q : Unit → Alone Database → Prop}
    (hF : ∀ e, F e s) (hQ : Q () s) :
    (requireActiveCategory key).wp (alone C G F) Q s := by
  unfold requireActiveCategory
  refine (wp_bind _ _).mpr ((wp_read rfl).mpr ?_)
  cases s.view.categories.find key with
  | none => exact hF _
  | some category =>
    dsimp only
    split_ifs
    · exact hQ
    · exact hF _

/-- Working an edit out reads only, and gives a correction of the Expense, with the fields of the
edit.

**Proof sketch.** One lemma for each field (`hmoney` and its siblings): the field is kept, or edited
by the Expense's own operation, which corrects the Expense. Corrections compose. -/
lemma wp_applyEdit {before : Expense} {edit : ExpenseEdit} {Q : Expense → Alone Database → Prop}
    (hF : ∀ e, F e s)
    (hQ : ∀ after, Corrects before after → (∃ t, after = before.withEdit edit t) → Q after s) :
    (applyEdit before edit caller now).wp (alone C G F) Q s := by
  have hmoney : ∀ e, Prog.wp (alone C G F) (applyMoney e edit.money now)
      (fun e' s' => (Corrects e e' ∧ ∃ t, e' =
        { e with money := edit.money.getD e.money, modifiedAt := t }) ∧ s' = s) s := by
    intro e
    unfold applyMoney
    cases edit.money with
    | none => exact ⟨⟨.refl e, e.modifiedAt, rfl⟩, rfl⟩
    | some m =>
      refine wp_lift (fun e' h => ?_) hF
      obtain ⟨hcor, heq⟩ := editMoney_corrects h
      exact ⟨⟨hcor, _, heq⟩, rfl⟩
  have hdate : ∀ e, Prog.wp (alone C G F)
      (applyTransactionDate e edit.transactionDate caller now)
      (fun e' s' => (Corrects e e' ∧ ∃ t, e' =
        { e with transactionDate := edit.transactionDate.getD e.transactionDate, modifiedAt := t }) ∧
        s' = s) s := by
    intro e
    unfold applyTransactionDate
    cases edit.transactionDate with
    | none => exact ⟨⟨.refl e, e.modifiedAt, rfl⟩, rfl⟩
    | some d =>
      have hset : (rejecting (e.editTransactionDate d (Instant.toDateTime now))).wp
          (alone C G F) (fun e' s' => (Corrects e e' ∧ ∃ t, e' =
            { e with transactionDate := d, modifiedAt := t }) ∧ s' = s) s := by
        refine wp_lift (fun e' h => ?_) hF
        obtain ⟨hcor, heq⟩ := editTransactionDate_corrects h
        exact ⟨⟨hcor, _, heq⟩, rfl⟩
      dsimp only
      split_ifs
      · exact hset
      · exact (wp_bind _ _).mpr (wp_requireAcceptableDate hF hset)
  have hmerchant : ∀ e, Prog.wp (alone C G F) (applyMerchant e edit.merchant now)
      (fun e' s' => (Corrects e e' ∧ ∃ t, e' =
        { e with merchant := edit.merchant.getD e.merchant, modifiedAt := t }) ∧ s' = s) s := by
    intro e
    unfold applyMerchant
    cases edit.merchant with
    | none => exact ⟨⟨.refl e, e.modifiedAt, rfl⟩, rfl⟩
    | some m =>
      refine wp_lift (fun e' h => ?_) hF
      obtain ⟨hcor, heq⟩ := editMerchant_corrects h
      exact ⟨⟨hcor, _, heq⟩, rfl⟩
  have hcategory : ∀ e, Prog.wp (alone C G F) (applyCategory e edit.categoryKey now)
      (fun e' s' => (Corrects e e' ∧ ∃ t, e' =
        { e with categoryKey := edit.categoryKey.getD e.categoryKey, modifiedAt := t }) ∧
        s' = s) s := by
    intro e
    unfold applyCategory
    cases edit.categoryKey with
    | none => exact ⟨⟨.refl e, e.modifiedAt, rfl⟩, rfl⟩
    | some k =>
      have hset : (rejecting (e.editCategory k (Instant.toDateTime now))).wp
          (alone C G F) (fun e' s' => (Corrects e e' ∧ ∃ t, e' =
            { e with categoryKey := k, modifiedAt := t }) ∧ s' = s) s := by
        refine wp_lift (fun e' h => ?_) hF
        obtain ⟨hcor, heq⟩ := editCategory_corrects h
        exact ⟨⟨hcor, _, heq⟩, rfl⟩
      dsimp only
      split_ifs
      · exact hset
      · exact (wp_bind _ _).mpr (wp_requireActiveCategory hF hset)
  have hnote : ∀ e, Prog.wp (alone C G F) (applyNote e edit.note now)
      (fun e' s' => (Corrects e e' ∧ ∃ t, e' =
        { e with note := edit.note.getD e.note, modifiedAt := t }) ∧ s' = s) s := by
    intro e
    unfold applyNote
    cases edit.note with
    | none => exact ⟨⟨.refl e, e.modifiedAt, rfl⟩, rfl⟩
    | some n =>
      refine wp_lift (fun e' h => ?_) hF
      obtain ⟨hcor, heq⟩ := editNote_corrects h
      exact ⟨⟨hcor, _, heq⟩, rfl⟩
  -- Each part corrects what the part before it gave.
  refine wp_bind_of (hmoney before) ?_
  rintro e₁ _ ⟨⟨h₁, t₁, heq₁⟩, rfl⟩
  refine wp_bind_of (hdate e₁) ?_
  rintro e₂ _ ⟨⟨h₂, t₂, heq₂⟩, rfl⟩
  refine wp_bind_of (hmerchant e₂) ?_
  rintro e₃ _ ⟨⟨h₃, t₃, heq₃⟩, rfl⟩
  refine wp_bind_of (hcategory e₃) ?_
  rintro e₄ _ ⟨⟨h₄, t₄, heq₄⟩, rfl⟩
  refine wp_mono _ ?_ (hnote e₄)
  rintro e₅ _ ⟨⟨h₅, t₅, heq₅⟩, rfl⟩
  refine hQ e₅ ((((h₁.trans h₂).trans h₃).trans h₄).trans h₅) ⟨t₅, ?_⟩
  rw [heq₅, heq₄, heq₃, heq₂, heq₁]
  rfl

end Edit

/-! ## One request -/

/-- A record and the Expense it is about, written together. -/
def Database.record (db : Database) (r : ExpenseChangeRecord) (e : Expense) : Database :=
  (db.apply (.changeRecord r)).apply (.expense e)

/-- The outcomes of a request on the Expense `id`: it is refused, it changes nothing, or it writes
one record with the Expense it leads to. -/
inductive Served (db : Database) (id : UUID) : Except Error Expense → Database → Prop
  | refused (e : Error) : Served db id (.error e) db
  | unchanged (e : Expense) : db.expenses.find id = some e → Served db id (.ok e) db
  | recorded (before after : Expense) (r : ExpenseChangeRecord) :
      db.expenses.find id = some before →
      db.changeRecords.find r.id = none →
      r.expenseId = id → after.id = id →
      (0 < before.money.minorUnits → 0 < after.money.minorUnits) →
      Fits (AuditState.of before) r →
      AuditState.of after = (AuditState.of before).apply r →
      AuditState.of after ≠ AuditState.of before →
      Served db id (.ok after) (db.record r after)

section Requests

variable {db : Database} {id caller : UUID}

/-- The obligations of a request: it commits anything, and raises only before it commits. -/
abbrev requestLogic (db : Database) : Logic signature (Alone Database) :=
  alone (fun _ _ => True) (fun _ s => s.db = db) fun _ s => s.db = db

/-- Appending a record, updating the Expense and committing.

**Proof sketch.** The record is new and the Expense is found, so both statements go through and the
commit publishes both. -/
lemma wp_record {before after : Expense} {r : ExpenseChangeRecord}
    {Q : Expense → Alone Database → Prop} (hfind : db.expenses.find before.id = some before)
    (hid : after.id = before.id) (hrow : Database.updatedExpense before after = after)
    (hQ : db.changeRecords.find r.id = none → Q after ⟨db.record r after, db.record r after⟩) :
    (do
      execute (.appendChangeRecord r)
      execute (.updateExpense after)
      commit
      return after : Program Expense).wp (requestLogic db) Q ⟨db, db⟩ := by
  refine (wp_bind _ _).mpr (wp_execute ?_ fun e _ => rfl)
  intro _ ws happ
  obtain ⟨hfresh, -, -, rfl⟩ := Database.appendChangeRecord_eq_ok happ
  refine (wp_bind _ _).mpr (wp_execute ?_ fun e _ => rfl)
  intro _ ws hupd
  have hview : (db.apply (.changeRecord r)).expenses.find after.id = some before := by
    rw [hid]
    exact hfind
  rcases Database.updateExpense_eq_ok hupd with ⟨hnone, -⟩ | ⟨row, hrow', -, -, -, rfl⟩
  · exact absurd (hnone.symm.trans hview) (by simp)
  · obtain rfl : row = before := Option.some.inj (hrow'.symm.trans hview)
    rw [hrow]
    exact (wp_bind _ _).mpr ⟨trivial, hQ hfresh⟩

variable [PythonRuntime]

/-- An edit is refused, changes nothing, or records what it changed; either way the Expense then has
the values of the edit.

**Proof sketch.** Cases on the Expense that is found. An edit that changes nothing returns before it
writes; any other writes its differences as a record that fits (`wp_record`). -/
lemma wp_editExpense (command : ExpenseEdit) :
    (editExpense id caller command).wp (requestLogic db)
      (fun e s => Served db id (.ok e) s.db ∧ ∃ before t, db.expenses.find id = some before ∧
        AuditState.of e = AuditState.of (before.withEdit command t)) ⟨db, db⟩ := by
  unfold editExpense
  refine (wp_bind _ _).mpr ((wp_read rfl).mpr ?_)
  cases hb : db.activeExpense id caller with
  | none => exact rfl
  | some before =>
    obtain ⟨hown, hactive⟩ := Database.activeExpense_eq_some.mp hb
    have hfind := (Database.ownedExpense_eq_some.mp hown).1
    obtain rfl : before.id = id := Table.key_of_find hfind
    refine (wp_bind _ _).mpr (wp_clock fun now => ?_)
    refine (wp_bind _ _).mpr (wp_applyEdit (fun _ => rfl) fun after hcor hedit => ?_)
    obtain ⟨t, hedit⟩ := hedit
    have hdeleted : (!after.deletedAt.isNone) = !before.deletedAt.isNone := by rw [hcor.deletedAt]
    split_ifs with hnil
    · refine ⟨.unchanged before hfind, before, t, hfind, ?_⟩
      rw [← hedit]
      exact AuditState.ext (fieldChanges_eq_nil.mp hnil) hdeleted.symm
    · refine (wp_bind _ _).mpr (wp_uuid4 fun recordId => ?_)
      refine wp_record hfind hcor.id (updatedExpense_eq hcor after.deletedAt) fun hfresh => ?_
      have hstate : AuditState.of after = (AuditState.of before).apply
          (.edited recordId caller (Instant.toDateTime now) before after hnil) :=
        AuditState.ext (applyChanges_fieldChanges before after).symm hdeleted
      refine ⟨.recorded before after _ hfind hfresh rfl hcor.id hcor.positive ⟨?_, ?_⟩ hstate ?_,
        before, t, hfind, by rw [hedit]⟩
      · exact fun c hc => old_of_mem_fieldChanges hc
      · simp [AuditState.of, hactive, ExpenseChangeRecord.edited]
      · exact fun h => hnil (fieldChanges_eq_nil.mpr (congrArg AuditState.values h).symm)

omit [PythonRuntime] in
/-- A deletion or restoration is refused, changes nothing, or records that it happened. The two
requests share it: what tells them apart is the deletion state they lead to.

**Proof sketch.** Cases on the Expense that is found and on whether it has the state already;
otherwise the transition and its record are written together (`wp_record`). -/
lemma wp_changeDeletionState {type : ExpenseChangeType} {hType : type ≠ .edited}
    {already : Expense → Bool} {transition : Expense → DateTime → Checked Expense}
    (halready : ∀ e, already e = true ↔ (e.isActive = true ↔ type = .restored))
    (htrans : ∀ e e' now, already e = false → transition e now = .ok e' →
      ∃ t, e' = { e with deletedAt := t, modifiedAt := now.astimezoneUtc } ∧
        (e'.isActive = true ↔ type = .restored)) :
    (changeDeletionState type hType already transition id caller).wp (requestLogic db)
      (fun e s => Served db id (.ok e) s.db) ⟨db, db⟩ := by
  unfold changeDeletionState
  refine (wp_bind _ _).mpr ((wp_read rfl).mpr ?_)
  cases hb : db.ownedExpense id caller with
  | none => exact rfl
  | some before =>
    have hfind := (Database.ownedExpense_eq_some.mp hb).1
    obtain rfl : before.id = id := Table.key_of_find hfind
    dsimp only
    split_ifs with hal
    · exact .unchanged before hfind
    · refine (wp_bind _ _).mpr (wp_clock fun now => ?_)
      refine (wp_bind _ _).mpr (wp_lift (fun after hok => ?_) fun _ => rfl)
      obtain ⟨t, rfl, hact⟩ := htrans _ _ _ (by simpa using hal) hok
      refine (wp_bind _ _).mpr (wp_uuid4 fun recordId => ?_)
      refine wp_record hfind rfl rfl fun hfresh => ?_
      have hwas : ¬ (before.isActive = true ↔ type = .restored) := fun h => hal ((halready _).mpr h)
      have hflip : before.isActive = !t.isNone := by
        have hact' : t.isNone = true ↔ type = .restored := hact
        cases hb : before.isActive <;> cases ht : t.isNone <;> simp_all
      refine .recorded before _ _ hfind hfresh rfl rfl id ⟨?_, ?_⟩ ?_ ?_
      · exact fun c hc => absurd hc List.not_mem_nil
      · show (!before.isActive) = true ↔ type = .restored
        rw [hflip, Bool.not_not]
        exact hact
      · have hact' : t.isNone = true ↔ type = .restored := hact
        cases type with
        | edited => exact absurd rfl hType
        | deleted =>
          refine AuditState.ext rfl ?_
          show (!t.isNone) = true
          cases t <;> simp at hact' ⊢
        | restored =>
          refine AuditState.ext rfl ?_
          show (!t.isNone) = false
          cases t <;> simp at hact' ⊢
      · intro h
        have hd : (!t.isNone) = !before.isActive := congrArg AuditState.deleted h
        rw [hflip] at hd
        cases t <;> simp at hd

omit [PythonRuntime] in
/-- A deletion is refused, changes nothing, or records itself. -/
lemma wp_deleteExpense : (deleteExpense id caller).wp (requestLogic db)
    (fun e s => Served db id (.ok e) s.db) ⟨db, db⟩ := by
  refine wp_changeDeletionState (fun e => by simp) fun e e' now hal h => ?_
  obtain ⟨_, -, h⟩ := Checked.bind_eq_ok.mp h
  have hact : e.deletedAt.isSome = false := by simpa [Expense.isActive] using hal
  rw [if_neg (by simp [hact])] at h
  exact ⟨some now.astimezoneUtc, (Checked.pure_eq_ok.mp h).symm, by
    rw [← Checked.pure_eq_ok.mp h]
    simp [Expense.isActive]⟩

omit [PythonRuntime] in
/-- A restoration is refused, changes nothing, or records itself. -/
lemma wp_restoreExpense : (restoreExpense id caller).wp (requestLogic db)
    (fun e s => Served db id (.ok e) s.db) ⟨db, db⟩ := by
  refine wp_changeDeletionState (fun e => by simp) fun e e' now hal h => ?_
  obtain ⟨_, -, h⟩ := Checked.bind_eq_ok.mp h
  have hdel : e.deletedAt.isNone = false := hal
  rw [if_neg (by simp [hdel])] at h
  exact ⟨none, (Checked.pure_eq_ok.mp h).symm, by
    rw [← Checked.pure_eq_ok.mp h]
    simp [Expense.isActive]⟩

end Requests

variable [PythonRuntime]

/-- The program of a request. -/
def ExpenseRequest.program : ExpenseRequest → Program Expense
  | .edit id caller command => editExpense id caller command
  | .delete id caller => deleteExpense id caller
  | .restore id caller => restoreExpense id caller

/-- A request served on its own, from a committed state. -/
def ExpenseRequest.serve (q : ExpenseRequest) (tape : Stream' Reading) (db : Database) :
    Outcome signature Database Expense :=
  q.program.exec postgres tape ⟨db, db⟩

/-- **One request.** A request is refused and leaves the database alone, or changes nothing and
leaves the database alone, or writes one record that fits with the Expense it leads to. -/
theorem served_of_program (q : ExpenseRequest) (tape : Stream' Reading) (db : Database) :
    Served db q.expenseId (q.serve tape db).result (q.serve tape db).final.db := by
  have hwp : q.program.wp (requestLogic db) (fun e s => Served db q.expenseId (.ok e) s.db)
      ⟨db, db⟩ := by
    cases q with
    | edit id caller command =>
      refine wp_mono _ ?_ (wp_editExpense command)
      exact fun _ _ h => h.1
    | delete id caller => exact wp_deleteExpense
    | restore id caller => exact wp_restoreExpense
  obtain ⟨hok, herr⟩ := exec_alone q.program tape hwp
  show Served db q.expenseId (q.program.exec postgres tape ⟨db, db⟩).result
    (q.program.exec postgres tape ⟨db, db⟩).final.db
  cases h : (q.program.exec postgres tape ⟨db, db⟩).result with
  | ok e => exact hok e h
  | error e =>
    rw [herr e h]
    exact .refused e

/-! ## Serial runs -/

/-- Requests served one after another. -/
def serveAll (db : Database) (qs : List (ExpenseRequest × Stream' Reading)) : Database :=
  qs.foldl (fun db q => (q.1.serve q.2 db).final.db) db

omit [PythonRuntime]

/-- An Expense as its confirmation left it: active, positive, and without change records. -/
structure Confirmed (db : Database) (e₀ : Expense) : Prop where
  found : db.expenses.find e₀.id = some e₀
  active : e₀.isActive = true
  positive : 0 < e₀.money.minorUnits
  unrecorded : db.recordsOf e₀.id = []

/-- An Expense is what its journal makes of the values at confirmation. -/
structure Trail (e₀ : Expense) (db : Database) (e : Expense) : Prop where
  found : db.expenses.find e₀.id = some e
  positive : 0 < e.money.minorUnits
  follows : Follows (AuditState.of e₀) (db.recordsOf e₀.id)
  replays : replay (AuditState.of e₀) (db.recordsOf e₀.id) = AuditState.of e

/-- A confirmation that makes an Expense leaves it active, positive and without change records.

**Proof sketch.** A confirmation returns the Expense that exists, which is excluded here, or commits
a new one (`wp_confirmCaptureDraft`). A new one has no records, since records refer to Expenses that
exist. -/
lemma confirmed_of_confirmCaptureDraft [PythonRuntime] {db : Database} {draftId caller : UUID}
    {tape : Stream' Reading} {e₀ : Expense}
    (hrefs : ∀ r ∈ db.changeRecords, db.hasExpense r.expenseId = true)
    (hnew : db.expenses.find e₀.id = none)
    (h : ((confirmCaptureDraft draftId caller).exec postgres tape ⟨db, db⟩).result = .ok e₀) :
    Confirmed ((confirmCaptureDraft draftId caller).exec postgres tape ⟨db, db⟩).final.db e₀ := by
  have hwp : (confirmCaptureDraft draftId caller).wp
      (alone (fun _ _ => True) (fun _ _ => True) fun _ _ => True)
      (fun e s => db.expenses.find e.id = none → Confirmed s.db e) ⟨db, db⟩ := by
    refine wp_confirmCaptureDraft (fun _ => trivial) (fun _ => trivial) (fun _ _ _ => trivial)
      (fun _ _ _ => trivial) ?_ ?_
    · intro d e _ _ _ hown _ hnone
      exact absurd (hnone.symm.trans (Database.ownedExpense_eq_some.mp hown).1) (by simp)
    · rintro d e d' hby
      refine ⟨trivial, fun hnone => ⟨?_, hby.active, hby.positive, ?_⟩⟩
      · show (db.expenses.upsert e).find e.id = some e
        rw [Table.find_upsert_self]
      · refine List.filter_eq_nil_iff.mpr fun r hr => ?_
        have hex := hrefs r hr
        rw [decide_eq_true_eq]
        intro hid
        rw [Database.hasExpense, hid, hnone] at hex
        exact absurd hex (by decide)
  exact (exec_alone _ tape hwp).1 e₀ h hnew

/-- A confirmed Expense has an empty journal. -/
lemma Confirmed.trail {db : Database} {e₀ : Expense} (h : Confirmed db e₀) : Trail e₀ db e₀ where
  found := h.found
  positive := h.positive
  follows := by
    rw [h.unrecorded]
    trivial
  replays := by
    rw [h.unrecorded]
    rfl

/-- A record is added to its own Expense's journal only. -/
lemma recordsOf_record {db : Database} {r : ExpenseChangeRecord} {e : Expense}
    (hr : db.changeRecords.find r.id = none) (id : UUID) :
    (db.record r e).recordsOf id =
      db.recordsOf id ++ if r.expenseId = id then [r] else [] := by
  have hrows : (db.record r e).changeRecords.rows = db.changeRecords.rows ++ [r] := by
    show (db.changeRecords.upsert r).rows = _
    rw [Table.upsert, if_pos hr, Table.rows_add hr]
  rw [Database.recordsOf, hrows, List.filter_append]
  by_cases h : r.expenseId = id <;> simp [h, Database.recordsOf]

/-- One request keeps the trail of every Expense.

**Proof sketch.** A request that records appends to the trail of its own Expense a record that fits,
and leads to the state that the record gives. The trail of another Expense stays as it is. -/
lemma Trail.served {e₀ e : Expense} {db db' : Database} {id : UUID} {x : Except Error Expense}
    (h : Trail e₀ db e) (hs : Served db id x db') : ∃ e', Trail e₀ db' e' := by
  cases hs with
  | refused => exact ⟨e, h⟩
  | unchanged => exact ⟨e, h⟩
  | recorded before after r hb hr hid haid hpos hfit hstate hne =>
    have hfind : ∀ k, (db.record r after).expenses.find k =
        if k = id then some after else db.expenses.find k := by
      intro k
      show (db.expenses.upsert after).find k = _
      rw [Table.find_upsert, haid]
    by_cases hk : e₀.id = id
    · subst hk
      obtain rfl : e = before := Option.some.inj (h.found.symm.trans hb)
      refine ⟨after, by rw [hfind, if_pos rfl], hpos h.positive, ?_, ?_⟩
      · rw [recordsOf_record hr, if_pos hid]
        exact h.follows.append (h.replays ▸ hfit)
      · rw [recordsOf_record hr, if_pos hid, replay_append, h.replays]
        exact hstate.symm
    · have hrec : (db.record r after).recordsOf e₀.id = db.recordsOf e₀.id := by
        rw [recordsOf_record hr, if_neg (fun h => hk (h.symm.trans hid)), List.append_nil]
      refine ⟨e, by rw [hfind, if_neg hk]; exact h.found, h.positive, ?_, ?_⟩
      · rw [hrec]
        exact h.follows
      · rw [hrec]
        exact h.replays

variable [PythonRuntime]

/-- Any number of requests keep the trail. -/
lemma Trail.serveAll {e₀ : Expense} (qs : List (ExpenseRequest × Stream' Reading)) :
    ∀ {db : Database} {e : Expense}, Trail e₀ db e → ∃ e', Trail e₀ (serveAll db qs) e' := by
  induction qs with
  | nil => exact fun h => ⟨_, h⟩
  | cons q qs ih =>
    intro db e h
    obtain ⟨e', h'⟩ := h.served (served_of_program q.1 q.2 db)
    exact ih h'

/-- **The audit trail replays the Expense.** After any requests by any callers with any arguments,
the stored change records of a confirmed Expense, applied in commit order to its values at
confirmation, give its current values; each edit names the value immediately before it and a
different new one; deletions and restorations take turns, starting with a deletion, and no edit
lies between a deletion and the next restoration; and its amount is positive. Whatever request comes
next, if it raises, nothing changes, and if it leaves the audited values of the Expense alone, then
it leaves its row and its records alone.

**Proof sketch.** One request writes at most one record, which fits the Expense it finds
(`served_of_program`); so every journal is a sequence of fitting records, and the laws are those of
such sequences. -/
theorem audit_trail_replays {db₀ : Database} {e₀ : Expense} (h₀ : Confirmed db₀ e₀)
    (qs : List (ExpenseRequest × Stream' Reading)) (q : ExpenseRequest) (tape : Stream' Reading) :
    let db := serveAll db₀ qs
    let records := db.recordsOf e₀.id
    let served := q.serve tape db
    ∃ e, db.expenses.find e₀.id = some e ∧ 0 < e.money.minorUnits ∧
      replay (AuditState.of e₀) records = AuditState.of e ∧
      (∀ xs r ys, records = xs ++ r :: ys → r.changeType = .edited →
        (∀ c ∈ r.changes, c.old = (replay (AuditState.of e₀) xs).values c.field ∧ c.old ≠ c.new) ∧
        (deletions xs).getLast? ≠ some .deleted) ∧
      deletions records = alternating (deletions records).length ∧
      (∀ error, served.result = .error error → served.final.db = db) ∧
      (∀ e', served.final.db.expenses.find e₀.id = some e' → AuditState.of e' = AuditState.of e →
        e' = e ∧ served.final.db.recordsOf e₀.id = records) := by
  intro db records served
  obtain ⟨e, h⟩ := h₀.trail.serveAll qs
  have hactive : (AuditState.of e₀).deleted = false := by simp [AuditState.of, h₀.active]
  have hserved := served_of_program q tape db
  refine ⟨e, h.found, h.positive, h.replays, ?_, (h.follows.alternates hactive).1, ?_, ?_⟩
  · intro xs r ys hsplit htype
    have hfollows : Follows (AuditState.of e₀) (xs ++ r :: ys) := hsplit ▸ h.follows
    refine ⟨fun c hc => ⟨hfollows.fits.1 c hc, c.changes⟩, ?_⟩
    rw [ne_eq, ← hfollows.take.getLast_deletions hactive, hfollows.fits.2, htype]
    decide
  · intro error herror
    have hout : Served db q.expenseId served.result served.final.db := hserved
    rw [herror] at hout
    generalize served.final.db = db' at hout ⊢
    cases hout
    rfl
  · intro e' hfind hsame
    have hout : Served db q.expenseId served.result served.final.db := hserved
    generalize served.result = x at hout
    generalize served.final.db = db' at hout hfind ⊢
    cases hout with
    | refused => exact ⟨Option.some.inj (hfind.symm.trans h.found), rfl⟩
    | unchanged => exact ⟨Option.some.inj (hfind.symm.trans h.found), rfl⟩
    | recorded before after r hb hr hid haid hpos hfit hstate hne =>
      have hrow : (db.record r after).expenses.find e₀.id =
          if e₀.id = q.expenseId then some after else db.expenses.find e₀.id := by
        show (db.expenses.upsert after).find e₀.id = _
        rw [Table.find_upsert, haid]
      by_cases hk : e₀.id = q.expenseId
      · -- A record of this Expense changes its audited values.
        rw [hrow, if_pos hk] at hfind
        obtain rfl := Option.some.inj hfind
        have hbefore : before = e := Option.some.inj (hb.symm.trans (hk ▸ h.found))
        exact absurd (hbefore ▸ hsame) hne
      · rw [hrow, if_neg hk] at hfind
        refine ⟨Option.some.inj (hfind.symm.trans h.found), ?_⟩
        rw [recordsOf_record hr, if_neg (fun h => hk (h.symm.trans hid)), List.append_nil]

omit [PythonRuntime] in
/-- An Expense that is edited and then deleted. -/
theorem audit_trail_replays_edit_delete :
    letI := PythonRuntime.ascii
    ∃ (db₀ : Database) (e₀ : Expense) (qs : List (ExpenseRequest × Stream' Reading)),
      Confirmed db₀ e₀ ∧
      ((serveAll db₀ qs).recordsOf e₀.id).map ExpenseChangeRecord.changeType =
        [.edited, .deleted] ∧
      ∃ e, (serveAll db₀ qs).expenses.find e₀.id = some e ∧
        replay (AuditState.of e₀) ((serveAll db₀ qs).recordsOf e₀.id) = AuditState.of e := by
  let _ := PythonRuntime.ascii
  let e₀ : Expense := ⟨9, 7, ⟨1250, ⟨"EUR", by decide⟩, by decide, by decide⟩,
    ⟨⟨738000, by decide⟩, by decide⟩, none, "uncategorized", none, .webManual, 5, none, 0, 0, none⟩
  let db₀ : Database := { Database.small with expenses := ⟨[e₀], by decide⟩ }
  let tape (n : ℕ) : Stream' Reading := fun k => ⟨k, BitVec.ofNat 128 (100 * n + k), none, 0, none⟩
  let qs : List (ExpenseRequest × Stream' Reading) :=
    [(.edit 9 7 ⟨none, none, none, some "food", some (some "lunch")⟩, tape 1),
      (.delete 9 7, tape 2)]
  have h₀ : Confirmed db₀ e₀ := ⟨rfl, rfl, by decide, rfl⟩
  obtain ⟨e, he, -, hreplay, -⟩ := audit_trail_replays h₀ qs (.restore 9 7) (tape 3)
  exact ⟨db₀, e₀, qs, h₀, by decide, e, he, hreplay⟩

end MintFlow
