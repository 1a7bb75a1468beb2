import MintFlow.Application.Alone

set_option relaxedAutoImplicit false
set_option autoImplicit false

/-!
# What a confirmation does

The confirmation of a draft by a session that is alone on the database: it is denied or refused
before it writes, it finds the Expense of a draft that is confirmed already, or it writes the
Expense and the confirmed draft and commits both.

## Main definitions

* `MintFlow.MatchesDraft` — an Expense with the values of a draft.
* `MintFlow.ConfirmedBy` — a draft, the Expense made of it, and the draft confirmed to it.

## Main results

* `MintFlow.wp_confirmCaptureDraft` — the outcomes of a confirmation.
-/

namespace MintFlow

open Transact Transact.Prog

/-- An Expense carries the values of a draft, and the fallback category where the draft has
none. -/
structure MatchesDraft (e : Expense) (d : CaptureDraft) : Prop where
  draft : e.captureDraftId = d.id
  owner : e.ownerId = d.ownerId
  money : d.amount = some e.money
  date : d.transactionDate = some e.transactionDate
  merchant : e.merchant = d.merchant
  category : e.categoryKey = d.categoryKey.getD uncategorizedKey
  note : e.note = d.note
  source : e.source = d.source
  receipt : e.receiptId = d.receiptId

/-- The draft `d` of the caller was confirmable, the Expense `e` was made of it, and `d'` is the
draft confirmed to `e`. -/
structure ConfirmedBy (db : Database) (draftId caller : UUID) (d : CaptureDraft) (e : Expense)
    (d' : CaptureDraft) : Prop where
  owned : db.ownedDraft draftId caller = some d
  confirmable : d.isConfirmable = true
  expense : MatchesDraft e d
  active : e.isActive = true
  positive : 0 < e.money.minorUnits
  fresh : db.expenses.find e.id = none
  only : db.expensesOfDraft d.id = []
  category : db.hasCategory e.categoryKey = true
  confirmed : ∃ t, d' = { d with
    state := .confirmed, expenseId := some e.id, confirmedAt := some t, modifiedAt := t }

/-- The database after an Expense and the draft confirmed to it were written. -/
def Database.confirmed (db : Database) (e : Expense) (d : CaptureDraft) : Database :=
  (db.apply (.expense e)).apply (.draft d)

section Spec

variable [PythonRuntime] {C : Database → Database → Prop} {F G : Error → Alone Database → Prop}
  {s : Alone Database} {draftId caller : UUID} {Q : Expense → Alone Database → Prop}

omit [PythonRuntime] in
/-- Looking for the Expense of a confirmed draft. -/
lemma wp_existingExpenseFor {d : CaptureDraft}
    (hrefused : ∀ m, G (.captureDraftNotConfirmable m) s)
    (hQ : ∀ e, d.expenseId = some e.id → s.view.ownedExpense e.id caller = some e →
      e.isActive = true → Q e s) :
    (existingExpenseFor d caller).wp (alone C F G) Q s := by
  unfold existingExpenseFor
  cases hd : d.expenseId with
  | none => exact hrefused _
  | some expenseId =>
    refine (wp_bind _ _).mpr ((wp_read rfl).mpr ?_)
    cases he : s.view.ownedExpense expenseId caller with
    | none => exact hrefused _
    | some e =>
      obtain rfl : e.id = expenseId :=
        Table.key_of_find (Database.ownedExpense_eq_some.mp he).1
      dsimp only
      split_ifs with hact
      · exact hQ e hd he hact
      · exact hrefused _

/-- Making the Expense of a confirmable draft.

**Proof sketch.** Step by step: the user is looked up, the date is judged, the Expense is built, and
the two statements write the Expense and the confirmed draft before the commit. -/
lemma wp_createExpenseFor {d : CaptureDraft} {amount : Money} {date : TransactionDate}
    (howned : s.view.ownedDraft draftId caller = some d) (hconf : d.isConfirmable = true)
    (hamount : d.amount = some amount) (hdate : d.transactionDate = some date)
    (hdenied : ∀ m, G (.captureDraftAccessDenied m) s)
    (hrefused : ∀ m, G (.captureDraftNotConfirmable m) s)
    (hraised : ∀ r s', s'.db = s.db → G (.ofRaised r) s')
    (hstmt : ∀ e s', s'.db = s.db → F e s')
    (hQ : ∀ e d', ConfirmedBy s.view draftId caller d e d' →
      C s.db (s.view.confirmed e d') ∧ Q e ⟨s.view.confirmed e d', s.view.confirmed e d'⟩) :
    (createExpenseFor d caller amount date).wp (alone C F G) Q s := by
  unfold createExpenseFor
  refine (wp_bind _ _).mpr (wp_clock fun now => ?_)
  refine (wp_bind _ _).mpr ((wp_read rfl).mpr ?_)
  cases s.view.users.find caller with
  | none => exact hdenied _
  | some user =>
    refine (wp_bind _ _).mpr ?_
    cases isWithinFutureTolerance date now user.timezone with
    | error r => exact hraised r s rfl
    | ok acceptable =>
    show Prog.wp _ (if acceptable = true then _ else _) _ _
    split_ifs with htol
    swap
    · exact hrefused _
    refine (wp_bind _ _).mpr (wp_uuid4 fun expenseId => ?_)
    refine (wp_bind _ _).mpr ?_
    cases hcreate : Expense.create expenseId d.ownerId amount date
        (d.categoryKey.getD uncategorizedKey) d.id d.merchant d.note d.source d.receiptId
        (Instant.toDateTime now) with
    | error m => exact hraised (.valueError m) s rfl
    | ok expense =>
      obtain ⟨hpos, -, rfl⟩ := Expense.create_eq_ok hcreate
      refine (wp_bind _ _).mpr (wp_execute (fun _ ws hins => ?_) fun e _ => hstmt e _ rfl)
      obtain ⟨-, -, hfresh, honly, -, hcat, -, -, rfl⟩ := Database.createExpense_eq_ok hins
      refine (wp_bind _ _).mpr ?_
      cases hconfirm : d.confirm caller expenseId (Instant.toDateTime now) with
      | error m => exact hraised (.valueError m) _ rfl
      | ok d' =>
        obtain ⟨-, -, -, rfl⟩ := CaptureDraft.confirm_eq_ok hconfirm
        refine (wp_bind _ _).mpr (wp_execute (fun _ ws hupd => ?_) fun e _ => hstmt e _ rfl)
        obtain ⟨hfind, -⟩ := Database.ownedDraft_eq_some.mp howned
        obtain rfl : d.id = draftId := Table.key_of_find hfind
        rcases Database.updateDraft_eq_ok hupd with ⟨hnone, -⟩ | ⟨row, hrow, -, -, -, -, -, rfl⟩
        · exact absurd (hnone.symm.trans hfind) (by simp)
        · obtain rfl : row = d := Option.some.inj (hrow.symm.trans hfind)
          obtain ⟨hC, hQ⟩ := hQ _ _ ⟨howned, hconf,
            ⟨rfl, rfl, hamount, hdate, rfl, rfl, rfl, rfl, rfl⟩, rfl, hpos, hfresh, honly, hcat,
            ⟨(Instant.toDateTime now).astimezoneUtc, rfl⟩⟩
          exact (wp_bind _ _).mpr ⟨hC, hQ⟩

/-- **A confirmation** is denied or refused before it writes anything, raises before it commits
anything, finds the active Expense of a confirmed draft, or commits the Expense of a confirmable
draft together with the confirmed draft.

**Proof sketch.** Cases on the draft that is found and on its state, which lead to the Expense that
exists (`wp_existingExpenseFor`), to a new one (`wp_createExpenseFor`) or to a refusal. -/
lemma wp_confirmCaptureDraft
    (hdenied : ∀ m, G (.captureDraftAccessDenied m) s)
    (hrefused : ∀ m, G (.captureDraftNotConfirmable m) s)
    (hraised : ∀ r s', s'.db = s.db → G (.ofRaised r) s')
    (hstmt : ∀ e s', s'.db = s.db → F e s')
    (hexisting : ∀ d e, s.view.ownedDraft draftId caller = some d → d.state = .confirmed →
      d.expenseId = some e.id → s.view.ownedExpense e.id caller = some e → e.isActive = true →
      Q e s)
    (hcreated : ∀ d e d', ConfirmedBy s.view draftId caller d e d' →
      C s.db (s.view.confirmed e d') ∧ Q e ⟨s.view.confirmed e d', s.view.confirmed e d'⟩) :
    (confirmCaptureDraft draftId caller).wp (alone C F G) Q s := by
  unfold confirmCaptureDraft
  refine (wp_bind _ _).mpr ((wp_read rfl).mpr ?_)
  cases hd : s.view.ownedDraft draftId caller with
  | none => exact hdenied _
  | some d =>
    dsimp only
    split_ifs with hstate hconf
    · exact wp_existingExpenseFor hrefused fun e he hown hact =>
        hexisting d e hd hstate he hown hact
    · obtain ⟨-, ⟨amount, hamount⟩, date, hdate⟩ := CaptureDraft.isConfirmable_iff.mp hconf
      rw [hamount, hdate]
      exact wp_createExpenseFor hd hconf hamount hdate hdenied hrefused hraised hstmt
        fun e d' h => hcreated d e d' h
    · exact hrefused _

end Spec

end MintFlow
