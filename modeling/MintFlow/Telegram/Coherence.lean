import MintFlow.Application.ConfirmSpec
import MintFlow.Http.Capture
import MintFlow.Telegram.WorkerSteps

set_option relaxedAutoImplicit false
set_option autoImplicit false

/-!
# Coherent stores

Sessions that are alone on the database keep drafts and Expenses coherent: every draft has a stable
category key and references that lead somewhere, an Expense belongs to a confirmed draft, and a
confirmed draft to an Expense with its values.

## Main definitions

* `MintFlow.Coherent` — the invariant.
* `MintFlow.coherentRules` — the stages of handling, read as coherence.

## Main results

* `MintFlow.Coherent.revise`, `Coherent.create`, `Coherent.confirm` — what sessions write keeps the
  store coherent.
-/

namespace MintFlow

open Transact Transact.Prog

variable [PythonRuntime]

/-- Drafts and Expenses agree with each other and with what they refer to. -/
structure Coherent (db : Database) : Prop where
  category : ∀ d ∈ db.drafts, ∀ k ∈ d.categoryKey, requireStableKey k = .ok ()
  texts : ∀ d ∈ db.drafts, d.TextsFit
  consistent : ∀ d ∈ db.drafts, d.Consistent
  owner : ∀ d ∈ db.drafts, db.hasUser d.ownerId = true
  receipt : ∀ d ∈ db.drafts, ∀ r ∈ d.receiptId, db.hasReceipt r = true
  result : ∀ d ∈ db.drafts, ∀ r ∈ d.recognitionResultId, db.hasResult r = true
  expense : ∀ e ∈ db.expenses, ∃ d ∈ db.drafts, d.id = e.captureDraftId ∧ d.state = .confirmed
  confirmed : ∀ d ∈ db.drafts, d.state = .confirmed →
    ∃ e, d.expenseId = some e.id ∧ db.expenses.find e.id = some e ∧ MatchesDraft e d

/-- A store without drafts and Expenses is coherent. -/
lemma Coherent.of_empty {db : Database} (hd : db.drafts.rows = []) (he : db.expenses.rows = []) :
    Coherent db := by
  have hnone : ∀ d, ¬ d ∈ db.drafts := by simp [Table.mem_def, hd]
  have hnone' : ∀ e, ¬ e ∈ db.expenses := by simp [Table.mem_def, he]
  constructor
  all_goals first
    | exact fun d hd => absurd hd (hnone d)
    | exact fun e he => absurd he (hnone' e)

/-! ## Writes -/

/-- A write that changes no draft and no Expense, and removes nothing a draft refers to. -/
def Write.besides : Write → Bool
  | .draft _ | .expense _ | .removeResults _ => false
  | _ => true

section Writes

variable {db : Database} {w : Write} {ws : List Write}

omit [PythonRuntime] in
/-- Writing a row keeps every other row findable. -/
lemma isSome_find_upsert {κ ρ : Type} {key : ρ → κ} [DecidableEq κ] {t : Table key} {k : κ}
    (h : (t.find k).isSome = true) (r : ρ) : ((t.upsert r).find k).isSome = true := by
  rw [Table.find_upsert]
  split_ifs
  · rfl
  · exact h

omit [PythonRuntime] in
/-- Users are never written. -/
lemma hasUser_apply (id : UUID) : (db.apply w).hasUser id = db.hasUser id := by
  cases w <;> rfl

omit [PythonRuntime] in
/-- Receipts are never removed. -/
lemma hasReceipt_apply {id : UUID} (h : db.hasReceipt id = true) :
    (db.apply w).hasReceipt id = true := by
  cases w with
  | receipt r => exact isSome_find_upsert h r
  | _ => exact h

omit [PythonRuntime] in
/-- Results are removed only by the deletion of a receipt's data. -/
lemma hasResult_apply {id : UUID} (hw : ∀ r, w ≠ .removeResults r) (h : db.hasResult id = true) :
    (db.apply w).hasResult id = true := by
  cases w with
  | result r => exact isSome_find_upsert h r
  | removeResults r => exact absurd rfl (hw r)
  | _ => exact h

/-- Writes besides drafts and Expenses keep a store coherent.

**Proof sketch.** Drafts and Expenses stay as they are, and users, receipts and results only become
more. -/
lemma Coherent.apply_besides (h : Coherent db) (hw : w.besides = true) : Coherent (db.apply w) := by
  have hdrafts : (db.apply w).drafts = db.drafts := by
    cases w <;> first | rfl | exact absurd hw Bool.false_ne_true
  have hexpenses : (db.apply w).expenses = db.expenses := by
    cases w <;> first | rfl | exact absurd hw Bool.false_ne_true
  have hres : ∀ r, w ≠ .removeResults r := by
    rintro r rfl
    exact absurd hw Bool.false_ne_true
  constructor
  · rw [hdrafts]
    exact h.category
  · rw [hdrafts]
    exact h.texts
  · rw [hdrafts]
    exact h.consistent
  · rw [hdrafts]
    exact fun d hd => (hasUser_apply _).trans (h.owner d hd)
  · rw [hdrafts]
    exact fun d hd r hr => hasReceipt_apply (h.receipt d hd r hr)
  · rw [hdrafts]
    exact fun d hd r hr => hasResult_apply hres (h.result d hd r hr)
  · rw [hdrafts, hexpenses]
    exact h.expense
  · rw [hdrafts, hexpenses]
    exact h.confirmed

/-- Any number of them do. -/
lemma Coherent.applyAll_besides (h : Coherent db) (hws : ∀ w ∈ ws, w.besides = true) :
    Coherent (postgres.applyAll ws db) := by
  induction ws generalizing db with
  | nil => exact h
  | cons w ws ih =>
    exact ih (h.apply_besides (hws w List.mem_cons_self)) fun w' hw' =>
      hws w' (List.mem_cons_of_mem _ hw')

/-- Writing an unconfirmed draft in the place of an unconfirmed one, or as a new one.

**Proof sketch.** The row written meets each condition by hypothesis, and the others are those that
were there; no Expense loses its draft, since the row replaced was not confirmed. -/
lemma Coherent.apply_draft (h : Coherent db) {d : CaptureDraft}
    (hold : ∀ row, db.drafts.find d.id = some row → row.state ≠ .confirmed)
    (hstate : d.state ≠ .confirmed) (hcat : ∀ k ∈ d.categoryKey, requireStableKey k = .ok ())
    (htexts : d.TextsFit) (hcons : d.Consistent) (howner : db.hasUser d.ownerId = true)
    (hreceipt : ∀ r ∈ d.receiptId, db.hasReceipt r = true)
    (hresult : ∀ r ∈ d.recognitionResultId, db.hasResult r = true) :
    Coherent (db.apply (.draft d)) := by
  have hmem : ∀ d' ∈ (db.apply (.draft d)).drafts, d' = d ∨ d' ∈ db.drafts ∧ d'.id ≠ d.id :=
    fun d' hd' => Table.mem_upsert.mp hd'
  have hkeep : ∀ d' ∈ db.drafts, d'.state = .confirmed → d' ∈ (db.apply (.draft d)).drafts :=
    fun d' hd' hs => Table.mem_upsert.mpr (.inr ⟨hd', fun hid =>
      hold d' (hid ▸ Table.find_of_mem hd') hs⟩)
  constructor
  · intro d' hd'
    rcases hmem d' hd' with rfl | ⟨hd', -⟩
    · exact hcat
    · exact h.category d' hd'
  · intro d' hd'
    rcases hmem d' hd' with rfl | ⟨hd', -⟩
    · exact htexts
    · exact h.texts d' hd'
  · intro d' hd'
    rcases hmem d' hd' with rfl | ⟨hd', -⟩
    · exact hcons
    · exact h.consistent d' hd'
  · intro d' hd'
    rcases hmem d' hd' with rfl | ⟨hd', -⟩
    · exact howner
    · exact h.owner d' hd'
  · intro d' hd'
    rcases hmem d' hd' with rfl | ⟨hd', -⟩
    · exact hreceipt
    · exact h.receipt d' hd'
  · intro d' hd'
    rcases hmem d' hd' with rfl | ⟨hd', -⟩
    · exact hresult
    · exact h.result d' hd'
  · intro e he
    obtain ⟨d', hd', hid, hs⟩ := h.expense e he
    exact ⟨d', hkeep d' hd' hs, hid, hs⟩
  · intro d' hd' hs
    rcases hmem d' hd' with rfl | ⟨hd', -⟩
    · exact absurd hs hstate
    · exact h.confirmed d' hd' hs

/-- A revision of a stored draft keeps the store coherent. -/
lemma Coherent.revise (h : Coherent db) {d d' : CaptureDraft} {u : Unit}
    (hfind : db.drafts.find d.id = some d) (hrev : Revised d d')
    (hupd : db.updateDraft d' = .ok (u, ws)) :
    Coherent (postgres.applyAll ws db) ∧
      (postgres.applyAll ws db).drafts.find d'.id = some d' := by
  obtain ⟨rfl, htexts, hcons, hu, hres⟩ := hrev.written hfind hupd
  have hmem := Table.mem_of_find hfind
  refine ⟨h.apply_draft ?_ hrev.unconfirmed ?_ htexts hcons hu ?_ hres, Table.find_upsert_self ..⟩
  · intro row hrow hs
    rw [hrev.id, hfind] at hrow
    obtain rfl := Option.some.inj hrow
    exact ne_confirmed_of_isOpen hrev.isOpen hs
  · intro k hk
    rcases hrev.category with hc | ⟨k', hk', hst⟩
    · exact h.category d hmem k (hc ▸ hk)
    · obtain rfl : k' = k := Option.some.inj (hk'.symm.trans hk)
      exact hst
  · rw [hrev.receiptId]
    exact h.receipt d hmem

/-- A new draft without a category keeps the store coherent. -/
lemma Coherent.create (h : Coherent db) {d : CaptureDraft} {u : Unit}
    (hstate : d.state ≠ .confirmed) (hcat : d.categoryKey = none)
    (hins : db.createDraft d = .ok (u, ws)) : Coherent (postgres.applyAll ws db) := by
  obtain ⟨htexts, hcons, hnone, hr, hu, -, hres, rfl⟩ := Database.createDraft_eq_ok hins
  refine h.apply_draft ?_ hstate (by simp [hcat]) htexts hcons hu (fun r hmem => (hr r hmem).2)
    hres
  intro row hrow
  rw [hnone] at hrow
  cases hrow

/-- A confirmation keeps the store coherent.

**Proof sketch.** The confirmed draft and its Expense match, and each refers to the other. Other
Expenses keep their drafts, which were confirmed already and are thus other rows. -/
lemma Coherent.confirm (h : Coherent db) {draftId caller : UUID} {d d' : CaptureDraft}
    {e : Expense} (hby : ConfirmedBy db draftId caller d e d') :
    Coherent (db.confirmed e d') := by
  obtain ⟨hfind, -⟩ := Database.ownedDraft_eq_some.mp hby.owned
  obtain ⟨t, rfl⟩ := hby.confirmed
  obtain rfl : d.id = draftId := Table.key_of_find hfind
  have hmemd := Table.mem_of_find hfind
  have hready := (CaptureDraft.isConfirmable_iff.mp hby.confirmable).1
  set d' : CaptureDraft := { d with
    state := .confirmed, expenseId := some e.id, confirmedAt := some t, modifiedAt := t } with hd'
  have hmatch : MatchesDraft e d' := { hby.expense with }
  have hmem : ∀ x ∈ (db.confirmed e d').drafts, x = d' ∨ x ∈ db.drafts ∧ x.id ≠ d.id :=
    fun x hx => Table.mem_upsert.mp hx
  have hkeep : ∀ x ∈ db.drafts, x.state = .confirmed → x ∈ (db.confirmed e d').drafts := by
    intro x hx hs
    refine Table.mem_upsert.mpr (.inr ⟨hx, fun hid => ?_⟩)
    obtain rfl : x = d := Table.eq_of_key_eq hx hmemd hid
    rw [hready] at hs
    cases hs
  have hexp : ∀ k, (db.confirmed e d').expenses.find k =
      if k = e.id then some e else db.expenses.find k := fun k => Table.find_upsert ..
  constructor
  · intro x hx
    rcases hmem x hx with rfl | ⟨hx, -⟩
    · exact h.category d hmemd
    · exact h.category x hx
  · intro x hx
    rcases hmem x hx with rfl | ⟨hx, -⟩
    · exact { h.texts d hmemd with }
    · exact h.texts x hx
  · intro x hx
    rcases hmem x hx with rfl | ⟨hx, -⟩
    · have hc := h.consistent d hmemd
      exact { hc with expense := by simp [hd'], confirmed := by simp [hd'] }
    · exact h.consistent x hx
  · intro x hx
    rcases hmem x hx with rfl | ⟨hx, -⟩
    · exact h.owner d hmemd
    · exact h.owner x hx
  · intro x hx
    rcases hmem x hx with rfl | ⟨hx, -⟩
    · exact h.receipt d hmemd
    · exact h.receipt x hx
  · intro x hx
    rcases hmem x hx with rfl | ⟨hx, -⟩
    · exact h.result d hmemd
    · exact h.result x hx
  · intro x hx
    rcases Table.mem_upsert.mp (show x ∈ db.expenses.upsert e from hx) with rfl | ⟨hx, -⟩
    · exact ⟨d', Table.mem_upsert.mpr (.inl rfl), hmatch.draft.symm, rfl⟩
    · obtain ⟨y, hy, hid, hs⟩ := h.expense x hx
      exact ⟨y, hkeep y hy hs, hid, hs⟩
  · intro x hx hs
    rcases hmem x hx with rfl | ⟨hx, -⟩
    · exact ⟨e, rfl, by rw [hexp, if_pos rfl], hmatch⟩
    · obtain ⟨y, hy, hfindy, hmy⟩ := h.confirmed x hx hs
      refine ⟨y, hy, ?_, hmy⟩
      rw [hexp, if_neg, hfindy]
      intro hid
      rw [hid, hby.fresh] at hfindy
      cases hfindy

end Writes

/-! ## Handling -/

/-- The rows that a stage knows. -/
def Stage.Knows (db : Database) : Stage → Prop
  | .holding _ d | .recovering _ _ d => db.drafts.find d.id = some d
  | .updated _ d d' => db.drafts.find d'.id = some d' ∧ d'.id = d.id
  | _ => True

/-- The obligations of a session that keeps the store coherent. -/
abbrev coherentLogic : Logic signature (Alone Database) :=
  alone (fun _ db => Coherent db) (fun _ _ => True) fun _ _ => True

section Rules

variable {s : Alone Database} {o : Stmt}

/-- A statement that writes only besides drafts and Expenses keeps what is known. -/
lemma wp_besides {φ φ' : Stage} {P : o.Resp → Alone Database → Prop}
    (h : Coherent s.db ∧ Coherent s.view ∧ φ.Knows s.view)
    (hws : ∀ r ws, evaluate o (fun _ => false) s.view = .ok (r, ws) →
      (∀ w ∈ ws, w.besides = true) ∧ (φ.Knows s.view → φ'.Knows (postgres.applyAll ws s.view)))
    (hP : ∀ r ws s', evaluate o (fun _ => false) s.view = .ok (r, ws) →
      Coherent s'.db ∧ Coherent s'.view ∧ φ'.Knows s'.view → P r s') :
    coherentLogic.stmt o s P := by
  obtain ⟨hdb, hview, hknows⟩ := h
  refine wp_execute (fun r ws he => ?_) fun _ _ => trivial
  obtain ⟨hb, hk⟩ := hws r ws he
  exact hP r ws _ he ⟨hdb, hview.applyAll_besides hb, hk hknows⟩

omit [PythonRuntime] in
/-- The bookkeeping of the worker writes receipts, images and conversations.

**Proof sketch.** Cases on the statement, by what it writes. -/
lemma besides_of_bookkeeping (ho : Bookkeeping o) {busy : Key → Bool} {db : Database} {r : o.Resp}
    {ws : List Write} (h : evaluate o busy db = .ok (r, ws)) : ∀ w ∈ ws, w.besides = true := by
  cases ho with
  | claimDelayNotices now before limit =>
    obtain ⟨-, rfl⟩ := Prod.mk.inj (Except.ok.inj h)
    intro w hw
    obtain ⟨row, -, rfl⟩ := List.mem_map.mp hw
    rfl
  | lockReceipt id =>
    obtain ⟨-, rfl⟩ := Prod.mk.inj (Except.ok.inj h)
    simp
  | createImage i =>
    obtain ⟨-, rfl⟩ := Database.createImage_eq_ok h
    simp [Write.besides]
  | lockConversation user now =>
    rcases Database.lockConversation_eq_ok h with ⟨-, rfl⟩ | ⟨-, -, -, rfl⟩ <;>
      simp [Write.besides]
  | draftOfReceipt id =>
    obtain ⟨-, rfl⟩ := Prod.mk.inj (Except.ok.inj h)
    simp

/-- A stage as coherence of the committed store and of the session's view of it. -/
def Coherently (φ : Stage) (s : Alone Database) : Prop :=
  Coherent s.db ∧ Coherent s.view ∧ φ.Knows s.view

/-- A stage that knows no row is reached by any statement that writes besides drafts and
Expenses. -/
lemma wp_besides_of_knows {φ : Stage} (φ' : Stage) {P : o.Resp → Alone Database → Prop}
    (h : Coherently φ s) (hφ : ∀ db, φ'.Knows db)
    (hws : ∀ r ws, evaluate o (fun _ => false) s.view = .ok (r, ws) → ∀ w ∈ ws, w.besides = true)
    (hP : ∀ r s', Answers o r → Coherently φ' s' → P r s') : coherentLogic.stmt o s P :=
  wp_besides h (fun r ws he => ⟨hws r ws he, fun _ => hφ _⟩) fun r _ s' he h' =>
    hP r s' (answers_of_evaluate he) h'

omit [PythonRuntime] in
/-- A conversation is saved besides drafts and Expenses. -/
lemma besides_saveConversation {c : TelegramConversation} {db : Database} {busy : Key → Bool}
    (r : Unit) (ws : List Write) (h : evaluate (.saveConversation c) busy db = .ok (r, ws)) :
    ∀ w ∈ ws, w.besides = true := by
  obtain ⟨-, -, rfl⟩ := Database.saveConversation_eq_ok h
  simp [Write.besides]

/-- A revision of the known draft. -/
lemma wp_revise {φ : Stage} (φ' : Stage) {d d' : CaptureDraft} {P : Unit → Alone Database → Prop}
    (h : Coherently φ s) (hfind : s.view.drafts.find d.id = some d) (hrev : Revised d d')
    (hφ : ∀ db : Database, db.drafts.find d'.id = some d' → φ'.Knows db)
    (hP : ∀ s', Coherently φ' s' → P () s') : coherentLogic.stmt (.updateDraft d') s P := by
  refine wp_execute (fun r ws he => ?_) fun _ _ => trivial
  obtain ⟨hco, hfind'⟩ := h.2.1.revise hfind hrev he
  exact hP _ ⟨h.1, hco, hφ _ hfind'⟩

/-- A new draft. -/
lemma wp_create {φ : Stage} (φ' : Stage) {user : UUID} {d : CaptureDraft} {P : Unit → Alone Database → Prop}
    (h : Coherently φ s) (hd : Opened user d) (hφ : ∀ db, φ'.Knows db)
    (hP : ∀ s', Coherently φ' s' → P () s') : coherentLogic.stmt (.createDraft d) s P := by
  refine wp_execute (fun r ws he => ?_) fun _ _ => trivial
  exact hP _ ⟨h.1, h.2.1.create (ne_confirmed_of_isOpen hd.isOpen) hd.category he, hφ _⟩

/-- **The stages keep a store coherent.** -/
def coherentRules : Rules (Alone Database) where
  logic := coherentLogic
  inStage := Coherently
  raises _ _ := trivial
  sends _ h := h
  reads {φ o s P} ho h hP := by
    obtain ⟨r, he⟩ := evaluate_of_reads ho (fun _ => false) s.view
    exact (wp_read he).mpr (hP r s (answers_of_evaluate he) h)
  commits _ h hP := ⟨h.2.1, hP _ ⟨h.2.1, h.2.1, .intro⟩⟩
  rollbacks _ hP := hP _
  revises h hrev hP := wp_revise (.updated _ _ _) h h.2.2.1 hrev
    (fun _ hfind => ⟨hfind, hrev.id.trans h.2.2.2⟩) hP
  saves h _ _ _ hP := wp_besides_of_knows .done h (fun _ => .intro) besides_saveConversation
    fun _ s' _ => hP s'
  settles h _ := ⟨h.1, h.2.1, .intro⟩

/-- The handling of an update keeps a store coherent. -/
def coherentHandlerRules : HandlerRules (Alone Database) where
  toRules := coherentRules
  begins {id now s P} h htrue hfalse := by
    refine wp_besides_of_knows .opened h (fun _ => .intro) (fun r ws he => ?_)
      fun r s' _ h' => ?_
    · obtain ⟨-, rfl⟩ := Prod.mk.inj (Except.ok.inj he)
      cases s.view.processedUpdates.find id <;> simp [Write.besides]
    · cases r
      · exact hfalse s' h'
      · exact htrue s' h'
  claims {hash t name now s P} h hP := by
    refine wp_besides_of_knows .linking h (fun _ => .intro) (fun r ws he => ?_)
      fun r s' _ => hP r s'
    have he' : s.view.claimChallenge hash t name now = (r, ws) := Except.ok.inj he
    unfold Database.claimChallenge at he'
    split at he' <;> obtain ⟨-, rfl⟩ := Prod.mk.inj he' <;> simp [Write.besides]
  audits h hP := by
    refine wp_besides_of_knows .linking h (fun _ => .intro) (fun r ws he => ?_)
      fun _ s' _ => hP s'
    obtain ⟨-, rfl⟩ := Prod.mk.inj (Except.ok.inj he)
    simp [Write.besides]
  locks h hP := wp_execute (fun c ws he => hP c _ (answers_of_evaluate he) ⟨h.1,
    h.2.1.applyAll_besides (besides_of_bookkeeping (.lockConversation _ _) he), .intro⟩)
    fun _ _ => trivial
  vacates _ h := h
  finds {c id s P} h hc hfound hnone := by
    refine (wp_read rfl).mpr ?_
    cases hd : s.view.ownedDraft id c.userId with
    | none => exact hnone none s rfl h
    | some d =>
      obtain ⟨hfind, howner⟩ := Database.ownedDraft_eq_some.mp hd
      have hid := Table.key_of_find hfind
      by_cases ho : d.isOpen = true
      · exact hfound d s hid howner ho ⟨h.1, h.2.1, by
          rw [← hid] at hfind
          exact hfind⟩
      · exact hnone (some d) s (Option.filter_some_neg (by simpa using ho)) h
  releases h hP := wp_besides_of_knows (.vacant _) h (fun _ => .intro) besides_saveConversation
    fun _ s' _ => hP s'
  holds h := ⟨h.1, h.2.1, h.2.2, rfl⟩
  cancels h _ _ hP := wp_besides_of_knows (.vacant _) h (fun _ => .intro) besides_saveConversation
    fun _ s' _ => hP s'
  receives h hP := by
    refine wp_besides_of_knows (.received _ _) h (fun _ => .intro) (fun r ws he => ?_)
      fun _ s' _ => hP s'
    obtain ⟨-, -, rfl⟩ := Database.createReceipt_eq_ok he
    simp [Write.besides]
  opens h hd _ _ hP := wp_create (.created _ _) h hd (fun _ => .intro) hP
  opensReceipt h hd _ _ hP := wp_create (.created _ _) h hd (fun _ => .intro) hP
  points h _ _ hP := wp_besides_of_knows .done h (fun _ => .intro) besides_saveConversation
    fun _ s' _ => hP s'
  confirms {c d s F Q} h _ hF hraised hQ := by
    show (confirmCaptureDraft d.id c.userId).wp (coherentLogic.withFail F) Q s
    rw [coherentLogic, alone, Logic.withFail_withFail]
    refine wp_confirmCaptureDraft (fun m => hF _ s ⟨h.1, h.2.1, .intro⟩)
      (fun m => hF _ s ⟨h.1, h.2.1, .intro⟩) (fun m s' _ => hraised m s') (fun _ _ _ => trivial)
      (fun d e _ _ _ _ _ => hQ e s ⟨h.1, h.2.1, .intro⟩) fun d e d' hby => ?_
    have hco := h.2.1.confirm hby
    exact ⟨hco, hQ e _ ⟨hco, hco, .intro⟩⟩
  finishes h hP := wp_besides_of_knows .done h (fun _ => .intro) besides_saveConversation
    fun _ s' _ => hP s'

/-- The rounds of the worker keep a store coherent. -/
def coherentWorkerRules : WorkerRules (Alone Database) where
  toRules := coherentRules
  trusted _ _ := True
  resumes h := h
  books ho h hP := wp_besides_of_knows .idle h (fun _ => .intro)
    (fun _ _ he => besides_of_bookkeeping ho he) hP
  selects {now s P} h hsome hnone := by
    refine (wp_read rfl).mpr ?_
    cases s.view.selectClaimable (fun _ => false) now with
    | none => exact hnone s h
    | some r => exact hsome r s h
  claimsReceipt h _ hP := by
    refine wp_besides_of_knows .idle h (fun _ => .intro) (fun u ws he => ?_) fun _ s' _ => hP s'
    rcases Database.updateClaimed_eq_ok he with ⟨-, rfl⟩ | ⟨row, -, rfl⟩ <;> simp [Write.besides]
  finishesReceipt {r s P} h _ _ htrue hfalse := by
    refine wp_besides_of_knows .idle h (fun _ => .intro) (fun x ws he => ?_)
      fun x s' _ h' => ?_
    · rcases Database.saveFinished_eq_ok he with ⟨-, rfl⟩ | ⟨row, -, -, -, -, -, rfl⟩ <;>
        simp [Write.besides]
    · cases x
      · exact hfalse s' h'
      · exact htrue s' h'
  locksFinishing h hP := wp_execute (fun c ws he => hP c _ (answers_of_evaluate he) ⟨h.1,
    h.2.1.applyAll_besides (besides_of_bookkeeping (.lockConversation _ _) he), .intro⟩)
    fun _ _ => trivial
  recovers {r c s P} h hfound hnone := by
    refine (wp_read rfl).mpr ?_
    cases hd : s.view.draftOfReceipt r.id with
    | none => exact hnone none s rfl h
    | some d =>
      obtain ⟨hmem, hr⟩ := Database.mem_of_draftOfReceipt hd
      by_cases ho : d.isOpen = true
      · exact hfound d s hr ho ⟨h.1, h.2.1, Table.find_of_mem hmem⟩
      · exact hnone (some d) s (Option.filter_some_neg (by simpa using ho)) h
  stores {φ r x s P} hφ _ _ h hP := by
    refine wp_besides h (fun _ ws he => ?_) fun _ _ s' _ h' => hP s' h'
    obtain ⟨-, -, -, -, rfl⟩ := Database.saveResult_eq_ok he
    refine ⟨by simp [Write.besides], ?_⟩
    cases hφ with
    | recovering c d => exact id
    | drained => exact id
  applies h hrev _ hP := wp_revise (.updated _ _ _) h h.2.2 hrev (fun _ hfind => ⟨hfind, hrev.id⟩) hP

end Rules

end MintFlow
