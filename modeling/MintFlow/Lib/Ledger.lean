import MintFlow.Lib.Outbox

set_option relaxedAutoImplicit false
set_option autoImplicit false

/-!
# Ledgers

Some statements spend what others earn, under names that locks tell apart: a token is issued and is
used once, a challenge is created and is confirmed once. If each statement spends no more than there
is in the eyes of its session, then all the transactions that were committed, however they were
interleaved, spent no more than was earned.

## Main definitions

* `Transact.Tally` — what was done in committed transactions, and in the open ones.
* `Transact.Ledger` — what is left under each name, and what statements spend and earn.
* `Transact.Balanced` — what every configuration keeps.

## Main results

* `Transact.Balanced.move` — **Conservation** is kept by every move.
* `Transact.Balanced.committed_le` — what was spent was earned, or was there at the start.
-/

namespace Transact

variable {S : Signature} {σ ω κ ι ρ β : Type}

/-! ## Counting -/

/-- How much was done. -/
structure Tally (ι : Type) where
  /-- In committed transactions. -/
  committed : ℕ
  /-- In the open transaction of each session. -/
  pending : ι → ℕ

namespace Tally

variable [DecidableEq ι] (f : (o : S.Op) → S.Resp o → ℕ)

/-- After a session did something. -/
def next (x : Tally ι) (i : ι) : Event S → Tally ι
  | .did o r => ⟨x.committed, Function.update x.pending i (x.pending i + f o r)⟩
  | .committed => ⟨x.committed + x.pending i, Function.update x.pending i 0⟩
  | .rolledBack => ⟨x.committed, Function.update x.pending i 0⟩

/-- The tally of a log, where `f` reads amounts from statements and their answers. -/
def ofLog (log : List (ι × Event S)) : Tally ι :=
  log.foldl (fun x e => x.next f e.1 e.2) ⟨0, fun _ => 0⟩

@[simp] lemma ofLog_append (log : List (ι × Event S)) (i : ι) (e : Event S) :
    ofLog f (log ++ [(i, e)]) = (ofLog f log).next f i e := by
  simp [ofLog]

/-- What one session does is not counted as another's. -/
lemma next_pending_of_ne {x : Tally ι} {i j : ι} (h : i ≠ j) (e : Event S) :
    (x.next f j e).pending i = x.pending i := by
  cases e <;> exact Function.update_of_ne h _ _

end Tally

/-! ## Spending and earning -/

/-- What statements spend and earn under names, and how much is left of it. -/
structure Ledger (B : Backend S σ ω κ) (keys : ω → List κ) (β : Type) where
  key : β → κ
  level : β → σ → ℕ
  guarded : ∀ b, Guarded B keys (key b) (level b)
  spends : β → (o : S.Op) → S.Resp o → ℕ
  earns : β → (o : S.Op) → S.Resp o → ℕ

namespace Ledger

variable {B : Backend S σ ω κ} {keys : ω → List κ} (D : Ledger B keys β)

/-- A statement spends no more than there is. -/
def Pays (o : S.Op) (r : S.Resp o) (s s' : σ) : Prop :=
  ∀ b, D.level b s' + D.spends b o r ≤ D.level b s + D.earns b o r

variable [DecidableEq ι]

/-- What was spent under a name. -/
def spent (b : β) (c : Config S σ ω κ ι ρ) : Tally ι := .ofLog (D.spends b) c.log

/-- What was earned under a name. -/
def earned (b : β) (c : Config S σ ω κ ι ρ) : Tally ι := .ofLog (D.earns b) c.log

variable {D} {c c' : Config S σ ω κ ι ρ} {j : ι} {e : Event S}

/-- An event at the end of the log adds what it spends. -/
lemma spent_of_log (hlog : c'.log = c.log ++ [(j, e)]) (b : β) :
    D.spent b c' = (D.spent b c).next (D.spends b) j e := by
  unfold spent
  rw [hlog, Tally.ofLog_append]

/-- An event at the end of the log adds what it earns. -/
lemma earned_of_log (hlog : c'.log = c.log ++ [(j, e)]) (b : β) :
    D.earned b c' = (D.earned b c).next (D.earns b) j e := by
  unfold earned
  rw [hlog, Tally.ofLog_append]

end Ledger

/-- What every configuration keeps, where so much was there at the start. -/
structure Balanced [DecidableEq ι] {B : Backend S σ ω κ} {keys : ω → List κ} (D : Ledger B keys β)
    (start : β → ℕ) (c : Config S σ ω κ ι ρ) : Prop where
  committed : ∀ b, (D.spent b c).committed + D.level b c.db ≤ (D.earned b c).committed + start b
  pending : ∀ b i, (c.sessions i).closed = false →
    D.level b (c.view B i) + (D.spent b c).pending i ≤ D.level b c.db + (D.earned b c).pending i

namespace Balanced

variable [DecidableEq ι] {B : Backend S σ ω κ} {keys : ω → List κ} {D : Ledger B keys β}
  {initial : β → ℕ} {c c' : Config S σ ω κ ι ρ} {i j : ι}

/-- Before anything was done. -/
lemma start (hlog : c.log = []) (hpending : ∀ i, (c.sessions i).pending = []) :
    Balanced D (fun b => D.level b c.db) c := by
  refine ⟨fun b => ?_, fun b i _ => ?_⟩
  · unfold Ledger.spent Ledger.earned
    rw [hlog]
    exact Nat.le_refl _
  · unfold Ledger.spent Ledger.earned Config.view
    rw [hlog, hpending]
    exact Nat.le_refl _

/-- What was spent was earned, or was there at the start. -/
lemma committed_le (h : Balanced D initial c) (b : β) :
    (D.spent b c).committed ≤ (D.earned b c).committed + initial b :=
  Nat.le_trans (Nat.le_add_right _ _) (h.committed b)

/-- A session that does not hold the lock spent no more than it earned. -/
lemma spent_le_earned (hs : c.Sound keys) (h : Balanced D initial c)
    (hopen : (c.sessions i).closed = false) {b : β}
    (hk : c.holds i (D.key b) .noKeyUpdate = false) :
    (D.spent b c).pending i ≤ (D.earned b c).pending i := by
  have hle := h.pending b i hopen
  rw [view_eq_of_not_holds hs (D.guarded b) hk] at hle
  omega

/-- What another session publishes leaves a session's balance. -/
lemma pending_published (hs : c.Sound keys) (h : Balanced D initial c)
    (hopen : (c.sessions i).closed = false) (hij : i ≠ j) (b : β) :
    D.level b (B.applyAll (c.sessions i).pending (c.view B j)) + (D.spent b c).pending i ≤
      D.level b (c.view B j) + (D.earned b c).pending i := by
  cases hk : c.holds i (D.key b) .noKeyUpdate with
  | true =>
    -- The lock is the session's own, so nothing it guards was published.
    have hne : c.holds j (D.key b) .noKeyUpdate = false :=
      Bool.eq_false_iff.mpr fun hj => hij (hs.eq_of_conflicts hk hj rfl)
    have hdb := view_eq_of_not_holds hs (D.guarded b) hne
    rw [(D.guarded b).applyAll_congr _ hdb, hdb]
    exact h.pending b i hopen
  | false =>
    rw [(D.guarded b).applyAll_of_not_mem fun w hw hmem => by
      have hown := hs.covered i w hw _ hmem
      rw [hk] at hown
      cases hown]
    exact Nat.add_le_add_left (spent_le_earned hs h hopen hk) _

/-- What another session records changes nothing of a session's own. -/
lemma pending_other {e : Event S} (h : Balanced D initial c) (hlog : c'.log = c.log ++ [(j, e)])
    (hij : i ≠ j) (hdb : c'.db = c.db) (hview : c'.view B i = c.view B i)
    (hopen : (c.sessions i).closed = false) (b : β) :
    D.level b (c'.view B i) + (D.spent b c').pending i ≤
      D.level b c'.db + (D.earned b c').pending i := by
  rw [Ledger.spent_of_log hlog, Ledger.earned_of_log hlog, Tally.next_pending_of_ne _ hij,
    Tally.next_pending_of_ne _ hij, hdb, hview]
  exact h.pending b i hopen

/-- A statement that pays keeps the balance.

**Proof sketch.** The statement pays: what it spends is covered by what it earns and by how much it
lowers the level that the session sees. The other sessions' accounts are as before. -/
lemma did {o : S.Op} {r : S.Resp o} (h : Balanced D initial c)
    (hlog : c'.log = c.log ++ [(j, .did o r)]) (hopen : (c.sessions j).closed = false)
    (hdb : c'.db = c.db) (hpays : D.Pays o r (c.view B j) (c'.view B j))
    (hother : ∀ i, i ≠ j → c'.view B i = c.view B i ∧ c'.sessions i = c.sessions i) :
    Balanced D initial c' := by
  refine ⟨fun b => ?_, fun b i hi => ?_⟩
  · rw [Ledger.spent_of_log hlog, Ledger.earned_of_log hlog, hdb]
    exact h.committed b
  by_cases hij : i = j
  swap
  · obtain ⟨hview, hsession⟩ := hother i hij
    exact h.pending_other hlog hij hdb hview (hsession ▸ hi) b
  subst hij
  have hpay := hpays b
  have hle := h.pending b i hopen
  have hspent : (D.spent b c').pending i = (D.spent b c).pending i + D.spends b o r := by
    rw [Ledger.spent_of_log hlog]
    exact Function.update_self _ _ _
  have hearned : (D.earned b c').pending i = (D.earned b c).pending i + D.earns b o r := by
    rw [Ledger.earned_of_log hlog]
    exact Function.update_self _ _ _
  rw [hdb, hspent, hearned]
  omega

/-- A commit keeps the balance.

**Proof sketch.** The session's pending account is added to the committed one, which covers it by
the balance of the session's own view; the others see their writes over what it saw. -/
lemma published (hs : c.Sound keys) (h : Balanced D initial c)
    (hlog : c'.log = c.log ++ [(j, .committed)]) (hopen : (c.sessions j).closed = false)
    (hdb : c'.db = c.view B j) (hown : c'.view B j = c.view B j)
    (hother : ∀ i, i ≠ j → c'.view B i = B.applyAll (c.sessions i).pending (c.view B j) ∧
      c'.sessions i = c.sessions i) : Balanced D initial c' := by
  refine ⟨fun b => ?_, fun b i hi => ?_⟩
  · have hall := h.committed b
    have hle := h.pending b j hopen
    rw [Ledger.spent_of_log hlog, Ledger.earned_of_log hlog, hdb]
    show (D.spent b c).committed + (D.spent b c).pending j + _ ≤
      (D.earned b c).committed + (D.earned b c).pending j + _
    omega
  by_cases hij : i = j
  · subst hij
    have hspent : (D.spent b c').pending i = 0 := by
      rw [Ledger.spent_of_log hlog]
      exact Function.update_self _ _ _
    have hearned : (D.earned b c').pending i = 0 := by
      rw [Ledger.earned_of_log hlog]
      exact Function.update_self _ _ _
    rw [hspent, hearned, hown, hdb]
  · obtain ⟨hview, hsession⟩ := hother i hij
    rw [Ledger.spent_of_log hlog, Ledger.earned_of_log hlog, Tally.next_pending_of_ne _ hij,
      Tally.next_pending_of_ne _ hij, hview, hdb]
    exact h.pending_published hs (hsession ▸ hi) hij b

/-- A rollback keeps the balance. -/
lemma rolledBack (h : Balanced D initial c) (hlog : c'.log = c.log ++ [(j, .rolledBack)])
    (hdb : c'.db = c.db) (hown : c'.view B j = c.db)
    (hother : ∀ i, i ≠ j → c'.view B i = c.view B i ∧ c'.sessions i = c.sessions i) :
    Balanced D initial c' := by
  refine ⟨fun b => ?_, fun b i hi => ?_⟩
  · rw [Ledger.spent_of_log hlog, Ledger.earned_of_log hlog, hdb]
    exact h.committed b
  by_cases hij : i = j
  · subst hij
    have hspent : (D.spent b c').pending i = 0 := by
      rw [Ledger.spent_of_log hlog]
      exact Function.update_self _ _ _
    have hearned : (D.earned b c').pending i = 0 := by
      rw [Ledger.earned_of_log hlog]
      exact Function.update_self _ _ _
    rw [hspent, hearned, hown, hdb]
  · obtain ⟨hview, hsession⟩ := hother i hij
    exact h.pending_other hlog hij hdb hview (hsession ▸ hi) b

variable [DecidableEq κ]

/-- **Conservation** is kept by every move.

**Proof sketch.** Cases on the move. A statement pays (`did`), a commit adds its account to the
committed one (`published`), a rollback clears it, and no other move changes an account or a
view. -/
theorem move (hs : c.Sound keys)
    (hstmt : ∀ o f r ws, (c.sessions j).prog = .stmt o f →
      B.eval o (c.busy j) (c.view B j) = .ok (r, ws) → c'.log = c.log ++ [(j, .did o r)] →
      D.Pays o r (c.view B j) (B.applyAll ws (c.view B j)))
    (hopen : (c.sessions j).closed = false) (h : Balanced D initial c) (hm : Move B c j c') :
    Balanced D initial c' := by
  have hput : ∀ s : Session S ω ρ, s.pending = (c.sessions j).pending →
      s.closed = (c.sessions j).closed → ∀ b i, ((c.put j s).sessions i).closed = false →
        D.level b ((c.put j s).view B i) + (D.spent b c).pending i ≤
          D.level b c.db + (D.earned b c).pending i := by
    intro s hpending hclosed b i hi
    by_cases hij : i = j
    · subst hij
      rw [Config.view_put_self, hpending]
      exact h.pending b i hopen
    · rw [Config.view_put_of_ne c hij]
      have hsame : (c.put j s).sessions i = c.sessions i := Function.update_of_ne hij _ _
      rw [hsame] at hi
      exact h.pending b i hi
  cases hm with
  | ask f hp => exact ⟨h.committed, hput _ rfl rfl⟩
  | emit o p hp => exact ⟨h.committed, hput { c.sessions j with prog := p } rfl rfl⟩
  | raise o f e hp he => exact ⟨h.committed, hput _ rfl rfl⟩
  | crash => exact ⟨h.committed, hput _ rfl rfl⟩
  | close =>
    refine ⟨h.committed, fun b i hi => ?_⟩
    by_cases hij : i = j
    · subst hij
      have hclosed : (Function.update c.sessions i
        { c.sessions i with pending := [], closed := true } i).closed = false := hi
      rw [Function.update_self] at hclosed
      cases hclosed
    · have hsame : (close c j).sessions i = c.sessions i := Function.update_of_ne hij _ _
      rw [hsame] at hi
      show D.level b ((c.put j _).view B i) + _ ≤ _
      rw [Config.view_put_of_ne c hij]
      exact h.pending b i hi
  | rollback p hp =>
    refine h.rolledBack rfl rfl ?_ fun i hij => ⟨?_, Function.update_of_ne hij _ _⟩
    · exact Config.view_put_self c j { c.sessions j with prog := p, pending := [] }
    · exact Config.view_put_of_ne c hij { c.sessions j with prog := p, pending := [] }
  | stmt o f r ws hp hl he =>
    refine h.did rfl hopen rfl ?_ fun i hij => ⟨?_, Function.update_of_ne hij _ _⟩
    · have hview : B.applyAll ws (c.view B j) = (c.put j { c.sessions j with
          prog := f r, pending := (c.sessions j).pending ++ ws }).view B j := by
        rw [Config.view_put_self, Backend.applyAll_append]
        rfl
      have hpays := hstmt o f r ws hp he rfl
      rw [hview] at hpays
      exact hpays
    · exact Config.view_put_of_ne c hij { c.sessions j with
        prog := f r, pending := (c.sessions j).pending ++ ws }
  | commit p hp =>
    refine h.published hs rfl hopen rfl ?_ fun i hij => ⟨?_, Function.update_of_ne hij _ _⟩
    · exact Config.view_put_self { c with db := c.view B j } j
        { c.sessions j with prog := p, pending := [] }
    · exact Config.view_put_of_ne { c with db := c.view B j } hij
        { c.sessions j with prog := p, pending := [] }

end Balanced

end Transact
