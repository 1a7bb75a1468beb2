import MintFlow.Lib.Tracking

set_option relaxedAutoImplicit false
set_option autoImplicit false

/-!
# What sessions know and what they wrote

A session that is tracked writes only what its history allows, and knows the rows it locked: what is
committed of them, which nobody else can change while it holds the lock, and what it made of them.
When it commits, the step from what was committed to what will be is known for these rows.

## Main definitions

* `Transact.Wrote` — what a session has pending fits its history.
* `Transact.Knowledge`, `Transact.Certain` — what a session knows of the rows it locked, as they are
  committed and as the session sees them.

## Main results

* `Transact.wrote_of_move`, `Transact.certain_of_move` — both survive every move.
* `Transact.db_of_move` — only a commit changes what is committed.
* `Transact.own_of_move` — what a session's own move makes of its pending writes and its history.
-/

namespace Transact

variable {S : Signature} {σ ω κ ι ρ K α τ : Type} [DecidableEq ι] [DecidableEq κ]
  {B : Backend S σ ω κ} {T : Tracker S K} {c c' : Config S σ ω κ ι ρ} {i j : ι}

/-- Only a commit changes what is committed: it publishes what its session sees. -/
lemma db_of_move (hm : Move B c j c') :
    c'.db = c.db ∨ (∃ p, (c.sessions j).prog = .commit p) ∧ c'.db = c.view B j := by
  cases hm with
  | commit p hp => exact .inr ⟨⟨p, hp⟩, rfl⟩
  | _ => exact .inl rfl

/-- **What a session's own move makes** of its pending writes and its history. A statement adds its
changes to what is pending and itself to the history; the end of the session or of its transaction
leaves nothing pending, and only the latter is seen in the history; every other move leaves both
alone. What is committed changes in the second case alone.

**Proof sketch.** Cases on the move: the pending writes are those that the move leaves in the
session, and the state of the tracker is read along the history. -/
lemma own_of_move (T : Tracker S K) (hm : Move B c j c') :
    (∃ o f r ws, (c.sessions j).prog = .stmt o f ∧
      B.eval o (c.busy j) (c.view B j) = .ok (r, ws) ∧
      (c'.sessions j).pending = (c.sessions j).pending ++ ws ∧
      T.state (c'.history j) = T.after o r (T.state (c.history j)) ∧ c'.db = c.db ∧
      c'.history j = c.history j ++ [.did o r]) ∨
    ((c'.sessions j).pending = [] ∧
      ((c'.sessions j).closed = true ∧ c'.history j = c.history j ∨
      T.state (c'.history j) = T.committed (T.state (c.history j)) ∨
      T.state (c'.history j) = T.rolledBack (T.state (c.history j)))) ∨
    ((c'.sessions j).pending = (c.sessions j).pending ∧ c'.history j = c.history j ∧
      c'.db = c.db) := by
  have hput : ∀ s : Session S ω ρ, (Function.update c.sessions j s j).pending = s.pending :=
    fun s => by rw [Function.update_self]
  have hclosed : ∀ s : Session S ω ρ, (Function.update c.sessions j s j).closed = s.closed :=
    fun s => by rw [Function.update_self]
  have hnext : ∀ (d : Config S σ ω κ ι ρ) (e : Event S), d.log = c.log →
      T.state ((d.note j e).history j) = T.next (T.state (c.history j)) e := by
    intro d e hlog
    rw [Config.history_note, if_pos rfl, T.state_append]
    unfold Config.history
    rw [hlog]
  cases hm with
  | close => exact .inr (.inl ⟨hput _, .inl ⟨hclosed _, rfl⟩⟩)
  | commit p hp =>
    exact .inr (.inl ⟨hput { c.sessions j with prog := p, pending := [] },
      .inr (.inl (hnext _ .committed rfl))⟩)
  | rollback p hp =>
    exact .inr (.inl ⟨hput { c.sessions j with prog := p, pending := [] },
      .inr (.inr (hnext _ .rolledBack rfl))⟩)
  | ask f hp => exact .inr (.inr ⟨hput _, rfl, rfl⟩)
  | emit o p hp =>
    exact .inr (.inr ⟨hput { c.sessions j with prog := p }, rfl, rfl⟩)
  | raise o f e hp he => exact .inr (.inr ⟨hput _, rfl, rfl⟩)
  | crash => exact .inr (.inr ⟨hput _, rfl, rfl⟩)
  | stmt o f r ws hp hl he =>
    exact .inl ⟨o, f, r, ws, hp, he, hput { c.sessions j with
      prog := f r, pending := (c.sessions j).pending ++ ws }, hnext _ (.did o r) rfl, rfl,
      (Config.history_note _ j j _).trans (if_pos rfl)⟩

/-! ## What is pending -/

/-- What a session has pending fits its history. -/
def Wrote (T : Tracker S K) (fits : K → ω → Prop) (c : Config S σ ω κ ι ρ) (i : ι) : Prop :=
  ∀ w ∈ (c.sessions i).pending, fits (T.state (c.history i)) w

/-- **Pending writes** fit after every move, if those of each statement fit and the older ones go on
to fit.

**Proof sketch.** Another session's move leaves the writes and the history of this one. A session's
own move adds the writes of a statement, clears them, or changes nothing (`own_of_move`). -/
lemma wrote_of_move {fits : K → ω → Prop}
    (hstmt : ∀ o f r ws, (c.sessions j).prog = .stmt o f →
      B.eval o (c.busy j) (c.view B j) = .ok (r, ws) →
      (∀ w ∈ (c.sessions j).pending, fits (T.state (c.history j)) w →
        fits (T.after o r (T.state (c.history j))) w) ∧
      ∀ w ∈ ws, fits (T.after o r (T.state (c.history j))) w)
    (h : ∀ i, Wrote T fits c i) (hm : Move B c j c') (i : ι) : Wrote T fits c' i := by
  intro w hw
  by_cases hj : j = i
  swap
  · rw [session_stable hj hm] at hw
    rw [history_stable hj hm]
    exact h i w hw
  subst hj
  rcases own_of_move T hm with ⟨o, f, r, ws, hp, he, hpending, hstate, -⟩ | ⟨hnone, -⟩ |
    ⟨hpending, hhistory, -⟩
  · obtain ⟨hold, hnew⟩ := hstmt o f r ws hp he
    rw [hpending] at hw
    rw [hstate]
    rcases List.mem_append.mp hw with hw | hw
    · exact hold w hw (h j w hw)
    · exact hnew w hw
  · rw [hnone] at hw
    cases hw
  · rw [hpending] at hw
    rw [hhistory]
    exact h j w hw

/-! ## What is known -/

/-- Which rows a session counts on, and what it knows of them: as they are committed, and as it sees
them. -/
structure Knowledge (K α τ : Type) where
  counts : K → α → Prop
  knows : K → α → τ → τ → Prop

/-- A session that is open holds the rows it counts on, and is right about them. -/
def Certain (B : Backend S σ ω κ) (T : Tracker S K) (key : α → κ) (m : Strength) (obs : α → σ → τ)
    (X : Knowledge K α τ) (c : Config S σ ω κ ι ρ) (i : ι) : Prop :=
  (c.sessions i).closed = false → ∀ a, X.counts (T.state (c.history i)) a →
    c.holds i (key a) m = true ∧
      X.knows (T.state (c.history i)) a (obs a c.db) (obs a (c.view B i))

/-- **Certainty survives every move**, if each statement keeps what was known, or takes the lock and
says what the row is.

**Proof sketch.** Another session's move cannot change a row that is locked. Of a session's own
moves (`own_of_move`) a statement keeps what is known or takes the lock, and the end of a
transaction leaves nothing known. -/
lemma certain_of_move {keys : ω → List κ} {key : α → κ} {m : Strength} {obs : α → σ → τ}
    {X : Knowledge K α τ} (hm : .share ≤ m) (hs : c.Sound keys)
    (hg : ∀ a, Guarded B keys (key a) (obs a))
    (hstmt : ∀ o f r ws, (c.sessions j).prog = .stmt o f →
      B.eval o (c.busy j) (c.view B j) = .ok (r, ws) →
      ∀ a, X.counts (T.after o r (T.state (c.history j))) a →
        (X.counts (T.state (c.history j)) a ∧ ∀ x, X.knows (T.state (c.history j)) a x
            (obs a (c.view B j)) → X.knows (T.after o r (T.state (c.history j))) a x
            (obs a (B.applyAll ws (c.view B j)))) ∨
        (∃ n, (key a, n) ∈ B.locks o (c.busy j) (c.view B j) ∧ m ≤ n) ∧
          X.knows (T.after o r (T.state (c.history j))) a (obs a c.db)
            (obs a (B.applyAll ws (c.view B j))))
    (hcommit : ∀ k a, ¬ X.counts (T.committed k) a)
    (hrollback : ∀ k a, ¬ X.counts (T.rolledBack k) a) (hopen : (c.sessions j).closed = false)
    (h : ∀ i, Certain B T key m obs X c i) (hmove : Move B c j c') (i : ι) :
    Certain B T key m obs X c' i := by
  intro hc a ha
  by_cases hj : j = i
  swap
  · rw [session_stable hj hmove] at hc
    rw [history_stable hj hmove] at ha ⊢
    obtain ⟨hk, hknows⟩ := h i hc a ha
    rw [view_stable hs (hg a) (Config.holds_mono hm hk) hj hmove, holds_stable hj hmove,
      db_stable hs (hg a) (Config.holds_mono hm hk) hj hmove]
    exact ⟨hk, hknows⟩
  subst hj
  -- The session's own moves that are no statements and release nothing keep its view.
  have hsame : ∀ s : Session S ω ρ, s.pending = (c.sessions j).pending →
      X.counts (T.state (c.history j)) a → c.holds j (key a) m = true ∧
        X.knows (T.state (c.history j)) a (obs a c.db) (obs a ((c.put j s).view B j)) := by
    intro s hpend hP
    rw [Config.view_put_self, hpend]
    exact h j hopen a hP
  cases hmove with
  | close =>
    have hc' : (Function.update c.sessions j
      { c.sessions j with pending := [], closed := true } j).closed = false := hc
    rw [Function.update_self] at hc'
    cases hc'
  | commit p hp =>
    rw [Config.history_note, if_pos rfl, T.state_append] at ha
    exact absurd ha (hcommit _ a)
  | rollback p hp =>
    rw [Config.history_note, if_pos rfl, T.state_append] at ha
    exact absurd ha (hrollback _ a)
  | ask f hp => exact hsame _ rfl ha
  | emit o p hp => exact hsame { c.sessions j with prog := p } rfl ha
  | raise o f e hp he => exact hsame _ rfl ha
  | crash => exact hsame _ rfl ha
  | stmt o f r ws hp hl he =>
    rw [Config.history_note, if_pos rfl, T.state_append] at ha ⊢
    have hview : ((((c.put j { c.sessions j with
        prog := f r, pending := (c.sessions j).pending ++ ws }).take j
          (B.locks o (c.busy j) (c.view B j))).note j (.did o r)).view B j) =
        B.applyAll ws (c.view B j) := by
      show B.applyAll (Function.update c.sessions j _ j).pending c.db = _
      rw [Function.update_self, Backend.applyAll_append]
      rfl
    rw [hview]
    rcases hstmt o f r ws hp he a ha with ⟨hold, hkeep⟩ | ⟨hlock, hnew⟩
    · obtain ⟨hk, hknows⟩ := h j hopen a hold
      exact ⟨Config.holds_take_self.mpr (.inr hk), hkeep _ hknows⟩
    · exact ⟨Config.holds_take_self.mpr (.inl hlock), hnew⟩

end Transact
