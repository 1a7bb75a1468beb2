import MintFlow.Lib.ReadCommitted
import Mathlib.Logic.Relation

set_option relaxedAutoImplicit false
set_option autoImplicit false

/-!
# Tracking sessions

A tracker follows one session through what it did so far and says what the session may do next. A
program that meets the tracker's obligations keeps meeting them in every interleaving, because they
depend on nothing but the session's own history. What a session learned about a row under its lock
stays true while it holds the lock, and what no statement undoes is never undone.

## Main definitions

* `Transact.Tracker`, `Transact.Tracker.logic` — a tracker and its obligations.
* `Transact.Tracker.usesLogic` — the obligations of a program that executes some statements and
  sends some messages only.
* `Transact.Tracks` — a session meets the obligations from where it is.
* `Transact.Aware` — what a session knows of the rows it holds.
* `Transact.Budgeted` — how many messages a session sends.
* `Transact.ReachedAt` — runs with a clock.
* `Transact.runWhile` — runs whose actions all meet a condition.

## Main results

* `Transact.Tracks.move` — tracked sessions stay tracked.
* `Transact.vouched_of_run` — whatever they commit, they may.
* `Transact.aware_of_move` — awareness survives every move.
* `Transact.persists_of_move` — a change that no statement undoes survives every move.
-/

namespace Transact

variable {S : Signature} {σ ω κ ι ρ K : Type}

/-! ## Trackers -/

/-- A reader that follows a session. -/
structure Tracker (S : Signature) (K : Type) where
  /-- What is known before the first action. -/
  start : K
  /-- What may be assumed of an answer. -/
  answers : (o : S.Op) → S.Resp o → Prop
  /-- The statements that may be executed. -/
  mayDo : S.Op → K → Prop
  /-- What is known after a statement. -/
  after : (o : S.Op) → S.Resp o → K → K
  /-- Whether a message may be sent. -/
  maySend : K → Prop
  /-- Whether the transaction may be committed. -/
  mayCommit : K → Prop
  /-- What is known after a commit. -/
  committed : K → K
  /-- What is known after a rollback. -/
  rolledBack : K → K
  /-- What may be raised. -/
  mayFail : S.Error → K → Prop

namespace Tracker

variable (T : Tracker S K)

/-- The obligations of a tracked session. -/
def logic : Logic S K where
  fail := T.mayFail
  emit := fun _ k P => T.maySend k ∧ P k
  stmt := fun o k P => T.mayDo o k ∧ ∀ r, T.answers o r → P r (T.after o r k)
  commit := fun k P => T.mayCommit k ∧ P (T.committed k)
  rollback := fun k P => P (T.rolledBack k)
  emit_mono := fun _ _ _ _ h hP => ⟨hP.1, h _ hP.2⟩
  stmt_mono := fun _ _ _ _ h hP => ⟨hP.1, fun r hr => h _ _ (hP.2 r hr)⟩
  commit_mono := fun _ _ _ h hP => ⟨hP.1, h _ hP.2⟩
  rollback_mono := fun _ _ _ h hP => h _ hP

/-- What is known after an event. -/
def next (k : K) : Event S → K
  | .did o r => T.after o r k
  | .committed => T.committed k
  | .rolledBack => T.rolledBack k

/-- What is known after a history. -/
def state (es : List (Event S)) : K := es.foldl T.next T.start

@[simp] lemma state_append (es : List (Event S)) (e : Event S) :
    T.state (es ++ [e]) = T.next (T.state es) e := by
  simp [state]

/-- The obligations of a program that executes some statements and sends some messages only. -/
def usesLogic (answers : (o : S.Op) → S.Resp o → Prop) (uses : S.Op → Prop)
    (sends : S.Output → Prop) : Logic S Unit where
  fail := fun _ _ => True
  emit := fun o k P => sends o ∧ P k
  stmt := fun o k P => uses o ∧ ∀ r, answers o r → P r k
  commit := fun k P => P k
  rollback := fun k P => P k
  emit_mono := fun _ _ _ _ h hP => ⟨hP.1, h _ hP.2⟩
  stmt_mono := fun _ _ _ _ h hP => ⟨hP.1, fun r hr => h _ _ (hP.2 r hr)⟩
  commit_mono := fun _ _ _ h hP => h _ hP
  rollback_mono := fun _ _ _ h hP => h _ hP

/-- Two readers that watch what a program executes and sends are one. -/
lemma wp_usesLogic_and {answers : (o : S.Op) → S.Resp o → Prop} {uses uses' : S.Op → Prop}
    {sends sends' : S.Output → Prop} {α : Type} (p : Prog S α) {Q Q' : α → Unit → Prop}
    (h : p.wp (usesLogic answers uses sends) Q ())
    (h' : p.wp (usesLogic (fun _ _ => True) uses' sends') Q' ()) :
    p.wp (usesLogic answers (fun o => uses o ∧ uses' o) fun o => sends o ∧ sends' o)
      (fun a k => Q a k ∧ Q' a k) () := by
  induction p with
  | pure a => exact ⟨h, h'⟩
  | fail e => trivial
  | ask f ih => exact fun i => ih i (h i) (h' i)
  | emit o p ih => exact ⟨⟨h.1, h'.1⟩, ih h.2 h'.2⟩
  | stmt o f ih => exact ⟨⟨h.1, h'.1⟩, fun r hr => ih r (h.2 r hr) (h'.2 r trivial)⟩
  | commit p ih => exact ih h h'
  | rollback p ih => exact ih h h'

/-- A program that keeps to little keeps to more. -/
lemma wp_usesLogic_mono {answers answers' : (o : S.Op) → S.Resp o → Prop}
    {uses uses' : S.Op → Prop} {sends sends' : S.Output → Prop}
    (hanswers : ∀ o r, answers' o r → answers o r) (huses : ∀ o, uses o → uses' o)
    (hsends : ∀ o, sends o → sends' o) {α : Type} (p : Prog S α) {Q : α → Unit → Prop}
    (h : p.wp (usesLogic answers uses sends) Q ()) :
    p.wp (usesLogic answers' uses' sends') Q () := by
  induction p with
  | pure a => exact h
  | fail e => trivial
  | ask f ih => exact fun i => ih i (h i)
  | emit o p ih => exact ⟨hsends o h.1, ih h.2⟩
  | stmt o f ih => exact ⟨huses o h.1, fun r hr => ih r (h.2 r (hanswers o r hr))⟩
  | commit p ih => exact ih h
  | rollback p ih => exact ih h

/-- A state of the tracker that nothing changes but statements, and in which everything else is
allowed. -/
structure Idle (k : K) : Prop where
  mayFail : ∀ e, T.mayFail e k
  maySend : T.maySend k
  mayCommit : T.mayCommit k
  committed : T.committed k = k
  rolledBack : T.rolledBack k = k

/-- A program that executes only statements the tracker takes no notice of meets its
obligations.

**Proof sketch.** Induction on the program: every statement leaves the tracker where it is, and a
tracker that is idle allows everything else. -/
lemma wp_of_uses {T : Tracker S K} {uses : S.Op → Prop} {sends : S.Output → Prop} {k : K}
    (hk : T.Idle k) (hstmt : ∀ o, uses o → T.mayDo o k ∧ ∀ r, T.after o r k = k) {α : Type}
    (p : Prog S α) (h : p.wp (usesLogic T.answers uses sends) (fun _ _ => True) ()) :
    p.wp T.logic (fun _ k' => k' = k) k := by
  induction p with
  | pure a => rfl
  | fail e => exact hk.mayFail e
  | ask f ih => exact fun i => ih i (h i)
  | emit o p ih => exact ⟨hk.maySend, ih h.2⟩
  | stmt o f ih =>
    obtain ⟨huse, hf⟩ := h
    obtain ⟨hmay, hafter⟩ := hstmt o huse
    refine ⟨hmay, fun r hr => ?_⟩
    rw [hafter r]
    exact ih r (hf r hr)
  | commit p ih =>
    refine ⟨hk.mayCommit, ?_⟩
    rw [hk.committed]
    exact ih h
  | rollback p ih =>
    show p.wp T.logic _ (T.rolledBack k)
    rw [hk.rolledBack]
    exact ih h

/-- A state in which the tracker's assumptions hold of every statement a session may execute. -/
structure FitsAt (B : Backend S σ ω κ) (busy : κ → Bool) (s : σ) : Prop where
  answers : ∀ o k r ws, T.mayDo o k → B.eval o busy s = .ok (r, ws) → T.answers o r
  raises : ∀ o k e, T.mayDo o k → B.eval o busy s = .error e → T.mayFail e k

end Tracker

namespace Config

variable [DecidableEq ι]

/-- The history after an event is longer by the event, for the session that did it. -/
lemma history_note (c : Config S σ ω κ ι ρ) (i j : ι) (e : Event S) :
    (c.note j e).history i = if j = i then c.history i ++ [e] else c.history i := by
  simp only [history, note, List.filterMap_append]
  by_cases h : j = i
  · simp [h]
  · simp [h]

/-- What is recorded of a session is the end of its history. -/
lemma history_of_log {c c' : Config S σ ω κ ι ρ} {i : ι} {e : Event S}
    (hlog : c'.log = c.log ++ [(i, e)]) : c'.history i = c.history i ++ [e] := by
  simp [history, hlog]

end Config

section Tracks

variable [DecidableEq ι] [DecidableEq κ] {B : Backend S σ ω κ} {T : Tracker S K}
  {Q : ρ → K → Prop} {c c' : Config S σ ω κ ι ρ} {i j : ι}

/-- Another session's move leaves a session's history as it was. -/
lemma history_stable (hj : j ≠ i) (hm : Move B c j c') : c'.history i = c.history i := by
  cases hm with
  | stmt o f r ws hp hl he => exact (Config.history_note _ i j _).trans (if_neg hj)
  | commit p hp => exact (Config.history_note _ i j _).trans (if_neg hj)
  | rollback p hp => exact (Config.history_note _ i j _).trans (if_neg hj)
  | _ => rfl

/-- A session meets the obligations of a tracker from where it is. -/
def Tracks (T : Tracker S K) (Q : ρ → K → Prop) (c : Config S σ ω κ ι ρ) (i : ι) : Prop :=
  (c.sessions i).prog.wp T.logic Q (T.state (c.history i))

omit [DecidableEq κ] in
/-- What a session does next, it may do. -/
lemma Tracks.mayDo {o : S.Op} {f : S.Resp o → Prog S ρ} (h : Tracks T Q c i)
    (hp : (c.sessions i).prog = .stmt o f) : T.mayDo o (T.state (c.history i)) := by
  unfold Tracks at h
  rw [hp] at h
  exact h.1

/-- **Tracked sessions stay tracked.**

**Proof sketch.** A move of another session touches neither the program nor the history. A session's
own move takes the obligations one step further, along the program as along the history. -/
lemma Tracks.move (h : Tracks T Q c i) (hfit : j = i → T.FitsAt B (c.busy i) (c.view B i))
    (hint : j = i → ∀ k, T.mayFail S.interrupted k) (hm : Move B c j c') :
    Tracks T Q c' i := by
  by_cases hj : j = i
  swap
  · -- Another session's move touches neither the program nor the history.
    unfold Tracks
    rw [session_stable hj hm, history_stable hj hm]
    exact h
  subst hj
  have hput : ∀ s : Session S ω ρ, (Function.update c.sessions j s j).prog = s.prog := fun s => by
    rw [Function.update_self]
  unfold Tracks at h ⊢
  cases hm with
  | close hend =>
    show ((Function.update c.sessions j _ j).prog).wp T.logic Q (T.state (c.history j))
    rw [hput]
    exact h
  | ask f hp =>
    show ((Function.update c.sessions j _ j).prog).wp T.logic Q (T.state (c.history j))
    rw [hput]
    rw [hp] at h
    exact h _
  | emit o p hp =>
    show ((Function.update c.sessions j _ j).prog).wp T.logic Q (T.state (c.history j))
    rw [hput]
    rw [hp] at h
    exact h.2
  | stmt o f r ws hp hl he =>
    rw [Config.history_note, if_pos rfl, T.state_append]
    show ((Function.update c.sessions j _ j).prog).wp T.logic Q _
    rw [hput]
    rw [hp] at h
    exact h.2 r ((hfit rfl).answers o _ r ws h.1 he)
  | raise o f e hp he =>
    show ((Function.update c.sessions j _ j).prog).wp T.logic Q (T.state (c.history j))
    rw [hput]
    rw [hp] at h
    exact (hfit rfl).raises o _ e h.1 he
  | commit p hp =>
    rw [Config.history_note, if_pos rfl, T.state_append]
    show ((Function.update c.sessions j _ j).prog).wp T.logic Q _
    rw [hput]
    rw [hp] at h
    exact h.2
  | rollback p hp =>
    rw [Config.history_note, if_pos rfl, T.state_append]
    show ((Function.update c.sessions j _ j).prog).wp T.logic Q _
    rw [hput]
    rw [hp] at h
    exact h
  | crash =>
    show ((Function.update c.sessions j _ j).prog).wp T.logic Q (T.state (c.history j))
    rw [hput]
    exact hint rfl _

/-- Whenever a session committed, it was allowed to. -/
def Vouched (T : Tracker S K) (c : Config S σ ω κ ι ρ) (i : ι) : Prop :=
  ∀ es, es ++ [.committed] <+: c.history i → T.mayCommit (T.state es)

/-- It is so of every move.

**Proof sketch.** The only prefix of the longer history that is new is the whole of it. It ends in a
commit only when the move is a commit, whose obligation the tracked program has met. -/
lemma Vouched.move (h : Vouched T c i) (ht : Tracks T Q c i) (hm : Move B c j c') :
    Vouched T c' i := by
  unfold Vouched
  by_cases hj : j = i
  swap
  · rw [history_stable hj hm]
    exact h
  subst hj
  have hnote : ∀ e : Event S, (e = .committed → T.mayCommit (T.state (c.history j))) →
      ∀ es, es ++ [.committed] <+: c.history j ++ [e] → T.mayCommit (T.state es) := by
    intro e he es hes
    rcases List.prefix_concat_iff.mp hes with hlast | hold
    · obtain ⟨rfl, hsame⟩ := List.append_inj' hlast rfl
      exact he (List.singleton_inj.mp hsame).symm
    · exact h es hold
  cases hm with
  | stmt o f r ws hp hl he =>
    rw [Config.history_note, if_pos rfl]
    exact hnote _ fun he => by cases he
  | commit p hp =>
    rw [Config.history_note, if_pos rfl]
    unfold Tracks at ht
    rw [hp] at ht
    exact hnote _ fun _ => ht.1
  | rollback p hp =>
    rw [Config.history_note, if_pos rfl]
    exact hnote _ fun he => by cases he
  | _ => exact h

/-- **Whatever was committed in a run might be**, if the sessions meet the obligations of a tracker that
assumes nothing. -/
theorem vouched_of_run (hfit : ∀ busy s, T.FitsAt B busy s) (hint : ∀ k, T.mayFail S.interrupted k)
    (hlog : c.log = []) (htracks : ∀ i, (c.sessions i).prog.wp T.logic Q T.start)
    {ls : List (Label ι)} (hrun : run B c ls = some c') (i : ι) : Vouched T c' i := by
  have hnone : ∀ i, c.history i = [] := fun i => by simp [Config.history, hlog]
  have hstart : ∀ i, Tracks T Q c i ∧ Vouched T c i := by
    intro i
    unfold Tracks Vouched
    rw [hnone i]
    exact ⟨htracks i, fun es hes => by simp at hes⟩
  exact (run_induction (P := fun c => ∀ i, Tracks T Q c i ∧ Vouched T c i)
    (fun _ _ _ h _ hm i => ⟨(h i).1.move (fun _ => hfit _ _) (fun _ => hint) hm,
      (h i).2.move (h i).1 hm⟩) hstart hrun i).2

end Tracks

/-! ## What a session knows -/

section Aware

variable [DecidableEq ι] [DecidableEq κ] {B : Backend S σ ω κ} {keys : ω → List κ}
  {T : Tracker S K} {c c' : Config S σ ω κ ι ρ} {i j : ι} {α τ : Type}

/-- Session `i`, while it is open, holds the rows it counts on, at least as strongly as `m`, and
knows what is in them. -/
def Aware (B : Backend S σ ω κ) (T : Tracker S K) (key : α → κ) (m : Strength) (obs : α → σ → τ)
    (knows : K → α → Option (τ → Prop)) (c : Config S σ ω κ ι ρ) (i : ι) : Prop :=
  (c.sessions i).closed = false → ∀ a P, knows (T.state (c.history i)) a = some P →
    c.holds i (key a) m = true ∧ P (obs a (c.view B i))

/-- **Awareness survives every move**, if the statements a session executes tell it what became of
the rows it counts on, and it counts on none after a commit or a rollback.

**Proof sketch.** Another session's move changes neither what is known nor, since the rows are
locked, what is seen. Of the session's own moves a statement passes on what is known by `hstmt`, and
the end of a transaction leaves nothing known. -/
lemma aware_of_move {key : α → κ} {m : Strength} {obs : α → σ → τ}
    {knows : K → α → Option (τ → Prop)} (hm : .share ≤ m)
    (hs : c.Sound keys) (hg : ∀ a, Guarded B keys (key a) (obs a))
    (hstmt : ∀ o f r ws, (c.sessions j).prog = .stmt o f →
      B.eval o (c.busy j) (c.view B j) = .ok (r, ws) →
      ∀ a P', knows (T.after o r (T.state (c.history j))) a = some P' →
        ((∃ P, knows (T.state (c.history j)) a = some P ∧
          (P (obs a (c.view B j)) → P' (obs a (B.applyAll ws (c.view B j))))) ∨
        (∃ n, (key a, n) ∈ B.locks o (c.busy j) (c.view B j) ∧ m ≤ n) ∧
          P' (obs a (B.applyAll ws (c.view B j)))))
    (hcommit : ∀ k a, knows (T.committed k) a = none)
    (hrollback : ∀ k a, knows (T.rolledBack k) a = none) (hopen : (c.sessions j).closed = false)
    (h : ∀ i, Aware B T key m obs knows c i) (hmove : Move B c j c') (i : ι) :
    Aware B T key m obs knows c' i := by
  intro hc a P hP
  by_cases hj : j = i
  swap
  · rw [session_stable hj hmove] at hc
    rw [history_stable hj hmove] at hP
    obtain ⟨hk, hknows⟩ := h i hc a P hP
    rw [view_stable hs (hg a) (Config.holds_mono hm hk) hj hmove, holds_stable hj hmove]
    exact ⟨hk, hknows⟩
  subst hj
  -- The session's own moves that are no statements and release nothing keep its view.
  have hsame : ∀ s : Session S ω ρ, s.pending = (c.sessions j).pending →
      knows (T.state (c.history j)) a = some P →
      c.holds j (key a) m = true ∧ P (obs a ((c.put j s).view B j)) := by
    intro s hpend hP
    have hview : (c.put j s).view B j = c.view B j := by
      show B.applyAll (Function.update c.sessions j s j).pending c.db = _
      rw [Function.update_self, hpend]
      rfl
    rw [hview]
    exact h j hopen a P hP
  cases hmove with
  | close =>
    have hc' : (Function.update c.sessions j
      { c.sessions j with pending := [], closed := true } j).closed = false := hc
    rw [Function.update_self] at hc'
    cases hc'
  | commit p hp =>
    rw [Config.history_note, if_pos rfl, T.state_append] at hP
    have hP' : knows (T.committed (T.state (c.history j))) a = some P := hP
    rw [hcommit] at hP'
    cases hP'
  | rollback p hp =>
    rw [Config.history_note, if_pos rfl, T.state_append] at hP
    have hP' : knows (T.rolledBack (T.state (c.history j))) a = some P := hP
    rw [hrollback] at hP'
    cases hP'
  | ask f hp => exact hsame _ rfl hP
  | emit o p hp => exact hsame { c.sessions j with prog := p } rfl hP
  | raise o f e hp he => exact hsame _ rfl hP
  | crash => exact hsame _ rfl hP
  | stmt o f r ws hp hl he =>
    rw [Config.history_note, if_pos rfl, T.state_append] at hP
    have hview : ((((c.put j { c.sessions j with
        prog := f r, pending := (c.sessions j).pending ++ ws }).take j
          (B.locks o (c.busy j) (c.view B j))).note j (.did o r)).view B j) =
        B.applyAll ws (c.view B j) := by
      show B.applyAll (Function.update c.sessions j _ j).pending c.db = _
      rw [Function.update_self, Backend.applyAll_append]
      rfl
    rw [hview]
    rcases hstmt o f r ws hp he a P hP with ⟨P₀, hP₀, himp⟩ | ⟨hlock, hP'⟩
    · obtain ⟨hk, hknows⟩ := h j hopen a P₀ hP₀
      exact ⟨Config.holds_take_self.mpr (.inr hk), himp hknows⟩
    · exact ⟨Config.holds_take_self.mpr (.inl hlock), hP'⟩

end Aware

/-! ## What is never undone -/

section Persists

variable [DecidableEq ι] [DecidableEq κ] {B : Backend S σ ω κ} {keys : ω → List κ}
  {c c' : Config S σ ω κ ι ρ} {j : ι} {k : κ} {τ : Type} {obs : σ → τ} {R : τ → τ → Prop}

/-- **Persistence.** A relation that the next statement of the moving session keeps on what that
session sees, and that holds between the committed value and every session's, is kept by the move,
and relates the committed values before and after.

**Proof sketch.** A move that publishes nothing changes the view of its own session alone. When a
session commits, what it publishes is what it saw; whoever else has changed the row holds its lock,
so nobody else's view has. -/
lemma persists_of_move (hs : c.Sound keys) (hg : Guarded B keys k obs) (hrefl : ∀ x, R x x)
    (htrans : ∀ x y z, R x y → R y z → R x z)
    (hstmt : ∀ o f r ws, (c.sessions j).prog = .stmt o f →
      B.eval o (c.busy j) (c.view B j) = .ok (r, ws) → c'.log = c.log ++ [(j, .did o r)] →
      R (obs (c.view B j)) (obs (B.applyAll ws (c.view B j))))
    (h : ∀ i, R (obs c.db) (obs (c.view B i))) (hm : Move B c j c') :
    (∀ i, R (obs c'.db) (obs (c'.view B i))) ∧ R (obs c.db) (obs c'.db) := by
  -- A move that publishes nothing changes the view of its own session alone.
  have hkeep : ∀ s : Session S ω ρ, R (obs c.db) (obs (B.applyAll s.pending c.db)) →
      ∀ i, R (obs c.db) (obs ((c.put j s).view B i)) := by
    intro s hown i
    by_cases hi : i = j
    · subst hi
      show R _ (obs (B.applyAll (Function.update c.sessions i s i).pending c.db))
      rw [Function.update_self]
      exact hown
    · show R _ (obs (B.applyAll (Function.update c.sessions j s i).pending c.db))
      rw [Function.update_of_ne hi]
      exact h i
  cases hm with
  | close => exact ⟨hkeep _ (hrefl _), hrefl _⟩
  | ask f hp => exact ⟨hkeep _ (h j), hrefl _⟩
  | emit o p hp => exact ⟨hkeep { c.sessions j with prog := p } (h j), hrefl _⟩
  | raise o f e hp he => exact ⟨hkeep _ (h j), hrefl _⟩
  | crash => exact ⟨hkeep _ (h j), hrefl _⟩
  | rollback p hp => exact ⟨hkeep { c.sessions j with prog := p, pending := [] } (hrefl _), hrefl _⟩
  | stmt o f r ws hp hl he =>
    refine ⟨hkeep { c.sessions j with prog := f r, pending := (c.sessions j).pending ++ ws } ?_,
      hrefl _⟩
    rw [Backend.applyAll_append]
    exact htrans _ _ _ (h j) (hstmt o f r ws hp he rfl)
  | commit p hp =>
    refine ⟨fun i => ?_, h j⟩
    by_cases hi : i = j
    · subst hi
      show R (obs (c.view B i)) (obs (B.applyAll (Function.update c.sessions i _ i).pending _))
      rw [Function.update_self]
      exact hrefl _
    · have hview : obs ((((({ c with db := c.view B j }.put j
          { c.sessions j with prog := p, pending := [] }).release j).note j .committed)).view B i) =
          obs (B.applyAll (c.sessions i).pending (c.view B j)) := by
        show obs (B.applyAll (Function.update c.sessions j _ i).pending (c.view B j)) = _
        rw [Function.update_of_ne hi]
      rw [hview]
      show R (obs (c.view B j)) _
      by_cases hown : c.holds i k .noKeyUpdate = true
      · -- The lock is the other session's, so nothing it guards was published.
        have hne : c.holds j k .noKeyUpdate = false :=
          Bool.eq_false_iff.mpr fun hj => hi (hs.eq_of_conflicts hown hj rfl)
        have hdb : obs (c.view B j) = obs c.db := view_eq_of_not_holds hs hg hne
        rw [hg.applyAll_congr _ hdb, hdb]
        exact h i
      · rw [hg.applyAll_of_not_mem (fun w hw hmem => hown (hs.covered i w hw k hmem))]
        exact hrefl _

end Persists

/-! ## How much a session sends -/

section Budget

/-- The obligations of a program that sends at most so many messages. -/
def budgetLogic (S : Signature) : Logic S ℕ where
  fail := fun _ _ => True
  emit := fun _ n P => ∃ m, n = m + 1 ∧ P m
  stmt := fun _ n P => ∀ r, P r n
  commit := fun n P => P n
  rollback := fun n P => P n
  emit_mono := fun _ _ _ _ h ⟨m, hm, hP⟩ => ⟨m, hm, h m hP⟩
  stmt_mono := fun _ _ _ _ h hP r => h r _ (hP r)
  commit_mono := fun _ _ _ h hP => h _ hP
  rollback_mono := fun _ _ _ h hP => h _ hP

variable [DecidableEq ι] [DecidableEq κ] {B : Backend S σ ω κ} {c c' : Config S σ ω κ ι ρ} {i j : ι}

/-- The messages a session sent. -/
def Config.sentBy (c : Config S σ ω κ ι ρ) (i : ι) : List S.Output :=
  c.sent.filterMap fun m => if m.1 = i then some m.2 else none

/-- A session sent, and will send, no more than so many messages. -/
def Budgeted (n : ℕ) (c : Config S σ ω κ ι ρ) (i : ι) : Prop :=
  ∃ m, (c.sentBy i).length + m ≤ n ∧
    (c.sessions i).prog.wp (budgetLogic S) (fun _ _ => True) m

/-- **Budgets are kept** by every move.

**Proof sketch.** Sending a message takes one off the budget of the program and adds one to what was
sent; no other move changes either. -/
lemma Budgeted.move {n : ℕ} (h : Budgeted n c i) (hm : Move B c j c') : Budgeted n c' i := by
  have hput : ∀ s : Session S ω ρ, (Function.update c.sessions j s j).prog = s.prog := fun s => by
    rw [Function.update_self]
  obtain ⟨m, hle, hwp⟩ := h
  by_cases hj : j = i
  swap
  · refine ⟨m, ?_, by rwa [session_stable hj hm]⟩
    have hsent : c'.sentBy i = c.sentBy i := by
      cases hm with
      | emit o p hp =>
        show (c.sent ++ [(j, o)]).filterMap _ = _
        rw [List.filterMap_append]
        simp [hj, Config.sentBy]
      | _ => rfl
    rwa [hsent]
  subst hj
  cases hm with
  | close hend => exact ⟨m, hle, (hput _).symm ▸ hwp⟩
  | ask f hp =>
    rw [hp] at hwp
    exact ⟨m, hle, (hput _).symm ▸ hwp _⟩
  | emit o p hp =>
    rw [hp] at hwp
    obtain ⟨m', rfl, hwp⟩ := hwp
    refine ⟨m', ?_, (hput _).symm ▸ hwp⟩
    show ((c.sent ++ [(j, o)]).filterMap _).length + m' ≤ n
    rw [List.filterMap_append, List.length_append]
    simp only [Config.sentBy] at hle
    simp
    omega
  | stmt o f r ws hp hl he =>
    rw [hp] at hwp
    exact ⟨m, hle, (hput _).symm ▸ hwp r⟩
  | raise o f e hp he => exact ⟨m, hle, (hput _).symm ▸ trivial⟩
  | commit p hp =>
    rw [hp] at hwp
    exact ⟨m, hle, (hput _).symm ▸ hwp⟩
  | rollback p hp =>
    rw [hp] at hwp
    exact ⟨m, hle, (hput _).symm ▸ hwp⟩
  | crash => exact ⟨m, hle, (hput _).symm ▸ trivial⟩

omit [DecidableEq κ] in
/-- Where every session sends one message at most, no session is among the senders twice. -/
lemma nodup_senders (h : ∀ i, Budgeted 1 c i) : (c.sent.map Prod.fst).Nodup := by
  rw [List.nodup_iff_count]
  intro i
  obtain ⟨m, hle, -⟩ := h i
  have hcount : (c.sent.map Prod.fst).count i = (c.sentBy i).length := by
    unfold Config.sentBy
    induction c.sent with
    | nil => rfl
    | cons e sent ih =>
      rw [List.map_cons, List.filterMap_cons, List.count_cons, ih]
      by_cases he : e.1 = i
      · simp [he]
      · simp [he]
  omega

end Budget

/-! ## Runs with a clock -/

section Clock

variable [DecidableEq ι] [DecidableEq κ] {T : Type} [LE T] {B : Backend S σ ω κ}
  {timely : Config S σ ω κ ι ρ → T → ι → Prop} {start c : Config S σ ω κ ι ρ} {now : T}

/-- The configurations that are reached, and when: time passes, and at any time a session that is
timely then may take its next step, and any session may stop. -/
inductive ReachedAt (B : Backend S σ ω κ) (timely : Config S σ ω κ ι ρ → T → ι → Prop)
    (start : Config S σ ω κ ι ρ) : Config S σ ω κ ι ρ → T → Prop
  | begin (now : T) : ReachedAt B timely start start now
  | wait {c : Config S σ ω κ ι ρ} {now later : T} : ReachedAt B timely start c now → now ≤ later →
      ReachedAt B timely start c later
  | go {c c' : Config S σ ω κ ι ρ} {now : T} {i : ι} : ReachedAt B timely start c now →
      timely c now i → step B c (.go i) = some c' → ReachedAt B timely start c' now
  | crash {c c' : Config S σ ω κ ι ρ} {now : T} {i : ι} : ReachedAt B timely start c now →
      step B c (.crash i) = some c' → ReachedAt B timely start c' now

/-- Session `i` stops where it is. -/
def Config.stop (c : Config S σ ω κ ι ρ) (i : ι) : Config S σ ω κ ι ρ :=
  c.put i { c.sessions i with prog := .fail S.interrupted }

/-- What holds at the start, stays as time passes and is kept by every timely move and whenever a
session stops holds whenever it is looked at. -/
theorem ReachedAt.induction {P : Config S σ ω κ ι ρ → T → Prop} (hbegin : ∀ now, P start now)
    (hwait : ∀ c now later, P c now → now ≤ later → P c later)
    (hmove : ∀ c c' now i, P c now → timely c now i → (c.sessions i).closed = false →
      Move B c i c' → P c' now)
    (hstop : ∀ c now i, P c now → (c.sessions i).closed = false → P (c.stop i) now)
    (h : ReachedAt B timely start c now) : P c now := by
  induction h with
  | begin now => exact hbegin now
  | wait _ hle ih => exact hwait _ _ _ ih hle
  | go _ htimely hstep ih =>
    obtain ⟨hopen, hm⟩ := move_of_step hstep
    exact hmove _ _ _ _ ih htimely hopen hm
  | crash _ hstep ih =>
    simp only [step, Option.ite_none_left_eq_some, Option.some.injEq] at hstep
    obtain ⟨hopen, rfl⟩ := hstep
    exact hstop _ _ _ ih (eq_false_of_ne_true hopen)

end Clock

/-! ## Runs under a condition -/

section RunWhile

variable [DecidableEq ι] [DecidableEq κ]

/-- A run in which every session acts only while a condition holds. An interruption is no action. -/
def runWhile (B : Backend S σ ω κ) (ok : Config S σ ω κ ι ρ → ι → Bool)
    (c : Config S σ ω κ ι ρ) : List (Label ι) → Option (Config S σ ω κ ι ρ)
  | [] => some c
  | .go i :: ls =>
    if ok c i then (step B c (.go i)).bind fun c' => runWhile B ok c' ls else none
  | .crash i :: ls => (step B c (.crash i)).bind fun c' => runWhile B ok c' ls

/-- What is kept by every move, given the condition whenever the move is an action that is
recorded, holds at the end of a run.

**Proof sketch.** Induction on the labels, one step at a time. A move that is recorded is an action,
and actions meet the condition. -/
theorem runWhile_induction {B : Backend S σ ω κ} {ok : Config S σ ω κ ι ρ → ι → Bool}
    {P : Config S σ ω κ ι ρ → Prop}
    (hmove : ∀ c i c', P c → (c.sessions i).closed = false → Move B c i c' →
      (∀ e, c'.log = c.log ++ [(i, e)] → ok c i = true) → P c') :
    ∀ {ls : List (Label ι)} {c c' : Config S σ ω κ ι ρ}, P c → runWhile B ok c ls = some c' → P c'
  | [], _, _, hP, h => Option.some.inj h ▸ hP
  | .go i :: ls, c, c', hP, h => by
    unfold runWhile at h
    by_cases hok : ok c i = true
    · rw [if_pos hok] at h
      obtain ⟨c₁, h₁, h₂⟩ := Option.bind_eq_some_iff.mp h
      obtain ⟨ho, hm⟩ := move_of_step h₁
      exact runWhile_induction hmove (hmove _ _ _ hP ho hm fun _ _ => hok) h₂
    · rw [if_neg hok] at h
      cases h
  | .crash i :: ls, c, c', hP, h => by
    obtain ⟨c₁, h₁, h₂⟩ := Option.bind_eq_some_iff.mp h
    have hlog : c₁.log = c.log := by
      simp only [step, Option.ite_none_left_eq_some, Option.some.injEq] at h₁
      rw [← h₁.2]
      rfl
    obtain ⟨ho, hm⟩ := move_of_step h₁
    refine runWhile_induction hmove (hmove _ _ _ hP ho hm fun e he => ?_) h₂
    rw [hlog] at he
    simp at he

/-- A run under a condition that makes every action timely is reached at once. -/
lemma ReachedAt.runWhile {T : Type} [LE T] {B : Backend S σ ω κ}
    {timely : Config S σ ω κ ι ρ → T → ι → Prop} {ok : Config S σ ω κ ι ρ → ι → Bool} {now : T}
    (hok : ∀ c i, ok c i = true → timely c now i) {start : Config S σ ω κ ι ρ} :
    ∀ {ls : List (Label ι)} {c c' : Config S σ ω κ ι ρ}, ReachedAt B timely start c now →
      Transact.runWhile B ok c ls = some c' → ReachedAt B timely start c' now
  | [], _, _, hreached, h => Option.some.inj h ▸ hreached
  | .go i :: ls, c, c', hreached, h => by
    unfold Transact.runWhile at h
    simp only [Option.ite_none_right_eq_some] at h
    obtain ⟨c₁, h₁, h₂⟩ := Option.bind_eq_some_iff.mp h.2
    exact ReachedAt.runWhile hok (.go hreached (hok c i h.1) h₁) h₂
  | .crash i :: ls, c, c', hreached, h => by
    obtain ⟨c₁, h₁, h₂⟩ := Option.bind_eq_some_iff.mp h
    exact ReachedAt.runWhile hok (.crash hreached h₁) h₂

end RunWhile

end Transact
