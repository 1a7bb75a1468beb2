import MintFlow.Lib.Tracking

set_option relaxedAutoImplicit false
set_option autoImplicit false

/-!
# Messages after a commit

A transaction drafts messages, its commit publishes them, and only then are they sent, one after
another. Whatever stops the session, what it has sent is a part of what it published, in order: a
message may be lost between the commit and the sending, and none is sent twice or without a commit.

## Main definitions

* `Transact.Outbox` — a tracker, and which messages a session drafted and published.
* `Transact.Outbox.logic` — the obligations: a counted message is the next of those that are due.
* `Transact.Delivers` — a session sent a part of what it published, and goes on like that.
* `Transact.Reaches` — one configuration comes after another.
* `Transact.Recorded` — what a move records of its session.

## Main results

* `Transact.Delivers.move` — **Delivery** is kept by every move.
* `Transact.Reaches.sentBy_stopped` — a session that was stopped sends nothing more.
-/

namespace Transact

variable {S : Signature} {σ ω κ ι ρ K : Type}

/-! ## Drafted, published, due -/

/-- A reader that follows which messages a session drafts in a transaction and publishes with its
commit. -/
structure Outbox (S : Signature) (K : Type) where
  /-- What the reader follows. -/
  tracker : Tracker S K
  /-- Which messages are counted. -/
  counts : S.Output → Bool
  /-- The messages that were published. -/
  published : K → List S.Output
  /-- The messages that the open transaction drafted. -/
  drafted : K → List S.Output
  published_start : published tracker.start = []
  published_after : ∀ o r k, published (tracker.after o r k) = published k
  published_committed : ∀ k, published (tracker.committed k) = published k ++ drafted k
  published_rolledBack : ∀ k, published (tracker.rolledBack k) = published k

namespace Outbox

variable (X : Outbox S K)

/-- The obligations of a session that sends what it published: a commit makes what was drafted due,
and a message that is counted is the next that is due. -/
def logic : Logic S (K × List S.Output) where
  fail := fun e k => X.tracker.mayFail e k.1
  emit := fun o k P =>
    (X.counts o = false ∧ P k) ∨ ∃ rest, k.2 = o :: rest ∧ P (k.1, rest)
  stmt := fun o k P => X.tracker.mayDo o k.1 ∧
    ∀ r, X.tracker.answers o r → P r (X.tracker.after o r k.1, k.2)
  commit := fun k P => X.tracker.mayCommit k.1 ∧ P (X.tracker.committed k.1, X.drafted k.1)
  rollback := fun k P => P (X.tracker.rolledBack k.1, k.2)
  emit_mono := fun _ _ _ _ h hP => by
    rcases hP with ⟨hc, hP⟩ | ⟨rest, hdue, hP⟩
    · exact .inl ⟨hc, h _ hP⟩
    · exact .inr ⟨rest, hdue, h _ hP⟩
  stmt_mono := fun _ _ _ _ h hP => ⟨hP.1, fun r hr => h _ _ (hP.2 r hr)⟩
  commit_mono := fun _ _ _ h hP => ⟨hP.1, h _ hP.2⟩
  rollback_mono := fun _ _ _ h hP => h _ hP

variable {X}

/-- A program that executes only statements the reader takes no notice of, and sends only messages
that are not counted, meets its obligations.

**Proof sketch.** Induction on the program. A message that is not counted changes what is due as
little as a statement that is not noticed changes what was read. -/
lemma wp_of_uses {uses : S.Op → Prop} {sends : S.Output → Prop} {k : K} (hk : X.tracker.Idle k)
    (hstmt : ∀ o, uses o → X.tracker.mayDo o k ∧ ∀ r, X.tracker.after o r k = k)
    (hsends : ∀ o, sends o → X.counts o = false) {α : Type} (p : Prog S α)
    {Q : α → Unit → Prop} (h : p.wp (Tracker.usesLogic X.tracker.answers uses sends) Q ()) :
    ∀ due, p.wp X.logic (fun a k' => k'.1 = k ∧ Q a ()) (k, due) := by
  induction p with
  | pure a => exact fun _ => ⟨rfl, h⟩
  | fail e => exact fun _ => hk.mayFail e
  | ask f ih => exact fun due i => ih i (h i) due
  | emit o p ih => exact fun due => .inl ⟨hsends o h.1, ih h.2 due⟩
  | stmt o f ih =>
    obtain ⟨huse, hf⟩ := h
    obtain ⟨hmay, hafter⟩ := hstmt o huse
    refine fun due => ⟨hmay, fun r hr => ?_⟩
    show (f r).wp X.logic _ (X.tracker.after o r k, due)
    rw [hafter r]
    exact ih r (hf r hr) due
  | commit p ih =>
    refine fun due => ⟨hk.mayCommit, ?_⟩
    show p.wp X.logic _ (X.tracker.committed k, X.drafted k)
    rw [hk.committed]
    exact ih h _
  | rollback p ih =>
    intro due
    show p.wp X.logic _ (X.tracker.rolledBack k, due)
    rw [hk.rolledBack]
    exact ih h due

end Outbox

/-! ## Delivery -/

section Delivery

variable [DecidableEq ι] [DecidableEq κ] {B : Backend S σ ω κ} {X : Outbox S K}
  {Q : ρ → K × List S.Output → Prop} {c c' : Config S σ ω κ ι ρ} {i j : ι}

/-- What a session sent of the counted messages, and what is still due, is a part of what it
published, and the session meets its obligations from where it is. -/
def Delivers (X : Outbox S K) (Q : ρ → K × List S.Output → Prop) (c : Config S σ ω κ ι ρ) (i : ι) :
    Prop :=
  ∃ due, ((c.sentBy i).filter X.counts ++ due).Sublist
      (X.published (X.tracker.state (c.history i))) ∧
    (c.sessions i).prog.wp X.logic Q (X.tracker.state (c.history i), due)

omit [DecidableEq κ] in
/-- What was sent was published. -/
lemma Delivers.sublist (h : Delivers X Q c i) :
    ((c.sentBy i).filter X.counts).Sublist (X.published (X.tracker.state (c.history i))) := by
  obtain ⟨due, hdue, -⟩ := h
  exact (List.sublist_append_left _ _).trans hdue

omit [DecidableEq κ] in
/-- What a session does next, it may do. -/
lemma Delivers.mayDo {o : S.Op} {f : S.Resp o → Prog S ρ} (h : Delivers X Q c i)
    (hp : (c.sessions i).prog = .stmt o f) :
    X.tracker.mayDo o (X.tracker.state (c.history i)) := by
  obtain ⟨due, -, hwp⟩ := h
  rw [hp] at hwp
  exact hwp.1

omit [DecidableEq κ] in
/-- A session that is about to begin. -/
lemma Delivers.start (hsent : c.sentBy i = []) (hhistory : c.history i = [])
    (h : (c.sessions i).prog.wp X.logic Q (X.tracker.start, [])) : Delivers X Q c i := by
  refine ⟨[], ?_, ?_⟩
  · rw [hsent]
    exact List.nil_sublist _
  · rw [hhistory]
    exact h

/-- What a session sent, after a move. -/
lemma sentBy_of_move (hm : Move B c j c') : c'.sentBy i = c.sentBy i ∨
    ∃ o p, (c.sessions j).prog = .emit o p ∧ j = i ∧ c'.sentBy i = c.sentBy i ++ [o] := by
  cases hm with
  | emit o p hp =>
    by_cases hj : j = i
    · refine .inr ⟨o, p, hp, hj, ?_⟩
      show (c.sent ++ [(j, o)]).filterMap _ = _
      rw [List.filterMap_append]
      simp [hj, Config.sentBy]
    · refine .inl ?_
      show (c.sent ++ [(j, o)]).filterMap _ = _
      rw [List.filterMap_append]
      simp [hj, Config.sentBy]
  | _ => exact .inl rfl

/-- **Delivery** is kept by every move: a message that is sent was due, and a commit makes due what
it publishes.

**Proof sketch.** A message that is counted is the next one due, by the obligations of the program,
and moves from what is due to what was sent. A commit makes due what was drafted, and adds it to
what was published. -/
lemma Delivers.move (h : Delivers X Q c i)
    (hfit : j = i → X.tracker.FitsAt B (c.busy i) (c.view B i))
    (hint : j = i → ∀ k, X.tracker.mayFail S.interrupted k) (hm : Move B c j c') :
    Delivers X Q c' i := by
  by_cases hj : j = i
  swap
  · have hsent : c'.sentBy i = c.sentBy i := by
      rcases sentBy_of_move (i := i) hm with hsent | ⟨_, _, _, hji, -⟩
      · exact hsent
      · exact absurd hji hj
    unfold Delivers
    rw [session_stable hj hm, history_stable hj hm, hsent]
    exact h
  subst hj
  have hput : ∀ s : Session S ω ρ, (Function.update c.sessions j s j).prog = s.prog := fun s => by
    rw [Function.update_self]
  obtain ⟨due, hdue, hwp⟩ := h
  cases hm with
  | close hend => exact ⟨due, hdue, (hput _).symm ▸ hwp⟩
  | ask f hp =>
    rw [hp] at hwp
    exact ⟨due, hdue, (hput _).symm ▸ hwp _⟩
  | emit o p hp =>
    rw [hp] at hwp
    have hsent : (c.sent ++ [(j, o)]).filterMap (fun m => if m.1 = j then some m.2 else none) =
        c.sentBy j ++ [o] := by
      rw [List.filterMap_append]
      simp [Config.sentBy]
    rcases hwp with ⟨hcounts, hwp⟩ | ⟨rest, rfl, hwp⟩
    · -- A message that is not counted changes nothing.
      refine ⟨due, ?_, (hput _).symm ▸ hwp⟩
      show (((c.sent ++ [(j, o)]).filterMap _).filter X.counts ++ due).Sublist
        (X.published (X.tracker.state (c.history j)))
      rw [hsent, List.filter_append, List.filter_cons_of_neg (Bool.eq_false_iff.mp hcounts),
        List.filter_nil, List.append_nil]
      exact hdue
    · refine ⟨rest, ?_, (hput _).symm ▸ hwp⟩
      have hnext : ([o].filter X.counts ++ rest).Sublist ([o] ++ rest) :=
        List.filter_sublist.append_right rest
      show (((c.sent ++ [(j, o)]).filterMap _).filter X.counts ++ rest).Sublist
        (X.published (X.tracker.state (c.history j)))
      rw [hsent, List.filter_append, List.append_assoc]
      exact (hnext.append_left _).trans hdue
  | stmt o f r ws hp hl he =>
    rw [hp] at hwp
    refine ⟨due, ?_, ?_⟩
    · rw [Config.history_note, if_pos rfl, X.tracker.state_append]
      show (_ ++ due).Sublist (X.published (X.tracker.after o r _))
      rw [X.published_after]
      exact hdue
    · rw [Config.history_note, if_pos rfl, X.tracker.state_append]
      show ((Function.update c.sessions j _ j).prog).wp X.logic Q _
      rw [hput]
      exact hwp.2 r ((hfit rfl).answers o _ r ws hwp.1 he)
  | raise o f e hp he =>
    rw [hp] at hwp
    exact ⟨due, hdue, (hput _).symm ▸ (hfit rfl).raises o _ e hwp.1 he⟩
  | commit p hp =>
    rw [hp] at hwp
    refine ⟨X.drafted (X.tracker.state (c.history j)), ?_, ?_⟩
    · rw [Config.history_note, if_pos rfl, X.tracker.state_append]
      show List.Sublist _ (X.published (X.tracker.committed _))
      rw [X.published_committed]
      exact ((List.sublist_append_left _ _).trans hdue).append_right _
    · rw [Config.history_note, if_pos rfl, X.tracker.state_append]
      show ((Function.update c.sessions j _ j).prog).wp X.logic Q _
      rw [hput]
      exact hwp.2
  | rollback p hp =>
    rw [hp] at hwp
    refine ⟨due, ?_, ?_⟩
    · rw [Config.history_note, if_pos rfl, X.tracker.state_append]
      show (_ ++ due).Sublist (X.published (X.tracker.rolledBack _))
      rw [X.published_rolledBack]
      exact hdue
    · rw [Config.history_note, if_pos rfl, X.tracker.state_append]
      show ((Function.update c.sessions j _ j).prog).wp X.logic Q _
      rw [hput]
      exact hwp
  | crash => exact ⟨due, hdue, (hput _).symm ▸ hint rfl _⟩

end Delivery

/-! ## Before and after -/

section Reaches

variable [DecidableEq ι] [DecidableEq κ] {B : Backend S σ ω κ} {c c' c'' : Config S σ ω κ ι ρ}

/-- A run leads from one configuration to another. -/
def Reaches (B : Backend S σ ω κ) (c c' : Config S σ ω κ ι ρ) : Prop :=
  ∃ ls, run B c ls = some c'

/-- A run of two parts. -/
lemma run_append (ls ls' : List (Label ι)) :
    run B c (ls ++ ls') = (run B c ls).bind fun c' => run B c' ls' := by
  induction ls generalizing c with
  | nil => rfl
  | cons l ls ih =>
    show (step B c l).bind _ = ((step B c l).bind _).bind _
    rw [Option.bind_assoc]
    exact congrArg _ (funext fun _ => ih)

lemma Reaches.refl : Reaches B c c := ⟨[], rfl⟩

/-- A run and one more step. -/
lemma Reaches.next {l : Label ι} (h : Reaches B c c') (hstep : step B c' l = some c'') :
    Reaches B c c'' := by
  obtain ⟨ls, hls⟩ := h
  refine ⟨ls ++ [l], ?_⟩
  rw [run_append, hls]
  show (step B c' l).bind _ = _
  rw [hstep]
  rfl

/-- **Runs, step by step.** What every step keeps holds after every run. -/
theorem Reaches.induction {P : Config S σ ω κ ι ρ → Prop}
    (hstep : ∀ c l c', P c → step B c l = some c' → P c') (hP : P c) (h : Reaches B c c') :
    P c' := by
  obtain ⟨ls, h⟩ := h
  induction ls generalizing c with
  | nil => exact Option.some.inj h ▸ hP
  | cons l ls ih =>
    obtain ⟨c₁, h₁, h₂⟩ := Option.bind_eq_some_iff.mp h
    exact ih (hstep _ _ _ hP h₁) h₂

/-- Whether an event ends a transaction. -/
def Event.ends : Event S → Bool
  | .did _ _ => false
  | .committed => true
  | .rolledBack => true

/-- What a move records of its session. -/
inductive Recorded (B : Backend S σ ω κ) (c : Config S σ ω κ ι ρ) (j : ι)
    (c' : Config S σ ω κ ι ρ) : Prop
  | nothing : c'.history j = c.history j → Recorded B c j c'
  | did (o : S.Op) (f : S.Resp o → Prog S ρ) (r : S.Resp o) (ws : List ω) :
      (c.sessions j).prog = .stmt o f → B.eval o (c.busy j) (c.view B j) = .ok (r, ws) →
      c'.log = c.log ++ [(j, .did o r)] → c'.history j = c.history j ++ [.did o r] →
      Recorded B c j c'
  | committed : c'.db = c.view B j → c'.log = c.log ++ [(j, .committed)] →
      c'.history j = c.history j ++ [.committed] → Recorded B c j c'
  | rolledBack : c'.history j = c.history j ++ [.rolledBack] → Recorded B c j c'

/-- A move records a statement, a commit or a rollback, or nothing. -/
lemma recorded_of_move {j : ι} (hm : Move B c j c') : Recorded B c j c' := by
  cases hm with
  | stmt o f r ws hp hl he =>
    exact .did o f r ws hp he rfl ((Config.history_note _ j j _).trans (if_pos rfl))
  | commit p hp => exact .committed rfl rfl ((Config.history_note _ j j _).trans (if_pos rfl))
  | rollback p hp => exact .rolledBack ((Config.history_note _ j j _).trans (if_pos rfl))
  | _ => exact .nothing rfl

/-- An interruption is not recorded. -/
lemma eq_go_of_log {l : Label ι} {e : ι × Event S} (hstep : step B c l = some c')
    (hlog : c'.log = c.log ++ [e]) : l = .go l.who := by
  cases l with
  | go i => rfl
  | crash i =>
    simp only [step, Option.ite_none_left_eq_some, Option.some.injEq] at hstep
    obtain ⟨-, rfl⟩ := hstep
    exact absurd (List.self_eq_append_right.mp hlog) (List.cons_ne_nil _ _)

/-- A session that was stopped sends nothing more.

**Proof sketch.** Induction on the run: a program that has failed stays so, and has no message to
send. -/
lemma Reaches.sentBy_stopped {i : ι} {e : S.Error} (hprog : (c.sessions i).prog = .fail e)
    (h : Reaches B c c') : c'.sentBy i = c.sentBy i := by
  have hkeep : (∃ e', (c'.sessions i).prog = .fail e') ∧ c'.sentBy i = c.sentBy i := by
    refine Reaches.induction (P := fun c' => (∃ e', (c'.sessions i).prog = .fail e') ∧
      c'.sentBy i = c.sentBy i) (fun c₁ l c₂ hP hstep => ?_) ⟨⟨e, hprog⟩, rfl⟩ h
    obtain ⟨⟨e', hfail⟩, hsent⟩ := hP
    obtain ⟨-, hm⟩ := move_of_step hstep
    have hsent' : c₂.sentBy i = c₁.sentBy i := by
      rcases sentBy_of_move (i := i) hm with hsent' | ⟨_, _, hemit, rfl, -⟩
      · exact hsent'
      · rw [hfail] at hemit
        cases hemit
    refine ⟨?_, hsent'.trans hsent⟩
    by_cases hl : l.who = i
    swap
    · rw [session_stable hl hm]
      exact ⟨e', hfail⟩
    subst hl
    have hput : ∀ s : Session S ω ρ, (Function.update c₁.sessions l.who s l.who).prog = s.prog :=
      fun s => by rw [Function.update_self]
    cases hm with
    | close hend => exact ⟨e', (hput _).trans hfail⟩
    | crash => exact ⟨_, hput _⟩
    | ask f hp => exact absurd (hfail.symm.trans hp) (by simp)
    | emit o p hp => exact absurd (hfail.symm.trans hp) (by simp)
    | stmt o f r ws hp hl he => exact absurd (hfail.symm.trans hp) (by simp)
    | raise o f e hp he => exact absurd (hfail.symm.trans hp) (by simp)
    | commit p hp => exact absurd (hfail.symm.trans hp) (by simp)
    | rollback p hp => exact absurd (hfail.symm.trans hp) (by simp)
  exact hkeep.2

end Reaches

end Transact
