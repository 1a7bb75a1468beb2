import MintFlow.Application.ConfirmDraft
import MintFlow.Persistence.StatementSpecs

set_option relaxedAutoImplicit false
set_option autoImplicit false

/-!
# Use cases that are alone on the database

How the actions of a program move the state of a session that is alone on the database: a read
answers and moves nothing, a write answers and moves the session's view, and code that may raise
either returns or raises.

## Main definitions

* `MintFlow.alone` — the obligations of such a session.

## Main results

* `MintFlow.wp_execute`, `MintFlow.wp_read` — a statement, and one that only reads.
* `MintFlow.wp_lift` — code that may raise.
-/

namespace MintFlow

open Transact Transact.Prog

/-- The obligations of a session that is alone on the database: `C` on what it commits, `F` on
what a statement raises, and `G` on what the program raises. -/
abbrev alone (C : Database → Database → Prop) (F G : Error → Alone Database → Prop) :
    Logic signature (Alone Database) :=
  (aloneLogic postgres C F).withFail G

section Alone

variable {α : Type} {C : Database → Database → Prop} {F G : Error → Alone Database → Prop}
  {s : Alone Database}

/-- A statement either answers and moves the view, or raises. -/
lemma wp_execute {o : Stmt} {Q : o.Resp → Alone Database → Prop}
    (hok : ∀ r ws, evaluate o (fun _ => false) s.view = .ok (r, ws) →
      Q r { s with view := postgres.applyAll ws s.view })
    (herr : ∀ e, evaluate o (fun _ => false) s.view = .error e → F e s) :
    (execute o).wp (alone C F G) Q s := by
  show answered postgres F Q s
  unfold answered
  cases h : postgres.eval o (fun _ => false) s.view with
  | ok r => exact hok r.1 r.2 h
  | error e => exact herr e h

/-- A statement whose answer is known. -/
lemma wp_answer {o : Stmt} {r : o.Resp} {ws : List Write} {Q : o.Resp → Alone Database → Prop}
    (h : evaluate o (fun _ => false) s.view = .ok (r, ws)) :
    (execute o).wp (alone C F G) Q s ↔ Q r { s with view := postgres.applyAll ws s.view } := by
  show answered postgres F Q s ↔ _
  have h' : postgres.eval o (fun _ => false) s.view = .ok (r, ws) := h
  rw [answered, h']

/-- A statement that only reads answers and moves nothing. -/
lemma wp_read {o : Stmt} {r : o.Resp} {Q : o.Resp → Alone Database → Prop}
    (h : evaluate o (fun _ => false) s.view = .ok (r, [])) :
    (execute o).wp (alone C F G) Q s ↔ Q r s :=
  wp_answer h

/-- Code that may raise either returns or raises. -/
lemma wp_lift {ε : Type} {f : ε → Error} {x : Except ε α} {Q : α → Alone Database → Prop}
    (hok : ∀ a, x = .ok a → Q a s) (herr : ∀ e, G e s) :
    (Prog.lift f x : Program α).wp (alone C F G) Q s := by
  cases x with
  | ok a => exact hok a rfl
  | error e => exact herr (f e)

/-- A reading of the clock can be anything. -/
lemma wp_clock {Q : Instant → Alone Database → Prop} (h : ∀ now, Q now s) :
    clock.wp (alone C F G) Q s :=
  fun reading => h reading.now

/-- A fresh id can be anything. -/
lemma wp_uuid4 {Q : UUID → Alone Database → Prop} (h : ∀ id, Q id s) :
    uuid4.wp (alone C F G) Q s :=
  fun reading => h reading.uuid

/-- What is proved of a session that is alone holds of its runs. -/
lemma exec_alone (p : Program α) {Q : α → Alone Database → Prop} (tape : Stream' Reading)
    (h : p.wp (alone C F F) Q s) :
    (∀ a, (p.exec postgres tape s).result = .ok a → Q a (p.exec postgres tape s).final) ∧
      ∀ e, (p.exec postgres tape s).result = .error e → F e (p.exec postgres tape s).final := by
  have h' : p.wp (aloneLogic postgres C F) Q s := h
  exact (wp_exec p tape h').2.2

/-- An invariant that every commit keeps holds of what a run leaves. -/
lemma exec_invariant (p : Program α) {I : Database → Prop} {Q : α → Alone Database → Prop}
    (tape : Stream' Reading) (h : p.wp (alone (fun _ => I) F F) Q s) (hI : I s.db) :
    I (p.exec postgres tape s).final.db := by
  have h' : p.wp (aloneLogic postgres (fun _ => I) F) Q s := h
  exact (wp_exec_invariant p tape h' hI).1

/-- An invariant that every commit keeps holds of everything a run publishes. -/
lemma published_invariant (p : Program α) {I : Database → Prop} {Q : α → Alone Database → Prop}
    (tape : Stream' Reading) (h : p.wp (alone (fun _ => I) F F) Q s) (hI : I s.db) :
    ∀ db ∈ (p.exec postgres tape s).published, I db := by
  have h' : p.wp (aloneLogic postgres (fun _ => I) F) Q s := h
  exact (wp_exec_invariant p tape h' hI).2

end Alone

/-! ## Runs, action by action -/

section Exec

variable {α : Type} {o : Stmt} {f : o.Resp → Program α} {tape : Stream' Reading}
  {s : Alone Database}

/-- A statement that answers. -/
lemma exec_execute {r : o.Resp} {ws : List Write}
    (h : evaluate o (fun _ => false) s.view = .ok (r, ws)) :
    (execute o >>= f).exec postgres tape s =
      (f r).exec postgres tape { s with view := postgres.applyAll ws s.view } := by
  have h' : postgres.eval o (fun _ => false) s.view = .ok (r, ws) := h
  show (Prog.stmt o f : Program α).exec postgres tape s = _
  simp only [Prog.exec, h']

/-- A statement that raises ends the run. -/
lemma exec_execute_error {e : Error} (h : evaluate o (fun _ => false) s.view = .error e) :
    (execute o >>= f).exec postgres tape s = ⟨.error e, s, [], []⟩ := by
  have h' : postgres.eval o (fun _ => false) s.view = .error e := h
  show (Prog.stmt o f : Program α).exec postgres tape s = _
  simp only [Prog.exec, h']

lemma exec_clock (g : Instant → Program α) :
    (clock >>= g).exec postgres tape s = (g tape.head.now).exec postgres tape.tail s := rfl

lemma exec_uuid4 (g : UUID → Program α) :
    (uuid4 >>= g).exec postgres tape s = (g tape.head.uuid).exec postgres tape.tail s := rfl

end Exec

end MintFlow
