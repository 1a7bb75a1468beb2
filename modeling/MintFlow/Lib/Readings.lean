import MintFlow.Lib.Tracking

set_option relaxedAutoImplicit false
set_option autoImplicit false

/-!
# Programs and what they read

Which statements a program executes depends on the inputs it reads. Where the inputs of a session are
known, so are the statements that it executes, however the others are interleaved.

## Main definitions

* `Transact.Prog.Within` — a program that executes only some statements, as long as its inputs are
  among some.
* `Transact.Supplied` — a session with such a program and such inputs.

## Main results

* `Transact.Supplied.move` — it stays so, whatever the others do.
-/

namespace Transact

variable {S : Signature} {σ ω κ ι ρ α β : Type}

/-! ## Programs -/

namespace Prog

/-- A program that executes only statements of `D`, as long as its inputs are in `R`. -/
def Within (R : S.Input → Prop) (D : S.Op → Prop) : Prog S α → Prop
  | pure _ => True
  | fail _ => True
  | ask f => ∀ i, R i → (f i).Within R D
  | emit _ p => p.Within R D
  | stmt o f => D o ∧ ∀ r, (f r).Within R D
  | commit p => p.Within R D
  | rollback p => p.Within R D

variable {R : S.Input → Prop} {D : S.Op → Prop}

/-- One program after another. -/
lemma within_bind {p : Prog S α} {f : α → Prog S β} (hp : p.Within R D)
    (hf : ∀ a, (f a).Within R D) : (p.bind f).Within R D := by
  induction p with
  | pure a => exact hf a
  | fail e => trivial
  | ask g ih => exact fun i hi => ih i (hp i hi)
  | emit o p ih => exact ih hp
  | stmt o g ih => exact ⟨hp.1, fun r => ih r (hp.2 r)⟩
  | commit p ih => exact ih hp
  | rollback p ih => exact ih hp

/-- A check executes nothing. -/
lemma within_lift {ε : Type} {e : ε → S.Error} {x : Except ε α} :
    (Prog.lift e x : Prog S α).Within R D := by
  cases x <;> trivial

end Prog

/-! ## Sessions -/

section Sessions

variable [DecidableEq ι] [DecidableEq κ] {B : Backend S σ ω κ} {c c' : Config S σ ω κ ι ρ} {i j : ι}

/-- A session whose inputs are in `R`, with a program that then executes only statements of `D`. -/
structure Supplied (R : S.Input → Prop) (D : S.Op → Prop) (c : Config S σ ω κ ι ρ) (i : ι) :
    Prop where
  tape : ∀ n, R ((c.sessions i).tape.get n)
  prog : (c.sessions i).prog.Within R D

variable {R : S.Input → Prop} {D : S.Op → Prop}

omit [DecidableEq ι] [DecidableEq κ] in
/-- What a supplied session is about to execute. -/
lemma Supplied.executes (h : Supplied R D c i) {o : S.Op} {f : S.Resp o → Prog S ρ}
    (hp : (c.sessions i).prog = .stmt o f) : D o := by
  have hprog := h.prog
  rw [hp] at hprog
  exact hprog.1

/-- **A session stays supplied.**

**Proof sketch.** Another session's move leaves the program and the tape. A session's own move goes
one step along its program, and along its tape when it reads one. -/
theorem Supplied.move (h : Supplied R D c i) (hm : Move B c j c') : Supplied R D c' i := by
  by_cases hj : j = i
  swap
  · -- Another session's move leaves the program and the inputs.
    have hsame := session_stable hj hm
    exact ⟨by rw [hsame]; exact h.tape, by rw [hsame]; exact h.prog⟩
  subst hj
  have hnew : ∀ (d : Config S σ ω κ ι ρ) (s : Session S ω ρ),
      d.sessions = Function.update c.sessions j s → (∀ n, R (s.tape.get n)) → s.prog.Within R D →
      Supplied R D d j := by
    intro d s hsessions htape hwithin
    have hsame : d.sessions j = s := hsessions ▸ Function.update_self _ _ _
    exact ⟨by rw [hsame]; exact htape, by rw [hsame]; exact hwithin⟩
  have hprog := h.prog
  cases hm with
  | close hend => exact hnew _ _ rfl h.tape hprog
  | crash => exact hnew _ _ rfl h.tape trivial
  | raise o f e hp he => exact hnew _ _ rfl h.tape trivial
  | ask f hp =>
    rw [hp] at hprog
    exact hnew _ _ rfl (fun n => h.tape (n + 1)) (hprog _ (h.tape 0))
  | emit o p hp =>
    rw [hp] at hprog
    exact hnew _ { c.sessions j with prog := p } rfl h.tape hprog
  | stmt o f r ws hp hl he =>
    rw [hp] at hprog
    exact hnew _ { c.sessions j with prog := f r, pending := (c.sessions j).pending ++ ws } rfl h.tape
      (hprog.2 r)
  | commit p hp =>
    rw [hp] at hprog
    exact hnew _ { c.sessions j with prog := p, pending := [] } rfl h.tape hprog
  | rollback p hp =>
    rw [hp] at hprog
    exact hnew _ { c.sessions j with prog := p, pending := [] } rfl h.tape hprog

end Sessions

end Transact
