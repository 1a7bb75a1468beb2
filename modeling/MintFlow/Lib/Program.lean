import Mathlib.Data.Stream.Init
import Mathlib.Tactic.Common

set_option relaxedAutoImplicit false
set_option autoImplicit false

/-!
# Transactional programs

A program that talks to a database through a fixed set of statements, reads its environment (a
clock, a random source, a remote call) through inputs, sends messages, and commits or rolls back
whenever it likes. Programs are a free monad, so the same program can be run alone, interleaved
with others, or reasoned about against arbitrary responses.

## Main definitions

* `Transact.Signature` — the statements with their responses, inputs, outputs and errors.
* `Transact.Prog` — programs over a signature.
* `Transact.Logic`, `Transact.Prog.wp` — the obligations a reader attaches to each action, and the
  weakest precondition they give a program.
* `Transact.Backend`, `Transact.Prog.exec` — a database that answers statements, and the run of a
  program that is alone on it.

## Main results

* `Transact.Prog.wp_bind`, `Transact.Prog.wp_handle`, `Transact.Prog.wp_mono` — weakest
  preconditions compose.
* `Transact.Prog.wp_exec` — what is proved by `wp` holds of every run on a database.
* `Transact.Prog.MayReturn.of_wp` — or of what a program returns while others change the database.
-/

namespace Transact

/-- The actions open to a program. -/
structure Signature where
  /-- The statements. -/
  Op : Type
  /-- What a statement answers. -/
  Resp : Op → Type
  /-- What the environment hands over when the program asks. -/
  Input : Type
  /-- What the program sends out. -/
  Output : Type
  /-- What the program, or a statement of it, raises. -/
  Error : Type
  /-- What stops a session that is interrupted. -/
  interrupted : Error

/-- A program over `S` that returns an `α`. -/
inductive Prog (S : Signature) (α : Type) : Type
  /-- Return. -/
  | pure (a : α) : Prog S α
  /-- Raise. -/
  | fail (e : S.Error) : Prog S α
  /-- Read the next input. -/
  | ask (k : S.Input → Prog S α) : Prog S α
  /-- Send a message. -/
  | emit (o : S.Output) (p : Prog S α) : Prog S α
  /-- Execute a statement. -/
  | stmt (o : S.Op) (k : S.Resp o → Prog S α) : Prog S α
  /-- Commit the open transaction. -/
  | commit (p : Prog S α) : Prog S α
  /-- Roll the open transaction back. -/
  | rollback (p : Prog S α) : Prog S α

namespace Prog

variable {S : Signature} {α β γ : Type}

/-! ## Composition -/

/-- Sequential composition. -/
def bind : Prog S α → (α → Prog S β) → Prog S β
  | pure a, f => f a
  | fail e, _ => fail e
  | ask k, f => ask fun i => (k i).bind f
  | emit o p, f => emit o (p.bind f)
  | stmt o k, f => stmt o fun r => (k r).bind f
  | commit p, f => commit (p.bind f)
  | rollback p, f => rollback (p.bind f)

instance : Monad (Prog S) where
  pure := Prog.pure
  bind := Prog.bind

/-- `try … except`: errors the program itself raises go to `h`. An error raised by a statement
aborts the transaction and is not caught. -/
def handle (h : S.Error → Prog S α) : Prog S α → Prog S α
  | pure a => pure a
  | fail e => h e
  | ask k => ask fun i => (k i).handle h
  | emit o p => emit o (p.handle h)
  | stmt o k => stmt o fun r => (k r).handle h
  | commit p => commit (p.handle h)
  | rollback p => rollback (p.handle h)

/-- Execute one statement. -/
def perform (o : S.Op) : Prog S (S.Resp o) := stmt o pure

/-- Read one input. -/
def input : Prog S S.Input := ask pure

/-- Send one message. -/
def send (o : S.Output) : Prog S Unit := emit o (pure ())

/-- Commit. -/
def commits : Prog S Unit := commit (pure ())

/-- Roll back. -/
def rollbacks : Prog S Unit := rollback (pure ())

/-- Run a pure computation that may fail. -/
def lift {ε : Type} (f : ε → S.Error) : Except ε α → Prog S α
  | .ok a => pure a
  | .error e => fail (f e)

@[simp] lemma pure_def (a : α) : (Pure.pure a : Prog S α) = Prog.pure a := rfl

@[simp] lemma bind_def (p : Prog S α) (f : α → Prog S β) : p >>= f = p.bind f := rfl

@[simp] lemma bind_pure (p : Prog S α) : p.bind Prog.pure = p := by
  induction p with
  | pure a => rfl
  | fail e => rfl
  | ask k ih => simp [bind, ih]
  | emit o p ih => simp [bind, ih]
  | stmt o k ih => simp [bind, ih]
  | commit p ih => simp [bind, ih]
  | rollback p ih => simp [bind, ih]

/-- Three programs in sequence can be grouped either way. -/
lemma bind_assoc (p : Prog S α) (f : α → Prog S β) (g : β → Prog S γ) :
    (p.bind f).bind g = p.bind fun a => (f a).bind g := by
  induction p with
  | pure a => rfl
  | fail e => rfl
  | ask k ih => simp [bind, ih]
  | emit o p ih => simp [bind, ih]
  | stmt o k ih => simp [bind, ih]
  | commit p ih => simp [bind, ih]
  | rollback p ih => simp [bind, ih]

instance : LawfulMonad (Prog S) :=
  LawfulMonad.mk' _ bind_pure (fun _ _ => rfl) bind_assoc

end Prog

/-! ## Obligations and weakest preconditions -/

/-- What a reader of type `K` demands of each action, and how the reader's state moves on. A
predicate over the next state is passed along, so that an action with several outcomes can demand
it of each of them. -/
structure Logic (S : Signature) (K : Type) where
  /-- What must hold when the program raises. -/
  fail : S.Error → K → Prop
  /-- What must hold of a message and what follows it. -/
  emit : S.Output → K → (K → Prop) → Prop
  /-- What must hold of a statement and of each of its responses. -/
  stmt : (o : S.Op) → K → (S.Resp o → K → Prop) → Prop
  /-- What must hold at a commit and after it. -/
  commit : K → (K → Prop) → Prop
  /-- What must hold at a rollback and after it. -/
  rollback : K → (K → Prop) → Prop
  emit_mono : ∀ o k P Q, (∀ k', P k' → Q k') → emit o k P → emit o k Q
  stmt_mono : ∀ o k P Q, (∀ r k', P r k' → Q r k') → stmt o k P → stmt o k Q
  commit_mono : ∀ k P Q, (∀ k', P k' → Q k') → commit k P → commit k Q
  rollback_mono : ∀ k P Q, (∀ k', P k' → Q k') → rollback k P → rollback k Q

/-- The same obligations with another demand on what is raised. -/
def Logic.withFail {S : Signature} {K : Type} (L : Logic S K) (F : S.Error → K → Prop) :
    Logic S K :=
  { L with fail := F }

@[simp] lemma Logic.withFail_withFail {S : Signature} {K : Type} (L : Logic S K)
    (F G : S.Error → K → Prop) : (L.withFail F).withFail G = L.withFail G := rfl

namespace Prog

variable {S : Signature} {K α β : Type}

/-- The weakest precondition for every obligation of `L` to be met and `Q` to hold on return. -/
def wp (L : Logic S K) : Prog S α → (α → K → Prop) → K → Prop
  | pure a, Q, k => Q a k
  | fail e, _, k => L.fail e k
  | ask f, Q, k => ∀ i, (f i).wp L Q k
  | emit o p, Q, k => L.emit o k (p.wp L Q)
  | stmt o f, Q, k => L.stmt o k fun r k' => (f r).wp L Q k'
  | commit p, Q, k => L.commit k (p.wp L Q)
  | rollback p, Q, k => L.rollback k (p.wp L Q)

variable {L : Logic S K} {Q : α → K → Prop} {k : K}

@[simp] lemma wp_pure (a : α) : (pure a : Prog S α).wp L Q k ↔ Q a k := Iff.rfl

@[simp] lemma wp_fail (e : S.Error) : (fail e : Prog S α).wp L Q k ↔ L.fail e k := Iff.rfl

@[simp] lemma wp_ask (f : S.Input → Prog S α) :
    (ask f).wp L Q k ↔ ∀ i, (f i).wp L Q k := Iff.rfl

/-- The weakest precondition is monotone in the postcondition. -/
lemma wp_mono (p : Prog S α) {Q Q' : α → K → Prop} (h : ∀ a k, Q a k → Q' a k) :
    ∀ {k : K}, p.wp L Q k → p.wp L Q' k := by
  induction p with
  | pure a => exact fun hp => h _ _ hp
  | fail e => exact fun hp => hp
  | ask f ih => exact fun hp i => ih i (hp i)
  | emit o p ih => exact fun hp => L.emit_mono _ _ _ _ (fun _ => ih) hp
  | stmt o f ih => exact fun hp => L.stmt_mono _ _ _ _ (fun r _ => ih r) hp
  | commit p ih => exact fun hp => L.commit_mono _ _ _ (fun _ => ih) hp
  | rollback p ih => exact fun hp => L.rollback_mono _ _ _ (fun _ => ih) hp

/-- **Composition.** A program followed by another meets its obligations exactly when the first
does with the second's precondition as its postcondition. -/
lemma wp_bind (p : Prog S α) (f : α → Prog S β) {Q : β → K → Prop} :
    ∀ {k : K}, (p.bind f).wp L Q k ↔ p.wp L (fun a => (f a).wp L Q) k := by
  induction p with
  | pure a => exact Iff.rfl
  | fail e => exact Iff.rfl
  | ask g ih => exact forall_congr' fun i => ih i
  | emit o p ih =>
    exact ⟨L.emit_mono _ _ _ _ fun _ => ih.mp, L.emit_mono _ _ _ _ fun _ => ih.mpr⟩
  | stmt o g ih =>
    exact ⟨L.stmt_mono _ _ _ _ fun r _ => (ih r).mp, L.stmt_mono _ _ _ _ fun r _ => (ih r).mpr⟩
  | commit p ih =>
    exact ⟨L.commit_mono _ _ _ fun _ => ih.mp, L.commit_mono _ _ _ fun _ => ih.mpr⟩
  | rollback p ih =>
    exact ⟨L.rollback_mono _ _ _ fun _ => ih.mp, L.rollback_mono _ _ _ fun _ => ih.mpr⟩

/-- **Handlers.** A program under a handler meets its obligations exactly when it does with the
handler's precondition demanded of what it raises. -/
lemma wp_handle (h : S.Error → Prog S α) (p : Prog S α) {Q : α → K → Prop} :
    ∀ {k : K}, (p.handle h).wp L Q k ↔ p.wp (L.withFail fun e => (h e).wp L Q) Q k := by
  induction p with
  | pure a => exact Iff.rfl
  | fail e => exact Iff.rfl
  | ask g ih => exact forall_congr' fun i => ih i
  | emit o p ih =>
    exact ⟨L.emit_mono _ _ _ _ fun _ => ih.mp, L.emit_mono _ _ _ _ fun _ => ih.mpr⟩
  | stmt o g ih =>
    exact ⟨L.stmt_mono _ _ _ _ fun r _ => (ih r).mp, L.stmt_mono _ _ _ _ fun r _ => (ih r).mpr⟩
  | commit p ih =>
    exact ⟨L.commit_mono _ _ _ fun _ => ih.mp, L.commit_mono _ _ _ fun _ => ih.mpr⟩
  | rollback p ih =>
    exact ⟨L.rollback_mono _ _ _ fun _ => ih.mp, L.rollback_mono _ _ _ fun _ => ih.mpr⟩

/-- A specification of the first part, weakened to what the second part needs. -/
lemma wp_bind_of {p : Prog S α} {f : α → Prog S β} {R : α → K → Prop} {Q : β → K → Prop}
    (hp : p.wp L R k) (hf : ∀ a k', R a k' → (f a).wp L Q k') : (p.bind f).wp L Q k :=
  (wp_bind p f).mpr (wp_mono p hf hp)

@[simp] lemma wp_perform (o : S.Op) {Q : S.Resp o → K → Prop} :
    (perform o).wp L Q k ↔ L.stmt o k Q := Iff.rfl

@[simp] lemma wp_input {Q : S.Input → K → Prop} :
    (input : Prog S S.Input).wp L Q k ↔ ∀ i, Q i k := Iff.rfl

@[simp] lemma wp_send (o : S.Output) {Q : Unit → K → Prop} :
    (send o).wp L Q k ↔ L.emit o k (Q ()) := Iff.rfl

@[simp] lemma wp_commits {Q : Unit → K → Prop} :
    (commits : Prog S Unit).wp L Q k ↔ L.commit k (Q ()) := Iff.rfl

@[simp] lemma wp_rollbacks {Q : Unit → K → Prop} :
    (rollbacks : Prog S Unit).wp L Q k ↔ L.rollback k (Q ()) := Iff.rfl

@[simp] lemma wp_lift_ok {ε : Type} (f : ε → S.Error) (a : α) :
    (lift f (.ok a) : Prog S α).wp L Q k ↔ Q a k := Iff.rfl

@[simp] lemma wp_lift_error {ε : Type} (f : ε → S.Error) (e : ε) :
    (lift f (.error e) : Prog S α).wp L Q k ↔ L.fail (f e) k := Iff.rfl

end Prog

/-! ## Databases -/

/-- The strength of a lock on a row, as PostgreSQL has it. -/
inductive Strength
  /-- `FOR KEY SHARE`, which a foreign key takes on the row it points at. -/
  | keyShare
  /-- `FOR SHARE`. -/
  | share
  /-- `FOR NO KEY UPDATE`, which an `UPDATE` takes. -/
  | noKeyUpdate
  /-- `FOR UPDATE`, which a `DELETE` takes too. -/
  | update
deriving DecidableEq, Repr

namespace Strength

/-- The place of a strength, from the weakest on. -/
def rank : Strength → ℕ
  | .keyShare => 0
  | .share => 1
  | .noKeyUpdate => 2
  | .update => 3

instance : LE Strength := ⟨fun m n => m.rank ≤ n.rank⟩

instance : DecidableLE Strength := fun m n => inferInstanceAs (Decidable (m.rank ≤ n.rank))

/-- Whether two transactions cannot hold a lock with these strengths at once. -/
def conflicts (m n : Strength) : Bool := decide (3 ≤ m.rank + n.rank)

lemma le_def {m n : Strength} : m ≤ n ↔ m.rank ≤ n.rank := Iff.rfl

lemma conflicts_iff {m n : Strength} : m.conflicts n = true ↔ 3 ≤ m.rank + n.rank := by
  simp [conflicts]

/-- A stronger lock conflicts with at least as much. -/
lemma conflicts_mono {m m' n n' : Strength} (hm : m ≤ m') (hn : n ≤ n')
    (h : m.conflicts n = true) : m'.conflicts n' = true := by
  rw [conflicts_iff] at h ⊢
  rw [le_def] at hm hn
  omega

end Strength

/-- A database that answers statements. A statement either raises or gives a response and the
writes that record its effect; it works under the locks it names, and may look at which rows it
could not lock at once (`SKIP LOCKED`). -/
structure Backend (S : Signature) (σ ω κ : Type) where
  /-- The effect of a write. -/
  apply : ω → σ → σ
  /-- The outcome of a statement on a state, given which locks others hold. -/
  eval : (o : S.Op) → (κ → Bool) → σ → Except S.Error (S.Resp o × List ω)
  /-- The locks a statement takes, and how strongly. -/
  locks : S.Op → (κ → Bool) → σ → List (κ × Strength)

namespace Backend

variable {S : Signature} {σ ω κ : Type}

/-- A state after a sequence of writes. -/
def applyAll (B : Backend S σ ω κ) (ws : List ω) (s : σ) : σ := ws.foldl (fun s w => B.apply w s) s

@[simp] lemma applyAll_nil (B : Backend S σ ω κ) (s : σ) : B.applyAll [] s = s := rfl

@[simp] lemma applyAll_cons (B : Backend S σ ω κ) (w : ω) (ws : List ω) (s : σ) :
    B.applyAll (w :: ws) s = B.applyAll ws (B.apply w s) := rfl

@[simp] lemma applyAll_append (B : Backend S σ ω κ) (ws ws' : List ω) (s : σ) :
    B.applyAll (ws ++ ws') s = B.applyAll ws' (B.applyAll ws s) := by
  simp [applyAll]

end Backend

/-- What a program that is alone on the database sees: the committed state and the state inside its
open transaction. -/
structure Alone (σ : Type) where
  /-- The committed state. -/
  db : σ
  /-- The state the open transaction reads. -/
  view : σ

/-- How a run ended. -/
structure Outcome (S : Signature) (σ α : Type) where
  /-- What the program returned or raised. -/
  result : Except S.Error α
  /-- The states at the end. -/
  final : Alone σ
  /-- The committed states the run published, oldest first. -/
  published : List σ
  /-- The messages sent, oldest first. -/
  sent : List S.Output

namespace Prog

variable {S : Signature} {σ ω κ α : Type}

/-- Run a program alone on a database, with its inputs taken from a tape. -/
def exec (B : Backend S σ ω κ) : Prog S α → Stream' S.Input → Alone σ → Outcome S σ α
  | pure a, _, s => ⟨.ok a, s, [], []⟩
  | fail e, _, s => ⟨.error e, s, [], []⟩
  | ask f, tape, s => (f tape.head).exec B tape.tail s
  | emit o p, tape, s =>
    let r := p.exec B tape s
    { r with sent := o :: r.sent }
  | stmt o f, tape, s =>
    match B.eval o (fun _ => false) s.view with
    | .ok (r, ws) => (f r).exec B tape { s with view := B.applyAll ws s.view }
    | .error e => ⟨.error e, s, [], []⟩
  | commit p, tape, s =>
    let r := p.exec B tape ⟨s.view, s.view⟩
    { r with published := s.view :: r.published }
  | rollback p, tape, s => p.exec B tape ⟨s.db, s.db⟩

/-- A statement either answers with `P` or raises as `F` allows. -/
def answered (B : Backend S σ ω κ) (F : S.Error → Alone σ → Prop) {o : S.Op}
    (P : S.Resp o → Alone σ → Prop) (s : Alone σ) : Prop :=
  match B.eval o (fun _ => false) s.view with
  | .ok (r, ws) => P r { s with view := B.applyAll ws s.view }
  | .error e => F e s

/-- The obligations of a program that is alone on the database: `C` holds of every state it
commits, given the one before, and `F` holds whenever it raises. -/
def aloneLogic (B : Backend S σ ω κ) (C : σ → σ → Prop) (F : S.Error → Alone σ → Prop) :
    Logic S (Alone σ) where
  fail := F
  emit := fun _ s P => P s
  stmt := fun o s P => answered B F P s
  commit := fun s P => C s.db s.view ∧ P ⟨s.view, s.view⟩
  rollback := fun s P => P ⟨s.db, s.db⟩
  emit_mono := fun _ _ _ _ h hP => h _ hP
  stmt_mono := fun o s P Q h hP => by
    revert hP
    simp only [answered]
    cases B.eval o (fun _ => false) s.view with
    | ok r => exact h _ _
    | error e => exact id
  commit_mono := fun _ _ _ h hP => ⟨hP.1, h _ hP.2⟩
  rollback_mono := fun _ _ _ h hP => h _ hP

variable {B : Backend S σ ω κ} {C : σ → σ → Prop} {F : S.Error → Alone σ → Prop}

/-- A program whose obligations are all void meets them. -/
lemma wp_trivial (p : Prog S α) : ∀ {s : Alone σ},
    p.wp (aloneLogic B (fun _ _ => True) fun _ _ => True) (fun _ _ => True) s := by
  induction p with
  | pure a => exact fun {_} => trivial
  | fail e => exact fun {_} => trivial
  | ask f ih => exact fun {_} i => ih i
  | emit o p ih => exact ih
  | stmt o f ih =>
    intro s
    show answered B (fun _ _ => True)
      (fun r s' => (f r).wp (aloneLogic B (fun _ _ => True) fun _ _ => True) (fun _ _ => True) s') s
    unfold answered
    cases B.eval o (fun _ => false) s.view with
    | ok r => exact ih r.1
    | error e => trivial
  | commit p ih => exact fun {_} => ⟨trivial, ih⟩
  | rollback p ih => exact fun {_} => ih

/-- **Soundness.** A program whose obligations are met commits only states related by `C` to the
committed state before, raises only as `F` allows, and returns with its postcondition.

**Proof sketch.** Induction on the program. A commit adds one link to the chain, from the committed
state to the view; a refused statement meets the obligation for its error; every other step changes
neither. -/
theorem wp_exec (p : Prog S α) {Q : α → Alone σ → Prop} :
    ∀ (tape : Stream' S.Input) {s : Alone σ}, p.wp (aloneLogic B C F) Q s →
      List.IsChain C (s.db :: (p.exec B tape s).published) ∧
      (p.exec B tape s).published.getLastD s.db = (p.exec B tape s).final.db ∧
      (∀ a, (p.exec B tape s).result = .ok a → Q a (p.exec B tape s).final) ∧
      ∀ e, (p.exec B tape s).result = .error e → F e (p.exec B tape s).final := by
  induction p with
  | pure a => exact fun tape s h => ⟨by simp [exec], by simp [exec], by
      rintro _ ⟨⟩; exact h, by rintro _ ⟨⟩⟩
  | fail e => exact fun tape s h => ⟨by simp [exec], by simp [exec], by
      rintro _ ⟨⟩, by rintro _ ⟨⟩; exact h⟩
  | ask f ih => exact fun tape s h => ih tape.head tape.tail (h tape.head)
  | emit o p ih => exact fun tape s h => ih tape (s := s) h
  | stmt o f ih =>
    intro tape s h
    replace h : answered B F (fun r s' => (f r).wp (aloneLogic B C F) Q s') s := h
    simp only [exec]
    cases heq : B.eval o (fun _ => false) s.view with
    | ok r =>
      rw [answered, heq] at h
      exact ih r.1 tape h
    | error e =>
      rw [answered, heq] at h
      exact ⟨by simp, by simp, by rintro _ ⟨⟩, by rintro _ ⟨⟩; exact h⟩
  | commit p ih =>
    intro tape s h
    obtain ⟨hC, hp⟩ := h
    obtain ⟨h₁, h₂, h₃, h₄⟩ := ih tape hp
    refine ⟨?_, ?_, h₃, h₄⟩
    · exact List.isChain_cons_cons.mpr ⟨hC, h₁⟩
    · exact (List.getLastD_cons ..).trans h₂
  | rollback p ih => exact fun tape s h => ih tape (s := ⟨s.db, s.db⟩) h

/-- Along a chain of steps that each establish `I`, every element satisfies it. -/
lemma forall_mem_of_isChain {I : σ → Prop} {a : σ} {l : List σ} (ha : I a)
    (h : List.IsChain (fun _ => I) (a :: l)) : ∀ b ∈ a :: l, I b := by
  induction l generalizing a with
  | nil => exact fun b hb => (List.mem_singleton.mp hb) ▸ ha
  | cons c l ih =>
    obtain ⟨hc, hl⟩ := List.isChain_cons_cons.mp h
    intro b hb
    rcases List.mem_cons.mp hb with rfl | hb
    · exact ha
    · exact ih hc hl b hb

/-- An invariant that every commit keeps holds of the committed state at the end. -/
lemma wp_exec_invariant (p : Prog S α) {I : σ → Prop} {Q : α → Alone σ → Prop}
    (tape : Stream' S.Input) {s : Alone σ}
    (h : p.wp (aloneLogic B (fun _ => I) F) Q s) (hI : I s.db) :
    I (p.exec B tape s).final.db ∧ ∀ s' ∈ (p.exec B tape s).published, I s' := by
  obtain ⟨hc, hl, -, -⟩ := wp_exec p tape h
  have hall := forall_mem_of_isChain hI hc
  refine ⟨?_, fun s' hs => hall s' (List.mem_cons_of_mem _ hs)⟩
  rw [← hl, List.getLastD_eq_getLast?]
  cases hp : (p.exec B tape s).published.getLast? with
  | none => exact hI
  | some s' => exact hall s' (List.mem_cons_of_mem _ (List.mem_of_getLast? hp))

/-! ## Programs that only read -/

/-- A program that only reads is a value: before any continuation it passes on what it returns, or
raises, and leaves no trace. -/
def ReadsAs (B : Backend S σ ω κ) (s : Alone σ) (p : Prog S α) (x : Except S.Error α) : Prop :=
  ∀ (β : Type) (f : α → Prog S β) (tape : Stream' S.Input),
    (p.bind f).exec B tape s =
      match x with
      | .ok a => (f a).exec B tape s
      | .error e => ⟨.error e, s, [], []⟩

namespace ReadsAs

variable {s : Alone σ} {p : Prog S α} {x : Except S.Error α} {β : Type}

lemma pure (a : α) : ReadsAs B s (.pure a) (.ok a) := fun _ _ _ => rfl

lemma fail (e : S.Error) : ReadsAs B s (.fail e : Prog S α) (.error e) := fun _ _ _ => rfl

/-- A statement that writes nothing. -/
lemma perform {o : S.Op} {r : S.Resp o} (h : B.eval o (fun _ => false) s.view = .ok (r, [])) :
    ReadsAs B s (perform o) (.ok r) := by
  intro _ f tape
  show (Prog.stmt o f).exec B tape s = _
  simp only [exec, h, Backend.applyAll_nil]

/-- One program after another. -/
lemma bind {f : α → Prog S β} {g : α → Except S.Error β} (h : ReadsAs B s p x)
    (hf : ∀ a, x = .ok a → ReadsAs B s (f a) (g a)) : ReadsAs B s (p.bind f) (x >>= g) := by
  intro γ k tape
  rw [bind_assoc, h]
  cases x with
  | ok a => exact hf a rfl γ k tape
  | error e => rfl

/-- One program after another that returned. -/
lemma andThen {a : α} {f : α → Prog S β} {y : Except S.Error β} (h : ReadsAs B s p (.ok a))
    (hf : ReadsAs B s (f a) y) : ReadsAs B s (p.bind f) y :=
  bind (g := fun _ => y) h fun a' ha => by cases ha; exact hf

/-- The run of a program that only reads. -/
lemma exec (h : ReadsAs B s p x) (tape : Stream' S.Input) : p.exec B tape s = ⟨x, s, [], []⟩ := by
  have h' := h α Prog.pure tape
  rw [bind_pure] at h'
  rw [h']
  cases x <;> rfl

end ReadsAs

/-! ## Programs on a changing database -/

/-- A program may return a value: each of its statements answers as it does on some database, under
some locks of others. Whatever others do between its statements, what it returns is among these. -/
inductive MayReturn (B : Backend S σ ω κ) : Prog S α → α → Prop
  | pure (a : α) : MayReturn B (pure a) a
  | ask {f : S.Input → Prog S α} {a : α} (i : S.Input) (h : MayReturn B (f i) a) :
    MayReturn B (ask f) a
  | emit {o : S.Output} {p : Prog S α} {a : α} (h : MayReturn B p a) : MayReturn B (emit o p) a
  | stmt {o : S.Op} {f : S.Resp o → Prog S α} {a : α} {taken : κ → Bool} {s : σ} {r : S.Resp o}
    {ws : List ω} (heval : B.eval o taken s = .ok (r, ws)) (h : MayReturn B (f r) a) :
    MayReturn B (stmt o f) a
  | commit {p : Prog S α} {a : α} (h : MayReturn B p a) : MayReturn B (commit p) a
  | rollback {p : Prog S α} {a : α} (h : MayReturn B p a) : MayReturn B (rollback p) a

/-- The obligations of a program whose statements answer as on any database. -/
def answerLogic (B : Backend S σ ω κ) : Logic S Unit where
  fail := fun _ _ => True
  emit := fun _ k P => P k
  stmt := fun o k P => ∀ taken s r ws, B.eval o taken s = .ok (r, ws) → P r k
  commit := fun k P => P k
  rollback := fun k P => P k
  emit_mono := fun _ _ _ _ h hP => h _ hP
  stmt_mono := fun _ _ _ _ h hP taken s r ws heval => h _ _ (hP taken s r ws heval)
  commit_mono := fun _ _ _ h hP => h _ hP
  rollback_mono := fun _ _ _ h hP => h _ hP

/-- What is proved of any answers holds of what a program may return. -/
lemma MayReturn.of_wp {p : Prog S α} {a : α} (h : MayReturn B p a) {Q : α → Prop}
    (hp : p.wp (answerLogic B) (fun a _ => Q a) ()) : Q a := by
  induction h with
  | pure a => exact hp
  | ask i _ ih => exact ih (hp i)
  | emit _ ih => exact ih hp
  | stmt heval _ ih => exact ih (hp _ _ _ _ heval)
  | commit _ ih => exact ih hp
  | rollback _ ih => exact ih hp

/-- Nothing is demanded of a program whose result does not matter. -/
lemma wp_answers (p : Prog S α) : p.wp (answerLogic B) (fun _ _ => True) () := by
  induction p with
  | pure a => trivial
  | fail e => trivial
  | ask f ih => exact ih
  | emit o p ih => exact ih
  | stmt o f ih => exact fun _ _ r _ _ => ih r
  | commit p ih => exact ih
  | rollback p ih => exact ih

/-- What a program returns when it is alone is among what it may return.

**Proof sketch.** Induction on the program: the answer that a session alone gets is one of those
that `MayReturn` allows at every statement. -/
lemma mayReturn_of_exec {p : Prog S α} {a : α} (tape : Stream' S.Input) (s : Alone σ)
    (h : (p.exec B tape s).result = .ok a) : MayReturn B p a := by
  induction p generalizing tape s with
  | pure b =>
    obtain rfl := Except.ok.inj h
    exact .pure b
  | fail e => cases h
  | ask f ih => exact .ask tape.head (ih tape.head tape.tail s h)
  | emit o p ih => exact .emit (ih tape s h)
  | stmt o f ih =>
    unfold exec at h
    cases heval : B.eval o (fun _ => false) s.view with
    | ok r =>
      rw [heval] at h
      exact .stmt heval (ih r.1 tape _ h)
    | error e =>
      rw [heval] at h
      cases h
  | commit p ih => exact .commit (ih tape ⟨s.view, s.view⟩ h)
  | rollback p ih => exact .rollback (ih tape ⟨s.db, s.db⟩ h)

end Prog

end Transact
