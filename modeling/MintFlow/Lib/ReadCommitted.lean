import MintFlow.Lib.Program
import Mathlib.Logic.Function.Basic

set_option relaxedAutoImplicit false
set_option autoImplicit false

/-!
# Sessions at READ COMMITTED

Any number of programs share one database. Every statement sees the latest committed state with the
session's own uncommitted writes on top, runs only when no other session holds a lock that conflicts
with those it names, and keeps its locks until the session commits, rolls back or ends. A session may
be stopped by an error between any two of its actions.

## Main definitions

* `Transact.Session`, `Transact.Config` — one session, and the database with all of them.
* `Transact.step`, `Transact.run` — one labelled step, and a sequence of them; both compute.
* `Transact.Move` — what one step can do, as a relation.
* `Transact.Guarded` — a part of the state that only holders of a lock can change.

## Main results

* `Transact.run_induction` — an invariant of steps is an invariant of runs.
* `Transact.Config.Sound` and `Transact.sound_of_move` — pending writes are covered by locks.
* `Transact.view_eq_of_not_owner` — a session that does not hold a lock sees the committed value of
  what the lock guards.
* `Transact.view_stable` — what a lock guards does not move under its holder.
-/

namespace Transact

variable {S : Signature} {σ ω κ ι ρ : Type}

/-- What a session did. -/
inductive Event (S : Signature) : Type
  /-- A statement and its response. -/
  | did (o : S.Op) (r : S.Resp o)
  /-- A commit. -/
  | committed
  /-- A rollback. -/
  | rolledBack

/-- One session. -/
structure Session (S : Signature) (ω ρ : Type) where
  /-- What is left to do. -/
  prog : Prog S ρ
  /-- The inputs still to come. -/
  tape : Stream' S.Input
  /-- The uncommitted writes, oldest first. -/
  pending : List ω
  /-- Whether the session has ended. -/
  closed : Bool

/-- The database with its sessions. -/
structure Config (S : Signature) (σ ω κ ι ρ : Type) where
  /-- The committed state. -/
  db : σ
  /-- Who holds each lock, and how strongly. -/
  holders : κ → List (ι × Strength)
  /-- The sessions. -/
  sessions : ι → Session S ω ρ
  /-- What each session did, oldest first. -/
  log : List (ι × Event S)
  /-- The messages sent, oldest first. -/
  sent : List (ι × S.Output)

/-- A step: the next action of a session, or an interruption that stops it where it is. -/
inductive Label (ι : Type) : Type
  | go (i : ι)
  | crash (i : ι)

namespace Config

variable [DecidableEq ι]

/-- The state that session `i` reads. -/
def view (B : Backend S σ ω κ) (c : Config S σ ω κ ι ρ) (i : ι) : σ :=
  B.applyAll (c.sessions i).pending c.db

/-- Whether another session than `i` holds the lock `k` in conflict with `m`. -/
def blocked (c : Config S σ ω κ ι ρ) (i : ι) (k : κ) (m : Strength) : Bool :=
  (c.holders k).any fun h => decide (h.1 ≠ i) && h.2.conflicts m

/-- Whether session `i` would have to wait for the strongest lock on `k`. -/
def busy (c : Config S σ ω κ ι ρ) (i : ι) (k : κ) : Bool := c.blocked i k .update

/-- Whether session `i` holds the lock `k` at least as strongly as `m`. -/
def holds (c : Config S σ ω κ ι ρ) (i : ι) (k : κ) (m : Strength) : Bool :=
  (c.holders k).any fun h => decide (h.1 = i) && decide (m ≤ h.2)

/-- Replace session `i`. -/
def put (c : Config S σ ω κ ι ρ) (i : ι) (s : Session S ω ρ) : Config S σ ω κ ι ρ :=
  { c with sessions := Function.update c.sessions i s }

/-- Give the locks `ls` to session `i`. -/
def take [DecidableEq κ] (c : Config S σ ω κ ι ρ) (i : ι) (ls : List (κ × Strength)) :
    Config S σ ω κ ι ρ :=
  { c with holders := fun k =>
      ((ls.filter fun l => decide (l.1 = k)).map fun l => (i, l.2)) ++ c.holders k }

/-- Take every lock away from session `i`. -/
def release (c : Config S σ ω κ ι ρ) (i : ι) : Config S σ ω κ ι ρ :=
  { c with holders := fun k => (c.holders k).filter fun h => decide (h.1 ≠ i) }

/-- Record what session `i` did. -/
def note (c : Config S σ ω κ ι ρ) (i : ι) (e : Event S) : Config S σ ω κ ι ρ :=
  { c with log := c.log ++ [(i, e)] }

/-- What session `i` did so far, oldest first. -/
def history (c : Config S σ ω κ ι ρ) (i : ι) : List (Event S) :=
  c.log.filterMap fun e => if e.1 = i then some e.2 else none

end Config

section Step

variable [DecidableEq ι] [DecidableEq κ]

/-- End session `i`: its uncommitted writes are lost and its locks are free. -/
def close (c : Config S σ ω κ ι ρ) (i : ι) : Config S σ ω κ ι ρ :=
  (c.put i { c.sessions i with pending := [], closed := true }).release i

/-- The configuration after the next action of session `i`, if it has one. -/
def advance (B : Backend S σ ω κ) (c : Config S σ ω κ ι ρ) (i : ι) :
    Option (Config S σ ω κ ι ρ) :=
  let s := c.sessions i
  match s.prog with
  | .pure _ => some (close c i)
  | .fail _ => some (close c i)
  | .ask k => some (c.put i { s with prog := k s.tape.head, tape := s.tape.tail })
  | .emit o p => some { c.put i { s with prog := p } with sent := c.sent ++ [(i, o)] }
  | .stmt o k =>
    let ls := B.locks o (c.busy i) (c.view B i)
    if ls.all fun l => !c.blocked i l.1 l.2 then
      match B.eval o (c.busy i) (c.view B i) with
      | .ok (r, ws) =>
        some (((c.put i { s with prog := k r, pending := s.pending ++ ws }).take i ls).note i
          (.did o r))
      | .error e => some (c.put i { s with prog := .fail e })
    else none
  | .commit p =>
    some (({ c with db := c.view B i }.put i { s with prog := p, pending := [] }).release i
      |>.note i .committed)
  | .rollback p => some (((c.put i { s with prog := p, pending := [] }).release i).note i
      .rolledBack)

/-- One labelled step, if it is possible. -/
def step (B : Backend S σ ω κ) (c : Config S σ ω κ ι ρ) :
    Label ι → Option (Config S σ ω κ ι ρ)
  | .go i => if (c.sessions i).closed then none else advance B c i
  | .crash i =>
    if (c.sessions i).closed then none
    else some (c.put i { c.sessions i with prog := .fail S.interrupted })

/-- A sequence of labelled steps, if each of them is possible. -/
def run (B : Backend S σ ω κ) (c : Config S σ ω κ ι ρ) :
    List (Label ι) → Option (Config S σ ω κ ι ρ)
  | [] => some c
  | l :: ls => (step B c l).bind fun c' => run B c' ls

/-- **What a step can do.** Session `i`, which is open, moves from `c` to the last argument. -/
inductive Move (B : Backend S σ ω κ) (c : Config S σ ω κ ι ρ) (i : ι) :
    Config S σ ω κ ι ρ → Prop
  | close : ((∃ a, (c.sessions i).prog = .pure a) ∨ ∃ e, (c.sessions i).prog = .fail e) →
      Move B c i (close c i)
  | ask (k : S.Input → Prog S ρ) : (c.sessions i).prog = .ask k →
      Move B c i (c.put i
        { c.sessions i with
          prog := k (c.sessions i).tape.head, tape := (c.sessions i).tape.tail })
  | emit (o : S.Output) (p : Prog S ρ) : (c.sessions i).prog = .emit o p →
      Move B c i { c.put i { c.sessions i with prog := p } with sent := c.sent ++ [(i, o)] }
  | stmt (o : S.Op) (k : S.Resp o → Prog S ρ) (r : S.Resp o) (ws : List ω) :
      (c.sessions i).prog = .stmt o k →
      (∀ l ∈ B.locks o (c.busy i) (c.view B i), c.blocked i l.1 l.2 = false) →
      B.eval o (c.busy i) (c.view B i) = .ok (r, ws) →
      Move B c i (((c.put i
        { c.sessions i with prog := k r, pending := (c.sessions i).pending ++ ws }).take i
          (B.locks o (c.busy i) (c.view B i))).note i (.did o r))
  | raise (o : S.Op) (k : S.Resp o → Prog S ρ) (e : S.Error) :
      (c.sessions i).prog = .stmt o k →
      B.eval o (c.busy i) (c.view B i) = .error e →
      Move B c i (c.put i { c.sessions i with prog := .fail e })
  | commit (p : Prog S ρ) : (c.sessions i).prog = .commit p →
      Move B c i ((({ c with db := c.view B i }.put i
        { c.sessions i with prog := p, pending := [] }).release i).note i .committed)
  | rollback (p : Prog S ρ) : (c.sessions i).prog = .rollback p →
      Move B c i (((c.put i { c.sessions i with prog := p, pending := [] }).release i).note i
        .rolledBack)
  | crash : Move B c i (c.put i { c.sessions i with prog := .fail S.interrupted })

variable {B : Backend S σ ω κ} {c c' : Config S σ ω κ ι ρ}

/-- The session a label is about. -/
def Label.who : Label ι → ι
  | .go i => i
  | .crash i => i

/-- Every step is a move of the session it is about, which was open.

**Proof sketch.** A step is the end of a session or the head of its program, and each head has its
own constructor of `Move`. A statement moves only where none of its locks is blocked. -/
lemma move_of_step {l : Label ι} (h : step B c l = some c') :
    (c.sessions l.who).closed = false ∧ Move B c l.who c' := by
  cases l with
  | crash i =>
    simp only [step, Option.ite_none_left_eq_some, Option.some.injEq] at h
    obtain ⟨hc, rfl⟩ := h
    exact ⟨eq_false_of_ne_true hc, .crash⟩
  | go i =>
    simp only [step, Option.ite_none_left_eq_some] at h
    obtain ⟨hc, h⟩ := h
    refine ⟨eq_false_of_ne_true hc, ?_⟩
    show Move B c i c'
    rw [advance] at h
    split at h
    · rename_i a heq
      exact Option.some.inj h ▸ .close (.inl ⟨a, heq⟩)
    · rename_i e heq
      exact Option.some.inj h ▸ .close (.inr ⟨e, heq⟩)
    · rename_i k heq
      exact Option.some.inj h ▸ .ask k heq
    · rename_i o p heq
      exact Option.some.inj h ▸ .emit o p heq
    · rename_i o k heq
      simp only [Option.ite_none_right_eq_some] at h
      obtain ⟨hl, h⟩ := h
      have hl' : ∀ l ∈ B.locks o (c.busy i) (c.view B i), c.blocked i l.1 l.2 = false := by
        intro l hmem
        simpa using List.all_eq_true.mp hl l hmem
      split at h
      · rename_i r ws hev
        exact Option.some.inj h ▸ .stmt o k r ws heq hl' hev
      · rename_i e hev
        exact Option.some.inj h ▸ .raise o k e heq hev
    · rename_i p heq
      exact Option.some.inj h ▸ .commit p heq
    · rename_i p heq
      exact Option.some.inj h ▸ .rollback p heq

/-- **Runs.** What holds at the start and is kept by every move of an open session holds after
every run. -/
theorem run_induction {P : Config S σ ω κ ι ρ → Prop}
    (hmove : ∀ c i c', P c → (c.sessions i).closed = false → Move B c i c' → P c') :
    ∀ {ls : List (Label ι)} {c c' : Config S σ ω κ ι ρ}, P c → run B c ls = some c' → P c'
  | [], _, _, hP, h => Option.some.inj h ▸ hP
  | l :: ls, c, c', hP, h => by
    obtain ⟨c₁, h₁, h₂⟩ := Option.bind_eq_some_iff.mp h
    obtain ⟨ho, hm⟩ := move_of_step h₁
    exact run_induction hmove (hmove _ _ _ hP ho hm) h₂

end Step

/-! ## Locks and what they guard -/

section Guard

/-- Every write of a statement is on keys the statement locks for writing. -/
def Backend.Covers (B : Backend S σ ω κ) (keys : ω → List κ) : Prop :=
  ∀ o busy s r ws, B.eval o busy s = .ok (r, ws) → ∀ w ∈ ws, ∀ k ∈ keys w,
    ∃ m, (k, m) ∈ B.locks o busy s ∧ .noKeyUpdate ≤ m

/-- A part of the state that the lock `k` guards: writes on other keys leave it alone, and what a
write makes of it depends on nothing else. -/
structure Guarded {τ : Type} (B : Backend S σ ω κ) (keys : ω → List κ) (k : κ) (obs : σ → τ) :
    Prop where
  frame : ∀ w s, k ∉ keys w → obs (B.apply w s) = obs s
  local_ : ∀ w s s', obs s = obs s' → obs (B.apply w s) = obs (B.apply w s')

variable [DecidableEq ι]

/-- Pending writes are covered by locks their session holds, and no two sessions hold conflicting
locks. -/
structure Config.Sound (keys : ω → List κ) (c : Config S σ ω κ ι ρ) : Prop where
  covered : ∀ i, ∀ w ∈ (c.sessions i).pending, ∀ k ∈ keys w, c.holds i k .noKeyUpdate = true
  compatible : ∀ k, ∀ h ∈ c.holders k, ∀ h' ∈ c.holders k, h.1 ≠ h'.1 → h.2.conflicts h'.2 = false

variable {B : Backend S σ ω κ} {keys : ω → List κ} {c c' : Config S σ ω κ ι ρ} {i j : ι} {k : κ}
  {m n : Strength} {τ : Type} {obs : σ → τ}

namespace Config

/-- What a session sees after its own writes. -/
lemma view_put_self (c : Config S σ ω κ ι ρ) (i : ι) (s : Session S ω ρ) :
    (c.put i s).view B i = B.applyAll s.pending c.db := by
  show B.applyAll (Function.update c.sessions i s i).pending c.db = _
  rw [Function.update_self]

/-- What another session sees. -/
lemma view_put_of_ne (c : Config S σ ω κ ι ρ) (h : j ≠ i) (s : Session S ω ρ) :
    (c.put i s).view B j = c.view B j := by
  show B.applyAll (Function.update c.sessions i s j).pending c.db = _
  rw [Function.update_of_ne h]
  rfl

/-- A session holds a lock in a mode if it took it in that mode or a stronger one. -/
lemma holds_iff : c.holds i k m = true ↔ ∃ n, (i, n) ∈ c.holders k ∧ m ≤ n := by
  simp only [holds, List.any_eq_true, Bool.and_eq_true, decide_eq_true_eq]
  constructor
  · rintro ⟨⟨j, n⟩, hmem, rfl, hle⟩
    exact ⟨n, hmem, hle⟩
  · rintro ⟨n, hmem, hle⟩
    exact ⟨(i, n), hmem, rfl, hle⟩

/-- Whoever holds a lock holds it less strongly too. -/
lemma holds_mono (hmn : m ≤ n) (h : c.holds i k n = true) : c.holds i k m = true := by
  obtain ⟨n', hmem, hle⟩ := holds_iff.mp h
  exact holds_iff.mpr ⟨n', hmem, Nat.le_trans hmn hle⟩

/-- Two sessions that hold conflicting locks are one. -/
lemma Sound.eq_of_conflicts (hs : c.Sound keys) (hi : c.holds i k m = true)
    (hj : c.holds j k n = true) (h : m.conflicts n = true) : i = j := by
  obtain ⟨m', hi', hm⟩ := holds_iff.mp hi
  obtain ⟨n', hj', hn⟩ := holds_iff.mp hj
  by_contra hij
  have hno := hs.compatible k _ hi' _ hj' hij
  rw [Strength.conflicts_mono hm hn h] at hno
  cases hno

/-- A release takes nothing from other sessions. -/
lemma holds_release (hij : i ≠ j) : (c.release j).holds i k m = c.holds i k m := by
  rw [Bool.eq_iff_iff, holds_iff, holds_iff]
  simp [release, hij]

/-- What a session holds after taking locks. -/
lemma holds_take_self [DecidableEq κ] {ls : List (κ × Strength)} :
    (c.take i ls).holds i k m = true ↔ (∃ n, (k, n) ∈ ls ∧ m ≤ n) ∨ c.holds i k m = true := by
  rw [holds_iff, holds_iff]
  simp only [take, List.mem_append, List.mem_map, List.mem_filter, decide_eq_true_eq]
  constructor
  · rintro ⟨n, ⟨⟨k', n'⟩, ⟨hmem, rfl⟩, heq⟩ | hmem, hle⟩
    · obtain ⟨-, rfl⟩ := Prod.mk.inj heq
      exact .inl ⟨n', hmem, hle⟩
    · exact .inr ⟨n, hmem, hle⟩
  · rintro (⟨n, hmem, hle⟩ | ⟨n, hmem, hle⟩)
    · exact ⟨n, .inl ⟨(k, n), ⟨hmem, rfl⟩, rfl⟩, hle⟩
    · exact ⟨n, .inr hmem, hle⟩

/-- Another session holds what it held. -/
lemma holds_take_of_ne [DecidableEq κ] {ls : List (κ × Strength)} (hij : i ≠ j) :
    (c.take j ls).holds i k m = c.holds i k m := by
  rw [Bool.eq_iff_iff, holds_iff, holds_iff]
  simp only [take, List.mem_append, List.mem_map, List.mem_filter, decide_eq_true_eq]
  constructor
  · rintro ⟨n, ⟨l, -, heq⟩ | hmem, hle⟩
    · exact absurd (congrArg Prod.fst heq).symm hij
    · exact ⟨n, hmem, hle⟩
  · rintro ⟨n, hmem, hle⟩
    exact ⟨n, .inr hmem, hle⟩

/-- Locks that are not blocked go with those that are held.

**Proof sketch.** A new lock and one that was held go together since the new one was not blocked.
Two new ones are the same session's, and two old ones went together before. -/
lemma compatible_take [DecidableEq κ] (hs : c.Sound keys) {ls : List (κ × Strength)}
    (hl : ∀ l ∈ ls, c.blocked i l.1 l.2 = false) :
    ∀ k, ∀ h ∈ (c.take i ls).holders k, ∀ h' ∈ (c.take i ls).holders k, h.1 ≠ h'.1 →
      h.2.conflicts h'.2 = false := by
  have hnew : ∀ k, ∀ h ∈ ls.filter fun l => decide (l.1 = k), ∀ h' ∈ c.holders k, i ≠ h'.1 →
      h'.2.conflicts h.2 = false := by
    intro k h hmem h' hmem' hne
    obtain ⟨hmem, hk⟩ := List.mem_filter.mp hmem
    have hany := List.any_eq_false.mp (hl h hmem) h' (of_decide_eq_true hk ▸ hmem')
    simpa [Ne.symm hne] using hany
  have hsymm : ∀ m n : Strength, m.conflicts n = n.conflicts m := fun m n => by
    simp only [Strength.conflicts, Nat.add_comm]
  intro k h hmem h' hmem' hne
  rcases List.mem_append.mp hmem with hmem | hmem <;>
    rcases List.mem_append.mp hmem' with hmem' | hmem'
  · obtain ⟨l, -, rfl⟩ := List.mem_map.mp hmem
    obtain ⟨l', -, rfl⟩ := List.mem_map.mp hmem'
    exact absurd rfl hne
  · obtain ⟨l, hl', rfl⟩ := List.mem_map.mp hmem
    rw [hsymm]
    exact hnew k l hl' h' hmem' hne
  · obtain ⟨l, hl', rfl⟩ := List.mem_map.mp hmem'
    exact hnew k l hl' h hmem hne.symm
  · exact hs.compatible k h hmem h' hmem' hne

end Config

/-- Moves keep pending writes covered and locks compatible.

**Proof sketch.** A move that adds no writes and takes no locks changes nothing (`hsame`). The end
of a transaction leaves its session without writes and without locks (`hnone`). A statement takes
the locks that its writes need, and none of them was blocked. -/
lemma sound_of_move [DecidableEq κ] (hB : B.Covers keys) (h : c.Sound keys) (hm : Move B c i c') :
    c'.Sound keys := by
  have hsame : ∀ s : Session S ω ρ, s.pending = (c.sessions i).pending →
      (c.put i s).Sound keys := by
    refine fun s hs => ⟨fun j w hw => ?_, h.compatible⟩
    by_cases hj : j = i
    · subst hj
      simp only [Config.put, Function.update_self, hs] at hw
      exact h.covered j w hw
    · simp only [Config.put, Function.update_of_ne hj] at hw
      exact h.covered j w hw
  have hnone : ∀ (db : σ) (s : Session S ω ρ), s.pending = [] →
      (({ c with db := db }.put i s).release i).Sound keys := by
    refine fun db s hs => ⟨fun j w hw k hk => ?_, fun k p hp p' hp' => ?_⟩
    · by_cases hj : j = i
      · subst hj
        simp [Config.put, Config.release, hs] at hw
      · simp only [Config.put, Config.release, Function.update_of_ne hj] at hw
        exact (Config.holds_release hj).trans (h.covered j w hw k hk)
    · exact h.compatible k p (List.mem_filter.mp hp).1 p' (List.mem_filter.mp hp').1
  cases hm with
  | close => exact hnone c.db _ rfl
  | ask k hp => exact hsame _ rfl
  | emit o p hp =>
    have hput := hsame { c.sessions i with prog := p } rfl
    exact ⟨hput.covered, hput.compatible⟩
  | raise o k e hp he => exact hsame _ rfl
  | crash => exact hsame _ rfl
  | commit p hp =>
    have hput := hnone (c.view B i) { c.sessions i with prog := p, pending := [] } rfl
    exact ⟨hput.covered, hput.compatible⟩
  | rollback p hp =>
    have hput := hnone c.db { c.sessions i with prog := p, pending := [] } rfl
    exact ⟨hput.covered, hput.compatible⟩
  | stmt o k r ws hp hl he =>
    refine ⟨fun j w hw q hq => ?_, Config.compatible_take ⟨h.covered, h.compatible⟩ hl⟩
    simp only [Config.note, Config.take, Config.put] at hw
    by_cases hj : j = i
    · subst hj
      rw [Function.update_self, List.mem_append] at hw
      refine Config.holds_take_self.mpr ?_
      rcases hw with hw | hw
      · exact .inr (h.covered j w hw q hq)
      · exact .inl (hB o _ _ r ws he w hw q hq)
    · rw [Function.update_of_ne hj] at hw
      exact (Config.holds_take_of_ne hj).trans (h.covered j w hw q hq)

omit [DecidableEq ι] in
/-- What a lock guards is the same after writes on other keys. -/
lemma Guarded.applyAll_of_not_mem (hg : Guarded B keys k obs) {ws : List ω}
    (h : ∀ w ∈ ws, k ∉ keys w) (s : σ) : obs (B.applyAll ws s) = obs s := by
  induction ws generalizing s with
  | nil => rfl
  | cons w ws ih =>
    rw [Backend.applyAll_cons, ih (fun w' hw' => h w' (List.mem_cons_of_mem _ hw')),
      hg.frame w s (h w List.mem_cons_self)]

omit [DecidableEq ι] in
/-- What writes make of a guarded part depends on that part alone. -/
lemma Guarded.applyAll_congr (hg : Guarded B keys k obs) (ws : List ω) {s s' : σ}
    (h : obs s = obs s') : obs (B.applyAll ws s) = obs (B.applyAll ws s') := by
  induction ws generalizing s s' with
  | nil => exact h
  | cons w ws ih => exact ih (hg.local_ w s s' h)

/-- **Reading without a lock.** A session sees the committed value of what a lock it does not hold
for writing guards. -/
lemma view_eq_of_not_holds (hs : c.Sound keys) (hg : Guarded B keys k obs)
    (hk : c.holds i k .noKeyUpdate = false) : obs (c.view B i) = obs c.db :=
  hg.applyAll_of_not_mem (fun w hw hmem => by
    have := hs.covered i w hw k hmem
    rw [hk] at this
    cases this) _

/-- **Reading under a lock.** A move of another session does not change the committed value of what
a lock guards while session `i` holds it at least in share mode. -/
lemma db_stable [DecidableEq κ] (hs : c.Sound keys) (hg : Guarded B keys k obs)
    (hk : c.holds i k .share = true) (hj : j ≠ i) (hm : Move B c j c') : obs c'.db = obs c.db := by
  cases hm with
  | commit p hp =>
    refine view_eq_of_not_holds hs hg (Bool.eq_false_iff.mpr fun hown => hj ?_)
    exact (hs.eq_of_conflicts hk hown rfl).symm
  | _ => rfl

/-- A lock stays with its holder while other sessions move. -/
lemma holds_stable [DecidableEq κ] (hj : j ≠ i) (hm : Move B c j c') :
    c'.holds i k m = c.holds i k m := by
  have hij : i ≠ j := fun h => hj h.symm
  cases hm with
  | close => exact Config.holds_release (c := c.put j _) hij
  | commit p hp => exact Config.holds_release (c := Config.put _ j _) hij
  | rollback p hp => exact Config.holds_release (c := c.put j _) hij
  | stmt o q r ws hp hl he => exact Config.holds_take_of_ne (c := c.put j _) hij
  | _ => rfl

/-- Another session's move leaves a session as it was. -/
lemma session_stable [DecidableEq κ] (hj : j ≠ i) (hm : Move B c j c') :
    c'.sessions i = c.sessions i := by
  cases hm <;> exact Function.update_of_ne (fun h => hj h.symm) _ c.sessions

/-- **Holding a lock.** What the lock guards looks the same to its holder while other sessions
move. -/
lemma view_stable [DecidableEq κ] (hs : c.Sound keys) (hg : Guarded B keys k obs)
    (hk : c.holds i k .share = true) (hj : j ≠ i) (hm : Move B c j c') :
    obs (c'.view B i) = obs (c.view B i) := by
  rw [Config.view, session_stable hj hm]
  exact hg.applyAll_congr _ (db_stable hs hg hk hj hm)

end Guard

end Transact
