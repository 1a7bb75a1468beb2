import MintFlow.Lib.ReadCommitted
import MintFlow.Lib.Table
import Mathlib.Data.Set.Basic

set_option relaxedAutoImplicit false
set_option autoImplicit false

/-!
# Unique columns

A statement checks a unique constraint against the rows its session sees, and not against what other
sessions have yet to commit. That is enough where writes of rows with one value lock the value: then
no two rows of a committed state have it.

## Main definitions

* `Transact.RowSet` — the rows of a table, and what a write makes of them.
* `Transact.RowSet.own` — the rows that remain of a list of writes, whatever was there before.
* `Transact.Table.UniqueOn` — a column of a table is unique.
* `Transact.UniqueIndex` — a unique column of the rows, and the locks on its values.

## Main results

* `Transact.RowSet.mem_applyAll` — what was written, and what was there and is kept.
* `Transact.views_of_move` — what every session sees, after a move.
* `Transact.UniqueIndex.holds_of_move` — **Unique columns**: what every statement checks for its own
  session holds of every committed state.
-/

namespace Transact

variable {S : Signature} {σ ω κ ι ρ α ν : Type}

/-! ## Columns of a table -/

namespace Table

variable {key : ρ → κ} [DecidableEq κ] {column : ρ → Option ν} {t : Table key} {r : ρ}

omit [DecidableEq κ] in
/-- No two rows have the same value in a column. -/
def UniqueOn (column : ρ → Option ν) (t : Table key) : Prop :=
  ∀ x ∈ t, ∀ y ∈ t, ∀ v, column x = some v → column y = some v → x = y

/-- A row may be put in if its value is new, or is that of the row it replaces. -/
lemma UniqueOn.upsert (h : t.UniqueOn column)
    (hr : ∀ x ∈ t, ∀ v, column x = some v → column r = some v → key x = key r) :
    (t.upsert r).UniqueOn column := by
  intro x hx y hy v hxv hyv
  rcases mem_upsert.mp hx with hxr | ⟨hx', hxr⟩
  · rcases mem_upsert.mp hy with hyr | ⟨hy', hyr⟩
    · exact hxr.trans hyr.symm
    · rw [hxr] at hxv
      exact absurd (hr y hy' v hyv hxv) hyr
  · rcases mem_upsert.mp hy with hyr | ⟨hy', -⟩
    · rw [hyr] at hyv
      exact absurd (hr x hx' v hxv hyv) hxr
    · exact h x hx' y hy' v hxv hyv

/-- Rows may be rewritten if they keep their values. -/
lemma UniqueOn.upsertAll {rs : List ρ} (h : t.UniqueOn column)
    (hrs : ∀ r ∈ rs, ∃ x ∈ t, key x = key r ∧ column x = column r) :
    (t.upsertAll rs).UniqueOn column := by
  induction rs generalizing t with
  | nil => exact h
  | cons r rs ih =>
    obtain ⟨x, hx, hkey, hcol⟩ := hrs r List.mem_cons_self
    refine ih (h.upsert fun y hy v hyv hrv => ?_) fun r' hr' => ?_
    · rw [h y hy x hx v hyv (hcol.trans hrv)]
      exact hkey
    · obtain ⟨x', hx', hkey', hcol'⟩ := hrs r' (List.mem_cons_of_mem _ hr')
      by_cases hsame : key x' = key r
      · -- The row was rewritten already, and kept its value.
        obtain rfl := eq_of_key_eq hx hx' (hkey.trans hsame.symm)
        exact ⟨r, mem_upsert.mpr (.inl rfl), hkey.symm.trans hkey', hcol.symm.trans hcol'⟩
      · exact ⟨x', mem_upsert.mpr (.inr ⟨hx', hsame⟩), hkey', hcol'⟩

end Table

/-! ## Rows and writes -/

/-- The rows of a table: those a write puts in, and those it leaves. -/
structure RowSet (B : Backend S σ ω κ) (α : Type) where
  rows : σ → Set α
  /-- A write puts in a row. -/
  writes : ω → α → Prop
  /-- A write leaves a row. -/
  keeps : ω → α → Prop
  mem_apply : ∀ w s x, x ∈ rows (B.apply w s) ↔ writes w x ∨ x ∈ rows s ∧ keeps w x

namespace RowSet

variable {B : Backend S σ ω κ} (R : RowSet B α) {ws : List ω} {s : σ} {x : α}

/-- Writes that leave a row. -/
def KeepsAll (ws : List ω) (x : α) : Prop := ∀ w ∈ ws, R.keeps w x

/-- The rows that remain of what was written. -/
def own : List ω → Set α
  | [] => ∅
  | w :: ws => {x | x ∈ own ws ∨ R.writes w x ∧ R.KeepsAll ws x}

variable {R}

/-- **Rows after writes.** A row was written last, or was there and is left.

**Proof sketch.** Induction on the writes: a row that the first one put in or left is there after
the others exactly if they leave it. -/
lemma mem_applyAll : x ∈ R.rows (B.applyAll ws s) ↔ x ∈ R.own ws ∨ x ∈ R.rows s ∧ R.KeepsAll ws x := by
  induction ws generalizing s with
  | nil =>
    constructor
    · exact fun h => .inr ⟨h, fun _ hw => absurd hw List.not_mem_nil⟩
    · rintro (h | ⟨h, -⟩)
      · cases h
      · exact h
  | cons w ws ih =>
    have hkeeps : R.KeepsAll (w :: ws) x ↔ R.keeps w x ∧ R.KeepsAll ws x := List.forall_mem_cons
    rw [Backend.applyAll_cons, ih, R.mem_apply, hkeeps]
    constructor
    · rintro (h | ⟨h | ⟨h, hw⟩, hws⟩)
      · exact .inl (.inl h)
      · exact .inl (.inr ⟨h, hws⟩)
      · exact .inr ⟨h, hw, hws⟩
    · rintro ((h | ⟨h, hws⟩) | ⟨h, hw, hws⟩)
      · exact .inl h
      · exact .inr ⟨.inl h, hws⟩
      · exact .inr ⟨.inr ⟨h, hw⟩, hws⟩

/-- A row that remains was written. -/
lemma exists_write (h : x ∈ R.own ws) : ∃ w ∈ ws, R.writes w x := by
  induction ws with
  | nil => cases h
  | cons w ws ih =>
    rcases h with h | ⟨h, -⟩
    · obtain ⟨w', hw', hx⟩ := ih h
      exact ⟨w', List.mem_cons_of_mem _ hw', hx⟩
    · exact ⟨w, List.mem_cons_self, h⟩

/-- What remains of two lists of writes. -/
lemma mem_own_append {ws' : List ω} :
    x ∈ R.own (ws ++ ws') ↔ x ∈ R.own ws' ∨ x ∈ R.own ws ∧ R.KeepsAll ws' x := by
  induction ws with
  | nil =>
    constructor
    · exact .inl
    · rintro (h | ⟨h, -⟩)
      · exact h
      · cases h
  | cons w ws ih =>
    have hkeeps : R.KeepsAll (ws ++ ws') x ↔ R.KeepsAll ws x ∧ R.KeepsAll ws' x :=
      List.forall_mem_append
    show x ∈ R.own (ws ++ ws') ∨ R.writes w x ∧ R.KeepsAll (ws ++ ws') x ↔
      x ∈ R.own ws' ∨ (x ∈ R.own ws ∨ R.writes w x ∧ R.KeepsAll ws x) ∧ R.KeepsAll ws' x
    rw [ih, hkeeps]
    tauto

end RowSet

/-! ## What every session sees -/

/-- What holds of the committed state and of what every session sees is kept by a move, if the next
statement of the moving session keeps it for that session, and what that session publishes keeps it
for the others.

**Proof sketch.** A move that publishes nothing changes the view of its own session alone (`hput`).
A commit makes the view of its session the committed state, over which the others see their own
writes. -/
theorem views_of_move [DecidableEq ι] [DecidableEq κ] {B : Backend S σ ω κ}
    {c c' : Config S σ ω κ ι ρ} {j : ι} {P : σ → Prop}
    (hstmt : ∀ o f r ws, (c.sessions j).prog = .stmt o f →
      B.eval o (c.busy j) (c.view B j) = .ok (r, ws) → P (B.applyAll ws (c.view B j)))
    (hcommit : ∀ i, i ≠ j → P (B.applyAll (c.sessions i).pending (c.view B j)))
    (hdb : P c.db) (h : ∀ i, P (c.view B i)) (hm : Move B c j c') :
    P c'.db ∧ ∀ i, P (c'.view B i) := by
  -- A move that publishes nothing changes the view of its own session alone.
  have hput : ∀ s : Session S ω ρ, P (B.applyAll s.pending c.db) → ∀ i, P ((c.put j s).view B i) := by
    intro s hown i
    by_cases hi : i = j
    · subst hi
      rw [Config.view_put_self]
      exact hown
    · rw [Config.view_put_of_ne c hi]
      exact h i
  cases hm with
  | close => exact ⟨hdb, hput _ hdb⟩
  | ask f hp => exact ⟨hdb, hput _ (h j)⟩
  | emit o p hp => exact ⟨hdb, hput { c.sessions j with prog := p } (h j)⟩
  | raise o f e hp he => exact ⟨hdb, hput _ (h j)⟩
  | crash => exact ⟨hdb, hput _ (h j)⟩
  | rollback p hp => exact ⟨hdb, hput { c.sessions j with prog := p, pending := [] } hdb⟩
  | stmt o f r ws hp hl he =>
    refine ⟨hdb, hput { c.sessions j with
      prog := f r, pending := (c.sessions j).pending ++ ws } ?_⟩
    rw [Backend.applyAll_append]
    exact hstmt o f r ws hp he
  | commit p hp =>
    refine ⟨h j, fun i => ?_⟩
    by_cases hi : i = j
    · subst hi
      show P (B.applyAll (Function.update c.sessions i _ i).pending (c.view B i))
      rw [Function.update_self]
      exact h i
    · show P (B.applyAll (Function.update c.sessions j _ i).pending (c.view B j))
      rw [Function.update_of_ne hi]
      exact hcommit i hi

/-! ## Unique columns -/

/-- A unique column: rows with one value are written under one lock. -/
structure UniqueIndex (B : Backend S σ ω κ) (keys : ω → List κ) (α ν : Type) extends RowSet B α where
  /-- The value of a row, if it has one. -/
  column : α → Option ν
  lock : ν → κ
  locked : ∀ w x v, writes w x → column x = some v → lock v ∈ keys w

namespace UniqueIndex

variable {B : Backend S σ ω κ} {keys : ω → List κ} (U : UniqueIndex B keys α ν)

/-- No two rows have the same value. -/
def Holds (s : σ) : Prop :=
  ∀ x ∈ U.rows s, ∀ y ∈ U.rows s, ∀ v, U.column x = some v → U.column y = some v → x = y

variable {U} [DecidableEq ι] {c c' : Config S σ ω κ ι ρ} {i j : ι}

/-- Two sessions that wrote rows with one value are one. -/
lemma eq_of_own (hs : c.Sound keys) {x y : α} {v : ν} (hx : x ∈ U.own (c.sessions i).pending)
    (hy : y ∈ U.own (c.sessions j).pending) (hxv : U.column x = some v)
    (hyv : U.column y = some v) : i = j := by
  obtain ⟨w, hw, hwx⟩ := RowSet.exists_write hx
  obtain ⟨w', hw', hwy⟩ := RowSet.exists_write hy
  exact hs.eq_of_conflicts (hs.covered i w hw _ (U.locked w x v hwx hxv))
    (hs.covered j w' hw' _ (U.locked w' y v hwy hyv)) rfl

/-- What a session wrote, and what is left of what another one sees, have different values. -/
lemma eq_of_column (hs : c.Sound keys) (h : ∀ i, U.Holds (c.view B i)) (hij : i ≠ j) {x y : α}
    {v : ν} (hx : x ∈ U.own (c.sessions i).pending) (hy : y ∈ U.rows (c.view B j))
    (hkeeps : U.KeepsAll (c.sessions i).pending y) (hxv : U.column x = some v)
    (hyv : U.column y = some v) : x = y := by
  rcases RowSet.mem_applyAll.mp hy with hy | ⟨hy, -⟩
  · exact absurd (eq_of_own hs hx hy hxv hyv) hij
  · exact h i x (RowSet.mem_applyAll.mpr (.inl hx)) y (RowSet.mem_applyAll.mpr (.inr ⟨hy, hkeeps⟩))
      v hxv hyv

/-- What one session publishes keeps the constraint for another. -/
lemma holds_published (hs : c.Sound keys) (h : ∀ i, U.Holds (c.view B i)) (hij : i ≠ j) :
    U.Holds (B.applyAll (c.sessions i).pending (c.view B j)) := by
  intro x hx y hy v hxv hyv
  rcases RowSet.mem_applyAll.mp hx with hx | ⟨hx, hkx⟩
  · rcases RowSet.mem_applyAll.mp hy with hy | ⟨hy, hky⟩
    · exact h i x (RowSet.mem_applyAll.mpr (.inl hx)) y (RowSet.mem_applyAll.mpr (.inl hy)) v
        hxv hyv
    · exact eq_of_column hs h hij hx hy hky hxv hyv
  · rcases RowSet.mem_applyAll.mp hy with hy | ⟨hy, -⟩
    · exact (eq_of_column hs h hij hy hx hkx hyv hxv).symm
    · exact h j x hx y hy v hxv hyv

/-- **Unique columns.** If the next statement of the moving session keeps a unique constraint on what
that session sees, the move keeps it on the committed state and on what every session sees. -/
theorem holds_of_move [DecidableEq κ] (hs : c.Sound keys)
    (hstmt : ∀ o f r ws, (c.sessions j).prog = .stmt o f →
      B.eval o (c.busy j) (c.view B j) = .ok (r, ws) → U.Holds (B.applyAll ws (c.view B j)))
    (hdb : U.Holds c.db) (h : ∀ i, U.Holds (c.view B i)) (hm : Move B c j c') :
    U.Holds c'.db ∧ ∀ i, U.Holds (c'.view B i) :=
  views_of_move hstmt (fun _ hij => holds_published hs h hij) hdb h hm

end UniqueIndex

end Transact
