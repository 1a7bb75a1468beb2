import MintFlow.Lib.Table

set_option relaxedAutoImplicit false
set_option autoImplicit false

/-!
# Snapshots kept as rows

A repository keeps the latest snapshot of each object as a row: one function makes the row of a new
object, another overwrites the columns of a row that a later snapshot may change, and a third reads
a row back. The three are written by hand and need not agree; what they have to agree on is stated
here as laws of a mapping, and that a snapshot which was stored is read back follows from them,
whatever else was stored in between.

## Main definitions

* `Transact.Mapping` — the three functions.
* `Transact.Mapping.create`, `Transact.Mapping.update` — an insert and an update, which the database
  may refuse.
* `Transact.SnapshotStatement`, `Transact.Mapping.run` — statements one after another.

## Main results

* `Transact.Mapping.find_after` — the row after an insert, any statements and an update.
-/

namespace Transact

/-- How objects are kept as rows. -/
structure Mapping (α ρ κ ε : Type) where
  /-- The identifier of an object. -/
  id : α → κ
  /-- The primary key of a row. -/
  key : ρ → κ
  /-- The row of a new object. -/
  record : α → ρ
  /-- The columns of a snapshot in the place of a row's. -/
  write : α → ρ → ρ
  /-- The object that a row is read as. -/
  read : ρ → Except ε α
  /-- A new row has the identifier of its object. -/
  key_record : ∀ a, key (record a) = id a
  /-- The identifier of a row is not written. -/
  key_write : ∀ a r, key (write a r) = key r
  /-- What is written, is written whatever the columns held. -/
  write_write : ∀ a b r, write a (write b r) = write a r

/-- A statement on the rows, run while the rest of the database is `env`. -/
inductive SnapshotStatement (α E : Type)
  | create (env : E) (a : α)
  | update (env : E) (a : α)

namespace Mapping

variable {α ρ κ ε δ E : Type} [DecidableEq κ] (m : Mapping α ρ κ ε)

/-- Why a row cannot be put in the place of another, or be added, if it cannot. -/
abbrev Refusal (E δ : Type) : Type := E → Table m.key → Option ρ → ρ → Option δ

variable (refuses : m.Refusal E δ) (duplicate : δ)

/-- `INSERT`. -/
def create (env : E) (t : Table m.key) (a : α) : Except δ (Table m.key) :=
  if (t.find (m.id a)).isSome then .error duplicate
  else match refuses env t none (m.record a) with
    | some e => .error e
    | none => .ok (t.add (m.record a))

/-- `UPDATE … WHERE id = …`, which finds at most one row. -/
def update (env : E) (t : Table m.key) (a : α) : Except δ (Table m.key) :=
  match t.find (m.id a) with
  | none => .ok t
  | some r => match refuses env t (some r) (m.write a r) with
    | some e => .error e
    | none => .ok (t.upsert (m.write a r))

/-- One statement. -/
def step (t : Table m.key) : SnapshotStatement α E → Except δ (Table m.key)
  | .create env a => m.create refuses duplicate env t a
  | .update env a => m.update refuses env t a

/-- Statements one after another, up to one that is refused. -/
def run (t : Table m.key) (ss : List (SnapshotStatement α E)) : Except δ (Table m.key) :=
  ss.foldlM (m.step refuses duplicate) t

variable {m refuses duplicate} {env : E} {t t' : Table m.key} {a : α}

/-! ## One statement -/

/-- A row that was added was not refused, and its key was new.

**Proof sketch.** Cases on the lookup and on the refusal, which are the two ways to raise. -/
lemma create_eq_ok : m.create refuses duplicate env t a = .ok t' ↔
    t.find (m.id a) = none ∧ refuses env t none (m.record a) = none ∧ t' = t.add (m.record a) := by
  unfold create
  cases hfind : t.find (m.id a) with
  | some r =>
    refine iff_of_false ?_ ?_
    · intro h
      cases h
    · rintro ⟨h, -⟩
      cases h
  | none =>
    rw [if_neg (by simp)]
    cases hrefused : refuses env t none (m.record a) with
    | some e =>
      refine iff_of_false ?_ ?_
      · intro h
        cases h
      · rintro ⟨-, h, -⟩
        cases h
    | none =>
      constructor
      · intro h
        cases h
        exact ⟨rfl, rfl, rfl⟩
      · rintro ⟨-, -, rfl⟩
        rfl

/-- An update that went through found no row, or was not refused.

**Proof sketch.** Cases on the lookup, and on the refusal of the row that would be written. -/
lemma update_eq_ok : m.update refuses env t a = .ok t' ↔
    (t.find (m.id a) = none ∧ t' = t) ∨
      ∃ r, t.find (m.id a) = some r ∧ refuses env t (some r) (m.write a r) = none ∧
        t' = t.upsert (m.write a r) := by
  unfold update
  cases hfind : t.find (m.id a) with
  | none =>
    constructor
    · intro h
      cases h
      exact .inl ⟨rfl, rfl⟩
    · rintro (⟨-, rfl⟩ | ⟨r, h, -⟩)
      · rfl
      · cases h
  | some r =>
    dsimp only
    cases hrefused : refuses env t (some r) (m.write a r) with
    | some e =>
      refine iff_of_false ?_ ?_
      · intro h
        cases h
      · rintro (⟨h, -⟩ | ⟨r', h, hnot, -⟩)
        · cases h
        · cases h
          rw [hrefused] at hnot
          cases hnot
    | none =>
      constructor
      · intro h
        cases h
        exact .inr ⟨r, rfl, hrefused, rfl⟩
      · rintro (⟨h, -⟩ | ⟨r', h, -, rfl⟩)
        · cases h
        · cases h
          rfl

/-- The row after an update of it. -/
lemma find_update {r : ρ} (hfind : t.find (m.id a) = some r)
    (h : m.update refuses env t a = .ok t') : t'.find (m.id a) = some (m.write a r) := by
  obtain ⟨hnone, -⟩ | ⟨r', hr', -, rfl⟩ := update_eq_ok.mp h
  · rw [hfind] at hnone
    cases hnone
  · obtain rfl := Option.some.inj (hfind.symm.trans hr')
    rw [Table.find_upsert, m.key_write, Table.key_of_find hfind, if_pos rfl]

/-! ## Statements one after another -/

/-- A row holds what a snapshot of `a` will make of the row of `a`. -/
def Holds (m : Mapping α ρ κ ε) (a₀ : α) (t : Table m.key) : Prop :=
  ∃ r, t.find (m.id a₀) = some r ∧ ∀ b, m.write b r = m.write b (m.record a₀)

/-- A new row holds it. -/
lemma holds_create (h : m.create refuses duplicate env t a = .ok t') : m.Holds a t' := by
  obtain ⟨hnone, -, rfl⟩ := create_eq_ok.mp h
  rw [← m.key_record] at hnone
  refine ⟨m.record a, ?_, fun _ => rfl⟩
  rw [Table.find_add hnone, m.key_record, if_pos rfl]

/-- Every statement keeps it: an insert adds another row, and what an update writes will be
written again.

**Proof sketch.** The row is another one's and stays, or it is written over by a snapshot of the
same object, and writing twice is writing the last. -/
lemma holds_step {a₀ : α} (h : m.Holds a₀ t) {s : SnapshotStatement α E}
    (hstep : m.step refuses duplicate t s = .ok t') : m.Holds a₀ t' := by
  obtain ⟨r, hfind, hwrite⟩ := h
  cases s with
  | create env a =>
    obtain ⟨hnone, -, rfl⟩ := create_eq_ok.mp hstep
    have hne : m.id a₀ ≠ m.id a := by
      intro hid
      rw [← hid, hfind] at hnone
      cases hnone
    refine ⟨r, ?_, hwrite⟩
    rw [Table.find_add_of_ne (by rwa [m.key_record]), hfind]
  | update env a =>
    obtain ⟨-, rfl⟩ | ⟨r', hr', -, rfl⟩ := update_eq_ok.mp hstep
    · exact ⟨r, hfind, hwrite⟩
    · have hkey := (m.key_write a r').trans (Table.key_of_find hr')
      by_cases hid : m.id a₀ = m.id a
      · rw [← hid, hfind] at hr'
        obtain rfl := Option.some.inj hr'
        refine ⟨m.write a r, ?_, fun b => (m.write_write b a r).trans (hwrite b)⟩
        rw [Table.find_upsert, hkey, if_pos hid]
      · refine ⟨r, ?_, hwrite⟩
        rw [Table.find_upsert, hkey, if_neg hid, hfind]

/-- Statements one after another keep it. -/
lemma holds_run {a₀ : α} {ss : List (SnapshotStatement α E)} (h : m.Holds a₀ t)
    (hrun : m.run refuses duplicate t ss = .ok t') : m.Holds a₀ t' := by
  induction ss generalizing t with
  | nil =>
    cases hrun
    exact h
  | cons s ss ih =>
    unfold run at hrun
    rw [List.foldlM_cons] at hrun
    cases hstep : m.step refuses duplicate t s with
    | error e =>
      rw [hstep] at hrun
      cases hrun
    | ok t₁ =>
      rw [hstep] at hrun
      exact ih (holds_step h hstep) hrun

variable {t₀ t₁ t₂ : Table m.key} {a₀ : α} {env' : E} {ss : List (SnapshotStatement α E)}

/-- **The last snapshot is kept.** After an object was created, any statements were run and a
snapshot of it was stored, its row is that of the creation with the snapshot written over it.

**Proof sketch.** The statements in between change only columns that the snapshot overwrites. -/
lemma find_after (hid : m.id a = m.id a₀) (hcreate : m.create refuses duplicate env t a₀ = .ok t₀)
    (hrun : m.run refuses duplicate t₀ ss = .ok t₁) (hupdate : m.update refuses env' t₁ a = .ok t₂) :
    t₂.find (m.id a) = some (m.write a (m.record a₀)) := by
  obtain ⟨r, hfind, hwrite⟩ := holds_run (holds_create hcreate) hrun
  rw [← hid] at hfind
  rw [find_update hfind hupdate, hwrite]

end Mapping

end Transact
