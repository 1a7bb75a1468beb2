import Mathlib.Data.List.Nodup
import Mathlib.Data.List.Perm.Basic
import Mathlib.Tactic.Common

set_option relaxedAutoImplicit false
set_option autoImplicit false

/-!
# Keyed tables

A table is a finite list of rows no two of which have the same primary key. The key is a function
of the row, so it is part of the table's type, and a table with a repeated key cannot be built.
The operations are those of a single-table SQL statement: look a row up by key, insert a row whose
key is new, update the rows with a key, and delete rows. Each of them is specified by what it does
to `find`.

## Main definitions

* `Transact.Table` — rows with pairwise different keys.
* `Transact.Table.find`, `add`, `mapRows`, `upsert`, `discard` — the operations.

## Main results

* `Transact.Table.find_add`, `find_mapRows`, `find_upsert`, `find_upsertAll_map` —
  what a lookup returns afterwards.
* `Transact.Table.find_addAll`, `find_upsertAll` — the same for many rows: the first insertion of a
  key wins, and so does an upsert over what was there.
* `Transact.Table.mem_iff_find` — a row is in the table iff its own key finds it.
-/

namespace Transact

/-- A finite table whose primary key is `key`. -/
structure Table {κ ρ : Type} (key : ρ → κ) where
  /-- The rows, in insertion order. -/
  rows : List ρ
  /-- The primary key constraint. -/
  nodup : (rows.map key).Nodup

namespace Table

variable {κ ρ : Type} {key : ρ → κ}

/-- The table without rows. -/
def empty : Table key := ⟨[], by simp⟩

instance : Inhabited (Table key) := ⟨empty⟩

instance : Membership ρ (Table key) := ⟨fun t r => r ∈ t.rows⟩

lemma mem_def {t : Table key} {r : ρ} : r ∈ t ↔ r ∈ t.rows := Iff.rfl

/-- Two rows of a table with one key are one row. -/
lemma eq_of_key_eq {t : Table key} {r r' : ρ} (hr : r ∈ t) (hr' : r' ∈ t)
    (h : key r = key r') : r = r' :=
  List.inj_on_of_nodup_map t.nodup hr hr' h

variable [DecidableEq κ]

/-- The row with primary key `k`. -/
def find (t : Table key) (k : κ) : Option ρ := t.rows.find? fun r => decide (key r = k)

/-- A row that was found has the key it was looked up by. -/
lemma key_of_find {t : Table key} {k : κ} {r : ρ} (h : t.find k = some r) : key r = k := by
  simpa using List.find?_some h

/-- A row that was found is in the table. -/
lemma mem_of_find {t : Table key} {k : κ} {r : ρ} (h : t.find k = some r) : r ∈ t :=
  List.mem_of_find?_eq_some h

/-- A row of the table is found by its own key. -/
lemma find_of_mem {t : Table key} {r : ρ} (h : r ∈ t) : t.find (key r) = some r := by
  cases hf : t.find (key r) with
  | none =>
    have := List.find?_eq_none.mp hf r h
    simp at this
  | some r' => rw [eq_of_key_eq (mem_of_find hf) h (key_of_find hf)]

/-- A row is in the table exactly when its own key finds it. -/
lemma mem_iff_find {t : Table key} {r : ρ} : r ∈ t ↔ t.find (key r) = some r :=
  ⟨find_of_mem, mem_of_find⟩

/-- A key finds nothing exactly when no row has it. -/
lemma find_eq_none {t : Table key} {k : κ} : t.find k = none ↔ ∀ r ∈ t, key r ≠ k := by
  simp [find, List.find?_eq_none, mem_def]

@[simp] lemma find_empty (k : κ) : (empty : Table key).find k = none := rfl

/-! ## Insertion -/

/-- `INSERT`: append a row, unless its key is taken (the caller reports the violation). -/
def add (t : Table key) (r : ρ) : Table key :=
  if h : ∀ r' ∈ t.rows, key r' ≠ key r then
    ⟨t.rows ++ [r], by
      rw [List.map_append, List.nodup_append]
      refine ⟨t.nodup, by simp, ?_⟩
      intro a ha b hb
      simp only [List.map_cons, List.map_nil, List.mem_singleton] at hb
      obtain ⟨r', hr', rfl⟩ := List.mem_map.mp ha
      exact hb ▸ h r' hr'⟩
  else t

/-- After an insertion the new row is found by its key and every other lookup is as before. -/
lemma find_add {t : Table key} {r : ρ} (h : t.find (key r) = none) (k : κ) :
    (t.add r).find k = if k = key r then some r else t.find k := by
  have h' : ∀ r' ∈ t.rows, key r' ≠ key r := find_eq_none.mp h
  simp only [add, dif_pos h', find, List.find?_append]
  by_cases hk : k = key r
  · subst hk
    have hn : t.rows.find? (fun r' => decide (key r' = key r)) = none := h
    simp [hn]
  · have hk' : ¬ key r = k := fun h => hk h.symm
    simp [hk, hk']

/-- The rows after an insertion with a new key. -/
lemma rows_add {t : Table key} {r : ρ} (h : t.find (key r) = none) :
    (t.add r).rows = t.rows ++ [r] := by
  have h' : ∀ r' ∈ t.rows, key r' ≠ key r := find_eq_none.mp h
  simp [add, dif_pos h']

/-- An insertion never disturbs a row whose key is different. -/
lemma find_add_of_ne {t : Table key} {r : ρ} {k : κ} (hk : k ≠ key r) :
    (t.add r).find k = t.find k := by
  cases h : t.find (key r) with
  | none => rw [find_add h, if_neg hk]
  | some r' =>
    have hn : ¬ ∀ r' ∈ t.rows, key r' ≠ key r := fun hall => by
      rw [find_eq_none.mpr hall] at h; cases h
    rw [add, dif_neg hn]

/-- An insertion under a taken key changes nothing. -/
lemma add_of_find {t : Table key} {r r' : ρ} (h : t.find (key r) = some r') : t.add r = t := by
  have hn : ¬ ∀ r' ∈ t.rows, key r' ≠ key r := fun hall => by
    rw [find_eq_none.mpr hall] at h; cases h
  rw [add, dif_neg hn]

/-- Insert rows one after another; a row whose key is taken by then is passed over. -/
def addAll (t : Table key) (rs : List ρ) : Table key := rs.foldl add t

/-- **First come.** After inserting rows, a key finds the row it had, else the first new row that
has it.

**Proof sketch.** Induction on the rows. The first of them is passed over when its key is taken,
and then no lookup by that key gets past the table. -/
lemma find_addAll (t : Table key) (rs : List ρ) (k : κ) :
    (t.addAll rs).find k = (t.find k).or (rs.find? fun r => decide (key r = k)) := by
  induction rs generalizing t with
  | nil =>
    show t.find k = _
    rw [List.find?_nil, Option.or_none]
  | cons r rs ih =>
    show ((t.add r).addAll rs).find k = _
    rw [ih, List.find?_cons]
    by_cases hk : key r = k
    · subst hk
      simp only [decide_true]
      cases hfind : t.find (key r) with
      | none => rw [find_add hfind, if_pos rfl]; rfl
      | some r' => rw [add_of_find hfind, hfind]; rfl
    · rw [find_add_of_ne fun h => hk h.symm, decide_eq_false hk]

/-! ## Update -/

/-- `UPDATE … SET …` on every row, by a function that keeps the key. -/
def mapRows (t : Table key) (f : ρ → ρ) (hf : ∀ r, key (f r) = key r) : Table key :=
  ⟨t.rows.map f, by simpa [List.map_map, Function.comp_def, hf] using t.nodup⟩

/-- A lookup after an update of every row. -/
@[simp] lemma find_mapRows (t : Table key) (f : ρ → ρ) (hf : ∀ r, key (f r) = key r) (k : κ) :
    (t.mapRows f hf).find k = (t.find k).map f := by
  have hkey : (fun r => decide (key r = k)) ∘ f = fun r => decide (key r = k) :=
    funext fun r => by rw [Function.comp_apply, hf]
  rw [find, mapRows, List.find?_map, hkey]
  rfl

/-- `INSERT … ON CONFLICT DO UPDATE`: put a row in the place of the one with its key, or append it. -/
def upsert (t : Table key) (r : ρ) : Table key :=
  if t.find (key r) = none then t.add r
  else t.mapRows (fun r' => if key r' = key r then r else r') fun r' => by
    split <;> simp [*]

/-- After an upsert the row is found by its key and every other lookup is as before. -/
lemma find_upsert (t : Table key) (r : ρ) (k : κ) :
    (t.upsert r).find k = if k = key r then some r else t.find k := by
  unfold upsert
  split_ifs with h hk hk
  · rw [find_add h, if_pos hk]
  · rw [find_add h, if_neg hk]
  · obtain ⟨r', hr'⟩ := Option.ne_none_iff_exists'.mp h
    subst hk
    simp [hr', key_of_find hr']
  · rw [find_mapRows]
    cases hf : t.find k with
    | none => rfl
    | some r' =>
      have : ¬ key r' = key r := fun h => hk ((key_of_find hf).symm.trans h)
      simp [this]

/-- The row an upsert put in is found. -/
@[simp] lemma find_upsert_self (t : Table key) (r : ρ) : (t.upsert r).find (key r) = some r := by
  rw [find_upsert, if_pos rfl]

/-- The rows after an upsert: the new row, and the rows with other keys. -/
lemma mem_upsert {t : Table key} {r r' : ρ} :
    r' ∈ t.upsert r ↔ r' = r ∨ r' ∈ t ∧ key r' ≠ key r := by
  rw [mem_iff_find, find_upsert]
  by_cases hk : key r' = key r
  · rw [if_pos hk]
    simp only [Option.some.injEq, hk, ne_eq, not_true_eq_false, and_false, or_false]
    exact eq_comm
  · have hne : r' ≠ r := fun h => hk (h ▸ rfl)
    rw [if_neg hk]
    simp [hk, hne, mem_iff_find]

/-- Put rows in, one after another. -/
def upsertAll (t : Table key) (rs : List ρ) : Table key := rs.foldl upsert t

/-- **Last word.** After putting in rows with pairwise different keys, a key finds the new row that
has it, else what it found before. -/
lemma find_upsertAll {t : Table key} {rs : List ρ} (hnodup : (rs.map key).Nodup) (k : κ) :
    (t.upsertAll rs).find k = (rs.find? fun r => decide (key r = k)).or (t.find k) := by
  induction rs generalizing t with
  | nil => rfl
  | cons r rs ih =>
    obtain ⟨hr, hnodup⟩ := List.nodup_cons.mp hnodup
    show ((t.upsert r).upsertAll rs).find k = _
    rw [ih hnodup, find_upsert, List.find?_cons]
    by_cases hk : key r = k
    · subst hk
      have hrest : rs.find? (fun r' => decide (key r' = key r)) = none := by
        rw [List.find?_eq_none]
        intro r' hr' h
        exact hr (List.mem_map.mpr ⟨r', hr', of_decide_eq_true h⟩)
      rw [hrest, if_pos rfl, decide_eq_true rfl]
      rfl
    · rw [if_neg fun h => hk h.symm, decide_eq_false hk]

/-- **Bulk updates.** After rewriting some of its rows a table has each row, rewritten if it was
among them.

**Proof sketch.** Induction on the rows to rewrite. A row that comes later has another key, so it
is still in the table when its turn comes. -/
lemma find_upsertAll_map [DecidableEq ρ] {t : Table key} {f : ρ → ρ} {rs : List ρ}
    (hf : ∀ r, key (f r) = key r) (hmem : ∀ r ∈ rs, r ∈ t) (hnodup : (rs.map key).Nodup)
    (k : κ) :
    (t.upsertAll (rs.map f)).find k = (t.find k).map fun r => if r ∈ rs then f r else r := by
  induction rs generalizing t with
  | nil =>
    show t.find k = _
    cases t.find k <;> rfl
  | cons r rs ih =>
    obtain ⟨hr, hnodup⟩ := List.nodup_cons.mp hnodup
    have hne : ∀ r' ∈ rs, key r' ≠ key (f r) := by
      intro r' hr' hk
      rw [hf] at hk
      exact hr (hk ▸ List.mem_map_of_mem hr')
    have hmem' : ∀ r' ∈ rs, r' ∈ t.upsert (f r) := fun r' hr' =>
      mem_upsert.mpr (.inr ⟨hmem r' (List.mem_cons_of_mem _ hr'), hne r' hr'⟩)
    show ((t.upsert (f r)).upsertAll (rs.map f)).find k = _
    rw [ih hmem' hnodup, find_upsert, hf]
    by_cases hk : k = key r
    · subst hk
      rw [if_pos rfl, find_of_mem (hmem r List.mem_cons_self), Option.map_some, Option.map_some,
        if_pos List.mem_cons_self, if_neg fun h => hne _ h rfl]
    · rw [if_neg hk]
      cases hfind : t.find k with
      | none => rfl
      | some r' =>
        have hr' : r' ≠ r := fun h => hk ((key_of_find hfind).symm.trans (h ▸ rfl))
        rw [Option.map_some, Option.map_some]
        simp only [List.mem_cons, hr', false_or]

/-! ## Deletion -/

/-- `DELETE … WHERE p`. -/
def discard (t : Table key) (p : ρ → Bool) : Table key :=
  ⟨t.rows.filter fun r => !p r, t.nodup.sublist (List.filter_sublist.map key)⟩

omit [DecidableEq κ] in
/-- A row survives a deletion exactly when it was there and did not match. -/
lemma mem_discard {t : Table key} {p : ρ → Bool} {r : ρ} :
    r ∈ t.discard p ↔ r ∈ t ∧ p r = false := by
  simp [discard, mem_def]

/-- A lookup after the rows with a key were deleted. -/
lemma find_discard_key (t : Table key) (k k' : κ) :
    (t.discard fun r => decide (key r = k)).find k' = if k' = k then none else t.find k' := by
  by_cases hk : k' = k
  · rw [if_pos hk, find_eq_none]
    intro r hr hkey
    have hno := (mem_discard.mp hr).2
    rw [hkey, hk, decide_eq_true rfl] at hno
    cases hno
  · rw [if_neg hk]
    cases hfind : t.find k' with
    | none =>
      rw [find_eq_none] at hfind ⊢
      exact fun r hr => hfind r (mem_discard.mp hr).1
    | some r =>
      have hkey := key_of_find hfind
      rw [← hkey, ← mem_iff_find, mem_discard]
      exact ⟨mem_of_find hfind, decide_eq_false fun h => hk (hkey.symm.trans h)⟩

end Table

end Transact
