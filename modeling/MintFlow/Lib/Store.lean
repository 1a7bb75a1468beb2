import Mathlib.Data.Sigma.Basic
import MintFlow.Lib.ReadCommitted
import MintFlow.Lib.Table

set_option relaxedAutoImplicit false
set_option autoImplicit false

/-!
# Databases of several tables

A layout names the tables of a database, the keys and rows of each, the values its rows may not
share, the rows they refer to and the checks they pass. A statement reads, and may insert, update
and delete rows; each of these actions is refused when it violates a constraint in the eyes of its
session. What an action locks follows from what it does.

## Main definitions

* `Transact.Layout`, `Transact.Store` — tables with their constraints, and their rows.
* `Transact.Change`, `Transact.Lock` — the writes, and what is locked.
* `Transact.Action` — `INSERT`, `UPDATE` and `DELETE`.
* `Transact.Conduct`, `Transact.Conduct.backend` — what statements do, as a database.

## Main results

* `Transact.Store.guarded_row` — the lock on a row guards it.
* `Transact.Conduct.backend_covers` — every change is under a lock of its statement.
-/

namespace Transact

/-! ## Tables and constraints -/

/-- The tables of a database and their constraints. -/
structure Layout where
  /-- The tables. -/
  Tab : Type
  /-- The primary keys of a table. -/
  Key : Tab → Type
  /-- The rows of a table. -/
  Row : Tab → Type
  key : (t : Tab) → Row t → Key t
  /-- The values of unique columns, and whatever else is locked by name. -/
  Name : Type
  /-- The values that no other row of the table may have. -/
  names : (t : Tab) → Row t → List Name
  /-- The rows that a row refers to. -/
  refs : (t : Tab) → Row t → List (Sigma Key)
  /-- The `CHECK` constraints. -/
  check : (t : Tab) → Row t → Bool
  /-- All tables. -/
  tables : List Tab
  mem_tables : ∀ t, t ∈ tables
  decTab : DecidableEq Tab
  decKey : ∀ t, DecidableEq (Key t)
  decName : DecidableEq Name

namespace Layout

variable (L : Layout)

instance instDecTab : DecidableEq L.Tab := L.decTab

instance instDecKey (t : L.Tab) : DecidableEq (L.Key t) := L.decKey t

instance instDecName : DecidableEq L.Name := L.decName

instance instDecMemNames (n : L.Name) (ns : List L.Name) : Decidable (n ∈ ns) :=
  inferInstance

/-- A row, as others refer to it. -/
def refTo (t : L.Tab) (row : L.Row t) : Sigma L.Key := ⟨t, L.key t row⟩

end Layout

/-- The rows of every table. -/
abbrev Store (L : Layout) : Type := (t : L.Tab) → Table (L.key t)

/-- The database without rows. -/
def Store.empty (L : Layout) : Store L := fun _ => Table.empty

/-- A write: put a row in the place of the one with its key, or drop a row. -/
inductive Change (L : Layout)
  | put (t : L.Tab) (row : L.Row t)
  | drop (t : L.Tab) (row : L.Row t)

/-- What is locked: rows, and values by their names. -/
inductive Lock (L : Layout)
  | row (t : L.Tab) (key : L.Key t)
  | name (n : L.Name)

section Store

variable {L : Layout}

namespace Lock

/-- A lock as a row or a name. -/
def code : Lock L → Sigma L.Key ⊕ L.Name
  | .row t key => .inl ⟨t, key⟩
  | .name n => .inr n

lemma code_injective : Function.Injective (code : Lock L → _) := by
  intro a b h
  cases a <;> cases b <;> cases h <;> rfl

instance instDecidableEq : DecidableEq (Lock L) := fun a b =>
  decidable_of_iff (a.code = b.code) code_injective.eq_iff

end Lock

namespace Change

/-- What a change touches. -/
def keys : Change L → List (Lock L)
  | .put t row => .row t (L.key t row) :: (L.names t row).map .name
  | .drop t row => .row t (L.key t row) :: (L.names t row).map .name

/-- The effect of a change. -/
def apply : Change L → Store L → Store L
  | .put t row, s => Function.update s t ((s t).upsert row)
  | .drop t row, s => Function.update s t ((s t).discard fun r => decide (L.key t r = L.key t row))

/-- The table of a change. -/
def tab : Change L → L.Tab
  | .put t _ => t
  | .drop t _ => t

end Change

namespace Store

/-- The effect of a list of changes. -/
def applyAll (s : Store L) (ws : List (Change L)) : Store L := ws.foldl (fun s w => w.apply s) s

@[simp] lemma applyAll_nil (s : Store L) : s.applyAll [] = s := rfl

@[simp] lemma applyAll_cons (s : Store L) (w : Change L) (ws : List (Change L)) :
    s.applyAll (w :: ws) = (w.apply s).applyAll ws := rfl

@[simp] lemma applyAll_append (s : Store L) (ws ws' : List (Change L)) :
    s.applyAll (ws ++ ws') = (s.applyAll ws).applyAll ws' := by
  simp [applyAll]

/-- The row with a key. -/
def find (s : Store L) (t : L.Tab) (key : L.Key t) : Option (L.Row t) := (s t).find key

/-- A row was put in, and the other rows are as they were. -/
lemma find_put (s : Store L) (t : L.Tab) (row : L.Row t) (key : L.Key t) :
    find ((Change.put t row).apply s) t key =
      if key = L.key t row then some row else s.find t key := by
  show (Function.update s t _ t).find key = _
  rw [Function.update_self, Table.find_upsert]
  rfl

/-- A row is gone, and the other rows are as they were. -/
lemma find_drop (s : Store L) (t : L.Tab) (row : L.Row t) (key : L.Key t) :
    find ((Change.drop t row).apply s) t key =
      if key = L.key t row then none else s.find t key := by
  show (Function.update s t _ t).find key = _
  rw [Function.update_self, Table.find_discard_key]
  rfl

/-- A change of one table leaves the others alone. -/
lemma apply_of_ne {w : Change L} {s : Store L} {t : L.Tab} (h : w.tab ≠ t) :
    w.apply s t = s t := by
  cases w <;> exact Function.update_of_ne h.symm _ s

/-- Changes of other tables leave a table alone. -/
lemma applyAll_of_ne {ws : List (Change L)} {s : Store L} {t : L.Tab} (h : ∀ w ∈ ws, w.tab ≠ t) :
    s.applyAll ws t = s t := by
  induction ws generalizing s with
  | nil => rfl
  | cons w ws ih =>
    rw [applyAll_cons, ih fun w' hw' => h w' (List.mem_cons_of_mem _ hw'),
      apply_of_ne (h w List.mem_cons_self)]

/-- The locks of a change on the rows of a table are one. -/
lemma row_mem_keys_put {t t' : L.Tab} {row : L.Row t'} {key : L.Key t} :
    Lock.row t key ∈ (Change.put t' row).keys ↔ Lock.row t key = Lock.row t' (L.key t' row) := by
  simp [Change.keys]

/-- The locks of a change on the rows of a table are one. -/
lemma row_mem_keys_drop {t t' : L.Tab} {row : L.Row t'} {key : L.Key t} :
    Lock.row t key ∈ (Change.drop t' row).keys ↔ Lock.row t key = Lock.row t' (L.key t' row) := by
  simp [Change.keys]

/-- A change on other rows leaves a row alone.

**Proof sketch.** A change touches one table, at the key of its row, and that key is another one. -/
lemma find_apply_of_not_mem {w : Change L} {s : Store L} {t : L.Tab} {key : L.Key t}
    (h : Lock.row t key ∉ w.keys) : find (w.apply s) t key = s.find t key := by
  cases w with
  | put t' row =>
    by_cases ht : t' = t
    · subst ht
      have hne : key ≠ L.key t' row := by
        rintro rfl
        exact h List.mem_cons_self
      rw [find_put, if_neg hne]
    · show (Function.update s t' _ t).find key = _
      rw [Function.update_of_ne (Ne.symm ht)]
      rfl
  | drop t' row =>
    by_cases ht : t' = t
    · subst ht
      have hne : key ≠ L.key t' row := by
        rintro rfl
        exact h List.mem_cons_self
      rw [find_drop, if_neg hne]
    · show (Function.update s t' _ t).find key = _
      rw [Function.update_of_ne (Ne.symm ht)]
      rfl

/-- What a change on a row makes of it does not depend on what was there. -/
lemma find_apply_of_mem {w : Change L} {t : L.Tab} {key : L.Key t} (h : Lock.row t key ∈ w.keys)
    (s s' : Store L) : find (w.apply s) t key = find (w.apply s') t key := by
  cases w with
  | put t' row =>
    cases row_mem_keys_put.mp h
    rw [find_put, find_put, if_pos rfl, if_pos rfl]
  | drop t' row =>
    cases row_mem_keys_drop.mp h
    rw [find_drop, find_drop, if_pos rfl, if_pos rfl]

/-- Rows that are dropped are gone, and the others are as they were. -/
lemma find_of_drops {ws : List (Change L)} {s : Store L} (h : ∀ w ∈ ws, ∃ t row, w = .drop t row)
    (t : L.Tab) (key : L.Key t) :
    (s.applyAll ws).find t key = none ∨ (s.applyAll ws).find t key = s.find t key := by
  induction ws generalizing s with
  | nil => exact .inr rfl
  | cons w ws ih =>
    rcases ih (s := w.apply s) fun w' hw' => h w' (List.mem_cons_of_mem _ hw') with hnone | hsame
    · exact .inl hnone
    rw [applyAll_cons, hsame]
    by_cases hkey : Lock.row t key ∈ w.keys
    · left
      obtain ⟨t', row, rfl⟩ := h w List.mem_cons_self
      cases row_mem_keys_drop.mp hkey
      exact (find_drop s t row _).trans (if_pos rfl)
    · exact .inr (find_apply_of_not_mem hkey)

/-! ## Actions -/

/-- A row may be inserted: its key and its unique values are new, what it refers to exists, and it
passes the checks. -/
def admits (s : Store L) (t : L.Tab) (row : L.Row t) : Bool :=
  ((s t).rows.all fun r => !decide (L.key t r = L.key t row) &&
    (L.names t row).all fun n => !decide (n ∈ L.names t r)) &&
  ((L.refs t row).all fun r => (s.find r.1 r.2).isSome) && L.check t row

/-- Nothing refers to one of the rows with these keys. -/
def frees (s : Store L) (gone : List (Sigma L.Key)) : Bool :=
  L.tables.all fun t => (s t).rows.all fun row => (L.refs t row).all fun r => !decide (r ∈ gone)

end Store

/-- What an `UPDATE` makes of a row: it keeps the key, and neither takes a unique value nor refers to
a further row. -/
structure Rewrite (L : Layout) (t : L.Tab) where
  set : L.Row t → L.Row t
  key_set : ∀ row, L.key t (set row) = L.key t row
  names_set : ∀ row, L.names t (set row) ⊆ L.names t row
  refs_set : ∀ row, L.refs t (set row) ⊆ L.refs t row

/-- What a statement does to a table. -/
inductive Action (L : Layout)
  /-- `INSERT`. -/
  | insert (t : L.Tab) (row : L.Row t)
  /-- `UPDATE` of the rows that are selected. -/
  | update (t : L.Tab) (selects : L.Row t → Bool) (rewrite : Rewrite L t)
  /-- `DELETE` of the rows that are selected, unless others refer to them. -/
  | delete (t : L.Tab) (selects : L.Row t → Bool)

namespace Action

/-- The changes of an action, unless it violates a constraint. -/
def changes : Action L → Store L → Option (List (Change L))
  | .insert t row, s => if s.admits t row then some [.put t row] else none
  | .update t selects rewrite, s =>
    let rows := ((s t).rows.filter selects).map rewrite.set
    if rows.all (L.check t) then some (rows.map (.put t)) else none
  | .delete t selects, s =>
    let gone := (s t).rows.filter selects
    let ws := gone.map (Change.drop t)
    if (s.applyAll ws).frees (gone.map (L.refTo t)) then some ws else none

/-- The locks on a row that is changed, and on its unique values. -/
def locksOn (t : L.Tab) (strength : Strength) (row : L.Row t) : List (Lock L × Strength) :=
  (.row t (L.key t row), strength) :: (L.names t row).map fun n => (.name n, .update)

/-- The locks of an action. A foreign key locks the row it refers to. -/
def locks : Action L → Store L → List (Lock L × Strength)
  | .insert t row, _ =>
    locksOn t .update row ++ (L.refs t row).map fun r => (.row r.1 r.2, .keyShare)
  | .update t selects _, s => ((s t).rows.filter selects).flatMap (locksOn t .noKeyUpdate)
  | .delete t selects, s => ((s t).rows.filter selects).flatMap (locksOn t .update)

/-- The changes of several actions, one after another. -/
def changesAll : List (Action L) → Store L → Option (List (Change L))
  | [], _ => some []
  | a :: as, s =>
    (a.changes s).bind fun ws => (changesAll as (s.applyAll ws)).map fun ws' => ws ++ ws'

/-- The locks of several actions, up to one that violates a constraint. -/
def locksAll : List (Action L) → Store L → List (Lock L × Strength)
  | [], _ => []
  | a :: as, s => a.locks s ++ ((a.changes s).map fun ws => locksAll as (s.applyAll ws)).getD []

/-- **Steps of a statement.** What holds before the first action and is kept by each of them, with its
changes and its locks, holds after the last.

**Proof sketch.** The statement is generalized to any actions already done, and proved by induction
on those that are left. -/
theorem changesAll_induction {P : List (Change L) → List (Lock L × Strength) → Prop}
    {s : Store L} (hstart : P [] [])
    (hstep : ∀ (a : Action L) ws ls ws', P ws ls → a.changes (s.applyAll ws) = some ws' →
      P (ws ++ ws') (ls ++ a.locks (s.applyAll ws))) {as : List (Action L)}
    {ws : List (Change L)} (h : changesAll as s = some ws) : P ws (locksAll as s) := by
  suffices hrest : ∀ (as : List (Action L)) done ls ws, P done ls →
      changesAll as (s.applyAll done) = some ws →
        P (done ++ ws) (ls ++ locksAll as (s.applyAll done)) from hrest as [] [] ws hstart h
  intro as
  induction as with
  | nil =>
    intro done ls ws hP h
    obtain rfl := Option.some.inj h
    rw [List.append_nil]
    show P done (ls ++ [])
    rwa [List.append_nil]
  | cons a as ih =>
    intro done ls ws hP h
    obtain ⟨ws₁, h₁, h⟩ := Option.bind_eq_some_iff.mp h
    obtain ⟨ws₂, h₂, rfl⟩ := Option.map_eq_some_iff.mp h
    have hnext := hstep a done ls ws₁ hP h₁
    rw [← Store.applyAll_append] at h₂
    have hlast := ih _ _ _ hnext h₂
    rw [List.append_assoc, List.append_assoc, Store.applyAll_append] at hlast
    show P _ (ls ++ (a.locks _ ++ ((a.changes _).map fun ws => locksAll as _).getD []))
    rw [h₁]
    exact hlast

/-- A change that an action makes. -/
def Makes : Action L → Change L → Prop
  | .insert t row, w => w = .put t row
  | .update t selects rewrite, w => ∃ x, selects x = true ∧ w = .put t (rewrite.set x)
  | .delete t selects, w => ∃ x, selects x = true ∧ w = .drop t x

/-- The changes of an action are of the kind that it makes. -/
lemma makes_of_changes {a : Action L} {s : Store L} {ws : List (Change L)}
    (h : a.changes s = some ws) {w : Change L} (hw : w ∈ ws) : a.Makes w := by
  cases a with
  | insert t row =>
    obtain ⟨-, h⟩ := Option.ite_none_right_eq_some.mp h
    obtain rfl := Option.some.inj h
    exact List.mem_singleton.mp hw
  | update t selects rewrite =>
    obtain ⟨-, h⟩ := Option.ite_none_right_eq_some.mp h
    obtain rfl := Option.some.inj h
    rw [List.map_map] at hw
    obtain ⟨x, hx, rfl⟩ := List.mem_map.mp hw
    exact ⟨x, (List.mem_filter.mp hx).2, rfl⟩
  | delete t selects =>
    obtain ⟨-, h⟩ := Option.ite_none_right_eq_some.mp h
    obtain rfl := Option.some.inj h
    obtain ⟨x, hx, rfl⟩ := List.mem_map.mp hw
    exact ⟨x, (List.mem_filter.mp hx).2, rfl⟩

/-- Every change of several actions is made by one of them. -/
lemma exists_makes {as : List (Action L)} {s : Store L} {ws : List (Change L)}
    (h : changesAll as s = some ws) {w : Change L} (hw : w ∈ ws) : ∃ a ∈ as, a.Makes w := by
  induction as generalizing s ws with
  | nil =>
    obtain rfl := Option.some.inj h
    cases hw
  | cons a as ih =>
    obtain ⟨ws₁, h₁, h⟩ := Option.bind_eq_some_iff.mp h
    obtain ⟨ws₂, h₂, rfl⟩ := Option.map_eq_some_iff.mp h
    rcases List.mem_append.mp hw with hw | hw
    · exact ⟨a, List.mem_cons_self, makes_of_changes h₁ hw⟩
    · obtain ⟨a', ha', hmakes⟩ := ih h₂ hw
      exact ⟨a', List.mem_cons_of_mem _ ha', hmakes⟩

/-- One action alone. -/
lemma changesAll_singleton (a : Action L) (s : Store L) : changesAll [a] s = a.changes s := by
  unfold changesAll changesAll
  cases a.changes s <;> simp

/-- What a deletion selects is dropped. -/
lemma drop_of_changes {t : L.Tab} {selects : L.Row t → Bool} {s : Store L} {ws : List (Change L)}
    (h : changes (.delete t selects) s = some ws) {x : L.Row t} (hx : x ∈ (s t).rows)
    (hselects : selects x = true) : .drop t x ∈ ws := by
  obtain ⟨-, h⟩ := Option.ite_none_right_eq_some.mp h
  obtain rfl := Option.some.inj h
  exact List.mem_map_of_mem (List.mem_filter.mpr ⟨hx, hselects⟩)

/-- What an insertion does. -/
lemma changes_insert {t : L.Tab} {row : L.Row t} {s : Store L} {ws : List (Change L)}
    (h : changes (.insert t row) s = some ws) : s.admits t row = true ∧ ws = [.put t row] := by
  obtain ⟨hadmits, h⟩ := Option.ite_none_right_eq_some.mp h
  exact ⟨hadmits, (Option.some.inj h).symm⟩

/-- What an update does. -/
lemma changes_update {t : L.Tab} {selects : L.Row t → Bool} {rewrite : Rewrite L t} {s : Store L}
    {ws : List (Change L)} (h : changes (.update t selects rewrite) s = some ws) :
    ws = (((s t).rows.filter selects).map rewrite.set).map (.put t) := by
  obtain ⟨-, h⟩ := Option.ite_none_right_eq_some.mp h
  exact (Option.some.inj h).symm

/-- What a deletion does. -/
lemma changes_delete {t : L.Tab} {selects : L.Row t → Bool} {s : Store L} {ws : List (Change L)}
    (h : changes (.delete t selects) s = some ws) :
    ws = ((s t).rows.filter selects).map (Change.drop t) := by
  obtain ⟨-, h⟩ := Option.ite_none_right_eq_some.mp h
  exact (Option.some.inj h).symm

/-- What an update makes of a row.

**Proof sketch.** The changes of an update are puts, so the table is upserted row by row (`hputs`).
The new rows have the keys of the old ones, which are different, so a lookup finds the new row of
the row with its key. -/
lemma find_update {t : L.Tab} {selects : L.Row t → Bool} {rewrite : Rewrite L t} {s : Store L}
    {ws : List (Change L)} (h : changes (.update t selects rewrite) s = some ws) (key : L.Key t) :
    (s.applyAll ws).find t key =
      (s.find t key).map fun x => if selects x then rewrite.set x else x := by
  obtain ⟨-, h⟩ := Option.ite_none_right_eq_some.mp h
  obtain rfl := Option.some.inj h
  have hputs : ∀ (rows : List (L.Row t)) (s : Store L),
      s.applyAll (rows.map (.put t)) t = (s t).upsertAll rows := by
    intro rows
    induction rows with
    | nil => exact fun s => rfl
    | cons row rows ih =>
      intro s
      show ((Change.put t row).apply s).applyAll _ t = ((s t).upsert row).upsertAll rows
      rw [ih]
      exact congrArg (Table.upsertAll · rows) (Function.update_self t _ s)
  have hkeys : (((s t).rows.filter selects).map rewrite.set).map (L.key t) =
      ((s t).rows.filter selects).map (L.key t) := by
    rw [List.map_map]
    exact List.map_congr_left fun x _ => rewrite.key_set x
  have hnodup : ((((s t).rows.filter selects).map rewrite.set).map (L.key t)).Nodup := by
    rw [hkeys]
    exact (s t).nodup.sublist (List.filter_sublist.map _)
  show (s.applyAll _ t).find key = _
  rw [hputs, Table.find_upsertAll hnodup]
  show _ = ((s t).find key).map _
  cases hfind : (s t).find key with
  | none =>
    rw [Option.or_none, Option.map_none, List.find?_eq_none]
    intro y hy hkey
    obtain ⟨x, hx, rfl⟩ := List.mem_map.mp hy
    refine Table.find_eq_none.mp hfind x (List.mem_filter.mp hx).1 ?_
    rw [← rewrite.key_set]
    exact of_decide_eq_true hkey
  | some x =>
    have hx := Table.mem_of_find hfind
    have hxkey := Table.key_of_find hfind
    rw [Option.map_some]
    by_cases hsel : selects x = true
    · rw [if_pos hsel]
      have hmem : rewrite.set x ∈ ((s t).rows.filter selects).map rewrite.set :=
        List.mem_map_of_mem (List.mem_filter.mpr ⟨hx, hsel⟩)
      -- The row is the only one with its key.
      have hfound := Table.find_of_mem (t := (⟨_, hnodup⟩ : Table (L.key t))) hmem
      rw [rewrite.key_set, hxkey] at hfound
      exact congrArg (Option.or · _) hfound
    · rw [if_neg hsel]
      have hnone : (((s t).rows.filter selects).map rewrite.set).find?
          (fun r => decide (L.key t r = key)) = none := by
        rw [List.find?_eq_none]
        intro y hy hkey
        obtain ⟨x', hx', rfl⟩ := List.mem_map.mp hy
        obtain ⟨hx't, hsel'⟩ := List.mem_filter.mp hx'
        have hkey' : L.key t x' = L.key t x := by
          rw [hxkey, ← rewrite.key_set]
          exact of_decide_eq_true hkey
        obtain rfl : x' = x := Table.eq_of_key_eq hx't hx hkey'
        exact hsel hsel'
      rw [hnone, Option.none_or]

end Action

/-! ## Statements -/

variable {S : Signature}

/-- What the statements of a signature do. -/
structure Conduct (S : Signature) (L : Layout) where
  /-- What a statement answers and does, given which locks others hold. -/
  perform : (o : S.Op) → (Lock L → Bool) → Store L → Except S.Error (S.Resp o × List (Action L))
  /-- What comes of a statement that violates a constraint. -/
  violation : (o : S.Op) → Except S.Error (S.Resp o)
  /-- The locks that a statement takes on what it reads. -/
  waits : (o : S.Op) → (Lock L → Bool) → Store L → List (Lock L × Strength)

namespace Conduct

variable (X : Conduct S L)

/-- The outcome of a statement. -/
def eval (o : S.Op) (busy : Lock L → Bool) (s : Store L) :
    Except S.Error (S.Resp o × List (Change L)) :=
  match X.perform o busy s with
  | .error e => .error e
  | .ok (r, as) =>
    match Action.changesAll as s with
    | some ws => .ok (r, ws)
    | none => (X.violation o).map fun r => (r, [])

/-- The locks of a statement. -/
def locks (o : S.Op) (busy : Lock L → Bool) (s : Store L) : List (Lock L × Strength) :=
  X.waits o busy s ++
    match X.perform o busy s with
    | .error _ => []
    | .ok (_, as) => Action.locksAll as s

/-- The database. -/
def backend : Backend S (Store L) (Change L) (Lock L) where
  apply := Change.apply
  eval := X.eval
  locks := X.locks

variable {X}

/-- What a statement does: its actions, or nothing where it was refused.

**Proof sketch.** Cases on what the conduct performs, on whether its actions go through, and on what
it answers when one of them violates a constraint. -/
lemma eval_eq_ok {o : S.Op} {busy : Lock L → Bool} {s : Store L} {r : S.Resp o}
    {ws : List (Change L)} (h : X.eval o busy s = .ok (r, ws)) :
    (∃ as, X.perform o busy s = .ok (r, as) ∧ Action.changesAll as s = some ws ∧
      X.locks o busy s = X.waits o busy s ++ Action.locksAll as s) ∨
    (∃ r' as, X.perform o busy s = .ok (r', as) ∧ Action.changesAll as s = none ∧
      X.violation o = .ok r ∧ ws = []) := by
  unfold eval at h
  cases hperform : X.perform o busy s with
  | error e =>
    rw [hperform] at h
    cases h
  | ok answer =>
    obtain ⟨r', as⟩ := answer
    rw [hperform] at h
    cases hchanges : Action.changesAll as s with
    | some ws' =>
      simp only [hchanges] at h
      obtain ⟨rfl, rfl⟩ := Prod.mk.inj (Except.ok.inj h)
      refine .inl ⟨as, rfl, hchanges, ?_⟩
      unfold locks
      rw [hperform]
    | none =>
      simp only [hchanges] at h
      cases hviolation : X.violation o with
      | error e =>
        rw [hviolation] at h
        cases h
      | ok r'' =>
        rw [hviolation] at h
        obtain ⟨rfl, rfl⟩ := Prod.mk.inj (Except.ok.inj h)
        exact .inr ⟨r', as, rfl, hchanges, rfl, rfl⟩

/-- What each action of a statement keeps, the statement keeps. -/
lemma eval_induction {o : S.Op} {busy : Lock L → Bool} {s : Store L} {r : S.Resp o}
    {ws : List (Change L)} {P : List (Change L) → Prop} (h : X.eval o busy s = .ok (r, ws))
    (hstart : P [])
    (hstep : ∀ (a : Action L) ws ws', P ws → a.changes (s.applyAll ws) = some ws' →
      P (ws ++ ws')) :
    P ws := by
  rcases eval_eq_ok h with ⟨as, -, hchanges, -⟩ | ⟨-, -, -, -, -, rfl⟩
  · exact Action.changesAll_induction (P := fun ws _ => P ws) hstart
      (fun a ws _ ws' hP hws' => hstep a ws ws' hP hws') hchanges
  · exact hstart

end Conduct

/-! ## Locks and what they guard -/

variable {X : Conduct S L}

/-- The lock on a row guards whatever is read from it. -/
lemma Store.guarded_find {τ : Type} (t : L.Tab) (key : L.Key t) (f : Option (L.Row t) → τ) :
    Guarded X.backend Change.keys (.row t key) fun s => f (s.find t key) where
  frame w s h := congrArg f (Store.find_apply_of_not_mem h)
  local_ w s s' h := by
    show f (find (w.apply s) t key) = f (find (w.apply s') t key)
    by_cases hkey : Lock.row t key ∈ w.keys
    · rw [Store.find_apply_of_mem hkey s s']
    · rw [Store.find_apply_of_not_mem hkey, Store.find_apply_of_not_mem hkey]
      exact h

/-- The lock on a row guards it. -/
lemma Store.guarded_row (t : L.Tab) (key : L.Key t) :
    Guarded X.backend Change.keys (.row t key) fun s => s.find t key :=
  guarded_find t key id

/-- A row and its unique values are locked while it is changed. -/
lemma Action.mem_locksOn {t : L.Tab} (strength : Strength) {row row' : L.Row t} {k : Lock L}
    (hstrength : .noKeyUpdate ≤ strength) (hkey : L.key t row' = L.key t row)
    (hnames : L.names t row' ⊆ L.names t row) (hk : k ∈ (Change.put t row').keys) :
    ∃ m, (k, m) ∈ locksOn t strength row ∧ .noKeyUpdate ≤ m := by
  rcases List.mem_cons.mp hk with rfl | hk
  · rw [hkey]
    exact ⟨strength, List.mem_cons_self, hstrength⟩
  · obtain ⟨n, hn, rfl⟩ := List.mem_map.mp hk
    exact ⟨.update, List.mem_cons_of_mem _ (List.mem_map.mpr ⟨n, hnames hn, rfl⟩), by decide⟩

/-- An action changes what it locks.

**Proof sketch.** Cases on the action. An insertion and a deletion lock every key of their row for
an update; an update locks the rows it rewrites, whose keys and names it keeps. -/
lemma Action.changes_locked {a : Action L} {s : Store L} {ws : List (Change L)}
    (h : a.changes s = some ws) {w : Change L} (hw : w ∈ ws) {k : Lock L} (hk : k ∈ w.keys) :
    ∃ m, (k, m) ∈ a.locks s ∧ .noKeyUpdate ≤ m := by
  cases a with
  | insert t row =>
    obtain ⟨-, h⟩ := Option.ite_none_right_eq_some.mp h
    obtain rfl := Option.some.inj h
    obtain rfl := List.mem_singleton.mp hw
    obtain ⟨m, hm, hle⟩ := mem_locksOn .update (by decide) rfl (List.Subset.refl _) hk
    exact ⟨m, List.mem_append_left _ hm, hle⟩
  | update t selects rewrite =>
    obtain ⟨-, h⟩ := Option.ite_none_right_eq_some.mp h
    obtain rfl := Option.some.inj h
    rw [List.map_map] at hw
    obtain ⟨row, hrow, rfl⟩ := List.mem_map.mp hw
    obtain ⟨m, hm, hle⟩ := mem_locksOn .noKeyUpdate (by decide) (rewrite.key_set row)
      (rewrite.names_set row) hk
    exact ⟨m, List.mem_flatMap.mpr ⟨row, hrow, hm⟩, hle⟩
  | delete t selects =>
    obtain ⟨-, h⟩ := Option.ite_none_right_eq_some.mp h
    obtain rfl := Option.some.inj h
    obtain ⟨row, hrow, rfl⟩ := List.mem_map.mp hw
    have hk' : k ∈ (Change.put t row).keys := hk
    obtain ⟨m, hm, hle⟩ := mem_locksOn .update (by decide) rfl (List.Subset.refl _) hk'
    exact ⟨m, List.mem_flatMap.mpr ⟨row, hrow, hm⟩, hle⟩

/-- **Every change** is under a lock of its statement. -/
theorem Conduct.backend_covers (X : Conduct S L) : X.backend.Covers Change.keys := by
  intro o busy s r ws h w hw k hk
  rcases eval_eq_ok h with ⟨as, -, hchanges, hlocks⟩ | ⟨-, -, -, -, -, rfl⟩
  · have hall : ∀ w ∈ ws, ∀ k ∈ w.keys, ∃ m, (k, m) ∈ Action.locksAll as s ∧ .noKeyUpdate ≤ m :=
      Action.changesAll_induction
        (P := fun ws ls => ∀ w ∈ ws, ∀ k ∈ w.keys, ∃ m, (k, m) ∈ ls ∧ .noKeyUpdate ≤ m)
        (fun w hw => absurd hw List.not_mem_nil)
        (fun a ws ls ws' hP hws' w hw k hk => by
          rcases List.mem_append.mp hw with hw | hw
          · obtain ⟨m, hm, hle⟩ := hP w hw k hk
            exact ⟨m, List.mem_append_left _ hm, hle⟩
          · obtain ⟨m, hm, hle⟩ := Action.changes_locked hws' hw hk
            exact ⟨m, List.mem_append_right _ hm, hle⟩) hchanges
    obtain ⟨m, hm, hle⟩ := hall w hw k hk
    refine ⟨m, ?_, hle⟩
    show (k, m) ∈ X.locks o busy s
    rw [hlocks]
    exact List.mem_append_right _ hm
  · cases hw

end Store

end Transact
