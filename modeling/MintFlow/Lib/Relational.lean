import Mathlib.Data.List.Basic
import Mathlib.Logic.Function.Basic
import Mathlib.Tactic.Common

set_option relaxedAutoImplicit false
set_option autoImplicit false

/-!
# Tables with foreign keys

A state has the rows of every table. A foreign key says that a row whose columns are all set refers
to a row of another table, and what becomes of it when that row is deleted. A statement deletes the
rows of some tables that satisfy a condition on the state it starts from; its keys are followed when
all of these rows are gone.

## Main definitions

* `Transact.Rows`, `Transact.ForeignKey` — a state, and a key.
* `Transact.ForeignKey.refers` — a row refers to a row.
* `Transact.deleteRows` — a deletion, with what its keys do.

## Main results

* `Transact.followAll_unreferenced`, `Transact.followAll_cascade` — what the keys do to rows that
  nobody refers to, or only rows that go with them.
-/

namespace Transact

/-- What a foreign key does to the rows that refer to a deleted row. -/
inductive OnDelete
  | restrict
  | cascade
  | setNull
deriving DecidableEq

/-- A foreign key from some columns of a table to columns of another. -/
structure ForeignKey (T C : Type) where
  child : T
  columns : List C
  parent : T
  references : List C
  onDelete : OnDelete
deriving DecidableEq

section Relational

variable {T C V : Type}

/-- A row: what each column holds, if it is set. -/
abbrev Row (C V : Type) := C → Option V

/-- The rows of each table. -/
abbrev Rows (T C V : Type) := T → List (Row C V)

variable [DecidableEq T] [DecidableEq C] [DecidableEq V]

namespace ForeignKey

/-- A row refers to another: its columns are all set and hold what that row holds. -/
def refers (key : ForeignKey T C) (child parent : Row C V) : Bool :=
  (key.columns.all fun c => (child c).isSome) &&
    decide (key.columns.map child = key.references.map parent)

/-- A row with the columns of a key cleared. -/
def clear (key : ForeignKey T C) (child : Row C V) : Row C V := fun c =>
  if c ∈ key.columns then none else child c

/-- The key holds: a row with its columns set refers to a row. -/
def Holds (key : ForeignKey T C) (s : Rows T C V) : Prop :=
  ∀ r ∈ s key.child, (∀ c ∈ key.columns, (r c).isSome) → ∃ p ∈ s key.parent, key.refers r p

end ForeignKey

/-- Why a statement was refused. -/
inductive Violation (T C : Type)
  | restricted (key : ForeignKey T C)
  | endless
deriving DecidableEq

/-- A state without the rows of a table that satisfy a condition. -/
def Rows.remove (s : Rows T C V) (t : T) (gone : Row C V → Bool) : Rows T C V :=
  Function.update s t ((s t).filter fun r => !gone r)

/-- Whether a row refers to one of some rows. -/
def refersToAny (key : ForeignKey T C) (gone : List (Row C V)) (r : Row C V) : Bool :=
  gone.any fun p => key.refers r p

/-- Follow one key to the deleted rows of a table; a cascade deletes further rows. -/
def followKey (cascade : T → List (Row C V) → Rows T C V → Except (Violation T C) (Rows T C V))
    (t : T) (gone : List (Row C V)) (s : Rows T C V) (key : ForeignKey T C) :
    Except (Violation T C) (Rows T C V) :=
  if key.parent = t ∧ (s key.child).any (refersToAny key gone) then
    match key.onDelete with
    | .restrict => .error (.restricted key)
    | .setNull =>
      .ok (Function.update s key.child ((s key.child).map fun r =>
        if refersToAny key gone r then key.clear r else r))
    | .cascade =>
      cascade key.child ((s key.child).filter (refersToAny key gone))
        (s.remove key.child (refersToAny key gone))
  else .ok s

/-- Follow the keys to the deleted rows of a table, one key after the other. The fuel bounds the
chains of cascades. -/
def followAll (keys : List (ForeignKey T C)) : ℕ → T → List (Row C V) → Rows T C V →
    Except (Violation T C) (Rows T C V)
  | 0, _, _, _ => .error .endless
  | fuel + 1, t, gone, s => keys.foldlM (followKey (followAll keys fuel) t gone) s

/-- The conditions of a statement that deletes from several tables, on the state it starts from. -/
abbrev Deletion (T C V : Type) := List (T × (Rows T C V → Row C V → Bool))

/-- Delete the rows of the tables that satisfy the conditions, then follow the keys to them. -/
def deleteRows (keys : List (ForeignKey T C)) (deletion : Deletion T C V) (s : Rows T C V) :
    Except (Violation T C) (Rows T C V) :=
  deletion.foldlM (fun s' target =>
      followAll keys (keys.length + 1) target.1 ((s target.1).filter (target.2 s)) s')
    (deletion.foldl (fun s' target => s'.remove target.1 (target.2 s)) s)

/-! ## Deletions that keys allow -/

/-- No row that is left refers to a deleted row through a key. -/
def Unreferenced (key : ForeignKey T C) (t : T) (gone : List (Row C V)) (s : Rows T C V) : Prop :=
  key.parent = t → ∀ r ∈ s key.child, ∀ p ∈ gone, key.refers r p = false

omit [DecidableEq T] [DecidableEq C] in
/-- Nothing is found that refers to a deleted row. -/
lemma any_refersToAny_eq_false {key : ForeignKey T C} {t : T} {gone : List (Row C V)}
    {s : Rows T C V} (h : Unreferenced key t gone s) (ht : key.parent = t) :
    (s key.child).any (refersToAny key gone) = false := by
  rw [List.any_eq_false]
  intro r hr
  unfold refersToAny
  rw [Bool.not_eq_true, List.any_eq_false]
  intro p hp
  rw [h ht r hr p hp]
  decide

/-- A key through which nothing refers to the deleted rows changes nothing. -/
lemma followKey_unreferenced
    {cascade : T → List (Row C V) → Rows T C V → Except (Violation T C) (Rows T C V)} {t : T}
    {gone : List (Row C V)} {s : Rows T C V} {key : ForeignKey T C}
    (h : Unreferenced key t gone s) : followKey cascade t gone s key = .ok s := by
  refine if_neg ?_
  rintro ⟨ht, hany⟩
  rw [any_refersToAny_eq_false h ht] at hany
  cases hany

/-- Nor do several such keys. -/
lemma foldlM_unreferenced
    {cascade : T → List (Row C V) → Rows T C V → Except (Violation T C) (Rows T C V)}
    {keys : List (ForeignKey T C)} {t : T} {gone : List (Row C V)} {s : Rows T C V}
    (h : ∀ key ∈ keys, Unreferenced key t gone s) :
    keys.foldlM (followKey cascade t gone) s = .ok s := by
  induction keys with
  | nil => rfl
  | cons key keys ih =>
    rw [List.foldlM_cons, followKey_unreferenced (h key List.mem_cons_self)]
    exact ih fun key' hkey' => h key' (List.mem_cons_of_mem _ hkey')

/-- **Unreferenced rows.** When nothing that is left refers to the deleted rows, the keys change
nothing. -/
theorem followAll_unreferenced {keys : List (ForeignKey T C)} {fuel : ℕ} {t : T}
    {gone : List (Row C V)} {s : Rows T C V} (h : ∀ key ∈ keys, Unreferenced key t gone s) :
    followAll keys (fuel + 1) t gone s = .ok s := by
  rw [followAll]
  exact foldlM_unreferenced h

omit [DecidableEq C] [DecidableEq V] in
/-- Removing rows that are not there changes nothing. -/
lemma remove_of_any_eq_false {s : Rows T C V} {t : T} {gone : Row C V → Bool}
    (h : (s t).any gone = false) : s.remove t gone = s := by
  have hall : ∀ r ∈ s t, (!gone r) = true := by
    intro r hr
    rw [Bool.not_eq_true', ← Bool.not_eq_true]
    exact List.any_eq_false.mp h r hr
  unfold Rows.remove
  rw [List.filter_eq_self.mpr hall, Function.update_eq_self]

omit [DecidableEq C] in
/-- Fewer rows refer to fewer rows. -/
lemma Unreferenced.remove {key : ForeignKey T C} {t : T} {gone : List (Row C V)} {s : Rows T C V}
    (h : Unreferenced key t gone s) (t' : T) (gone' : Row C V → Bool) :
    Unreferenced key t gone (s.remove t' gone') := by
  intro ht r hr p hp
  refine h ht r ?_ p hp
  unfold Rows.remove at hr
  by_cases hchild : key.child = t'
  · rw [hchild, Function.update_self] at hr
    exact hchild ▸ List.mem_of_mem_filter hr
  · rwa [Function.update_of_ne hchild] at hr

/-- **One cascade.** When only rows of one table refer to the deleted rows, through a key that
cascades, and nothing refers to these, they go with them.

**Proof sketch.** The keys are followed one after another. Those before and behind the cascading key
have nothing to do, and the rows that it deletes have none that refer to them. -/
theorem followAll_cascade {keys : List (ForeignKey T C)} (hnodup : keys.Nodup) {fuel : ℕ} {t : T}
    {gone : List (Row C V)} {s : Rows T C V} {key : ForeignKey T C} (hkey : key ∈ keys)
    (hparent : key.parent = t) (hcascade : key.onDelete = .cascade)
    (hleaf : ∀ key' ∈ keys, key'.parent ≠ key.child)
    (h : ∀ key' ∈ keys, key' ≠ key → Unreferenced key' t gone s) :
    followAll keys (fuel + 2) t gone s = .ok (s.remove key.child (refersToAny key gone)) := by
  have hrows : followAll keys (fuel + 1) key.child ((s key.child).filter (refersToAny key gone))
      (s.remove key.child (refersToAny key gone)) =
        .ok (s.remove key.child (refersToAny key gone)) :=
    followAll_unreferenced fun key' hkey' ht => absurd ht (hleaf key' hkey')
  obtain ⟨before, behind, rfl⟩ := List.append_of_mem hkey
  have hdisjoint := List.nodup_append.mp hnodup
  have hbefore : ∀ key' ∈ before, Unreferenced key' t gone s := fun key' hkey' =>
    h key' (List.mem_append_left _ hkey') (hdisjoint.2.2 key' hkey' key List.mem_cons_self)
  have hbehind : ∀ key' ∈ behind,
      Unreferenced key' t gone (s.remove key.child (refersToAny key gone)) := fun key' hkey' =>
    (h key' (List.mem_append_right _ (List.mem_cons_of_mem _ hkey')) fun heq =>
      (List.nodup_cons.mp hdisjoint.2.1).1 (heq ▸ hkey')).remove _ _
  have hstep : followKey (followAll (before ++ key :: behind) (fuel + 1)) t gone s key =
      .ok (s.remove key.child (refersToAny key gone)) := by
    unfold followKey
    by_cases hany : (s key.child).any (refersToAny key gone) = true
    · rw [if_pos ⟨hparent, hany⟩, hcascade]
      exact hrows
    · rw [if_neg fun hboth => hany hboth.2, remove_of_any_eq_false (by simpa using hany)]
  have hrest : (key :: behind).foldlM (followKey (followAll (before ++ key :: behind) (fuel + 1))
      t gone) s = .ok (s.remove key.child (refersToAny key gone)) := by
    rw [List.foldlM_cons, hstep]
    exact foldlM_unreferenced hbehind
  rw [followAll, List.foldlM_append, foldlM_unreferenced hbefore]
  exact hrest

end Relational

end Transact
