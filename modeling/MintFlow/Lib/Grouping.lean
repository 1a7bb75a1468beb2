import MintFlow.Lib.Table
import Mathlib.Algebra.BigOperators.Group.List.Basic
import Mathlib.Data.List.Dedup
import Mathlib.Data.List.Induction
import Mathlib.Data.List.Nodup
import Mathlib.Data.List.Perm.Basic
import Mathlib.Tactic.Common

set_option relaxedAutoImplicit false
set_option autoImplicit false

/-!
# Sums by groups

Items are grouped by a key, and every group is a row that holds the sum of a value over its items.
The rows then account for the items: their values add up to the sum over all items, and those with
some keys to the sum over the items that have them.

## Main definitions

* `Transact.sumWhere` — the sum of a value over the items with a property.
* `Transact.Groups` — rows that are the groups of some items by a key.

## Main results

* `Transact.Groups.sum_filter` — **Partition**: rows chosen by their key add up to the sum over the
  items with these keys.
* `Transact.Groups.filter`, `Transact.Groups.rekey`, `Transact.Groups.perm` — groups of some of the
  items, by another key, or in another order.
* `Transact.groups_dedup`, `Transact.groups_foldl_upsert` — two ways of computing groups.
-/

namespace Transact

variable {α κ ρ M : Type} [AddCommMonoid M]

/-- The sum of a value over the items with a property. -/
def sumWhere (f : α → M) (p : α → Bool) (xs : List α) : M := ((xs.filter p).map f).sum

lemma sumWhere_cons (f : α → M) (p : α → Bool) (x : α) (xs : List α) :
    sumWhere f p (x :: xs) = (if p x then f x else 0) + sumWhere f p xs := by
  unfold sumWhere
  rw [List.filter_cons]
  split_ifs with h
  · rw [List.map_cons, List.sum_cons]
  · rw [zero_add]

lemma sumWhere_append (f : α → M) (p : α → Bool) (xs ys : List α) :
    sumWhere f p (xs ++ ys) = sumWhere f p xs + sumWhere f p ys := by
  rw [sumWhere, List.filter_append, List.map_append, List.sum_append]
  rfl

/-- The sum over every item. -/
lemma sumWhere_true (f : α → M) (xs : List α) : sumWhere f (fun _ => true) xs = (xs.map f).sum := by
  rw [sumWhere, List.filter_true]

/-- The sum over some of the items that have another property too. -/
lemma sumWhere_filter (f : α → M) (p q : α → Bool) (xs : List α) :
    sumWhere f p (xs.filter q) = sumWhere f (fun x => p x && q x) xs := by
  rw [sumWhere, List.filter_filter]
  rfl

/-- Properties that agree on the items give one sum. -/
lemma sumWhere_congr {f : α → M} {p q : α → Bool} {xs : List α} (h : ∀ x ∈ xs, p x = q x) :
    sumWhere f p xs = sumWhere f q xs := by
  rw [sumWhere, sumWhere, List.filter_congr h]

/-- Two properties that no item has both of. -/
lemma sumWhere_or {f : α → M} {p q : α → Bool} {xs : List α}
    (h : ∀ x ∈ xs, ¬ (p x = true ∧ q x = true)) :
    sumWhere f (fun x => p x || q x) xs = sumWhere f p xs + sumWhere f q xs := by
  induction xs with
  | nil => exact (zero_add 0).symm
  | cons x xs ih =>
    rw [sumWhere_cons, sumWhere_cons, sumWhere_cons, ih fun y hy => h y (List.mem_cons_of_mem _ hy)]
    have hx := h x List.mem_cons_self
    cases hp : p x <;> cases hq : q x
    · simp
    · simp [add_left_comm]
    · simp [add_assoc]
    · exact absurd ⟨hp, hq⟩ hx

/-- Items with a property, and those without it. -/
lemma sumWhere_add_not (f : α → M) (p : α → Bool) (xs : List α) :
    sumWhere f p xs + sumWhere f (fun x => !p x) xs = (xs.map f).sum := by
  rw [← sumWhere_or fun x _ h => by simp [h.1] at h, ← sumWhere_true]
  exact sumWhere_congr fun x _ => by cases p x <;> rfl

/-- The items of each of some keys, added up.

**Proof sketch.** Induction on the keys: the items of the first key have none of the others, since
the keys are different. -/
lemma sum_map_sumWhere [DecidableEq κ] (f : α → M) (key : α → κ) (xs : List α) {ks : List κ}
    (h : ks.Nodup) :
    (ks.map fun k => sumWhere f (fun x => decide (key x = k)) xs).sum =
      sumWhere f (fun x => decide (key x ∈ ks)) xs := by
  induction ks with
  | nil => simp [sumWhere]
  | cons k ks ih =>
    obtain ⟨hk, hks⟩ := List.nodup_cons.mp h
    rw [List.map_cons, List.sum_cons, ih hks, ← sumWhere_or]
    · exact sumWhere_congr fun x _ => by simp
    · intro x _ hx
      simp only [decide_eq_true_eq] at hx
      exact hk (hx.1 ▸ hx.2)

/-! ## Groups -/

/-- Rows that are the groups of some items by a key, each with the sum of `f` over its items. -/
structure Groups [DecidableEq κ] (f : α → M) (key : α → κ) (xs : List α) (rowKey : ρ → κ)
    (value : ρ → M) (rows : List ρ) : Prop where
  /-- A key has at most one row. -/
  nodup : (rows.map rowKey).Nodup
  /-- Every item is in a group. -/
  covers : ∀ x ∈ xs, key x ∈ rows.map rowKey
  /-- Every group has an item. -/
  inhabited : ∀ row ∈ rows, ∃ x ∈ xs, key x = rowKey row
  /-- A row has the sum over its items. -/
  exact : ∀ row ∈ rows, value row = sumWhere f (fun x => decide (key x = rowKey row)) xs

namespace Groups

variable [DecidableEq κ] {f : α → M} {key : α → κ} {xs : List α} {rowKey : ρ → κ} {value : ρ → M}
  {rows : List ρ}

/-- **Partition.** The rows with some of the keys add up to the sum over the items that have
them. -/
theorem sum_filter (h : Groups f key xs rowKey value rows) (p : κ → Bool) :
    sumWhere value (fun row => p (rowKey row)) rows = sumWhere f (fun x => p (key x)) xs := by
  have hvalue : ((rows.filter fun row => p (rowKey row)).map value) =
      ((rows.filter fun row => p (rowKey row)).map rowKey).map fun k =>
        sumWhere f (fun x => decide (key x = k)) xs := by
    rw [List.map_map]
    exact List.map_congr_left fun row hrow => h.exact row (List.mem_of_mem_filter hrow)
  have hnodup : ((rows.filter fun row => p (rowKey row)).map rowKey).Nodup :=
    h.nodup.sublist (List.filter_sublist.map rowKey)
  rw [sumWhere, hvalue, sum_map_sumWhere f key xs hnodup]
  refine sumWhere_congr fun x hx => ?_
  rw [Bool.eq_iff_iff, decide_eq_true_eq, List.mem_map]
  constructor
  · rintro ⟨row, hrow, hkey⟩
    rw [← hkey]
    exact (List.mem_filter.mp hrow).2
  · intro hp
    obtain ⟨row, hrow, hkey⟩ := List.mem_map.mp (h.covers x hx)
    exact ⟨row, List.mem_filter.mpr ⟨hrow, by rw [hkey]; exact hp⟩, hkey⟩

/-- All rows add up to the sum over all items. -/
lemma sum (h : Groups f key xs rowKey value rows) : (rows.map value).sum = (xs.map f).sum := by
  have hall := h.sum_filter fun _ => true
  rwa [sumWhere_true, sumWhere_true] at hall

/-- The groups of the items with some of the keys.

**Proof sketch.** Filtering the rows by their keys keeps exactly the groups of the items that the
filter keeps, and a group that is kept loses no item. -/
lemma filter (h : Groups f key xs rowKey value rows) (p : κ → Bool) :
    Groups f key (xs.filter fun x => p (key x)) rowKey value
      (rows.filter fun row => p (rowKey row)) := by
  constructor
  case nodup => exact h.nodup.sublist (List.filter_sublist.map rowKey)
  case covers =>
    intro x hx
    obtain ⟨hx, hp⟩ := List.mem_filter.mp hx
    obtain ⟨row, hrow, hkey⟩ := List.mem_map.mp (h.covers x hx)
    exact List.mem_map.mpr ⟨row, List.mem_filter.mpr ⟨hrow, by rw [hkey]; exact hp⟩, hkey⟩
  case inhabited =>
    intro row hrow
    obtain ⟨hrow, hp⟩ := List.mem_filter.mp hrow
    obtain ⟨x, hx, hkey⟩ := h.inhabited row hrow
    exact ⟨x, List.mem_filter.mpr ⟨hx, by rw [hkey]; exact hp⟩, hkey⟩
  case exact =>
    intro row hrow
    obtain ⟨hrow, hp⟩ := List.mem_filter.mp hrow
    rw [h.exact row hrow, sumWhere_filter]
    refine sumWhere_congr fun x _ => ?_
    by_cases hkey : key x = rowKey row
    · simp [hkey, hp]
    · simp [hkey]

/-- The groups by a part of the key that tells the items' keys apart.

**Proof sketch.** On keys of items the part `g` is injective, so rows stay apart and the items with
the key of a row are those with the part of its key. -/
lemma rekey {κ' : Type} [DecidableEq κ'] (h : Groups f key xs rowKey value rows) (g : κ → κ')
    (hg : ∀ x ∈ xs, ∀ y ∈ xs, g (key x) = g (key y) → key x = key y) :
    Groups f (fun x => g (key x)) xs (fun row => g (rowKey row)) value rows := by
  have hinj : ∀ row ∈ rows, ∀ x ∈ xs, g (key x) = g (rowKey row) → key x = rowKey row := by
    intro row hrow x hx heq
    obtain ⟨y, hy, hkey⟩ := h.inhabited row hrow
    rw [← hkey] at heq ⊢
    exact hg x hx y hy heq
  constructor
  case nodup =>
    rw [show (fun row => g (rowKey row)) = g ∘ rowKey from rfl, ← List.map_map]
    refine List.Nodup.map_on ?_ h.nodup
    intro k hk k' hk' heq
    obtain ⟨row, hrow, rfl⟩ := List.mem_map.mp hk
    obtain ⟨row', hrow', rfl⟩ := List.mem_map.mp hk'
    obtain ⟨x, hx, hkey⟩ := h.inhabited row hrow
    rw [← hkey] at heq ⊢
    exact hinj row' hrow' x hx heq
  case covers =>
    intro x hx
    obtain ⟨row, hrow, hkey⟩ := List.mem_map.mp (h.covers x hx)
    exact List.mem_map.mpr ⟨row, hrow, congrArg g hkey⟩
  case inhabited =>
    intro row hrow
    obtain ⟨x, hx, hkey⟩ := h.inhabited row hrow
    exact ⟨x, hx, congrArg g hkey⟩
  case exact =>
    intro row hrow
    rw [h.exact row hrow]
    refine sumWhere_congr fun x hx => ?_
    exact decide_eq_decide.mpr ⟨congrArg g, hinj row hrow x hx⟩

/-- The groups in another order. -/
lemma perm (h : Groups f key xs rowKey value rows) {rows' : List ρ} (hperm : rows'.Perm rows) :
    Groups f key xs rowKey value rows' := by
  constructor
  case nodup => exact (hperm.map rowKey).nodup_iff.mpr h.nodup
  case covers => exact fun x hx => (hperm.map rowKey).mem_iff.mpr (h.covers x hx)
  case inhabited => exact fun row hrow => h.inhabited row (hperm.mem_iff.mp hrow)
  case exact => exact fun row hrow => h.exact row (hperm.mem_iff.mp hrow)

/-- The row of a key, if there is one, has the sum over its items; else there are no such items. -/
lemma find? (h : Groups f key xs rowKey value rows) (k : κ) :
    ((rows.find? fun row => decide (rowKey row = k)).map value).getD 0 =
      sumWhere f (fun x => decide (key x = k)) xs := by
  cases hfind : rows.find? fun row => decide (rowKey row = k) with
  | none =>
    have hnone : xs.filter (fun x => decide (key x = k)) = [] := by
      rw [List.filter_eq_nil_iff]
      intro x hx hkey
      obtain ⟨row, hrow, hrowKey⟩ := List.mem_map.mp (h.covers x hx)
      have hne := List.find?_eq_none.mp hfind row hrow
      exact hne (decide_eq_true (hrowKey.trans (of_decide_eq_true hkey)))
    rw [sumWhere, hnone]
    rfl
  | some row =>
    have hkey : rowKey row = k := by simpa using List.find?_some hfind
    rw [Option.map_some, Option.getD_some, h.exact row (List.mem_of_find?_eq_some hfind), hkey]

end Groups

/-- The groups made by taking each key once.

**Proof sketch.** The keys of the rows are those of the items, each once, and the value of a row is
the sum by definition. -/
lemma groups_dedup [DecidableEq κ] (f : α → M) (key : α → κ) (xs : List α) {rowKey : ρ → κ}
    {value : ρ → M} (row : κ → ρ) (hkey : ∀ k, rowKey (row k) = k)
    (hvalue : ∀ k, value (row k) = sumWhere f (fun x => decide (key x = k)) xs) :
    Groups f key xs rowKey value ((xs.map key).dedup.map row) := by
  have hkeys : ((xs.map key).dedup.map row).map rowKey = (xs.map key).dedup := by
    rw [List.map_map]
    exact List.map_id'' hkey _
  constructor
  case nodup =>
    rw [hkeys]
    exact List.nodup_dedup _
  case covers =>
    intro x hx
    rw [hkeys]
    exact List.mem_dedup.mpr (List.mem_map_of_mem hx)
  case inhabited =>
    intro r hr
    obtain ⟨k, hk, rfl⟩ := List.mem_map.mp hr
    obtain ⟨x, hx, rfl⟩ := List.mem_map.mp (List.mem_dedup.mp hk)
    exact ⟨x, hx, (hkey _).symm⟩
  case exact =>
    intro r hr
    obtain ⟨k, -, rfl⟩ := List.mem_map.mp hr
    rw [hvalue, hkey]

/-- **Accumulation.** A loop over the items that keeps a row for each key, and adds each item to the
row of its key, ends with the groups.

**Proof sketch.** Induction on the items, from the last one. It replaces the row of its key by one
with its own value added, and leaves the others. -/
theorem groups_foldl_upsert [DecidableEq κ] (f : α → M) (key : α → κ) {rowKey : ρ → κ} {value : ρ → M}
    (merge : Option ρ → α → ρ) (hkey : ∀ previous x, rowKey (merge previous x) = key x)
    (hvalue : ∀ previous x, value (merge previous x) = f x + (previous.map value).getD 0)
    (xs : List α) :
    Groups f key xs rowKey value
      (xs.foldl (fun (t : Table rowKey) x => t.upsert (merge (t.find (key x)) x)) .empty).rows := by
  induction xs using List.reverseRecOn with
  | nil => exact ⟨by simp [Table.empty], by simp, by simp [Table.empty], by simp [Table.empty]⟩
  | append_singleton xs x ih =>
    rw [List.foldl_append, List.foldl_cons, List.foldl_nil]
    generalize xs.foldl (fun (t : Table rowKey) x => t.upsert (merge (t.find (key x)) x)) .empty = t
      at ih
    have hfind : ((t.find (key x)).map value).getD 0 =
        sumWhere f (fun y => decide (key y = key x)) xs := ih.find? (key x)
    have hmem : ∀ row, row ∈ (t.upsert (merge (t.find (key x)) x)).rows ↔
        row = merge (t.find (key x)) x ∨ row ∈ t.rows ∧ rowKey row ≠ key x := by
      intro row
      have h : row ∈ t.upsert (merge (t.find (key x)) x) ↔ _ := Table.mem_upsert
      rw [hkey] at h
      exact h
    constructor
    case nodup => exact (t.upsert _).nodup
    case covers =>
      intro y hy
      rw [List.mem_map]
      by_cases hyx : key y = key x
      · exact ⟨_, (hmem _).mpr (.inl rfl), (hkey _ _).trans hyx.symm⟩
      · rcases List.mem_append.mp hy with hy | hy
        · obtain ⟨row, hrow, hrowKey⟩ := List.mem_map.mp (ih.covers y hy)
          exact ⟨row, (hmem row).mpr (.inr ⟨hrow, fun h => hyx (hrowKey.symm.trans h)⟩), hrowKey⟩
        · exact absurd (congrArg key (List.mem_singleton.mp hy)) hyx
    case inhabited =>
      intro row hrow
      rcases (hmem row).mp hrow with rfl | ⟨hrow, -⟩
      · exact ⟨x, List.mem_append_right _ (List.mem_singleton_self x), (hkey _ _).symm⟩
      · obtain ⟨y, hy, hyrow⟩ := ih.inhabited row hrow
        exact ⟨y, List.mem_append_left _ hy, hyrow⟩
    case exact =>
      intro row hrow
      rw [sumWhere_append, sumWhere_cons]
      rcases (hmem row).mp hrow with rfl | ⟨hrow, hne⟩
      · rw [hvalue, hfind, hkey, if_pos (decide_eq_true rfl), add_comm]
        simp [sumWhere]
      · rw [ih.exact row hrow, if_neg (by simpa using Ne.symm hne)]
        simp [sumWhere]

/-- Items with different keys each keep a row of their own, in their order.

**Proof sketch.** Induction from the end: the last item's key is new, so its row is appended. -/
lemma rows_foldl_upsert [DecidableEq κ] {key : α → κ} {rowKey : ρ → κ} (merge : Option ρ → α → ρ)
    (hkey : ∀ previous x, rowKey (merge previous x) = key x) {xs : List α}
    (hnodup : (xs.map key).Nodup) :
    (xs.foldl (fun (t : Table rowKey) x => t.upsert (merge (t.find (key x)) x)) .empty).rows =
      xs.map (merge none) := by
  induction xs using List.reverseRecOn with
  | nil => rfl
  | append_singleton xs x ih =>
    rw [List.map_append, List.nodup_append] at hnodup
    rw [List.foldl_append, List.foldl_cons, List.foldl_nil]
    have hrows := ih hnodup.1
    generalize xs.foldl (fun (t : Table rowKey) x => t.upsert (merge (t.find (key x)) x)) .empty = t
      at hrows
    have hfind : t.find (key x) = none := by
      rw [Table.find_eq_none]
      intro row hrow heq
      rw [Table.mem_def, hrows] at hrow
      obtain ⟨y, hy, rfl⟩ := List.mem_map.mp hrow
      exact hnodup.2.2 (key y) (List.mem_map_of_mem hy) (key x) (List.mem_singleton_self _)
        ((hkey none y).symm.trans heq)
    have hnew : t.find (rowKey (merge none x)) = none := by
      rw [hkey]
      exact hfind
    rw [hfind, Table.upsert, if_pos hnew, Table.rows_add hnew, hrows, List.map_append]
    rfl

end Transact
