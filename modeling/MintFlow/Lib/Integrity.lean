import MintFlow.Lib.Knowledge
import MintFlow.Lib.Store
import MintFlow.Lib.UniqueIndex

set_option relaxedAutoImplicit false
set_option autoImplicit false

/-!
# Integrity under concurrency

A statement checks the constraints against the rows that its session sees. Rows that other sessions
have yet to commit are kept apart by locks: a unique value is locked by whoever writes it, and a row
that is referred to is locked against its deletion. So what is committed, and what each session sees,
satisfies every constraint at every time.

## Main definitions

* `Transact.Store.Intact` — a database satisfies its constraints.
* `Transact.Dropping`, `Transact.Anchored` — what is dropped is held, and what pending rows refer to
  is held or was referred to before.
* `Transact.Guarding` — what every configuration keeps.

## Main results

* `Transact.Guarding.move` — **Integrity**: every constraint that holds in a configuration holds after
  every move.
-/

namespace Transact

section Integrity

variable {L : Layout} {S : Signature} {X : Conduct S L}

/-! ## Rows of a table -/

namespace Store

/-- The rows of a table. -/
def rowSet (X : Conduct S L) (t : L.Tab) : RowSet X.backend (L.Row t) where
  rows s := {row | row ∈ s t}
  writes w row := w = .put t row
  keeps w row := Lock.row t (L.key t row) ∉ w.keys
  mem_apply w s row := by
    show row ∈ w.apply s t ↔ w = .put t row ∨ row ∈ s t ∧ _
    have hfind : ∀ s : Store L, row ∈ s t ↔ s.find t (L.key t row) = some row := fun s =>
      Table.mem_iff_find
    rw [hfind, hfind]
    by_cases hkey : Lock.row t (L.key t row) ∈ w.keys
    swap
    · rw [find_apply_of_not_mem hkey]
      constructor
      · exact fun h => .inr ⟨h, hkey⟩
      · rintro (rfl | ⟨h, -⟩)
        · exact absurd List.mem_cons_self hkey
        · exact h
    cases w with
    | put t' row' =>
      obtain ⟨rfl, hsame⟩ := Lock.row.inj (row_mem_keys_put.mp hkey)
      obtain hsame := eq_of_heq hsame
      rw [find_put, if_pos hsame]
      constructor
      · intro h
        obtain rfl := Option.some.inj h
        exact .inl rfl
      · rintro (h | ⟨-, hno⟩)
        · obtain ⟨-, h⟩ := Change.put.inj h
          exact congrArg some (eq_of_heq h)
        · exact absurd hkey hno
    | drop t' row' =>
      obtain ⟨rfl, hsame⟩ := Lock.row.inj (row_mem_keys_drop.mp hkey)
      rw [find_drop, if_pos (eq_of_heq hsame)]
      constructor
      · intro h
        cases h
      · rintro (h | ⟨-, hno⟩)
        · cases h
        · exact absurd hkey hno

/-- The unique values of a table, one at a time. -/
def nameIndex (X : Conduct S L) (t : L.Tab) (n : L.Name) :
    UniqueIndex X.backend Change.keys (L.Row t) Unit where
  toRowSet := rowSet X t
  column row := if n ∈ L.names t row then some () else none
  lock _ := .name n
  locked w row v hw hcolumn := by
    obtain ⟨hn, -⟩ := Option.ite_none_right_eq_some.mp hcolumn
    obtain rfl : w = .put t row := hw
    exact List.mem_cons_of_mem _ (List.mem_map_of_mem hn)

/-! ## What a statement keeps -/

/-- A database satisfies its constraints. -/
structure Intact (s : Store L) : Prop where
  unique : ∀ t, ∀ x ∈ s t, ∀ y ∈ s t, ∀ n, n ∈ L.names t x → n ∈ L.names t y → x = y
  refers : ∀ t, ∀ x ∈ s t, ∀ r ∈ L.refs t x, (s.find r.1 r.2).isSome
  checked : ∀ t, ∀ x ∈ s t, L.check t x = true

variable {s : Store L} {t : L.Tab}

/-- The empty database satisfies every constraint. -/
lemma intact_empty : (empty L).Intact where
  unique _ _ h := absurd h List.not_mem_nil
  refers _ _ h := absurd h List.not_mem_nil
  checked _ _ h := absurd h List.not_mem_nil

/-- The rows after one was put in. -/
lemma mem_put {row x : L.Row t} :
    x ∈ (Change.put t row).apply s t ↔ x = row ∨ x ∈ s t ∧ L.key t x ≠ L.key t row := by
  show x ∈ Function.update s t ((s t).upsert row) t ↔ _
  rw [Function.update_self, Table.mem_upsert]

/-- A table without the row that was put in. -/
lemma put_of_ne {t' : L.Tab} {row : L.Row t} (h : t' ≠ t) :
    (Change.put t row).apply s t' = s t' := Function.update_of_ne h _ s

/-- A row that is there stays when another is put in. -/
lemma isSome_find_put {t' : L.Tab} {row : L.Row t} {key : L.Key t'}
    (h : (s.find t' key).isSome) : (find ((Change.put t row).apply s) t' key).isSome := by
  by_cases hkey : Lock.row t' key ∈ (Change.put t row).keys
  · obtain ⟨rfl, hsame⟩ := Lock.row.inj (row_mem_keys_put.mp hkey)
    rw [find_put, if_pos (eq_of_heq hsame)]
    rfl
  · rwa [find_apply_of_not_mem hkey]

/-- A row whose values are no other's, that refers to what is there and passes the checks, may be put
in.

**Proof sketch.** Rows of other tables are as before. Two rows that share a value are both the new
row, or both old, since the values of the new row are no other's. -/
lemma Intact.put {row : L.Row t} (h : s.Intact)
    (hnames : ∀ x ∈ s t, L.key t x ≠ L.key t row → ∀ n ∈ L.names t row, n ∉ L.names t x)
    (hrefs : ∀ r ∈ L.refs t row, (s.find r.1 r.2).isSome) (hcheck : L.check t row = true) :
    ((Change.put t row).apply s).Intact where
  unique t' x hx y hy n hnx hny := by
    by_cases ht : t' = t
    swap
    · rw [put_of_ne ht] at hx hy
      exact h.unique t' x hx y hy n hnx hny
    subst ht
    rcases mem_put.mp hx with hxrow | ⟨hx', hxrow⟩
    · rcases mem_put.mp hy with hyrow | ⟨hy', hyrow⟩
      · exact hxrow.trans hyrow.symm
      · rw [hxrow] at hnx
        exact absurd hny (hnames y hy' hyrow n hnx)
    · rcases mem_put.mp hy with hyrow | ⟨hy', -⟩
      · rw [hyrow] at hny
        exact absurd hnx (hnames x hx' hxrow n hny)
      · exact h.unique t' x hx' y hy' n hnx hny
  refers t' x hx r hr := by
    refine isSome_find_put ?_
    by_cases ht : t' = t
    swap
    · rw [put_of_ne ht] at hx
      exact h.refers t' x hx r hr
    subst ht
    rcases mem_put.mp hx with rfl | ⟨hx, -⟩
    · exact hrefs r hr
    · exact h.refers t' x hx r hr
  checked t' x hx := by
    by_cases ht : t' = t
    swap
    · rw [put_of_ne ht] at hx
      exact h.checked t' x hx
    subst ht
    rcases mem_put.mp hx with rfl | ⟨hx, -⟩
    · exact hcheck
    · exact h.checked t' x hx

/-- What an insertion demands. -/
lemma admits_iff {row : L.Row t} : s.admits t row = true ↔
    (∀ x ∈ s t, L.key t x ≠ L.key t row ∧ ∀ n ∈ L.names t row, n ∉ L.names t x) ∧
      (∀ r ∈ L.refs t row, (s.find r.1 r.2).isSome) ∧ L.check t row = true := by
  unfold admits
  simp only [Bool.and_eq_true, List.all_eq_true, Bool.not_eq_true', decide_eq_false_iff_not,
    and_assoc]
  rfl

/-- Rows may be rewritten. -/
lemma Intact.rewrite {rows : List (L.Row t)} {rewrite : Rewrite L t} (h : s.Intact)
    (hnodup : (rows.map (L.key t)).Nodup)
    (hrows : ∀ row ∈ rows, row ∈ s t) (hcheck : ∀ row ∈ rows, L.check t (rewrite.set row) = true) :
    (s.applyAll ((rows.map rewrite.set).map (.put t))).Intact := by
  induction rows generalizing s with
  | nil => exact h
  | cons row rows ih =>
    obtain ⟨hrow, hnodup⟩ := List.nodup_cons.mp hnodup
    have hx := hrows row List.mem_cons_self
    refine ih (h.put (fun y hy hne n hn hny => hne ?_) (fun r hr => ?_)
      (hcheck row List.mem_cons_self)) hnodup (fun row' hrow' => ?_)
      (fun row' hrow' => hcheck row' (List.mem_cons_of_mem _ hrow'))
    · rw [h.unique t y hy row hx n hny (rewrite.names_set row hn), rewrite.key_set]
    · exact h.refers t row hx r (rewrite.refs_set row hr)
    · refine mem_put.mpr (.inr ⟨hrows row' (List.mem_cons_of_mem _ hrow'), fun hsame => hrow ?_⟩)
      rw [rewrite.key_set] at hsame
      rw [← hsame]
      exact List.mem_map_of_mem hrow'

/-- The rows after some were dropped. -/
lemma find_drops {gone : List (L.Row t)} {t' : L.Tab} (key : L.Key t') :
    (s.applyAll (gone.map (Change.drop t))).find t' key =
      if (⟨t', key⟩ : Sigma L.Key) ∈ gone.map (L.refTo t) then none else s.find t' key := by
  induction gone generalizing s with
  | nil => rfl
  | cons row gone ih =>
    rw [List.map_cons, List.map_cons, applyAll_cons, ih]
    by_cases hrest : (⟨t', key⟩ : Sigma L.Key) ∈ gone.map (L.refTo t)
    · rw [if_pos hrest, if_pos (List.mem_cons_of_mem _ hrest)]
    · rw [if_neg hrest]
      by_cases hsame : (⟨t', key⟩ : Sigma L.Key) = L.refTo t row
      · obtain ⟨rfl, hkey⟩ := Sigma.mk.inj hsame
        rw [find_drop, if_pos (eq_of_heq hkey), hsame, if_pos List.mem_cons_self]
      · rw [if_neg fun hmem => (List.mem_cons.mp hmem).elim hsame hrest]
        refine find_apply_of_not_mem fun hlock => hsame ?_
        obtain ⟨rfl, hkey⟩ := Lock.row.inj (row_mem_keys_drop.mp hlock)
        rw [eq_of_heq hkey]
        rfl

/-- Rows that nothing refers to may be deleted.

**Proof sketch.** Every row that is left was there (`hold`), and refers to none of those that are
gone (`hnone`), so that what it refers to is still found. -/
lemma Intact.drops {gone : List (L.Row t)} (h : s.Intact)
    (hfrees : (s.applyAll (gone.map (Change.drop t))).frees (gone.map (L.refTo t)) = true) :
    (s.applyAll (gone.map (Change.drop t))).Intact := by
  have hold : ∀ t', ∀ x ∈ s.applyAll (gone.map (Change.drop t)) t', x ∈ s t' := by
    intro t' x hx
    have hfind : (s.applyAll (gone.map (Change.drop t))).find t' (L.key t' x) = some x :=
      Table.find_of_mem hx
    rw [find_drops] at hfind
    split_ifs at hfind
    exact Table.mem_of_find hfind
  have hnone : ∀ t', ∀ x ∈ s.applyAll (gone.map (Change.drop t)) t', ∀ r ∈ L.refs t' x,
      r ∉ gone.map (L.refTo t) := by
    intro t' x hx r hr
    unfold frees at hfrees
    have hall := List.all_eq_true.mp hfrees t' (L.mem_tables t')
    have hrow := List.all_eq_true.mp (List.all_eq_true.mp hall x hx) r hr
    exact of_decide_eq_false ((Bool.not_eq_true' _).mp hrow)
  refine ⟨fun t' x hx y hy => h.unique t' x (hold t' x hx) y (hold t' y hy), fun t' x hx r hr => ?_,
    fun t' x hx => h.checked t' x (hold t' x hx)⟩
  rw [find_drops, if_neg (hnone t' x hx r hr)]
  exact h.refers t' x (hold t' x hx) r hr

/-- **Actions** keep the constraints. -/
theorem Intact.changes {a : Action L} {ws : List (Change L)} (h : s.Intact)
    (hws : a.changes s = some ws) : (s.applyAll ws).Intact := by
  cases a with
  | insert t row =>
    obtain ⟨hadmits, hws⟩ := Option.ite_none_right_eq_some.mp hws
    obtain rfl := Option.some.inj hws
    obtain ⟨hnew, hrefs, hcheck⟩ := admits_iff.mp hadmits
    exact h.put (fun x hx _ => (hnew x hx).2) hrefs hcheck
  | update t selects rewrite =>
    obtain ⟨hcheck, hws⟩ := Option.ite_none_right_eq_some.mp hws
    obtain rfl := Option.some.inj hws
    refine h.rewrite ((s t).nodup.sublist (List.filter_sublist.map _))
      (fun row hrow => (List.mem_filter.mp hrow).1) fun row hrow => ?_
    exact List.all_eq_true.mp hcheck _ (List.mem_map_of_mem hrow)
  | delete t selects =>
    obtain ⟨hfrees, hws⟩ := Option.ite_none_right_eq_some.mp hws
    obtain rfl := Option.some.inj hws
    exact h.drops hfrees

end Store

/-- **Statements** keep the constraints in the eyes of their session. -/
theorem Conduct.intact_eval {o : S.Op} {busy : Lock L → Bool} {s : Store L} {r : S.Resp o}
    {ws : List (Change L)} (h : s.Intact) (heval : X.eval o busy s = .ok (r, ws)) :
    (s.applyAll ws).Intact :=
  eval_induction (P := fun ws => (s.applyAll ws).Intact) heval h fun a ws ws' hws hchanges => by
    rw [Store.applyAll_append]
    exact hws.changes hchanges

/-! ## References -/

/-- Rows that are to be dropped are held, and are committed unless they were put in before. -/
def Dropping (held : Sigma L.Key → Prop) (s : Store L) (ws : List (Change L)) : Prop :=
  ∀ t x, .drop t x ∈ ws → held (L.refTo t x) ∧ (.put t x ∈ ws ∨ x ∈ s t)

/-- What pending rows refer to is held, or the committed row with the same key refers to it. -/
def Anchored (held : Sigma L.Key → Prop) (s : Store L) (ws : List (Change L)) : Prop :=
  ∀ t row, .put t row ∈ ws → ∀ r ∈ L.refs t row,
    held r ∨ ∃ x, s.find t (L.key t row) = some x ∧ r ∈ L.refs t x

namespace Store

variable {s : Store L} {ws : List (Change L)} {t : L.Tab} {key : L.Key t}

/-- A row that a session sees was put in by it, or is committed. -/
lemma mem_of_applyAll (X : Conduct S L) {x : L.Row t} (h : x ∈ s.applyAll ws t) :
    .put t x ∈ ws ∨ x ∈ s t ∧ ∀ w ∈ ws, Lock.row t (L.key t x) ∉ w.keys := by
  rcases (RowSet.mem_applyAll (R := rowSet X t)).mp h with hown | hkept
  · obtain ⟨w, hw, hput⟩ := RowSet.exists_write hown
    obtain rfl : w = .put t x := hput
    exact .inl hw
  · exact .inr hkept

/-- A row that nothing drops is still there. -/
lemma isSome_applyAll (h : (s.find t key).isSome)
    (hdrop : ∀ row, L.key t row = key → .drop t row ∉ ws) :
    ((s.applyAll ws).find t key).isSome := by
  induction ws generalizing s with
  | nil => exact h
  | cons w ws ih =>
    refine ih ?_ fun row hrow hmem => hdrop row hrow (List.mem_cons_of_mem _ hmem)
    cases w with
    | put t' row => exact isSome_find_put h
    | drop t' row =>
      refine (congrArg Option.isSome (find_apply_of_not_mem fun hlock => ?_)).trans h
      obtain ⟨rfl, hsame⟩ := Lock.row.inj (row_mem_keys_drop.mp hlock)
      exact hdrop row (eq_of_heq hsame).symm List.mem_cons_self

/-- A row that changes leave alone. -/
lemma find_applyAll_of_not_mem (h : ∀ w ∈ ws, Lock.row t key ∉ w.keys) :
    (s.applyAll ws).find t key = s.find t key := by
  induction ws generalizing s with
  | nil => rfl
  | cons w ws ih =>
    rw [applyAll_cons, ih fun w' hw' => h w' (List.mem_cons_of_mem _ hw'),
      find_apply_of_not_mem (h w List.mem_cons_self)]

/-- What changes on a row make of it does not depend on what was there. -/
lemma find_applyAll_of_mem (h : ∃ w ∈ ws, Lock.row t key ∈ w.keys) (s s' : Store L) :
    (s.applyAll ws).find t key = (s'.applyAll ws).find t key := by
  induction ws generalizing s s' with
  | nil =>
    obtain ⟨w, hw, -⟩ := h
    cases hw
  | cons w ws ih =>
    by_cases hrest : ∃ w' ∈ ws, Lock.row t key ∈ w'.keys
    · exact ih hrest _ _
    · have hnone : ∀ w' ∈ ws, Lock.row t key ∉ w'.keys := fun w' hw' hmem => hrest ⟨w', hw', hmem⟩
      rw [applyAll_cons, applyAll_cons, find_applyAll_of_not_mem hnone,
        find_applyAll_of_not_mem hnone]
      obtain ⟨w', hw', hmem⟩ := h
      rcases List.mem_cons.mp hw' with rfl | hw'
      · exact find_apply_of_mem hmem s s'
      · exact absurd hmem (hnone w' hw')

end Store

/-- An action anchors the rows it puts in.

**Proof sketch.** Cases on the action that put in the row. An insertion locks what the new row
refers to; an update keeps the references of the row it rewrites, which were anchored or
committed. -/
lemma Anchored.changes (X : Conduct S L) {held held' : Sigma L.Key → Prop} {s : Store L}
    {a : Action L} {ws ws' : List (Change L)} (h : Anchored held s ws)
    (hws' : a.changes (s.applyAll ws) = some ws') (hheld : ∀ r, held r → held' r)
    (hlocks : ∀ r : Sigma L.Key, (Lock.row r.1 r.2, .keyShare) ∈ a.locks (s.applyAll ws) → held' r) :
    Anchored held' s (ws ++ ws') := by
  intro t row hput r hr
  rcases List.mem_append.mp hput with hput | hput
  · exact (h t row hput r hr).imp_left (hheld r)
  cases a with
  | insert t' row' =>
    obtain ⟨-, hws'⟩ := Option.ite_none_right_eq_some.mp hws'
    obtain rfl := Option.some.inj hws'
    obtain ⟨rfl, hrow⟩ := Change.put.inj (List.mem_singleton.mp hput)
    obtain rfl := eq_of_heq hrow
    exact .inl (hlocks r (List.mem_append_right _ (List.mem_map_of_mem hr)))
  | update t' selects rewrite =>
    obtain ⟨-, hws'⟩ := Option.ite_none_right_eq_some.mp hws'
    obtain rfl := Option.some.inj hws'
    rw [List.map_map] at hput
    obtain ⟨x, hx, hput⟩ := List.mem_map.mp hput
    obtain ⟨rfl, hrow⟩ := Change.put.inj hput
    obtain rfl := eq_of_heq hrow
    have hrx := rewrite.refs_set x hr
    rw [rewrite.key_set]
    -- The row that is rewritten was put in by the session, or is committed.
    rcases Store.mem_of_applyAll X (List.mem_filter.mp hx).1 with hown | ⟨hx, -⟩
    · exact (h _ x hown r hrx).imp_left (hheld r)
    · exact .inr ⟨x, Table.find_of_mem hx, hrx⟩
  | delete t' selects =>
    obtain ⟨-, hws'⟩ := Option.ite_none_right_eq_some.mp hws'
    obtain rfl := Option.some.inj hws'
    obtain ⟨x, -, hput⟩ := List.mem_map.mp hput
    cases hput

/-- A deletion locks the rows against everyone.

**Proof sketch.** Only a deletion drops rows, and it drops those that it selects and locks. -/
lemma Action.drops_locked {a : Action L} {s : Store L} {ws : List (Change L)}
    (h : a.changes s = some ws) {t : L.Tab} {x : L.Row t} (hdrop : .drop t x ∈ ws) :
    x ∈ s t ∧ (Lock.row t (L.key t x), .update) ∈ a.locks s := by
  cases a with
  | insert t' row =>
    obtain ⟨-, h⟩ := Option.ite_none_right_eq_some.mp h
    obtain rfl := Option.some.inj h
    cases List.mem_singleton.mp hdrop
  | update t' selects rewrite =>
    obtain ⟨-, h⟩ := Option.ite_none_right_eq_some.mp h
    obtain rfl := Option.some.inj h
    rw [List.map_map] at hdrop
    obtain ⟨row, -, hput⟩ := List.mem_map.mp hdrop
    cases hput
  | delete t' selects =>
    obtain ⟨-, h⟩ := Option.ite_none_right_eq_some.mp h
    obtain rfl := Option.some.inj h
    obtain ⟨row, hrow, hdrop⟩ := List.mem_map.mp hdrop
    obtain ⟨rfl, hsame⟩ := Change.drop.inj hdrop
    obtain rfl := eq_of_heq hsame
    exact ⟨(List.mem_filter.mp hrow).1, List.mem_flatMap.mpr ⟨row, hrow, List.mem_cons_self⟩⟩

/-- An action drops rows that are there. -/
lemma Dropping.changes (X : Conduct S L) {held held' : Sigma L.Key → Prop} {s : Store L}
    {a : Action L} {ws ws' : List (Change L)} (h : Dropping held s ws)
    (hws' : a.changes (s.applyAll ws) = some ws') (hheld : ∀ r, held r → held' r)
    (hlocks : ∀ r : Sigma L.Key, (Lock.row r.1 r.2, .update) ∈ a.locks (s.applyAll ws) → held' r) :
    Dropping held' s (ws ++ ws') := by
  intro t x hdrop
  rcases List.mem_append.mp hdrop with hdrop | hdrop
  · obtain ⟨hx, hrow⟩ := h t x hdrop
    exact ⟨hheld _ hx, hrow.imp_left (List.mem_append_left _)⟩
  · obtain ⟨hx, hlock⟩ := Action.drops_locked hws' hdrop
    refine ⟨hlocks (L.refTo t x) hlock, ?_⟩
    rcases Store.mem_of_applyAll X hx with hput | ⟨hx, -⟩
    · exact .inl (List.mem_append_left _ hput)
    · exact .inr hx

/-! ## Configurations -/

variable {ι ρ : Type} [DecidableEq ι]

/-- Whether a session holds a row. -/
def Config.HoldsRow (c : Config S (Store L) (Change L) (Lock L) ι ρ) (i : ι) (m : Strength)
    (r : Sigma L.Key) : Prop := c.holds i (.row r.1 r.2) m = true

/-- What a session has pending. -/
structure Responsible (c : Config S (Store L) (Change L) (Lock L) ι ρ) (i : ι) : Prop where
  /-- Rows that it drops are locked against everyone. -/
  dropping : Dropping (c.HoldsRow i .update) c.db (c.sessions i).pending
  /-- Rows that its own refer to cannot be dropped by others. -/
  anchored : Anchored (c.HoldsRow i .keyShare) c.db (c.sessions i).pending

/-- What every configuration keeps. -/
structure Guarding (X : Conduct S L) (c : Config S (Store L) (Change L) (Lock L) ι ρ) : Prop where
  sound : c.Sound Change.keys
  responsible : ∀ i, Responsible c i
  intact : c.db.Intact
  views : ∀ i, (c.view X.backend i).Intact

namespace Guarding

variable {c c' : Config S (Store L) (Change L) (Lock L) ι ρ} {i j : ι}

/-- Before anybody wrote anything. -/
lemma start (hpending : ∀ i, (c.sessions i).pending = []) (hholders : ∀ k, c.holders k = [])
    (h : c.db.Intact) : Guarding X c where
  sound := by
    refine ⟨fun i w hw => ?_, fun k p hp => ?_⟩
    · rw [hpending] at hw
      cases hw
    · rw [hholders] at hp
      cases hp
  responsible i := by
    refine ⟨fun t x hdrop => ?_, fun t row hput => ?_⟩
    · rw [hpending] at hdrop
      cases hdrop
    · rw [hpending] at hput
      cases hput
  intact := h
  views i := by
    unfold Config.view
    rw [hpending]
    exact h

/-- A row that one session refers to, no other session deletes. -/
lemma eq_of_refers (h : Guarding X c) {t : L.Tab} {x : L.Row t} {r : Sigma L.Key}
    (hx : .put t x ∈ (c.sessions i).pending) (hr : r ∈ L.refs t x)
    {y : L.Row r.1} (hy : L.key r.1 y = r.2) (hdrop : .drop r.1 y ∈ (c.sessions j).pending) :
    i = j ∨ ∃ z, c.db.find t (L.key t x) = some z ∧ r ∈ L.refs t z := by
  refine ((h.responsible i).anchored t x hx r hr).imp_left fun hheld => ?_
  have hlock : c.holds j (.row r.1 (L.key r.1 y)) .update = true :=
    ((h.responsible j).dropping r.1 y hdrop).1
  rw [hy] at hlock
  exact h.sound.eq_of_conflicts hheld hlock rfl

/-- Another session leaves alone what a session changes. -/
lemma untouched (h : Guarding X c) (hij : i ≠ j) {k : Lock L}
    (hi : ∃ w ∈ (c.sessions i).pending, k ∈ w.keys) : ∀ w ∈ (c.sessions j).pending, k ∉ w.keys := by
  obtain ⟨w, hw, hk⟩ := hi
  intro w' hw' hk'
  exact hij (h.sound.eq_of_conflicts (h.sound.covered i w hw k hk)
    (h.sound.covered j w' hw' k hk') rfl)

/-- **References.** When another session has committed, what a session sees still refers to what is
there.

**Proof sketch.** The row was put in by the session itself, or is seen by the one that commits, and
in that view what it refers to is there. It can only be lost where the other of the two drops it.
But whoever puts in a row that refers holds what it refers to, so that the two would be one session
(`eq_of_refers`), or the reference was committed before and the dropping session would see it. -/
lemma refers_of_commit (h : Guarding X c) (hij : i ≠ j) (t : L.Tab) :
    ∀ x ∈ (c.view X.backend j).applyAll (c.sessions i).pending t, ∀ r ∈ L.refs t x,
      (((c.view X.backend j).applyAll (c.sessions i).pending).find r.1 r.2).isSome := by
  intro x hx r hr
  -- What the session sees of the row referred to, if it sees it now.
  have hseen : ((c.view X.backend i).find r.1 r.2).isSome →
      (∀ w ∈ (c.sessions i).pending, Lock.row r.1 r.2 ∉ w.keys) ∨
        (((c.view X.backend j).applyAll (c.sessions i).pending).find r.1 r.2).isSome := by
    intro hsome
    by_cases htouched : ∃ w ∈ (c.sessions i).pending, Lock.row r.1 r.2 ∈ w.keys
    · right
      rw [Store.find_applyAll_of_mem htouched _ c.db]
      exact hsome
    · exact .inl fun w hw hk => htouched ⟨w, hw, hk⟩
  -- What is committed is seen by a session that leaves it alone.
  have hcommitted : ∀ k, (∀ w ∈ (c.sessions k).pending, Lock.row t (L.key t x) ∉ w.keys) →
      ∀ y, c.db.find t (L.key t x) = some y → r ∈ L.refs t y →
        ((c.view X.backend k).find r.1 r.2).isSome := by
    intro k hkeep y hy hry
    refine (h.views k).refers t y (Table.mem_of_find (k := L.key t x) ?_) r hry
    exact (Store.find_applyAll_of_not_mem hkeep).trans hy
  rcases (RowSet.mem_applyAll (R := Store.rowSet X t)).mp hx with hown | ⟨hx, hkeep⟩
  · -- The session put the row in.
    obtain ⟨w, hput, rfl⟩ := RowSet.exists_write hown
    have hx' : x ∈ c.view X.backend i t :=
      (RowSet.mem_applyAll (R := Store.rowSet X t)).mpr (.inl hown)
    have hsome := (h.views i).refers t x hx' r hr
    rcases hseen hsome with hkeep | hdone
    swap
    · exact hdone
    rw [Store.find_applyAll_of_not_mem hkeep]
    by_cases hdrop : ∃ row, L.key r.1 row = r.2 ∧ .drop r.1 row ∈ (c.sessions j).pending
    · obtain ⟨row, hrow, hdrop⟩ := hdrop
      rcases h.eq_of_refers hput hr hrow hdrop with rfl | ⟨y, hy, hry⟩
      · exact absurd rfl hij
      · exact hcommitted j (h.untouched hij ⟨_, hput, List.mem_cons_self⟩) y hy hry
    · refine Store.isSome_applyAll ?_ fun row hrow hmem => hdrop ⟨row, hrow, hmem⟩
      rw [← Store.find_applyAll_of_not_mem hkeep]
      exact hsome
  · -- The row was there, or the other session put it in.
    have hsome := (h.views j).refers t x hx r hr
    by_cases hdrop : ∃ row, L.key r.1 row = r.2 ∧ .drop r.1 row ∈ (c.sessions i).pending
    swap
    · exact Store.isSome_applyAll hsome fun row hrow hmem => hdrop ⟨row, hrow, hmem⟩
    obtain ⟨row, hrow, hdrop⟩ := hdrop
    have hview : ((c.view X.backend i).find r.1 r.2).isSome := by
      rcases Store.mem_of_applyAll X hx with hput | ⟨hx, -⟩
      · rcases h.eq_of_refers hput hr hrow hdrop with rfl | ⟨y, hy, hry⟩
        · exact absurd rfl hij
        · exact hcommitted i hkeep y hy hry
      · exact hcommitted i hkeep x (Table.find_of_mem hx) hr
    rcases hseen hview with hno | hdone
    · refine absurd ?_ (hno _ hdrop)
      rw [← hrow]
      exact List.mem_cons_self
    · exact hdone

/-- **Constraints** hold for every session after a move. -/
lemma intact_of_move (h : Guarding X c) (hm : Move X.backend c j c') :
    c'.db.Intact ∧ ∀ i, (c'.view X.backend i).Intact := by
  have hnames : ∀ {s : Store L}, s.Intact → ∀ t n, (Store.nameIndex X t n).Holds s := by
    intro s hs t n x hx y hy v hxv hyv
    exact hs.unique t x hx y hy n (Option.ite_none_right_eq_some.mp hxv).1
      (Option.ite_none_right_eq_some.mp hyv).1
  refine views_of_move (fun o f r ws hp heval => Conduct.intact_eval (h.views j) heval)
    (fun i hij => ?_) h.intact h.views hm
  refine ⟨fun t x hx y hy n hnx hny => ?_, h.refers_of_commit hij, fun t x hx => ?_⟩
  · exact UniqueIndex.holds_published h.sound (fun i => hnames (h.views i) t n) hij x hx y hy ()
      (if_pos hnx) (if_pos hny)
  · rcases (RowSet.mem_applyAll (R := Store.rowSet X t)).mp hx with hown | ⟨hx, -⟩
    · exact (h.views i).checked t x ((RowSet.mem_applyAll (R := Store.rowSet X t)).mpr (.inl hown))
    · exact (h.views j).checked t x hx

/-- A session holds what its statement drops and what its rows refer to.

**Proof sketch.** Induction on the actions of the statement (`changesAll_induction`): each one locks
the rows it drops, and anchors those it puts in. -/
lemma responsible_of_eval (h : Guarding X c) {o : S.Op} {busy : Lock L → Bool} {r : S.Resp o}
    {ws : List (Change L)} (heval : X.eval o busy (c.view X.backend j) = .ok (r, ws)) :
    Dropping (fun r => c.HoldsRow j .update r ∨
        (Lock.row r.1 r.2, .update) ∈ X.locks o busy (c.view X.backend j)) c.db
        ((c.sessions j).pending ++ ws) ∧
      Anchored (fun r => c.HoldsRow j .keyShare r ∨
        (Lock.row r.1 r.2, .keyShare) ∈ X.locks o busy (c.view X.backend j)) c.db
        ((c.sessions j).pending ++ ws) := by
  have hbefore : ∀ held held' : Sigma L.Key → Prop,
      Dropping (fun r => c.HoldsRow j .update r ∨ held r) c.db ((c.sessions j).pending ++ []) ∧
        Anchored (fun r => c.HoldsRow j .keyShare r ∨ held' r) c.db
          ((c.sessions j).pending ++ []) := by
    intro held held'
    rw [List.append_nil]
    exact ⟨fun t x hdrop => ((h.responsible j).dropping t x hdrop).imp_left .inl,
      fun t row hput r hr => ((h.responsible j).anchored t row hput r hr).imp_left .inl⟩
  rcases Conduct.eval_eq_ok heval with ⟨as, -, hchanges, hlocks⟩ | ⟨-, -, -, -, -, rfl⟩
  swap
  · exact hbefore _ _
  rw [hlocks]
  have hsteps := Action.changesAll_induction
    (P := fun ws ls => Dropping (fun r => c.HoldsRow j .update r ∨
        (Lock.row r.1 r.2, .update) ∈ ls) c.db ((c.sessions j).pending ++ ws) ∧
      Anchored (fun r => c.HoldsRow j .keyShare r ∨
        (Lock.row r.1 r.2, .keyShare) ∈ ls) c.db ((c.sessions j).pending ++ ws))
    (hbefore _ _)
    (fun a ws ls ws' hP hws' => by
      obtain ⟨hdropping, hanchored⟩ := hP
      rw [← List.append_assoc]
      have hseen : a.changes (c.db.applyAll ((c.sessions j).pending ++ ws)) = some ws' := by
        rw [Store.applyAll_append]
        exact hws'
      refine ⟨hdropping.changes X hseen (fun r hr => hr.imp_right (List.mem_append_left _))
        fun r hr => .inr ?_, hanchored.changes X hseen
        (fun r hr => hr.imp_right (List.mem_append_left _)) fun r hr => .inr ?_⟩
      · rw [Store.applyAll_append] at hr
        exact List.mem_append_right _ hr
      · rw [Store.applyAll_append] at hr
        exact List.mem_append_right _ hr) hchanges
  exact ⟨fun t x hdrop => (hsteps.1 t x hdrop).imp_left (Or.imp_right (List.mem_append_right _)),
    fun t row hput r hr => (hsteps.2 t row hput r hr).imp_left
      (Or.imp_right (List.mem_append_right _))⟩

/-- What a session is responsible for, after a move.

**Proof sketch.** Another session's move changes no row that is held, and no row that is dropped. A
session's own statement adds what it locks (`responsible_of_eval`), and the end of its transaction
leaves nothing to be responsible for. -/
lemma responsible_of_move (h : Guarding X c) (hm : Move X.backend c j c') (i : ι) :
    Responsible c' i := by
  by_cases hj : j = i
  swap
  · -- What another session holds and counts on stays as it was.
    have hholds : ∀ m r, c.HoldsRow i m r → c'.HoldsRow i m r :=
      fun m r hr => (holds_stable hj hm).trans hr
    refine ⟨fun t x hdrop => ?_, fun t row hput r hr => ?_⟩
    · rw [session_stable hj hm] at hdrop ⊢
      obtain ⟨hheld, hrow⟩ := (h.responsible i).dropping t x hdrop
      refine ⟨hholds _ _ hheld, hrow.imp_right fun hx => ?_⟩
      have hfind : c'.db.find t (L.key t x) = c.db.find t (L.key t x) :=
        db_stable h.sound (Store.guarded_row t _) (Config.holds_mono (by decide) hheld) hj hm
      exact Table.mem_of_find (hfind.trans (Table.find_of_mem hx))
    · rw [session_stable hj hm] at hput
      rcases (h.responsible i).anchored t row hput r hr with hheld | ⟨x, hx, hrx⟩
      · exact .inl (hholds _ _ hheld)
      have hlock := h.sound.covered i _ hput (.row t (L.key t row)) List.mem_cons_self
      refine .inr ⟨x, ?_, hrx⟩
      rw [← hx]
      exact db_stable h.sound (Store.guarded_row t _) (Config.holds_mono (by decide) hlock) hj hm
  subst hj
  have hput : ∀ s : Session S (Change L) ρ, (Function.update c.sessions j s j).pending = s.pending :=
    fun s => by rw [Function.update_self]
  have hnone : (c'.sessions j).pending = [] → Responsible c' j := by
    intro hpending
    refine ⟨fun t x hdrop => ?_, fun t row hrow => ?_⟩
    · rw [hpending] at hdrop
      cases hdrop
    · rw [hpending] at hrow
      cases hrow
  have hsame : ∀ s : Session S (Change L) ρ, s.pending = (c.sessions j).pending →
      Responsible (c.put j s) j := by
    intro s hpending
    have hown : ((c.put j s).sessions j).pending = (c.sessions j).pending :=
      (hput s).trans hpending
    refine ⟨?_, ?_⟩
    · rw [hown]
      exact (h.responsible j).dropping
    · rw [hown]
      exact (h.responsible j).anchored
  cases hm with
  | close => exact hnone (hput _)
  | commit p hp => exact hnone (hput { c.sessions j with prog := p, pending := [] })
  | rollback p hp => exact hnone (hput { c.sessions j with prog := p, pending := [] })
  | ask f hp => exact hsame _ rfl
  | emit o p hp =>
    have hkept := hsame { c.sessions j with prog := p } rfl
    exact ⟨hkept.dropping, hkept.anchored⟩
  | raise o f e hp he => exact hsame _ rfl
  | crash => exact hsame _ rfl
  | stmt o f r ws hp hl he =>
    obtain ⟨hdropping, hanchored⟩ := h.responsible_of_eval he
    have hown : ((((c.put j { c.sessions j with
        prog := f r, pending := (c.sessions j).pending ++ ws }).take j
          (X.backend.locks o (c.busy j) (c.view X.backend j))).note j (.did o r)).sessions j).pending =
        (c.sessions j).pending ++ ws := hput { c.sessions j with
          prog := f r, pending := (c.sessions j).pending ++ ws }
    have htake : ∀ k m, c.holds j k m = true ∨
        (k, m) ∈ X.backend.locks o (c.busy j) (c.view X.backend j) →
          (c.take j (X.backend.locks o (c.busy j) (c.view X.backend j))).holds j k m = true := by
      intro k m hk
      exact Config.holds_take_self.mpr (hk.symm.imp_left fun hk => ⟨m, hk, Nat.le_refl _⟩)
    refine ⟨fun t x hdrop => ?_, fun t row hrow r hr => ?_⟩
    · rw [hown] at hdrop ⊢
      exact (hdropping t x hdrop).imp_left fun hheld => htake _ _ hheld
    · rw [hown] at hrow
      exact (hanchored t row hrow r hr).imp_left fun hheld => htake _ _ hheld

/-- **Integrity** is kept by every move. -/
theorem move (h : Guarding X c) (hm : Move X.backend c j c') : Guarding X c' where
  sound := sound_of_move X.backend_covers h.sound hm
  responsible := h.responsible_of_move hm
  intact := (h.intact_of_move hm).1
  views := (h.intact_of_move hm).2

/-! ## What a commit changes -/

/-- A row that appears was put in by a session that commits. -/
lemma appeared (hm : Move X.backend c j c') {t : L.Tab} {x : L.Row t} (hx : x ∈ c'.db t)
    (hno : x ∉ c.db t) : (∃ p, (c.sessions j).prog = .commit p) ∧ c'.db = c.view X.backend j ∧
      .put t x ∈ (c.sessions j).pending := by
  rcases db_of_move hm with hdb | ⟨hp, hdb⟩
  · rw [hdb] at hx
    exact absurd hx hno
  · refine ⟨hp, hdb, ?_⟩
    rw [hdb] at hx
    rcases Store.mem_of_applyAll X hx with hput | ⟨hx, -⟩
    · exact hput
    · exact absurd hx hno

/-- A row that disappears was dropped by a session that commits, as it is or as the session had put
it in. -/
lemma disappeared (h : Guarding X c) (hm : Move X.backend c j c') {t : L.Tab} {x : L.Row t}
    (hx : x ∈ c.db t) (hno : c'.db.find t (L.key t x) = none) :
    (∃ p, (c.sessions j).prog = .commit p) ∧ c'.db = c.view X.backend j ∧
      ∃ y, L.key t y = L.key t x ∧ .drop t y ∈ (c.sessions j).pending ∧
        (.put t y ∈ (c.sessions j).pending ∨ y = x) := by
  have hsome : (c.db.find t (L.key t x)).isSome := by
    rw [show c.db.find t (L.key t x) = some x from Table.find_of_mem hx]
    rfl
  rcases db_of_move hm with hdb | ⟨hp, hdb⟩
  · rw [hdb, Option.eq_none_iff_forall_ne_some] at hno
    exact absurd (Table.find_of_mem hx) (hno x)
  refine ⟨hp, hdb, ?_⟩
  by_contra hnone
  have hstays : ((c.view X.backend j).find t (L.key t x)).isSome := by
    refine Store.isSome_applyAll hsome fun y hy hdrop => hnone ⟨y, hy, hdrop, ?_⟩
    refine ((h.responsible j).dropping t y hdrop).2.imp_right fun hy' => ?_
    exact Table.eq_of_key_eq hy' hx hy
  rw [← hdb, hno] at hstays
  cases hstays

end Guarding

end Integrity

end Transact
