import Mathlib.Data.List.Basic

set_option relaxedAutoImplicit false
set_option autoImplicit false

/-!
# Trimmed and collapsed lists

Dropping the blanks at both ends of a list, and replacing every run of blanks in it by one space.
Both are normalizations: each leaves alone what it made, and collapsing keeps trimmed ends trimmed,
so doing both twice is doing both once. Neither looks at more of an element than whether it is
blank, so they commute with any map that keeps blanks and the space.

## Main definitions

* `Transact.Whitespace.trim`, `Transact.Whitespace.collapse` — the operations.
* `Transact.Whitespace.Trimmed`, `Transact.Whitespace.Collapsed` — the lists they leave alone.

## Main results

* `Transact.Whitespace.normal_idem` — normalizing twice is normalizing once.
* `Transact.Whitespace.trim_map`, `Transact.Whitespace.collapse_map` — commutation with maps.
-/

namespace Transact.Whitespace

variable {α β : Type} (blank : α → Bool) (space : α)

/-- Drop the blanks at both ends. -/
def trim (cs : List α) : List α := ((cs.dropWhile blank).reverse.dropWhile blank).reverse

/-- Replace every run of blanks by one space; `inRun` tells whether one was just written. -/
def collapse (inRun : Bool) : List α → List α
  | [] => []
  | c :: cs =>
    if blank c then if inRun then collapse true cs else space :: collapse true cs
    else c :: collapse false cs

/-- Neither end is blank. -/
def Trimmed (cs : List α) : Prop :=
  (∀ c ∈ cs.head?, blank c = false) ∧ ∀ c ∈ cs.getLast?, blank c = false

/-- Every blank is the space, and none follows another. -/
def Collapsed (inRun : Bool) : List α → Prop
  | [] => True
  | c :: cs => if blank c then inRun = false ∧ c = space ∧ Collapsed true cs else Collapsed false cs

variable {blank space}

/-! ## Trimming -/

/-- What is left after dropping the leading blanks does not begin with one. -/
lemma head?_dropWhile (cs : List α) : ∀ c ∈ (cs.dropWhile blank).head?, blank c = false := by
  induction cs with
  | nil =>
    intro c hc
    cases hc
  | cons c cs ih =>
    rw [List.dropWhile_cons]
    by_cases hblank : blank c = true
    · rw [if_pos hblank]
      exact ih
    · rw [if_neg hblank]
      intro c' hc'
      cases hc'
      exact Bool.eq_false_iff.mpr hblank

/-- Without a leading blank there is nothing to drop. -/
lemma dropWhile_eq_self {cs : List α} (h : ∀ c ∈ cs.head?, blank c = false) :
    cs.dropWhile blank = cs := by
  cases cs with
  | nil => rfl
  | cons c cs => rw [List.dropWhile_cons, if_neg (by rw [h c rfl]; exact Bool.false_ne_true)]

/-- Dropping leading blanks keeps the last element of what is not dropped whole. -/
lemma getLast?_dropWhile {cs : List α} {c : α} (h : c ∈ (cs.dropWhile blank).getLast?) :
    c ∈ cs.getLast? := by
  obtain ⟨ds, hds⟩ := List.dropWhile_suffix (l := cs) blank
  rw [Option.mem_def] at h ⊢
  rw [← hds, List.getLast?_append, h, Option.some_or]

/-- A trimmed list has no blank at either end. -/
lemma trimmed_trim (cs : List α) : Trimmed blank (trim blank cs) := by
  constructor
  · intro c hc
    rw [trim, List.head?_reverse] at hc
    have hlast := getLast?_dropWhile hc
    rw [List.getLast?_reverse] at hlast
    exact head?_dropWhile cs c hlast
  · intro c hc
    rw [trim, List.getLast?_reverse] at hc
    exact head?_dropWhile _ c hc

/-- A list without a blank at either end is left alone. -/
lemma trim_eq_self {cs : List α} (h : Trimmed blank cs) : trim blank cs = cs := by
  rw [trim, dropWhile_eq_self h.1, dropWhile_eq_self, List.reverse_reverse]
  intro c hc
  rw [List.head?_reverse] at hc
  exact h.2 c hc

/-! ## Collapsing -/

/-- A collapsed list has no two blanks in a row. -/
lemma collapsed_collapse (hspace : blank space = true) (inRun : Bool) (cs : List α) :
    Collapsed blank space inRun (collapse blank space inRun cs) := by
  induction cs generalizing inRun with
  | nil => trivial
  | cons c cs ih =>
    rw [collapse]
    by_cases hblank : blank c = true
    · rw [if_pos hblank]
      cases inRun with
      | true => exact ih true
      | false =>
        show Collapsed blank space false (space :: collapse blank space true cs)
        rw [Collapsed, if_pos hspace]
        exact ⟨rfl, rfl, ih true⟩
    · rw [if_neg hblank, Collapsed, if_neg hblank]
      exact ih false

/-- A list with no two blanks in a row is left alone. -/
lemma collapse_eq_self {inRun : Bool} {cs : List α} (h : Collapsed blank space inRun cs) :
    collapse blank space inRun cs = cs := by
  induction cs generalizing inRun with
  | nil => rfl
  | cons c cs ih =>
    rw [Collapsed] at h
    rw [collapse]
    by_cases hblank : blank c = true
    · rw [if_pos hblank] at h ⊢
      obtain ⟨rfl, rfl, h⟩ := h
      rw [if_neg Bool.false_ne_true, ih h]
    · rw [if_neg hblank] at h ⊢
      rw [ih h]

/-- Collapsing keeps a first element that is not blank. -/
lemma head?_collapse {inRun : Bool} {cs : List α} (h : ∀ c ∈ cs.head?, blank c = false) :
    (collapse blank space inRun cs).head? = cs.head? := by
  cases cs with
  | nil => rfl
  | cons c cs => rw [collapse, if_neg (by rw [h c rfl]; exact Bool.false_ne_true)]; rfl

/-- Collapsing keeps a last element that is not blank.

**Proof sketch.** Induction on the list, for both values of `inRun`. The last element is the head
when the tail is empty, and is not dropped since it is not blank; otherwise it is that of the
tail. -/
lemma getLast?_collapse {inRun : Bool} {cs : List α} {c : α} (hlast : cs.getLast? = some c)
    (h : blank c = false) : (collapse blank space inRun cs).getLast? = some c := by
  induction cs generalizing inRun with
  | nil => cases hlast
  | cons c' cs ih =>
    rw [List.getLast?_cons] at hlast
    cases hcs : cs.getLast? with
    | none =>
      -- the last element is the only one
      rw [List.getLast?_eq_none_iff] at hcs
      subst hcs
      obtain rfl : c' = c := Option.some.inj hlast
      rw [collapse, if_neg (by rw [h]; exact Bool.false_ne_true)]
      rfl
    | some d =>
      rw [hcs, Option.getD_some] at hlast
      have hrest : ∀ b, (collapse blank space b cs).getLast? = some c := fun b =>
        ih (hcs.trans hlast)
      rw [collapse]
      split_ifs
      · exact hrest true
      · rw [List.getLast?_cons, hrest true, Option.getD_some]
      · rw [List.getLast?_cons, hrest false, Option.getD_some]

/-- Collapsing keeps trimmed ends trimmed. -/
lemma Trimmed.collapse {cs : List α} (h : Trimmed blank cs) (inRun : Bool) :
    Trimmed blank (collapse blank space inRun cs) := by
  refine ⟨fun c hc => h.1 c (head?_collapse h.1 ▸ hc), fun c hc => ?_⟩
  cases hlast : cs.getLast? with
  | none =>
    rw [List.getLast?_eq_none_iff] at hlast
    subst hlast
    cases hc
  | some d =>
    have hd := h.2 d hlast
    rw [getLast?_collapse hlast hd] at hc
    cases hc
    exact hd

/-- **Normalizing twice is normalizing once.** -/
lemma normal_idem (hspace : blank space = true) (cs : List α) :
    collapse blank space false (trim blank (collapse blank space false (trim blank cs))) =
      collapse blank space false (trim blank cs) := by
  rw [trim_eq_self ((trimmed_trim cs).collapse false),
    collapse_eq_self (collapsed_collapse hspace false _)]

/-! ## Maps -/

section Map

variable {blank' : β → Bool} {f : α → β}

/-- Trimming commutes with a map that keeps blanks. -/
lemma trim_map (hf : ∀ c, blank' (f c) = blank c) (cs : List α) :
    trim blank' (cs.map f) = (trim blank cs).map f := by
  have hcomp : blank' ∘ f = blank := funext hf
  rw [trim, List.dropWhile_map, hcomp, ← List.map_reverse, List.dropWhile_map, hcomp,
    ← List.map_reverse, trim]

/-- Collapsing commutes with a map that keeps blanks and the space. -/
lemma collapse_map (hf : ∀ c, blank' (f c) = blank c) (inRun : Bool) (cs : List α) :
    collapse blank' (f space) inRun (cs.map f) = (collapse blank space inRun cs).map f := by
  induction cs generalizing inRun with
  | nil => rfl
  | cons c cs ih =>
    rw [List.map_cons, collapse, collapse, hf]
    split_ifs
    · exact ih true
    · rw [ih true, List.map_cons]
    · rw [ih false, List.map_cons]

end Map

end Transact.Whitespace
