import MintFlow.Receipts.Recognition
import Mathlib.Data.List.ReduceOption
import Mathlib.Tactic.Linarith

set_option relaxedAutoImplicit false
set_option autoImplicit false

/-!
# Selection is safe

What is selected depends on the candidates only as a set, and nothing is selected on a close call:
the value that is chosen clears its threshold and leads every different one. All of it holds for
any confidences that are ordered linearly and whose differences shrink as they should, so for
rational numbers and for doubles alike.

## Main definitions

* `MintFlow.ConfidenceGap` — confidences whose differences shrink as they should.
* `MintFlow.Foremost` — a value is the clear best of those that were read, by the comparisons the
  program makes.
* `MintFlow.Leads` — the same for rational numbers, in their own terms.
* `MintFlow.SameCandidates` — two outputs with the same candidates.

## Main results

* `MintFlow.leader_eq_some_iff` — the leader is the value that is foremost.
* `MintFlow.selection_safe` — selection is safe and independent of order.
-/

namespace MintFlow

open Transact

/-! ## Leading -/

/-- Confidences whose differences shrink as they should: nothing is ahead of what is at least as
good, and a lead that is too small is too small over everything better. -/
class ConfidenceGap (C : Type) [LinearOrder C] [Sub C] [OfScientific C] : Prop where
  behind : ∀ {a b : C}, a ≤ b → a - b < 0.15
  closer : ∀ {a b c : C}, b ≤ c → a - b < 0.15 → a - c < 0.15

instance : ConfidenceGap ℚ where
  behind {a b} h := by
    have hgap : (0 : ℚ) < 0.15 := by norm_num
    linarith
  closer {a b c} h hclose := by linarith

/-- Differences of doubles are rounded, which is monotone. -/
instance : ConfidenceGap Binary64 where
  behind {a b} h := by
    have hgap : (0 : ℚ) < (0.15 : Binary64).value := by decide +kernel
    have hle : a.value - b.value ≤ 0 := sub_nonpos.mpr (show a.value ≤ b.value from h)
    exact (nearestDouble_nonpos hle).trans_lt hgap
  closer {a b c} h hclose := by
    have hgap : (0 : ℚ) < (0.15 : Binary64).value := by decide +kernel
    have hle : a.value - c.value ≤ a.value - b.value :=
      sub_le_sub_left (show b.value ≤ c.value from h) _
    rcases le_or_gt (a.value - c.value) 0 with hneg | hpos
    · exact (nearestDouble_nonpos hneg).trans_lt hgap
    · exact (nearestDouble_mono hpos hle).trans_lt hclose

/-- A value is foremost among those that were read: its best confidence is not below the threshold,
and does not exceed a confidence of a different value by too little. -/
def Foremost {κ C : Type} [Sub C] [LT C] [OfScientific C] (read : κ → C → Prop) (minimum : C)
    (k : κ) : Prop :=
  ∃ best, read k best ∧ (∀ q, read k q → ¬ best < q) ∧ ¬ best < minimum ∧
    ∀ k' q, read k' q → k' ≠ k → ¬ best - q < 0.15

/-- What is foremost depends on what was read only. -/
lemma Foremost.congr {κ C : Type} [Sub C] [LT C] [OfScientific C] {read read' : κ → C → Prop}
    (h : ∀ k q, read k q ↔ read' k q) {minimum : C} {k : κ} :
    Foremost read minimum k ↔ Foremost read' minimum k := by
  have heq : read = read' := by
    funext k q
    exact propext (h k q)
  rw [heq]

/-- A value leads those that were read: its best confidence reaches the threshold, and every
confidence of a different value is far enough behind. -/
def Leads {κ : Type} (read : κ → ℚ → Prop) (minimum : ℚ) (k : κ) : Prop :=
  ∃ best, read k best ∧ (∀ q, read k q → q ≤ best) ∧ minimum ≤ best ∧
    ∀ k' q, read k' q → k' ≠ k → q + 0.15 ≤ best

/-- Among rational numbers, what is foremost leads. -/
lemma foremost_iff_leads {κ : Type} {read : κ → ℚ → Prop} {minimum : ℚ} {k : κ} :
    Foremost read minimum k ↔ Leads read minimum k := by
  have hgap : ∀ best q : ℚ, ¬ best - q < 0.15 ↔ q + 0.15 ≤ best := fun best q => by
    rw [not_lt, le_sub_iff_add_le']
  simp only [Foremost, Leads, hgap, not_lt]

section Leader

variable {α κ C : Type} [LinearOrder C] {key : α → κ}

/-- What was read: the keys of scored values, with their confidences. -/
def readOf {α κ C : Type} (key : α → κ) (scored : List (α × C)) (k : κ) (q : C) : Prop :=
  ∃ s ∈ scored, key s.1 = k ∧ s.2 = q

/-- The best confidences of what was read so far: one for each key, and the greatest one. -/
structure BestOf (key : α → κ) (seen best : List (α × C)) : Prop where
  distinct : (best.map fun b => key b.1).Nodup
  attained : ∀ b ∈ best, readOf key seen (key b.1) b.2
  greatest : ∀ b ∈ best, ∀ q, readOf key seen (key b.1) q → q ≤ b.2
  complete : ∀ s ∈ seen, ∃ b ∈ best, key b.1 = key s.1

/-- One candidate more has its own reading. -/
lemma readOf_append {α κ C : Type} {key : α → κ} {seen : List (α × C)} {s : α × C} {k : κ} {q : C} :
    readOf key (seen ++ [s]) k q ↔ readOf key seen k q ∨ key s.1 = k ∧ s.2 = q := by
  unfold readOf
  simp only [List.mem_append, List.mem_singleton]
  constructor
  · rintro ⟨t, ht | rfl, h⟩
    · exact .inl ⟨t, ht, h⟩
    · exact .inr h
  · rintro (⟨t, ht, h⟩ | h)
    · exact ⟨t, .inl ht, h⟩
    · exact ⟨s, .inr rfl, h⟩

/-- Whatever was read has a best confidence. -/
lemma BestOf.cover {scored best : List (α × C)} (h : BestOf key scored best) {k : κ} {q : C}
    (hread : readOf key scored k q) : ∃ b ∈ best, key b.1 = k ∧ q ≤ b.2 := by
  obtain ⟨s, hs, rfl, rfl⟩ := hread
  obtain ⟨b, hb, hk⟩ := h.complete s hs
  exact ⟨b, hb, hk, h.greatest b hb _ ⟨s, hs, hk.symm, rfl⟩⟩

/-- The best confidences stay so in another order. -/
lemma BestOf.perm {scored best ranked : List (α × C)} (h : BestOf key scored best)
    (hperm : ranked.Perm best) : BestOf key scored ranked where
  distinct := (hperm.map _).nodup_iff.mpr h.distinct
  attained b hb := h.attained b (hperm.mem_iff.mp hb)
  greatest b hb := h.greatest b (hperm.mem_iff.mp hb)
  complete s hs := by
    obtain ⟨b, hb, hk⟩ := h.complete s hs
    exact ⟨b, hperm.mem_iff.mpr hb, hk⟩

section Lead

variable [Sub C] [OfScientific C] {minimum : C} {k : κ}

/-- Of nothing, nothing is foremost. -/
lemma BestOf.not_foremost_nil {scored : List (α × C)} (h : BestOf key scored []) :
    ¬ Foremost (readOf key scored) minimum k := by
  rintro ⟨best, hread, -⟩
  obtain ⟨b, hb, -⟩ := h.cover hread
  exact absurd hb List.not_mem_nil

/-- The only value is foremost if it clears the threshold. -/
lemma BestOf.foremost_singleton {scored : List (α × C)} {value : α} {confidence : C}
    (h : BestOf key scored [(value, confidence)]) :
    Foremost (readOf key scored) minimum k ↔ ¬ confidence < minimum ∧ key value = k := by
  have honly : ∀ k' q, readOf key scored k' q → key value = k' ∧ q ≤ confidence := by
    intro k' q hread
    obtain ⟨b, hb, hk, hq⟩ := h.cover hread
    obtain rfl := List.mem_singleton.mp hb
    exact ⟨hk, hq⟩
  constructor
  · rintro ⟨best, hread, -, hle, -⟩
    obtain ⟨hkey, hbest⟩ := honly k best hread
    exact ⟨fun hlt => hle (hbest.trans_lt hlt), hkey⟩
  · rintro ⟨hle, rfl⟩
    exact ⟨confidence, h.attained _ List.mem_cons_self,
      fun q hread => not_lt.mpr (honly _ q hread).2, hle,
      fun k' q hread hne => absurd (honly k' q hread).1.symm hne⟩

/-- The first of several values is foremost if it clears the threshold and is far enough ahead of
the second; no other one is.

**Proof sketch.** A confidence of another value is at most that of the second (`hbehind`), and
differences are monotone, so being far enough ahead of the second is being far enough ahead of all.
The other values are not ahead of the first one. -/
lemma BestOf.foremost_cons_cons [ConfidenceGap C] {scored rest : List (α × C)} {value other : α}
    {confidence second : C}
    (h : BestOf key scored ((value, confidence) :: (other, second) :: rest))
    (hsecond : second ≤ confidence) (hrest : ∀ b ∈ rest, b.2 ≤ second) :
    Foremost (readOf key scored) minimum k ↔
      ¬ confidence < minimum ∧ ¬ confidence - second < 0.15 ∧ key value = k := by
  have hvalue := h.attained (value, confidence) List.mem_cons_self
  have hother := h.attained (other, second) (List.mem_cons_of_mem _ List.mem_cons_self)
  have hne : key other ≠ key value := by
    intro heq
    have hdistinct := h.distinct
    rw [List.map_cons, List.map_cons, List.nodup_cons] at hdistinct
    exact hdistinct.1 (heq ▸ List.mem_cons_self)
  -- Every confidence of a different value is at most the second.
  have hbehind : ∀ k' q, readOf key scored k' q → k' ≠ key value → q ≤ second := by
    intro k' q hread hne'
    obtain ⟨b, hb, rfl, hq⟩ := h.cover hread
    rcases List.mem_cons.mp hb with rfl | hb
    · exact absurd rfl hne'
    · rcases List.mem_cons.mp hb with rfl | hb
      · exact hq
      · exact hq.trans (hrest b hb)
  constructor
  · rintro ⟨best, hread, hmax, hle, hlead⟩
    have hk : key value = k := by
      by_contra hk
      have hbest : best ≤ confidence := (hbehind k best hread (Ne.symm hk)).trans hsecond
      exact hlead _ _ hvalue hk (ConfidenceGap.behind hbest)
    subst hk
    obtain rfl : best = confidence :=
      le_antisymm (h.greatest _ List.mem_cons_self _ hread) (not_lt.mp (hmax _ hvalue))
    exact ⟨hle, hlead _ _ hother hne, rfl⟩
  · rintro ⟨hle, hfar, rfl⟩
    refine ⟨confidence, hvalue, fun q hq => not_lt.mpr (h.greatest _ List.mem_cons_self q hq), hle,
      fun k' q hread hne' hclose => ?_⟩
    exact hfar (ConfidenceGap.closer (hbehind k' q hread hne') hclose)

end Lead

variable [DecidableEq κ] [Sub C] [OfScientific C]

omit [Sub C] in

/-- **One more value** is taken into the best confidences.

**Proof sketch.** If the value has been seen, its best confidence becomes the larger of the two, and
the others stay as they are. If it has not, it is appended with its own. -/
lemma BestOf.step {seen best : List (α × C)} (h : BestOf key seen best) {s : α × C}
    (hs : 0.0 ≤ s.2) : BestOf key (seen ++ [s]) (betterConfidence key best s) := by
  unfold betterConfidence
  simp only
  by_cases hany : ∃ b ∈ best, key b.1 = key s.1
  · obtain ⟨b, hfind⟩ : ∃ b, best.find? (fun b => key b.1 = key s.1) = some b := by
      rw [← Option.isSome_iff_exists, List.find?_isSome]
      simpa using hany
    have hb : b ∈ best := List.mem_of_find?_eq_some hfind
    have hkey : key b.1 = key s.1 := by simpa using List.find?_some hfind
    rw [if_pos (by simpa using hany), hfind, Option.map_some, Option.getD_some]
    set confidence := if s.2 < b.2 then b.2 else s.2 with hconfidence
    have hmax : b.2 ≤ confidence ∧ s.2 ≤ confidence ∧ (confidence = b.2 ∨ confidence = s.2) := by
      rw [hconfidence]
      split_ifs with hlt
      · exact ⟨le_rfl, hlt.le, .inl rfl⟩
      · exact ⟨not_lt.mp hlt, le_rfl, .inr rfl⟩
    have hsame : ∀ b' ∈ best, key b'.1 = key s.1 → b' = b := fun b' hb' hk =>
      List.inj_on_of_nodup_map h.distinct hb' hb (hk.trans hkey.symm)
    refine ⟨?_, ?_, ?_, ?_⟩
    · have hkeys : (best.map fun b => if key b.1 = key s.1 then (b.1, confidence) else b).map
          (fun b => key b.1) = best.map fun b => key b.1 := by
        rw [List.map_map]
        refine List.map_congr_left fun b' _ => ?_
        show key (if key b'.1 = key s.1 then (b'.1, confidence) else b').1 = key b'.1
        split_ifs <;> rfl
      rw [hkeys]
      exact h.distinct
    · intro c hc
      obtain ⟨b', hb', rfl⟩ := List.mem_map.mp hc
      rw [readOf_append]
      split_ifs with hk
      · rcases hmax.2.2 with heq | heq
        · left
          obtain rfl := hsame b' hb' hk
          show readOf key seen (key b'.1) confidence
          rw [heq]
          exact h.attained b' hb'
        · exact .inr ⟨hk.symm, heq.symm⟩
      · exact .inl (h.attained b' hb')
    · intro c hc q hq
      obtain ⟨b', hb', rfl⟩ := List.mem_map.mp hc
      rw [readOf_append] at hq
      split_ifs at hq ⊢ with hk
      · obtain rfl := hsame b' hb' hk
        rcases hq with hq | ⟨-, rfl⟩
        · exact (h.greatest b' hb' q hq).trans hmax.1
        · exact hmax.2.1
      · rcases hq with hq | ⟨hq, -⟩
        · exact h.greatest b' hb' q hq
        · exact absurd hq.symm hk
    · intro t ht
      obtain ⟨b', hb', hk⟩ : ∃ b' ∈ best, key b'.1 = key t.1 := by
        rcases List.mem_append.mp ht with ht | ht
        · exact h.complete t ht
        · rw [List.mem_singleton.mp ht]
          exact ⟨b, hb, hkey⟩
      refine ⟨_, List.mem_map_of_mem hb', ?_⟩
      split_ifs
      · exact hk
      · exact hk
  · have hnone : best.find? (fun b => key b.1 = key s.1) = none := by
      rw [List.find?_eq_none]
      simpa using hany
    rw [if_neg (by simpa using hany), hnone, Option.map_none, Option.getD_none,
      if_neg (not_lt.mpr hs)]
    push Not at hany
    refine ⟨?_, ?_, ?_, ?_⟩
    · rw [List.map_append, List.nodup_append]
      refine ⟨h.distinct, List.nodup_singleton _, ?_⟩
      rintro k hk k' hk' rfl
      obtain ⟨b, hb, rfl⟩ := List.mem_map.mp hk
      exact hany b hb (List.mem_singleton.mp hk')
    · intro b hb
      rw [readOf_append]
      rcases List.mem_append.mp hb with hb | hb
      · exact .inl (h.attained b hb)
      · rw [List.mem_singleton.mp hb]
        exact .inr ⟨rfl, rfl⟩
    · intro b hb q hq
      rw [readOf_append] at hq
      rcases List.mem_append.mp hb with hb | hb
      · rcases hq with hq | ⟨hq, -⟩
        · exact h.greatest b hb q hq
        · exact absurd hq.symm (hany b hb)
      · obtain rfl := List.mem_singleton.mp hb
        rcases hq with ⟨t, ht, hk, -⟩ | ⟨-, hq⟩
        · obtain ⟨b, hb, hkb⟩ := h.complete t ht
          exact absurd (hkb.trans hk) (hany b hb)
        · exact hq.ge
    · intro t ht
      rcases List.mem_append.mp ht with ht | ht
      · obtain ⟨b, hb, hk⟩ := h.complete t ht
        exact ⟨b, List.mem_append_left _ hb, hk⟩
      · rw [List.mem_singleton.mp ht]
        exact ⟨_, List.mem_append_right _ List.mem_cons_self, rfl⟩

omit [Sub C] in
/-- **All values** are taken in. -/
lemma bestOf_bestConfidences (key : α → κ) {scored : List (α × C)}
    (hscored : ∀ s ∈ scored, 0.0 ≤ s.2) :
    BestOf key scored (bestConfidences key scored) := by
  induction scored using List.reverseRecOn with
  | nil => exact ⟨List.nodup_nil, by simp [bestConfidences], by simp [bestConfidences], by simp⟩
  | append_singleton scored s ih =>
    have hstep := (ih fun t ht => hscored t (List.mem_append_left _ ht)).step
      (hscored s (List.mem_append_right _ List.mem_cons_self))
    rwa [bestConfidences, List.foldl_append]

/-- **The leader** is the value that is foremost.

**Proof sketch.** The best confidences are one for each key (`bestOf_bestConfidences`), and sorting
them keeps that. The first of the sorted ones is the only value that can be foremost: it is compared
with the threshold and with the second, which every other value is at most as good as. -/
theorem leader_eq_some_iff [ConfidenceGap C] {scored : List (α × C)}
    (hscored : ∀ s ∈ scored, 0.0 ≤ s.2) {minimum : C} {k : κ} :
    (leader key scored minimum).map key = some k ↔ Foremost (readOf key scored) minimum k := by
  have _ : Std.Total (fun a b : α × C => ¬ a.2 < b.2) := ⟨fun a b => by
    rw [not_lt, not_lt]
    exact le_total _ _⟩
  have _ : IsTrans (α × C) (fun a b => ¬ a.2 < b.2) := ⟨fun a b c hab hbc => by
    rw [not_lt] at *
    exact hbc.trans hab⟩
  have hsorted := List.pairwise_insertionSort (fun a b : α × C => ¬ a.2 < b.2)
    (bestConfidences key scored)
  have hbest := (bestOf_bestConfidences key hscored).perm
    (List.perm_insertionSort (fun a b : α × C => ¬ a.2 < b.2) _)
  unfold leader
  generalize (bestConfidences key scored).insertionSort (fun a b => ¬ a.2 < b.2) = ranked at *
  rcases ranked with _ | ⟨⟨value, confidence⟩, _ | ⟨⟨other, second⟩, rest⟩⟩
  · exact iff_of_false (by simp) hbest.not_foremost_nil
  · rw [hbest.foremost_singleton]
    dsimp only
    split_ifs with hmin
    · exact iff_of_false (by simp) fun h => h.1 hmin
    · rw [Option.map_some, Option.some.injEq]
      exact ⟨fun h => ⟨hmin, h⟩, And.right⟩
  · rw [List.pairwise_cons, List.pairwise_cons] at hsorted
    rw [hbest.foremost_cons_cons (not_lt.mp (hsorted.1 (other, second) List.mem_cons_self))
      fun b hb => not_lt.mp (hsorted.2.1 b hb)]
    dsimp only
    split_ifs with hmin hclose
    · exact iff_of_false (by simp) fun h => h.1 hmin
    · exact iff_of_false (by simp) fun h => h.2.1 hclose
    · rw [Option.map_some, Option.some.injEq]
      exact ⟨fun h => ⟨hmin, hclose, h⟩, fun h => h.2.2⟩

end Leader

/-! ## What the candidates say -/

section Selection

/-- Two outputs have the same candidates, in any order and any number of times. -/
structure SameCandidates {C : Type} (a b : RecognitionOutput C) : Prop where
  merchants : ∀ c, c ∈ a.merchants ↔ c ∈ b.merchants
  dates : ∀ c, c ∈ a.dates ↔ c ∈ b.dates
  totals : ∀ c, c ∈ a.totals ↔ c ∈ b.totals
  currencies : ∀ c, c ∈ a.currencies ↔ c ∈ b.currencies

/-- Every confidence is a number between zero and one. -/
structure ConfidencesInUnit (output : RecognitionOutput ℚ) : Prop where
  merchants : ∀ c ∈ output.merchants, 0 ≤ c.confidence ∧ c.confidence ≤ 1
  dates : ∀ c ∈ output.dates, 0 ≤ c.confidence ∧ c.confidence ≤ 1
  totals : ∀ c ∈ output.totals, 0 ≤ c.confidence ∧ c.confidence ≤ 1
  currencies : ∀ c ∈ output.currencies, 0 ≤ c.confidence ∧ c.confidence ≤ 1

/-- No confidence is below the zero that the best confidences start from. -/
structure ConfidencesNonneg {C : Type} [LE C] [OfScientific C] (output : RecognitionOutput C) :
    Prop where
  merchants : ∀ c ∈ output.merchants, 0.0 ≤ c.confidence
  dates : ∀ c ∈ output.dates, 0.0 ≤ c.confidence
  totals : ∀ c ∈ output.totals, 0.0 ≤ c.confidence
  currencies : ∀ c ∈ output.currencies, 0.0 ≤ c.confidence

lemma ConfidencesInUnit.nonneg {output : RecognitionOutput ℚ} (h : ConfidencesInUnit output) :
    ConfidencesNonneg output := by
  have hzero : (0.0 : ℚ) = 0 := by norm_num
  refine ⟨fun c hc => ?_, fun c hc => ?_, fun c hc => ?_, fun c hc => ?_⟩ <;> rw [hzero]
  exacts [(h.merchants c hc).1, (h.dates c hc).1, (h.totals c hc).1, (h.currencies c hc).1]

section Readings

variable {C : Type}

/-- A name is read from a text that is one. -/
def readsMerchant (output : RecognitionOutput C) (name : RecognizedMerchant) (q : C) : Prop :=
  ∃ c ∈ output.merchants, RecognizedMerchant.new c.text = .ok name ∧ c.confidence = q

/-- A total is read from a positive amount with that label. -/
def readsTotal (output : RecognitionOutput C) (number : ℚ ⊕ Option Bool) (q : C) : Prop :=
  ∃ c ∈ output.totals, c.label = .total ∧ c.value.isPositive = .ok true ∧
    c.value.key = number ∧ c.confidence = q

variable [PythonRuntime]

/-- A reading is plausible: its year is valid, it is at most 366 days old, and at most one day
ahead of the user's today. -/
def Plausible (now : Instant) (timezone : String) (reading : Date) : Prop :=
  (2000 ≤ reading.year ∧ reading.year ≤ 2100) ∧
    ∃ today, PythonRuntime.localDate timezone now = some today ∧
      today.ordinal ≤ reading.ordinal + 366 ∧ reading.ordinal ≤ today.ordinal + 1

/-- A date is read from a candidate that has no other plausible reading. -/
def readsDate (output : RecognitionOutput C) (now : Instant) (timezone : String)
    (date : TransactionDate) (q : C) : Prop :=
  ∃ c ∈ output.dates, (∀ r, r ∈ c.readings ∧ Plausible now timezone r ↔ r = date.value) ∧
    c.confidence = q

/-- A currency is read from a code, or from a symbol that only one currency has. -/
def readsCurrency (output : RecognitionOutput C) (currency : CurrencyCode) (q : C) : Prop :=
  ∃ c ∈ output.currencies, (c.evidence = .explicitCode ∨ c.evidence = .unambiguousSymbol) ∧
    CurrencyCode.ofText c.code = .ok currency ∧ c.confidence = q

end Readings

/-! ## What each rule selects -/

lemma Checked.toOption_eq_some {α : Type} {x : Checked α} {a : α} :
    Checked.toOption x = some a ↔ x = .ok a := by
  cases x <;> simp [Checked.toOption]

/-- A loop that may raise keeps the values of the rounds that have one. -/
lemma reduceOption_mapM {α β ε : Type} {f : α → Except ε (Option β)} {xs : List α}
    {ys : List (Option β)} (h : xs.mapM f = .ok ys) :
    ys.reduceOption = xs.filterMap fun x => (f x).toOption.join := by
  have hall := Checked.mapM_eq_ok.mp h
  clear h
  induction hall with
  | nil => rfl
  | @cons x y xs ys hxy _ ih =>
    cases y with
    | none => simp [hxy, ih, List.reduceOption_cons_of_none, Except.toOption]
    | some y => simp [hxy, ih, List.reduceOption_cons_of_some, Except.toOption]

section Rules

variable {C : Type} [LinearOrder C] [Sub C] [OfScientific C]

section Chosen

variable [ConfidenceGap C] {output : RecognitionOutput C}

/-- A value chosen by itself, not by a key, is one that is foremost. -/
lemma leader_id_eq_some_iff {α : Type} [DecidableEq α] {scored : List (α × C)}
    (hscored : ∀ s ∈ scored, 0.0 ≤ s.2) {minimum : C} {v : α} :
    leader id scored minimum = some v ↔ Foremost (readOf id scored) minimum v := by
  rw [← leader_eq_some_iff hscored, Option.map_id, id]

/-- The merchant that is chosen is foremost. -/
lemma selectMerchant_eq_some_iff (h : ConfidencesNonneg output) {name : RecognizedMerchant} :
    selectMerchant output.merchants = some name ↔ Foremost (readsMerchant output) 0.6 name := by
  have hread : readOf id (usableMerchants output.merchants) = readsMerchant output := by
    funext k q
    unfold readOf usableMerchants readsMerchant
    simp only [List.mem_filterMap, Option.map_eq_some_iff, Checked.toOption_eq_some, id]
    refine propext ⟨?_, ?_⟩
    · rintro ⟨s, ⟨c, hc, name, hname, rfl⟩, rfl, rfl⟩
      exact ⟨c, hc, hname, rfl⟩
    · rintro ⟨c, hc, hname, rfl⟩
      exact ⟨(k, c.confidence), ⟨c, hc, k, hname, rfl⟩, rfl, rfl⟩
  unfold selectMerchant
  rw [leader_id_eq_some_iff, hread]
  intro s hs
  obtain ⟨c, hc, hs⟩ := List.mem_filterMap.mp hs
  obtain ⟨name, -, rfl⟩ := Option.map_eq_some_iff.mp hs
  exact h.merchants c hc

/-- The currency that is chosen is foremost.

**Proof sketch.** What the usable candidates say is what the specification reads from them
(`hread`), and the leader of what was said is the value that is foremost
(`leader_id_eq_some_iff`). -/
lemma selectCurrency_eq_some_iff [PythonRuntime] (h : ConfidencesNonneg output)
    {currency : CurrencyCode} :
    selectCurrency output.currencies = some currency ↔
      Foremost (readsCurrency output) 0.8 currency := by
  have htrusted : ∀ e : CurrencyEvidence,
      e.isTrusted = true ↔ e = .explicitCode ∨ e = .unambiguousSymbol := by
    intro e
    cases e <;> decide
  have hread : readOf id (usableCurrencies output.currencies) = readsCurrency output := by
    funext k q
    unfold readOf usableCurrencies readsCurrency
    simp only [List.mem_filterMap, Option.ite_none_right_eq_some, Option.map_eq_some_iff,
      Checked.toOption_eq_some, id, htrusted]
    refine propext ⟨?_, ?_⟩
    · rintro ⟨s, ⟨c, hc, he, code, hcode, rfl⟩, rfl, rfl⟩
      exact ⟨c, hc, he, hcode, rfl⟩
    · rintro ⟨c, hc, he, hcode, rfl⟩
      exact ⟨(k, c.confidence), ⟨c, hc, he, k, hcode, rfl⟩, rfl, rfl⟩
  unfold selectCurrency
  rw [leader_id_eq_some_iff, hread]
  intro s hs
  obtain ⟨c, hc, hs⟩ := List.mem_filterMap.mp hs
  simp only [Option.ite_none_right_eq_some, Option.map_eq_some_iff] at hs
  obtain ⟨-, code, -, rfl⟩ := hs
  exact h.currencies c hc

end Chosen

section Dates

variable [PythonRuntime] {now : Instant} {timezone : String} {today : Date}

omit [LinearOrder C] [Sub C] [OfScientific C] in
/-- The date of a reading, when the calendar does not run out.

**Proof sketch.** The two bounds are compared as ordinals, the lower one with the day 366 days
before today and the upper one by the tolerance, and the years are those that a transaction date
takes. -/
lemma plausibleDate_eq_ok (htoday : PythonRuntime.localDate timezone now = some today)
    {reading : Date} {x : Option TransactionDate}
    (h : plausibleDate today now timezone reading = .ok x) (date : TransactionDate) :
    x = some date ↔ Plausible now timezone reading ∧ date.value = reading := by
  have hjudged : Plausible now timezone reading ↔ (2000 ≤ reading.year ∧ reading.year ≤ 2100) ∧
      today.ordinal ≤ reading.ordinal + 366 ∧ reading.ordinal ≤ today.ordinal + 1 := by
    unfold Plausible
    rw [htoday]
    simp only [Option.some.injEq, exists_eq_left']
  rw [hjudged]
  obtain ⟨oldest, holdest, h⟩ := Checked.bind_eq_ok.mp h
  have hordinal := Date.addDays?_iff.mp (inCalendar_eq_ok.mp holdest)
  have hold : reading < oldest ↔ ¬ today.ordinal ≤ reading.ordinal + 366 := by
    show reading.ordinal < oldest.ordinal ↔ _
    omega
  split_ifs at h with hlt
  · obtain rfl := Checked.pure_eq_ok.mp h
    exact iff_of_false (by simp) fun hp => hold.mp hlt hp.1.2.1
  · split at h
    · rename_i message hnew
      obtain rfl := Checked.pure_eq_ok.mp h
      refine iff_of_false (by simp) fun hp => ?_
      rw [TransactionDate.new, dif_pos hp.1.1] at hnew
      cases hnew
    · rename_i date' hnew
      have hyear : 2000 ≤ reading.year ∧ reading.year ≤ 2100 := by
        by_contra hyear
        rw [TransactionDate.new, dif_neg hyear] at hnew
        cases hnew
      rw [TransactionDate.new, dif_pos hyear] at hnew
      cases hnew
      obtain ⟨acceptable, hacceptable, h⟩ := Checked.bind_eq_ok.mp h
      obtain rfl := Checked.pure_eq_ok.mp h
      obtain ⟨today', htoday', -, rfl⟩ := isWithinFutureTolerance_eq_ok.mp hacceptable
      obtain rfl : today = today' := Option.some.inj (htoday.symm.trans htoday')
      simp only [decide_eq_true_eq, Option.ite_none_right_eq_some, Option.some.injEq]
      constructor
      · rintro ⟨hle, rfl⟩
        exact ⟨⟨hyear, not_not.mp (mt hold.mpr hlt), hle⟩, rfl⟩
      · rintro ⟨hp, rfl⟩
        exact ⟨hp.2.2, rfl⟩

omit [LinearOrder C] [Sub C] [OfScientific C] in
/-- A candidate with its only plausible reading.

**Proof sketch.** The readings that give a date are the plausible ones. The candidate is trusted
where there is one such date, up to repetition. -/
lemma trustedReading_eq_ok (htoday : PythonRuntime.localDate timezone now = some today)
    {c : DateCandidate C} {x : Option (TransactionDate × C)}
    (h : trustedReading today now timezone c = .ok x) (date : TransactionDate) (q : C) :
    x = some (date, q) ↔
      (∀ r, r ∈ c.readings ∧ Plausible now timezone r ↔ r = date.value) ∧ c.confidence = q := by
  obtain ⟨ys, hys, h⟩ := Checked.bind_eq_ok.mp h
  have hdates : ∀ r ∈ c.readings, ∃ y, plausibleDate today now timezone r = .ok y := fun r hr =>
    Checked.mapM_isOk_iff.mp ⟨ys, hys⟩ r (List.mem_dedup.mpr hr)
  have hsome : ∀ r ∈ c.readings, ∀ d, (plausibleDate today now timezone r).toOption.join = some d ↔
      Plausible now timezone r ∧ d.value = r := by
    intro r hr d
    obtain ⟨y, hy⟩ := hdates r hr
    rw [hy]
    exact plausibleDate_eq_ok htoday hy d
  have hmem : ∀ d : TransactionDate, d ∈ ys.reduceOption ↔
      d.value ∈ c.readings ∧ Plausible now timezone d.value := by
    intro d
    rw [reduceOption_mapM hys, List.mem_filterMap]
    constructor
    · rintro ⟨r, hr, hd⟩
      rw [List.mem_dedup] at hr
      obtain ⟨hp, rfl⟩ := (hsome r hr d).mp hd
      exact ⟨hr, hp⟩
    · rintro ⟨hr, hp⟩
      exact ⟨d.value, List.mem_dedup.mpr hr, (hsome _ hr d).mpr ⟨hp, rfl⟩⟩
  have hnodup : ys.reduceOption.Nodup := by
    rw [reduceOption_mapM hys]
    refine List.Nodup.filterMap (fun r r' d hd hd' => ?_) (List.nodup_dedup _)
    have hvalue : ∀ r, d ∈ (plausibleDate today now timezone r).toOption.join → d.value = r := by
      intro r hd
      cases hr : plausibleDate today now timezone r with
      | error e => simp [hr, Except.toOption] at hd
      | ok y =>
        rw [hr] at hd
        exact ((plausibleDate_eq_ok htoday hr d).mp hd).2
    exact (hvalue r hd).symm.trans (hvalue r' hd')
  have honly : (∀ r, r ∈ c.readings ∧ Plausible now timezone r ↔ r = date.value) ↔
      ys.reduceOption = [date] := by
    constructor
    · intro hr
      refine List.perm_singleton.mp ((List.perm_ext_iff_of_nodup hnodup
        (List.nodup_singleton _)).mpr fun d => ?_)
      rw [hmem, hr, List.mem_singleton]
      exact ⟨fun h => TransactionDate.value_injective h, fun h => congrArg _ h⟩
    · intro heq r
      constructor
      · rintro ⟨hr, hp⟩
        have hd : (⟨r, hp.1⟩ : TransactionDate) ∈ ys.reduceOption := (hmem _).mpr ⟨hr, hp⟩
        rw [heq, List.mem_singleton] at hd
        rw [← hd]
      · rintro rfl
        exact (hmem date).mp (heq ▸ List.mem_cons_self)
  rw [honly]
  split at h
  · rename_i date' heq
    obtain rfl := Checked.pure_eq_ok.mp h
    rw [heq]
    simp
  · rename_i hne
    obtain rfl := Checked.pure_eq_ok.mp h
    exact iff_of_false (by simp) fun h => hne date h.1

/-- The date that is chosen is foremost; there is a today then.

**Proof sketch.** Each candidate is read as the specification reads it (`trustedReading_eq_ok`), and
the leader of what was read is the date that is foremost. -/
lemma selectDate_eq_ok [ConfidenceGap C] {output : RecognitionOutput C}
    (h : ConfidencesNonneg output) {x : Option TransactionDate}
    (hx : selectDate output.dates now timezone = .ok x) (date : TransactionDate) :
    x = some date ↔ Foremost (readsDate output now timezone) 0.7 date := by
  obtain ⟨today, htoday, hx⟩ := Checked.bind_eq_ok.mp hx
  obtain ⟨ys, hys, hx⟩ := Checked.bind_eq_ok.mp hx
  obtain rfl := Checked.pure_eq_ok.mp hx
  have hsome : ∀ c ∈ output.dates, ∀ d q,
      (trustedReading today now timezone c).toOption.join = some (d, q) ↔
        (∀ r, r ∈ c.readings ∧ Plausible now timezone r ↔ r = d.value) ∧ c.confidence = q := by
    intro c hc d q
    obtain ⟨y, hy⟩ := Checked.mapM_isOk_iff.mp ⟨ys, hys⟩ c hc
    rw [hy]
    exact trustedReading_eq_ok (inCalendar_eq_ok.mp htoday) hy d q
  have hread : readOf id ys.reduceOption = readsDate output now timezone := by
    funext d q
    unfold readOf readsDate
    rw [reduceOption_mapM hys]
    simp only [List.mem_filterMap, id]
    refine propext ⟨?_, ?_⟩
    · rintro ⟨⟨d, q⟩, ⟨c, hc, hs⟩, rfl, rfl⟩
      exact ⟨c, hc, (hsome c hc d q).mp hs⟩
    · rintro ⟨c, hc, hs⟩
      exact ⟨(d, q), ⟨c, hc, (hsome c hc d q).mpr hs⟩, rfl, rfl⟩
  rw [leader_id_eq_some_iff, hread]
  rintro ⟨d, q⟩ hs
  rw [reduceOption_mapM hys, List.mem_filterMap] at hs
  obtain ⟨c, hc, hs⟩ := hs
  obtain ⟨-, rfl⟩ := (hsome c hc d q).mp hs
  exact h.dates c hc

end Dates

section Totals

omit [LinearOrder C] [Sub C] [OfScientific C] in
/-- A total that is looked at. -/
lemma usableTotal_eq_ok {c : TotalCandidate C} {x : Option (ExtendedDecimal × C)}
    (h : usableTotal c = .ok x) (s : ExtendedDecimal × C) :
    x = some s ↔ c.label = .total ∧ c.value.isPositive = .ok true ∧ s = (c.value, c.confidence) := by
  unfold usableTotal at h
  split_ifs at h with hlabel
  · obtain ⟨positive, hpositive, h⟩ := Checked.bind_eq_ok.mp h
    obtain rfl := Checked.pure_eq_ok.mp h
    rw [hpositive]
    cases positive with
    | false => exact iff_of_false (by simp) (by simp)
    | true => simp [hlabel, eq_comm]
  · cases h
    exact iff_of_false (by simp) fun h => hlabel h.1

omit [LinearOrder C] [Sub C] [OfScientific C] in
/-- The totals that are looked at. -/
lemma mem_usableTotals {totals : List (TotalCandidate C)} {ys : List (Option (ExtendedDecimal × C))}
    (hys : totals.mapM usableTotal = .ok ys) (s : ExtendedDecimal × C) :
    s ∈ ys.reduceOption ↔ ∃ c ∈ totals, c.label = .total ∧ c.value.isPositive = .ok true ∧
      s = (c.value, c.confidence) := by
  rw [reduceOption_mapM hys, List.mem_filterMap]
  refine exists_congr fun c => and_congr_right fun hc => ?_
  obtain ⟨y, hy⟩ := Checked.mapM_isOk_iff.mp ⟨ys, hys⟩ c hc
  rw [hy]
  exact usableTotal_eq_ok hy s

/-- The total that is chosen is foremost. -/
lemma leader_totals_eq_some_iff [ConfidenceGap C] {output : RecognitionOutput C}
    (h : ConfidencesNonneg output) {ys : List (Option (ExtendedDecimal × C))}
    (hys : output.totals.mapM usableTotal = .ok ys) {number : ℚ ⊕ Option Bool} :
    (leader ExtendedDecimal.key ys.reduceOption 0.8).map ExtendedDecimal.key = some number ↔
      Foremost (readsTotal output) 0.8 number := by
  have hread : readOf ExtendedDecimal.key ys.reduceOption = readsTotal output := by
    funext k q
    unfold readOf readsTotal
    simp only [mem_usableTotals hys]
    refine propext ⟨?_, ?_⟩
    · rintro ⟨s, ⟨c, hc, hlabel, hpositive, rfl⟩, rfl, rfl⟩
      exact ⟨c, hc, hlabel, hpositive, rfl, rfl⟩
    · rintro ⟨c, hc, hlabel, hpositive, rfl, rfl⟩
      exact ⟨(c.value, c.confidence), ⟨c, hc, hlabel, hpositive, rfl⟩, rfl, rfl⟩
  rw [leader_eq_some_iff, hread]
  intro s hs
  obtain ⟨c, hc, -, -, rfl⟩ := (mem_usableTotals hys s).mp hs
  exact h.totals c hc

end Totals

end Rules

/-! ## Numerically equal amounts are the same money -/

/-- Equal positive amounts are recognized as the same money.

**Proof sketch.** Positive amounts with one key are both infinite or stand for one number, and
scaling and the check that it is an integer depend on the number only. -/
lemma recognizedMoney_congr {v v' : ExtendedDecimal} (hv : v.isPositive = .ok true)
    (hv' : v'.isPositive = .ok true) (hkey : v.key = v'.key) (currency : CurrencyCode) :
    recognizedMoney v currency = recognizedMoney v' currency := by
  have hfinite : ∀ {negative : Bool} {d : Decimal},
      (ExtendedDecimal.finite negative d).isPositive = .ok true → negative = false ∧ 0 < d.coeff := by
    intro negative d h
    simpa [ExtendedDecimal.isPositive] using h
  cases v with
  | nan _ => cases hv
  | infinity _ =>
    cases v' with
    | nan _ => cases hv'
    | finite _ _ => cases hkey
    | infinity _ =>
      obtain rfl := Option.some.inj (Sum.inr.inj hkey)
      rfl
  | finite negative d =>
    cases v' with
    | nan _ => cases hv'
    | infinity _ => cases hkey
    | finite negative' d' =>
      obtain ⟨rfl, hd⟩ := hfinite hv
      obtain ⟨rfl, hd'⟩ := hfinite hv'
      have hvalue : d.toRat = d'.toRat := Sum.inl.inj hkey
      unfold recognizedMoney
      set n : ℤ := (currency.minorUnitExponent : ℤ)
      rcases le_or_gt overflowLimit (d.toRat * 10 ^ n) with hover | hlt
      · rw [ExtendedDecimal.withScaled_overflow _ _ hd hover,
          ExtendedDecimal.withScaled_overflow _ _ hd' (hvalue ▸ hover)]
      by_cases hint : ∃ m : ℕ, fitted (d.toRat * 10 ^ n) = m
      · obtain ⟨m, hm⟩ := hint
        rw [ExtendedDecimal.withScaled_integer _ _ hd hlt hm,
          ExtendedDecimal.withScaled_integer _ _ hd' (hvalue ▸ hlt) (hvalue ▸ hm)]
      · push Not at hint
        rw [ExtendedDecimal.withScaled_fraction _ _ hd hlt hint,
          ExtendedDecimal.withScaled_fraction _ _ hd' (hvalue ▸ hlt) (hvalue ▸ hint)]

/-- Money that is recognized is what the amount is, in minor units that fit.

**Proof sketch.** An amount is finite and positive, since the others raise. It is scaled to what
fits the context, and only an integer becomes money. -/
lemma recognizedMoney_eq_some {v : ExtendedDecimal} (hv : v.isPositive = .ok true)
    {currency : CurrencyCode} {m : Money} (h : recognizedMoney v currency = .ok (some m)) :
    m.currency = currency ∧ ∃ d : Decimal, v = .finite false d ∧ 0 < d.coeff ∧
      (m.minorUnits : ℚ) = fitted (d.toRat * 10 ^ (currency.minorUnitExponent : ℤ)) := by
  match v with
  | .nan _ => cases hv
  | .infinity _ => cases h
  | .finite negative d =>
    obtain ⟨rfl, hd⟩ : negative = false ∧ 0 < d.coeff := by
      simpa [ExtendedDecimal.isPositive] using hv
    unfold recognizedMoney at h
    rcases le_or_gt overflowLimit (d.toRat * 10 ^ (currency.minorUnitExponent : ℤ)) with
      hover | hlt
    · rw [ExtendedDecimal.withScaled_overflow _ _ hd hover] at h
      cases h
    by_cases hint : ∃ n : ℕ, fitted (d.toRat * 10 ^ (currency.minorUnitExponent : ℤ)) = n
    · obtain ⟨n, hn⟩ := hint
      rw [ExtendedDecimal.withScaled_integer _ _ hd hlt hn] at h
      obtain ⟨hunits, hcurrency⟩ := Money.new_eq_ok
        (Checked.toOption_eq_some.mp (Except.ok.inj h))
      refine ⟨hcurrency, d, rfl, hd, ?_⟩
      rw [hn, hunits, Int.cast_natCast]
    · push Not at hint
      rw [ExtendedDecimal.withScaled_fraction _ _ hd hlt hint] at h
      cases h

/-! ## The order of candidates -/

/-- A loop whose rounds raise one error only either raises it for two lists with the same elements,
or returns lists with the same elements.

**Proof sketch.** Whether a loop raises depends on its elements only, and so does what it raises, as
there is one error. -/
lemma mapM_sameElements {α β ε : Type} {f : α → Except ε β} {e : ε}
    (herror : ∀ x e', f x = .error e' → e' = e) {xs ys : List α} (h : ∀ x, x ∈ xs ↔ x ∈ ys) :
    (xs.mapM f = .error e ∧ ys.mapM f = .error e) ∨
      ∃ us vs, xs.mapM f = .ok us ∧ ys.mapM f = .ok vs := by
  have hraise : ∀ zs : List α, ∀ e', zs.mapM f = .error e' → e' = e := by
    intro zs
    induction zs with
    | nil => exact fun e' he => nomatch he
    | cons z zs ih =>
      intro e' he
      rw [List.mapM_cons] at he
      cases hz : f z with
      | error e'' =>
        rw [hz] at he
        obtain rfl := Except.error.inj he
        exact herror z _ hz
      | ok y =>
        rw [hz] at he
        cases hzs : zs.mapM f with
        | error e'' =>
          rw [hzs] at he
          obtain rfl := Except.error.inj he
          exact ih _ hzs
        | ok us =>
          rw [hzs] at he
          cases he
  have hok : (∃ us, xs.mapM f = .ok us) ↔ ∃ vs, ys.mapM f = .ok vs := by
    rw [Checked.mapM_isOk_iff, Checked.mapM_isOk_iff]
    simp only [h]
  cases hxs : xs.mapM f with
  | ok us =>
    obtain ⟨vs, hys⟩ := hok.mp ⟨us, hxs⟩
    exact .inr ⟨us, vs, rfl, hys⟩
  | error e' =>
    cases hys : ys.mapM f with
    | ok vs =>
      obtain ⟨us, hxs'⟩ := hok.mpr ⟨vs, hys⟩
      rw [hxs] at hxs'
      cases hxs'
    | error e'' => exact .inl ⟨by rw [hraise xs e' hxs], by rw [hraise ys e'' hys]⟩

section Order

variable {C : Type} [LinearOrder C] [Sub C] [OfScientific C]

omit [Sub C] in
lemma SameCandidates.confidencesNonneg {a b : RecognitionOutput C} (h : SameCandidates a b)
    (ha : ConfidencesNonneg a) : ConfidencesNonneg b where
  merchants c hc := ha.merchants c ((h.merchants c).mpr hc)
  dates c hc := ha.dates c ((h.dates c).mpr hc)
  totals c hc := ha.totals c ((h.totals c).mpr hc)
  currencies c hc := ha.currencies c ((h.currencies c).mpr hc)

omit [LinearOrder C] [Sub C] [OfScientific C] in
/-- Looking at a reading raises one error only: the calendar runs out.

**Proof sketch.** Every step that raises is one that looks for a day in the calendar. -/
lemma trustedReading_error [PythonRuntime] {today : Date} {now : Instant} {timezone : String}
    {c : DateCandidate C} {e : Raised} (h : trustedReading today now timezone c = .error e) :
    e = .overflowError := by
  have hreading : ∀ r e, plausibleDate today now timezone r = .error e → e = .overflowError := by
    intro r e h
    rcases Checked.bind_eq_error.mp h with h | ⟨oldest, -, h⟩
    · exact inCalendar_eq_error h
    split_ifs at h
    · cases h
    split at h
    · cases h
    rcases Checked.bind_eq_error.mp h with h | ⟨acceptable, -, h⟩
    · rcases Checked.bind_eq_error.mp h with h | ⟨today', -, h⟩
      · exact inCalendar_eq_error h
      rcases Checked.bind_eq_error.mp h with h | ⟨last, -, h⟩
      · exact inCalendar_eq_error h
      · cases h
    · cases h
  unfold trustedReading at h
  rcases mapM_sameElements (hreading) (fun x => Iff.rfl (a := x ∈ c.readings.dedup)) with
    ⟨hraise, -⟩ | ⟨us, -, hok, -⟩
  · rw [hraise] at h
    exact (Except.error.inj h).symm
  · rw [hok, Checked.bind_ok] at h
    split at h <;> cases h

variable [ConfidenceGap C] {a b : RecognitionOutput C} (h : SameCandidates a b)
  (ha : ConfidencesNonneg a)
include h ha

/-- The same candidates of merchants select the same merchant. -/
lemma SameCandidates.selectMerchant :
    selectMerchant a.merchants = selectMerchant b.merchants := by
  refine Option.ext fun name => ?_
  rw [selectMerchant_eq_some_iff ha, selectMerchant_eq_some_iff (h.confidencesNonneg ha)]
  refine Foremost.congr fun k q => ?_
  simp only [readsMerchant, h.merchants]

/-- The same candidates of currencies select the same currency. -/
lemma SameCandidates.selectCurrency [PythonRuntime] :
    selectCurrency a.currencies = selectCurrency b.currencies := by
  refine Option.ext fun code => ?_
  rw [selectCurrency_eq_some_iff ha, selectCurrency_eq_some_iff (h.confidencesNonneg ha)]
  refine Foremost.congr fun k q => ?_
  simp only [readsCurrency, h.currencies]

/-- The date that is selected depends on the candidates' elements only.

**Proof sketch.** Both loops raise the one error there is, or both read lists with the same elements
(`mapM_sameElements`), which have the same leader. -/
lemma SameCandidates.selectDate [PythonRuntime] (now : Instant) (timezone : String) :
    selectDate a.dates now timezone = selectDate b.dates now timezone := by
  cases htoday : localToday now timezone with
  | error e => rw [MintFlow.selectDate, MintFlow.selectDate, htoday]; rfl
  | ok today =>
    have hloop := mapM_sameElements (f := trustedReading today now timezone)
      (fun c e => trustedReading_error) h.dates
    rcases hloop with ⟨hraise, hraise'⟩ | ⟨us, vs, hus, hvs⟩
    · rw [MintFlow.selectDate, MintFlow.selectDate, htoday, Checked.bind_ok, Checked.bind_ok, hraise,
        hraise']
    · have hleft : MintFlow.selectDate a.dates now timezone =
          .ok (leader id us.reduceOption 0.7) := by
        rw [MintFlow.selectDate, htoday, Checked.bind_ok, hus]
        rfl
      have hright : MintFlow.selectDate b.dates now timezone =
          .ok (leader id vs.reduceOption 0.7) := by
        rw [MintFlow.selectDate, htoday, Checked.bind_ok, hvs]
        rfl
      rw [hleft, hright]
      congr 1
      refine Option.ext fun date => ?_
      rw [selectDate_eq_ok ha hleft, selectDate_eq_ok (h.confidencesNonneg ha) hright]
      refine Foremost.congr fun k q => ?_
      simp only [readsDate, h.dates]

/-- The total that is selected depends on the candidates' elements only.

**Proof sketch.** Both loops raise, or both read lists with the same elements, whose leaders have
one key; equal amounts are the same money (`recognizedMoney_congr`). -/
lemma SameCandidates.selectTotal (currency : Option CurrencyCode) :
    selectTotal a.totals currency = selectTotal b.totals currency := by
  cases currency with
  | none => rfl
  | some currency =>
    have herror : ∀ (c : TotalCandidate C) e, usableTotal c = .error e → e = .invalidOperation := by
      intro c e he
      unfold usableTotal at he
      split_ifs at he
      cases hpositive : c.value.isPositive with
      | ok positive =>
        rw [hpositive] at he
        cases he
      | error e' =>
        rw [hpositive] at he
        obtain rfl := Except.error.inj he
        unfold ExtendedDecimal.isPositive at hpositive
        split at hpositive <;> cases hpositive
        rfl
    unfold MintFlow.selectTotal
    dsimp only
    rcases mapM_sameElements herror h.totals with ⟨hraise, hraise'⟩ | ⟨us, vs, hus, hvs⟩
    · rw [hraise, hraise']
    have hkeys : (leader ExtendedDecimal.key us.reduceOption 0.8).map ExtendedDecimal.key =
        (leader ExtendedDecimal.key vs.reduceOption 0.8).map ExtendedDecimal.key := by
      refine Option.ext fun number => ?_
      rw [leader_totals_eq_some_iff ha hus,
        leader_totals_eq_some_iff (h.confidencesNonneg ha) hvs]
      refine Foremost.congr fun k q => ?_
      simp only [readsTotal, h.totals]
    have hpositive : ∀ {totals : List (TotalCandidate C)} {ys}, totals.mapM usableTotal = .ok ys →
        ∀ {v}, leader ExtendedDecimal.key ys.reduceOption 0.8 = some v →
          v.isPositive = .ok true := by
      intro totals ys hys v hv
      obtain ⟨s, hs, rfl⟩ := List.mem_map.mp (leader_mem hv)
      obtain ⟨c, -, -, hpositive, rfl⟩ := (mem_usableTotals hys s).mp hs
      exact hpositive
    rw [hus, hvs, Checked.bind_ok, Checked.bind_ok]
    cases hleft : leader ExtendedDecimal.key us.reduceOption 0.8 with
    | none =>
      rw [hleft, Option.map_none] at hkeys
      rw [Option.map_eq_none_iff.mp hkeys.symm]
    | some v =>
      rw [hleft, Option.map_some] at hkeys
      obtain ⟨v', hright, hkey⟩ := Option.map_eq_some_iff.mp hkeys.symm
      rw [hright]
      exact recognizedMoney_congr (hpositive hus hleft) (hpositive hvs hright) hkey.symm currency

/-- **Selection depends on the candidates only as a set.** -/
lemma SameCandidates.selectValues [PythonRuntime] (now : Instant) (timezone : String) :
    selectValues a now timezone = selectValues b now timezone := by
  unfold MintFlow.selectValues
  rw [h.selectMerchant ha, h.selectCurrency ha, h.selectDate ha, h.selectTotal ha]

end Order

end Selection

/-- **Selection is safe.** What is selected does not depend on the order of the candidates or on
repeated ones. A field that is chosen leads everything that was read for it: a merchant's name, a
date that is the only plausible reading of a candidate, and a total that is a positive amount with
that label in a chosen currency, which a code or an unambiguous symbol shows.

**Proof sketch.** The leader is the value that is foremost among what was read
(`leader_eq_some_iff`): the best confidences are one for each key, and ranking them puts the only
value that can lead first. What leads depends on the candidates only through what was read, and
equal amounts are the same money. -/
theorem selection_safe [PythonRuntime] (output : RecognitionOutput ℚ)
    (hunit : ConfidencesInUnit output) (now : Instant) (timezone : String) :
    (∀ output', SameCandidates output output' →
      selectValues output' now timezone = selectValues output now timezone) ∧
    ∀ values, selectValues output now timezone = .ok values →
      (∀ name ∈ values.merchant, Leads (readsMerchant output) 0.6 name) ∧
      (∀ date ∈ values.transactionDate, Leads (readsDate output now timezone) 0.7 date) ∧
      ∀ total ∈ values.total, Leads (readsCurrency output) 0.8 total.currency ∧
        ∃ d : Decimal, 0 < d.coeff ∧ Leads (readsTotal output) 0.8 (.inl d.toRat) ∧
          (∃ c ∈ output.totals, c.label = .total ∧ c.value = .finite false d) ∧
          (total.minorUnits : ℚ) = fitted (d.toRat * 10 ^ (total.currency.minorUnitExponent : ℤ)) := by
  have hnonneg := hunit.nonneg
  refine ⟨fun output' hsame => (hsame.selectValues hnonneg now timezone).symm, ?_⟩
  intro values hvalues
  obtain ⟨date, hdate, hvalues⟩ := Checked.bind_eq_ok.mp hvalues
  obtain ⟨total, htotal, hvalues⟩ := Checked.bind_eq_ok.mp hvalues
  obtain rfl := Checked.pure_eq_ok.mp hvalues
  refine ⟨fun name hname => foremost_iff_leads.mp ((selectMerchant_eq_some_iff hnonneg).mp hname),
    fun d hd => foremost_iff_leads.mp ((selectDate_eq_ok hnonneg hdate d).mp hd), ?_⟩
  intro m hm
  cases hcurrency : selectCurrency output.currencies with
  | none =>
    rw [hcurrency] at htotal
    obtain rfl := Except.ok.inj htotal
    cases hm
  | some currency =>
    rw [hcurrency] at htotal
    obtain ⟨ys, hys, htotal⟩ := Checked.bind_eq_ok.mp htotal
    cases hleader : leader ExtendedDecimal.key ys.reduceOption 0.8 with
    | none =>
      rw [hleader] at htotal
      obtain rfl := Except.ok.inj htotal
      cases hm
    | some v =>
      rw [hleader] at htotal
      have hlead := foremost_iff_leads.mp
        ((leader_totals_eq_some_iff hnonneg hys).mp (congrArg _ hleader))
      obtain ⟨s, hs, rfl⟩ := List.mem_map.mp (leader_mem hleader)
      obtain ⟨c, hc, hlabel, hpositive, rfl⟩ := (mem_usableTotals hys s).mp hs
      obtain rfl : total = some m := hm
      obtain ⟨rfl, d, hvalue, hd, hunits⟩ := recognizedMoney_eq_some hpositive htotal
      have hcode := foremost_iff_leads.mp ((selectCurrency_eq_some_iff hnonneg).mp hcurrency)
      refine ⟨hcode, d, hd, ?_, ⟨c, hc, hlabel, hvalue⟩, hunits⟩
      rw [show (c.value, c.confidence).1 = c.value from rfl, hvalue] at hlead
      exact hlead

/-- Two totals that are written differently, one of them twice, and two names on a close call. -/
def sampleOutput : RecognitionOutput ℚ where
  merchants := [⟨RawText.ofString "Corner Shop", 0.9⟩, ⟨RawText.ofString "Corner", 0.8⟩]
  dates := []
  totals := [⟨.finite false ⟨125, -1⟩, .total, 0.9⟩, ⟨.finite false ⟨1250, -2⟩, .total, 0.95⟩,
    ⟨.finite false ⟨1000, -2⟩, .subtotal, 0.95⟩]
  currencies := [⟨RawText.ofString "EUR", .explicitCode, 0.9⟩]

/-- The same candidates in another order. -/
def sampleOutput' : RecognitionOutput ℚ where
  merchants := sampleOutput.merchants.reverse
  dates := []
  totals := sampleOutput.totals.reverse ++ sampleOutput.totals
  currencies := sampleOutput.currencies ++ sampleOutput.currencies

example : ((@selectValues ℚ _ _ _ _ PythonRuntime.ascii sampleOutput 0 "UTC").toOption.map
    fun v => (v.merchant.isSome, v.total.map Money.minorUnits)) = some (false, some 1250) := by
  decide +kernel

theorem selection_safe_sample :
    @selectValues ℚ _ _ _ _ PythonRuntime.ascii sampleOutput' 0 "UTC" =
      @selectValues ℚ _ _ _ _ PythonRuntime.ascii sampleOutput 0 "UTC" := by
  refine (@selection_safe PythonRuntime.ascii sampleOutput ⟨?_, ?_, ?_, ?_⟩ 0 "UTC").1 sampleOutput'
    ⟨?_, ?_, ?_, ?_⟩
  · norm_num [sampleOutput]
  · norm_num [sampleOutput]
  · norm_num [sampleOutput]
  · norm_num [sampleOutput]
  · exact fun c => List.mem_reverse.symm
  · exact fun c => Iff.rfl
  · simp [sampleOutput']
  · simp [sampleOutput']

end MintFlow
