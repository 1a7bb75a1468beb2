import MintFlow.Lib.Binary64
import MintFlow.Python
import Mathlib.Algebra.Order.BigOperators.Group.List

set_option relaxedAutoImplicit false
set_option autoImplicit false

/-!
# Chart geometry

Charts are drawn in a 100 by 100 view box that stretches to its container. The lengths are doubles
that only a template reads. What can fail of their arithmetic is a division, or an integer that is
too large.

## Main definitions

* `MintFlow.trueDiv` — the quotient of two integers, as a double.
* `MintFlow.niceCeiling` — the top of a value axis.
* `MintFlow.columns`, `MintFlow.barLengths`, `MintFlow.donut` — the charts.

## Main results

* `MintFlow.niceCeiling_isOk_iff` — the axis tops there are.
* `MintFlow.columns_eq_ok`, `MintFlow.barLengths_eq_ok`, `MintFlow.donut_eq_ok` — one shape for each
  value, unless a donut has nothing to share.
-/

namespace MintFlow

open Transact

/-- `a / b` on integers. -/
def trueDiv (a b : ℤ) : Checked Binary64 :=
  if b = 0 then .error "division by zero"
  else
    match Binary64.divideInts a b with
    | some x => .ok x
    | none => .error "integer division result too large for a float"

/-- A part of a positive whole divides by it. -/
lemma trueDiv_part {a b : ℤ} (ha : 0 ≤ a) (hab : a ≤ b) (hb : 0 < b) :
    ∃ x, trueDiv a b = .ok x := by
  obtain ⟨x, hx⟩ := Binary64.divideInts_part ha hab hb
  exact ⟨x, by rw [trueDiv, if_neg hb.ne', hx]⟩

/-- `max(values, default=default)`. -/
def maxDefault (default : ℤ) : List ℤ → ℤ
  | [] => default
  | value :: values => values.foldl Max.max value

/-- No value is above the largest. -/
lemma le_maxDefault {default value : ℤ} {values : List ℤ} (h : value ∈ values) :
    value ≤ maxDefault default values := by
  have hfold : ∀ (values : List ℤ) (start : ℤ),
      start ≤ values.foldl Max.max start ∧ ∀ v ∈ values, v ≤ values.foldl Max.max start := by
    intro values
    induction values with
    | nil => exact fun start => ⟨le_refl _, fun _ hv => absurd hv List.not_mem_nil⟩
    | cons w values ih =>
      intro start
      obtain ⟨hstart, hall⟩ := ih (Max.max start w)
      rw [List.foldl_cons]
      refine ⟨(le_max_left _ _).trans hstart, List.forall_mem_cons.mpr ⟨?_, hall⟩⟩
      exact (le_max_right _ _).trans hstart
  cases values with
  | nil => cases h
  | cons w values =>
    rcases List.mem_cons.mp h with rfl | h
    · exact (hfold values value).1
    · exact (hfold values w).2 value h

/-- A loop whose rounds all return gives one value for each. -/
lemma mapM_isOk {α β : Type} {f : α → Checked β} {xs : List α} (h : ∀ x ∈ xs, ∃ y, f x = .ok y) :
    ∃ ys, xs.mapM f = .ok ys ∧ ys.length = xs.length := by
  obtain ⟨ys, hys⟩ := Checked.mapM_isOk_iff.mpr h
  exact ⟨ys, hys, (Checked.mapM_eq_ok.mp hys).length_eq.symm⟩

/-! ## The top of an axis -/

/-- `while magnitude * 10 <= value: magnitude *= 10`, for so many rounds at most. -/
def growMagnitude (value : ℕ) : ℕ → ℕ → ℕ
  | 0, magnitude => magnitude
  | rounds + 1, magnitude =>
    if magnitude * 10 ≤ value then growMagnitude value rounds (magnitude * 10) else magnitude

/-- `int(2.5 * magnitude)` for a power of ten: the product is a float. -/
def timesTwoAndAHalf (magnitude : ℕ) : Checked ℕ :=
  match roundBinary64 magnitude with
  | none => .error "int too large to convert to float"
  | some x =>
    -- A product of few bits is exact, and `int` drops its half.
    if x < 2 ^ 50 then .ok (5 * x / 2)
    else
      match roundBinary64 (5 * x / 2) with
      | none => .error "cannot convert float infinity to integer"
      | some product => .ok product

/-- The loop over the steps: the first candidate that is at least `value`. -/
def firstCandidate (value magnitude : ℕ) : List (ℕ → Checked ℕ) → Checked ℕ
  | [] => .ok (10 * magnitude)
  | step :: steps =>
    match step magnitude with
    | .error e => .error e
    | .ok candidate =>
      if value ≤ candidate then .ok candidate else firstCandidate value magnitude steps

/-- The steps 1, 2, 2.5, 5 and 10. -/
def ceilingSteps : List (ℕ → Checked ℕ) :=
  [fun m => .ok m, fun m => .ok (2 * m), timesTwoAndAHalf, fun m => .ok (5 * m),
    fun m => .ok (10 * m)]

/-- `nice_ceiling`: the smallest 1, 2, 2.5, or 5 times a power of ten that is at least `value`. -/
def niceCeiling (value : ℤ) : Checked ℤ :=
  if value ≤ 0 then .ok 0
  else
    let magnitude := growMagnitude value.toNat value.toNat.log2 1
    (firstCandidate value.toNat magnitude ceilingSteps).map Nat.cast

/-- The magnitude is the power of ten at the head of the value. -/
lemma growMagnitude_spec {value rounds j : ℕ} (h : 10 ^ j ≤ value)
    (h' : value < 10 ^ (j + rounds + 1)) :
    ∃ k, growMagnitude value rounds (10 ^ j) = 10 ^ k ∧ 10 ^ k ≤ value ∧ value < 10 ^ (k + 1) := by
  induction rounds generalizing j with
  | zero => exact ⟨j, rfl, h, h'⟩
  | succ rounds ih =>
    unfold growMagnitude
    rw [← Nat.pow_succ]
    by_cases hmore : 10 ^ (j + 1) ≤ value
    · rw [if_pos hmore]
      exact ih hmore (by rwa [show j + 1 + rounds + 1 = j + (rounds + 1) + 1 by omega])
    · rw [if_neg hmore]
      exact ⟨j, rfl, h, Nat.not_le.mp hmore⟩

/-- The largest power of ten that is a float. -/
def maxPower : ℕ := 308

/-- A positive value has a magnitude. -/
lemma exists_magnitude {value : ℤ} (h : ¬ value ≤ 0) :
    ∃ k, growMagnitude value.toNat value.toNat.log2 1 = 10 ^ k ∧ 10 ^ k ≤ value.toNat ∧
      value.toNat < 10 ^ (k + 1) := by
  have hrange : value.toNat < 10 ^ (0 + value.toNat.log2 + 1) := by
    rw [Nat.zero_add]
    exact Nat.lt_log2_self.trans_le (Nat.pow_le_pow_left (by decide) _)
  exact growMagnitude_spec (j := 0) (by omega) hrange

/-- Two and a half times a power of ten is a float below the largest power.

**Proof sketch.** Below the largest power the product stays in the range of doubles. From it on the
nearest double of the power, times two and a half, is beyond their end. -/
lemma timesTwoAndAHalf_isOk_iff (k : ℕ) :
    (∃ c, timesTwoAndAHalf (10 ^ k) = .ok c) ↔ k < maxPower := by
  constructor
  · rintro ⟨c, hc⟩
    by_contra hk
    have hpow : 10 ^ maxPower ≤ 10 ^ k := Nat.pow_le_pow_right (by decide) (by omega)
    unfold timesTwoAndAHalf at hc
    split at hc
    · cases hc
    · rename_i x hx
      have hx' := le_roundBinary64 hx
      have hlarge : 2 ^ maxExponent ≤ 5 * x / 2 := by
        have hnum : 8 * (2 ^ maxExponent + 1) ≤ 5 * (3 * 10 ^ maxPower) := by decide +kernel
        omega
      have hsmall : ¬ x < 2 ^ 50 := by
        have hnum : 4 * 2 ^ 50 ≤ 3 * 10 ^ maxPower := by decide +kernel
        omega
      rw [if_neg hsmall, roundBinary64_eq_none hlarge] at hc
      cases hc
  · intro hk
    have hpow : 10 ^ (k + 1) ≤ 10 ^ maxPower := Nat.pow_le_pow_right (by decide) hk
    rw [Nat.pow_succ] at hpow
    have hlimit : 10 ^ maxPower < 2 ^ maxExponent := by decide +kernel
    obtain ⟨x, hx⟩ := roundBinary64_isSome (n := 10 ^ k) (by omega)
    have hx' := roundBinary64_le hx
    unfold timesTwoAndAHalf
    rw [hx]
    simp only
    by_cases hsmall : x < 2 ^ 50
    · exact ⟨_, if_pos hsmall⟩
    · obtain ⟨product, hproduct⟩ := roundBinary64_isSome (n := 5 * x / 2) (by omega)
      exact ⟨product, by rw [if_neg hsmall, hproduct]⟩

/-- A value whose axis has a top: it is below the limit of floats, or just above a power of ten. -/
def AxisFits (value : ℤ) : Prop :=
  value < 10 ^ maxPower ∨ ∃ k, maxPower ≤ k ∧ 10 ^ k ≤ value ∧ value ≤ 2 * 10 ^ k

/-- The first candidate is at least the value. -/
lemma le_firstCandidate {value magnitude c : ℕ} (h : value ≤ 10 * magnitude)
    {steps : List (ℕ → Checked ℕ)} (hc : firstCandidate value magnitude steps = .ok c) :
    value ≤ c := by
  induction steps with
  | nil =>
    obtain rfl := Except.ok.inj hc
    exact h
  | cons step steps ih =>
    unfold firstCandidate at hc
    split at hc
    · cases hc
    · split_ifs at hc with hle
      · obtain rfl := Except.ok.inj hc
        exact hle
      · exact ih hc

/-- Without a float, the candidates stop at twice the magnitude.

**Proof sketch.** Cases on the candidates in their order: the first two are integers, and what is
above them needs the float. -/
lemma firstCandidate_isOk_iff {value k : ℕ} (hlt : value < 10 ^ (k + 1)) :
    (∃ c, firstCandidate value (10 ^ k) ceilingSteps = .ok c) ↔ k < maxPower ∨ value ≤ 2 * 10 ^ k := by
  unfold ceilingSteps
  by_cases hone : value ≤ 10 ^ k
  · have hok : firstCandidate value (10 ^ k) [fun m => .ok m, fun m => .ok (2 * m),
        timesTwoAndAHalf, fun m => .ok (5 * m), fun m => .ok (10 * m)] = .ok (10 ^ k) := if_pos hone
    exact ⟨fun _ => .inr (by omega), fun _ => ⟨_, hok⟩⟩
  · by_cases htwo : value ≤ 2 * 10 ^ k
    · refine ⟨fun _ => .inr htwo, fun _ => ⟨2 * 10 ^ k, ?_⟩⟩
      simp only [firstCandidate, if_neg hone, if_pos htwo]
    · simp only [firstCandidate, if_neg hone, if_neg htwo]
      rw [← timesTwoAndAHalf_isOk_iff k]
      have hhalf : (∃ c, timesTwoAndAHalf (10 ^ k) = .ok c) ∨ value ≤ 2 * 10 ^ k ↔
          ∃ c, timesTwoAndAHalf (10 ^ k) = .ok c := or_iff_left htwo
      rw [hhalf]
      cases timesTwoAndAHalf (10 ^ k) with
      | error e => exact ⟨by rintro ⟨_, ⟨⟩⟩, by rintro ⟨_, ⟨⟩⟩⟩
      | ok c =>
        refine ⟨fun _ => ⟨c, rfl⟩, fun _ => ?_⟩
        simp only
        split_ifs <;> exact ⟨_, rfl⟩

/-- An axis goes up to its values.

**Proof sketch.** Each candidate that is chosen is at least the value, and the last one is the next
power of ten. -/
lemma le_niceCeiling {value top : ℤ} (h : niceCeiling value = .ok top) : value ≤ top := by
  unfold niceCeiling at h
  by_cases hneg : value ≤ 0
  · rw [if_pos hneg] at h
    exact (Except.ok.inj h) ▸ hneg
  · rw [if_neg hneg] at h
    obtain ⟨k, hk, -, hlt⟩ := exists_magnitude hneg
    simp only [hk] at h
    cases hc : firstCandidate value.toNat (10 ^ k) ceilingSteps with
    | error e =>
      rw [hc] at h
      cases h
    | ok c =>
      rw [hc] at h
      have hbound : value.toNat ≤ 10 * 10 ^ k := by
        rw [← Nat.pow_succ']
        exact hlt.le
      have hle := le_firstCandidate hbound hc
      have htop : (c : ℤ) = top := Except.ok.inj h
      omega

/-- **Axis tops.** There is a top exactly for a value that fits an axis.

**Proof sketch.** The magnitude is the power of ten below the value, and the candidates above it
raise only where the float does (`firstCandidate_isOk_iff`). -/
theorem niceCeiling_isOk_iff (value : ℤ) : (∃ top, niceCeiling value = .ok top) ↔ AxisFits value := by
  unfold niceCeiling
  by_cases hneg : value ≤ 0
  · rw [if_pos hneg]
    exact ⟨fun _ => .inl (hneg.trans_lt (by positivity)), fun _ => ⟨0, rfl⟩⟩
  · rw [if_neg hneg]
    obtain ⟨k, hk, hle, hlt⟩ := exists_magnitude hneg
    obtain ⟨n, rfl⟩ := Int.eq_ofNat_of_zero_le (Int.not_le.mp hneg).le
    rw [Int.toNat_natCast] at hk hle hlt ⊢
    simp only [hk]
    have hiff : (∃ top : ℤ, (firstCandidate n (10 ^ k) ceilingSteps).map Nat.cast = .ok top) ↔
        ∃ c, firstCandidate n (10 ^ k) ceilingSteps = .ok c := by
      cases firstCandidate n (10 ^ k) ceilingSteps with
      | error e => exact ⟨by rintro ⟨_, ⟨⟩⟩, by rintro ⟨_, ⟨⟩⟩⟩
      | ok c => exact ⟨fun _ => ⟨c, rfl⟩, fun _ => ⟨c, rfl⟩⟩
    refine hiff.trans ((firstCandidate_isOk_iff hlt).trans ?_)
    unfold AxisFits
    constructor
    · rintro (hsmall | htwo)
      · left
        have hpow : 10 ^ (k + 1) ≤ 10 ^ maxPower := Nat.pow_le_pow_right (by decide) hsmall
        exact_mod_cast hlt.trans_le hpow
      · by_cases hsmall : k < maxPower
        · left
          have hpow : 10 ^ (k + 1) ≤ 10 ^ maxPower := Nat.pow_le_pow_right (by decide) hsmall
          exact_mod_cast hlt.trans_le hpow
        · exact .inr ⟨k, by omega, by exact_mod_cast hle, by exact_mod_cast htwo⟩
    · rintro (hsmall | ⟨j, hj, hjle, hjtwo⟩)
      · left
        have hlt' : 10 ^ k < 10 ^ maxPower := hle.trans_lt (by exact_mod_cast hsmall)
        exact (Nat.pow_lt_pow_iff_right (by decide : 1 < 10)).mp hlt'
      · right
        have hjle : 10 ^ j ≤ n := by exact_mod_cast hjle
        have hjtwo : n ≤ 2 * 10 ^ j := by exact_mod_cast hjtwo
        -- The power of ten at the head of the value is this one.
        have hjk : 10 ^ j < 10 ^ (k + 1) := hjle.trans_lt hlt
        have hjk := (Nat.pow_lt_pow_iff_right (by decide : 1 < 10)).mp hjk
        have hkj : 10 ^ k < 10 ^ (j + 1) := by
          rw [Nat.pow_succ]
          omega
        have hkj := (Nat.pow_lt_pow_iff_right (by decide : 1 < 10)).mp hkj
        rw [show k = j by omega]
        exact hjtwo

/-! ## The charts -/

structure Column where
  x : Binary64
  y : Binary64
  width : Binary64
  height : Binary64

/-- `VIEW_SIZE`. -/
def viewSize : Binary64 := 100.0

/-- `COLUMN_GAP_RATIO`: the share of each column slot left empty between columns. -/
def columnGapRatio : Binary64 := 0.2

/-- `MIN_VISIBLE`: a non-zero value never draws thinner than this. -/
def minVisible : Binary64 := 1.0

/-- `_scaled`. -/
def scaled (value maximum : ℤ) : Checked Binary64 :=
  if value ≤ 0 ∨ maximum ≤ 0 then .ok 0.0
  else do
    let ratio ← trueDiv value maximum
    return max ((ratio * viewSize).roundDecimals 2) minVisible

/-- One column. -/
def columnAt (slot width : Binary64) (maximum : ℤ) (value : ℤ × ℕ) : Checked Column := do
  let height ← scaled value.1 maximum
  return {
    x := ((value.2 : Binary64) * slot + slot * columnGapRatio / 2.0).roundDecimals 2
    y := (viewSize - height).roundDecimals 2
    width := width
    height := height }

/-- `columns`: one column per value, left to right, scaled to `maximum`. -/
def columns (values : List ℤ) (maximum : Option ℤ) : Checked (List Column) :=
  if values = [] then .ok []
  else
    let maximum := maximum.getD (maxDefault 0 values)
    let slot := viewSize / (values.length : Binary64)
    let width := (slot * (1.0 - columnGapRatio)).roundDecimals 2
    values.zipIdx.mapM (columnAt slot width maximum)

/-- `bar_lengths`: the largest value spans the full width. -/
def barLengths (values : List ℤ) : Checked (List Binary64) :=
  values.mapM fun value => scaled value (maxDefault 0 values)

structure Slice where
  dasharray : String
  dashoffset : Binary64

/-- `DONUT_GAP`: space left between neighbouring slices, in percent of the circle. -/
def donutGap : Binary64 := 0.6

/-- The loop over the shares, from where the next slice starts. -/
def donutFrom (total : ℤ) (several : Bool) : Binary64 → List ℤ → Checked (List Slice)
  | _, [] => .ok []
  | start, share :: shares => do
    let ratio ← trueDiv share total
    let length := ratio * 100.0
    let drawn := if several then max (length - donutGap) 0.0 else length
    let slices ← donutFrom total several (start + length) shares
    return ⟨drawn.toFixed 3 ++ " " ++ (100.0 - drawn).toFixed 3,
      (25.0 - start).roundDecimals 3⟩ :: slices

/-- `donut`: slices for shares in basis points, clockwise from the top. -/
def donut (basisPoints : List ℤ) : Checked (List Slice) :=
  let total := basisPoints.sum
  if total ≤ 0 then .ok []
  else donutFrom total (decide (1 < basisPoints.length)) 0.0 basisPoints

/-! ## What the charts need -/

/-- A value up to the maximum has a length. -/
lemma scaled_eq_ok {value maximum : ℤ} (h : value ≤ maximum) : ∃ x, scaled value maximum = .ok x := by
  unfold scaled
  by_cases hzero : value ≤ 0 ∨ maximum ≤ 0
  · exact ⟨_, if_pos hzero⟩
  · rw [not_or, not_le, not_le] at hzero
    obtain ⟨ratio, hratio⟩ := trueDiv_part hzero.1.le h hzero.2
    rw [if_neg (by omega), hratio]
    exact ⟨_, rfl⟩

/-- **Columns.** There is one column for each value, if no value is above the maximum.

**Proof sketch.** The loop goes through the values one by one. Each is at most the maximum, so its
height is a double. -/
lemma columns_eq_ok {values : List ℤ} {maximum : Option ℤ}
    (h : ∀ top ∈ maximum, ∀ v ∈ values, v ≤ top) :
    ∃ cs, columns values maximum = .ok cs ∧ cs.length = values.length := by
  unfold columns
  by_cases hnil : values = []
  · exact ⟨[], if_pos hnil, congrArg List.length hnil.symm⟩
  · rw [if_neg hnil]
    have hmax : ∀ v ∈ values, v ≤ maximum.getD (maxDefault 0 values) := by
      cases maximum with
      | none => exact fun v hv => le_maxDefault hv
      | some top => exact h top rfl
    let slot := viewSize / (values.length : Binary64)
    let width := (slot * (1.0 - columnGapRatio)).roundDecimals 2
    have hcolumns : ∃ cs, values.zipIdx.mapM
        (columnAt slot width (maximum.getD (maxDefault 0 values))) = .ok cs ∧
          cs.length = values.zipIdx.length := by
      refine mapM_isOk fun value hvalue => ?_
      obtain ⟨height, hheight⟩ := scaled_eq_ok (hmax value.1 (List.fst_mem_of_mem_zipIdx hvalue))
      exact ⟨_, by rw [columnAt, hheight]; rfl⟩
    obtain ⟨cs, hcs, hlength⟩ := hcolumns
    exact ⟨cs, hcs, hlength.trans (List.length_zipIdx)⟩

/-- **Bars.** There is one length for each value. -/
lemma barLengths_eq_ok (values : List ℤ) :
    ∃ ls, barLengths values = .ok ls ∧ ls.length = values.length :=
  mapM_isOk fun _ hvalue => scaled_eq_ok (le_maxDefault hvalue)

/-- Shares of a positive total have one slice each. -/
lemma donutFrom_eq_ok {total : ℤ} (htotal : 0 < total) (several : Bool) {shares : List ℤ}
    (hshares : ∀ share ∈ shares, 0 ≤ share ∧ share ≤ total) (start : Binary64) :
    ∃ slices, donutFrom total several start shares = .ok slices ∧
      slices.length = shares.length := by
  induction shares generalizing start with
  | nil => exact ⟨[], rfl, rfl⟩
  | cons share shares ih =>
    obtain ⟨⟨hpos, hle⟩, hrest⟩ := List.forall_mem_cons.mp hshares
    obtain ⟨ratio, hratio⟩ := trueDiv_part hpos hle htotal
    obtain ⟨slices, hslices, hlength⟩ := ih hrest (start + ratio * 100.0)
    refine ⟨_, by rw [donutFrom, hratio, Checked.bind_ok]; simp only [hslices]; rfl, ?_⟩
    rw [List.length_cons, List.length_cons, hlength]

/-- **Donut.** There is one slice for each share, or none if there is nothing to share. -/
lemma donut_eq_ok {shares : List ℤ} (h : ∀ share ∈ shares, 0 ≤ share) :
    ∃ slices, donut shares = .ok slices ∧
      slices.length = if shares.sum ≤ 0 then 0 else shares.length := by
  unfold donut
  by_cases hsum : shares.sum ≤ 0
  · exact ⟨[], if_pos hsum, by rw [if_pos hsum, List.length_nil]⟩
  · obtain ⟨slices, hslices, hlength⟩ := donutFrom_eq_ok (Int.not_le.mp hsum)
      (decide (1 < shares.length)) (fun share hshare => ⟨h share hshare,
        List.single_le_sum h share hshare⟩) 0.0
    exact ⟨slices, by rw [if_neg hsum, hslices], by rw [if_neg hsum, hlength]⟩

end MintFlow
