import MintFlow.Lib.Rounding
import Mathlib.Data.Nat.Log
import Mathlib.Tactic.Common
import Mathlib.Tactic.Ring
import Mathlib.Tactic.NormNum

set_option relaxedAutoImplicit false
set_option autoImplicit false

/-!
# Doubles

A natural number converts to the nearest double, half to even, unless it is too large for one. The
doubles that are not too large compare as the rational numbers they are, and their differences are
rounded to the nearest double.

## Main definitions

* `Transact.roundBinary64` — the double a natural number converts to.
* `Transact.Binary64` — a double, with its order, its differences and its literals.

## Main results

* `Transact.roundBinary64_le`, `Transact.le_roundBinary64` — rounding stays close to the number.
* `Transact.roundBinary64_isSome`, `Transact.roundBinary64_eq_none` — which numbers convert.
-/

namespace Transact

/-- The number of a double's significant bits after the first. -/
def fractionBits : ℕ := 52

/-- Doubles stay below two to this power. -/
def maxExponent : ℕ := 1024

/-- The distance of the doubles around a number that is not small. -/
def unitOf (n : ℕ) : ℕ := 2 ^ (n.log2 - fractionBits)

/-- The nearest multiple of `unit`, half to even. -/
def roundToUnit (n unit : ℕ) : ℕ :=
  if unit < 2 * (n % unit) ∨ 2 * (n % unit) = unit ∧ n / unit % 2 = 1 then
    n / unit * unit + unit
  else n / unit * unit

/-- The double a natural number converts to, if it is not too large. -/
def roundBinary64 (n : ℕ) : Option ℕ :=
  if roundToUnit n (unitOf n) < 2 ^ maxExponent then some (roundToUnit n (unitOf n)) else none

lemma unitOf_pos (n : ℕ) : 0 < unitOf n := Nat.two_pow_pos _

/-- Rounding moves a number by less than a unit up, and by less than a unit down. -/
lemma roundToUnit_bounds {n unit : ℕ} (h : 0 < unit) :
    roundToUnit n unit ≤ n + unit ∧ n < roundToUnit n unit + unit ∧
      n / unit * unit ≤ roundToUnit n unit := by
  have hsplit := Nat.div_add_mod' n unit
  have hmod := Nat.mod_lt n h
  unfold roundToUnit
  split_ifs <;> omega

/-- Small numbers have unit one, and are not rounded. -/
lemma roundToUnit_one (n : ℕ) : roundToUnit n 1 = n := by
  unfold roundToUnit
  rw [Nat.mod_one, Nat.div_one, Nat.mul_one, if_neg]
  omega

/-- A unit is a small part of a number that has more bits than a double. -/
lemma unitOf_le {n : ℕ} (h : fractionBits ≤ n.log2) : 4 * unitOf n ≤ n := by
  have hn : n ≠ 0 := by
    rintro rfl
    rw [Nat.log2_zero] at h
    exact absurd h (by decide)
  have hbits : 2 + (n.log2 - fractionBits) ≤ n.log2 := by
    unfold fractionBits at *
    omega
  calc 4 * unitOf n = 2 ^ (2 + (n.log2 - fractionBits)) := by
        rw [unitOf, Nat.pow_add]
    _ ≤ 2 ^ n.log2 := Nat.pow_le_pow_right (by decide) hbits
    _ ≤ n := Nat.log2_self_le hn

/-- A rounded number is a number with few bits, or close to it. -/
lemma roundToUnit_close (n : ℕ) :
    roundToUnit n (unitOf n) ≤ 2 * n ∧ 3 * n ≤ 4 * roundToUnit n (unitOf n) := by
  by_cases h : fractionBits ≤ n.log2
  · have hunit := unitOf_le h
    obtain ⟨hle, hlt, -⟩ := roundToUnit_bounds (n := n) (unitOf_pos n)
    omega
  · have hone : unitOf n = 1 := by
      rw [unitOf, Nat.sub_eq_zero_of_le (by omega), Nat.pow_zero]
    rw [hone, roundToUnit_one]
    omega

/-- A number that converts is not far below its double. -/
lemma roundBinary64_le {n m : ℕ} (h : roundBinary64 n = some m) : m ≤ 2 * n := by
  unfold roundBinary64 at h
  split_ifs at h
  obtain rfl := Option.some.inj h
  exact (roundToUnit_close n).1

/-- A number that converts is not far above its double. -/
lemma le_roundBinary64 {n m : ℕ} (h : roundBinary64 n = some m) : 3 * n ≤ 4 * m := by
  unfold roundBinary64 at h
  split_ifs at h
  obtain rfl := Option.some.inj h
  exact (roundToUnit_close n).2

/-- Numbers below half of the limit convert. -/
lemma roundBinary64_isSome {n : ℕ} (h : 2 * n < 2 ^ maxExponent) :
    ∃ m, roundBinary64 n = some m :=
  ⟨_, if_pos ((roundToUnit_close n).1.trans_lt h)⟩

/-- Numbers from the limit on do not convert. -/
lemma roundBinary64_eq_none {n : ℕ} (h : 2 ^ maxExponent ≤ n) : roundBinary64 n = none := by
  have hn : n ≠ 0 := by
    rintro rfl
    exact absurd h (Nat.not_le.mpr (Nat.two_pow_pos _))
  have hlog : maxExponent ≤ n.log2 := (Nat.le_log2 hn).mpr h
  have hbits : fractionBits + (n.log2 - fractionBits) = n.log2 := by
    unfold fractionBits maxExponent at *
    omega
  have hquotient : 2 ^ fractionBits ≤ n / unitOf n := by
    rw [Nat.le_div_iff_mul_le (unitOf_pos n), unitOf, ← Nat.pow_add, hbits]
    exact Nat.log2_self_le hn
  have hle : 2 ^ maxExponent ≤ roundToUnit n (unitOf n) := by
    calc 2 ^ maxExponent ≤ 2 ^ n.log2 := Nat.pow_le_pow_right (by decide) hlog
      _ = 2 ^ fractionBits * unitOf n := by rw [unitOf, ← Nat.pow_add, hbits]
      _ ≤ n / unitOf n * unitOf n := Nat.mul_le_mul_right _ hquotient
      _ ≤ roundToUnit n (unitOf n) := (roundToUnit_bounds (unitOf_pos n)).2.2
  unfold roundBinary64
  rw [if_neg (by omega)]

/-! ## Doubles that are not too large -/

/-- The nearest double to a number that is not too large, half to even. -/
def nearestDouble (x : ℚ) : ℚ :=
  if x = 0 then 0
  else
    let k := max (Int.log 2 |x| - fractionBits) (-1074)
    roundHalfEven (x / 2 ^ k) * 2 ^ k

section Nearest

variable {x y : ℚ}

/-- The exponent of the last binary place of the doubles around a number. -/
def lastPlace (x : ℚ) : ℤ := max (Int.log 2 |x| - fractionBits) (-1074)

/-- The nearest double is the number in units of its last place, rounded half to even. -/
lemma nearestDouble_eq (hx : x ≠ 0) :
    nearestDouble x = roundHalfEven (x / 2 ^ lastPlace x) * 2 ^ lastPlace x := if_neg hx

lemma zpow_two_pos (k : ℤ) : (0 : ℚ) < 2 ^ k := zpow_pos (by norm_num) k

/-- A power of two at or above the last place is a whole number of units of it. -/
lemma zpow_two_div {k n : ℤ} (h : k ≤ n) : (2 : ℚ) ^ n / 2 ^ k = ((2 ^ (n - k).toNat : ℤ) : ℚ) := by
  rw [← zpow_sub₀ (by norm_num : (2 : ℚ) ≠ 0), show n - k = ((n - k).toNat : ℤ) by omega]
  norm_cast

/-- A number below a power of two is rounded to at most this power. -/
lemma nearestDouble_le {n : ℤ} (hx : x ≠ 0) (h : x ≤ 2 ^ n) (hn : lastPlace x ≤ n) :
    nearestDouble x ≤ 2 ^ n := by
  have hpos := zpow_two_pos (lastPlace x)
  have hround := roundHalfEven_mono (div_le_div_of_nonneg_right h hpos.le)
  rw [zpow_two_div hn, roundHalfEven_intCast] at hround
  rw [nearestDouble_eq hx]
  calc (roundHalfEven (x / 2 ^ lastPlace x) : ℚ) * 2 ^ lastPlace x
      ≤ ((2 ^ (n - lastPlace x).toNat : ℤ) : ℚ) * 2 ^ lastPlace x :=
        mul_le_mul_of_nonneg_right (by exact_mod_cast hround) hpos.le
    _ = 2 ^ n := by rw [← zpow_two_div hn, div_mul_cancel₀ _ hpos.ne']

/-- A number above a power of two is rounded to at least this power. -/
lemma le_nearestDouble {n : ℤ} (hx : x ≠ 0) (h : 2 ^ n ≤ x) (hn : lastPlace x ≤ n) :
    2 ^ n ≤ nearestDouble x := by
  have hpos := zpow_two_pos (lastPlace x)
  have hround := roundHalfEven_mono (div_le_div_of_nonneg_right h hpos.le)
  rw [zpow_two_div hn, roundHalfEven_intCast] at hround
  rw [nearestDouble_eq hx]
  calc (2 : ℚ) ^ n = ((2 ^ (n - lastPlace x).toNat : ℤ) : ℚ) * 2 ^ lastPlace x := by
        rw [← zpow_two_div hn, div_mul_cancel₀ _ hpos.ne']
    _ ≤ roundHalfEven (x / 2 ^ lastPlace x) * 2 ^ lastPlace x :=
        mul_le_mul_of_nonneg_right (by exact_mod_cast hround) hpos.le

/-- The nearest double to a number that is not positive is not positive. -/
lemma nearestDouble_nonpos (h : x ≤ 0) : nearestDouble x ≤ 0 := by
  rcases h.eq_or_lt with rfl | hneg
  · exact (if_pos rfl).le
  · have hpos := zpow_two_pos (lastPlace x)
    have hround := roundHalfEven_mono (div_nonpos_of_nonpos_of_nonneg h hpos.le)
    rw [show (0 : ℚ) = ((0 : ℤ) : ℚ) from rfl, roundHalfEven_intCast] at hround
    rw [nearestDouble_eq hneg.ne]
    exact mul_nonpos_of_nonpos_of_nonneg (by exact_mod_cast hround) hpos.le

/-- The nearest double to a part of one is not negative and at most one.

**Proof sketch.** Zero is a double. A positive part of one has an exponent of at most zero, so one
is a double on its grid, and rounding is monotone. -/
lemma nearestDouble_part (h : 0 ≤ x) (h' : x ≤ 1) : 0 ≤ nearestDouble x ∧ nearestDouble x ≤ 1 := by
  rcases h.eq_or_lt with rfl | hpos
  · have hzero : nearestDouble 0 = 0 := if_pos rfl
    rw [hzero]
    exact ⟨le_rfl, zero_le_one⟩
  · have hlog : Int.log 2 x ≤ 0 := by
      have hmono := Int.log_mono_right (b := 2) hpos h'
      rwa [Int.log_one_right] at hmono
    have hplace : lastPlace x ≤ 0 := by
      rw [lastPlace, abs_of_pos hpos]
      omega
    have hunit := zpow_two_pos (lastPlace x)
    have hround := roundHalfEven_mono (div_nonneg h hunit.le)
    rw [show (0 : ℚ) = ((0 : ℤ) : ℚ) from rfl, roundHalfEven_intCast] at hround
    refine ⟨?_, ?_⟩
    · rw [nearestDouble_eq hpos.ne']
      exact mul_nonneg (by exact_mod_cast hround) hunit.le
    · have hle : nearestDouble x ≤ 2 ^ (0 : ℤ) :=
        nearestDouble_le hpos.ne' (by rwa [zpow_zero]) hplace
      rwa [zpow_zero] at hle

/-- **Rounding to doubles is monotone** on positive numbers.

**Proof sketch.** Two numbers with one last place are rounded in the same units. Otherwise the power
of two of the larger one's magnitude lies between them, and neither is rounded across it. -/
theorem nearestDouble_mono (hx : 0 < x) (h : x ≤ y) : nearestDouble x ≤ nearestDouble y := by
  have hy : 0 < y := hx.trans_le h
  have hlog : Int.log 2 x ≤ Int.log 2 y := Int.log_mono_right hx h
  by_cases hplace : lastPlace x = lastPlace y
  · rw [nearestDouble_eq hx.ne', nearestDouble_eq hy.ne', hplace]
    have hpos := zpow_two_pos (lastPlace y)
    have hround := roundHalfEven_mono (div_le_div_of_nonneg_right h hpos.le)
    exact mul_le_mul_of_nonneg_right (by exact_mod_cast hround) hpos.le
  · have hx' : lastPlace x = max (Int.log 2 x - fractionBits) (-1074) := by
      rw [lastPlace, abs_of_pos hx]
    have hy' : lastPlace y = max (Int.log 2 y - fractionBits) (-1074) := by
      rw [lastPlace, abs_of_pos hy]
    have hbits : (fractionBits : ℤ) = 52 := rfl
    have hbelow : x ≤ 2 ^ Int.log 2 y := by
      have hlt : x < 2 ^ (Int.log 2 x + 1) := by
        exact_mod_cast Int.lt_zpow_succ_log_self (b := 2) (by norm_num) x
      exact hlt.le.trans (zpow_le_zpow_right₀ (by norm_num) (by omega))
    have habove : 2 ^ Int.log 2 y ≤ y := by
      exact_mod_cast Int.zpow_log_le_self (b := 2) (by norm_num) hy
    exact (nearestDouble_le hx.ne' hbelow (by omega)).trans
      (le_nearestDouble hy.ne' habove (by omega))

end Nearest

/-- A double, as the number it is. -/
structure Binary64 where
  value : ℚ
deriving DecidableEq, Repr

namespace Binary64

lemma value_injective : Function.Injective value := fun a b h => by
  cases a
  cases b
  exact congrArg _ h

instance : LinearOrder Binary64 := LinearOrder.lift' value value_injective

instance : Sub Binary64 := ⟨fun a b => ⟨nearestDouble (a.value - b.value)⟩⟩

instance : Add Binary64 := ⟨fun a b => ⟨nearestDouble (a.value + b.value)⟩⟩

instance : Mul Binary64 := ⟨fun a b => ⟨nearestDouble (a.value * b.value)⟩⟩

/-- The quotient by a number that is not zero. -/
instance : Div Binary64 := ⟨fun a b => ⟨nearestDouble (a.value / b.value)⟩⟩

/-- The double of a natural number that is not too large. -/
instance : NatCast Binary64 := ⟨fun n => ⟨nearestDouble n⟩⟩

/-- The double nearest to a double's exact value with so many decimals, half to even. -/
def roundDecimals (x : Binary64) (decimals : ℕ) : Binary64 :=
  ⟨nearestDouble (roundHalfEven (x.value * 10 ^ decimals) / 10 ^ decimals)⟩

/-- The digits of a double's exact value with so many decimals, half to even. -/
def toFixed (x : Binary64) (decimals : ℕ) : String :=
  let units := (roundHalfEven (x.value * 10 ^ decimals)).natAbs
  let fraction := toString (units % 10 ^ decimals)
  (if x.value < 0 then "-" else "") ++ toString (units / 10 ^ decimals) ++ "." ++
    "".pushn '0' (decimals - fraction.length) ++ fraction

/-- The quotient of two integers, correctly rounded, unless it is too large or there is none. -/
def divideInts (a b : ℤ) : Option Binary64 :=
  let quotient := nearestDouble (a / b)
  if b ≠ 0 ∧ |quotient| < 2 ^ maxExponent then some ⟨quotient⟩ else none

/-- A part of a positive whole divides by it. -/
lemma divideInts_part {a b : ℤ} (ha : 0 ≤ a) (hab : a ≤ b) (hb : 0 < b) :
    ∃ x, divideInts a b = some x := by
  have hb' : (0 : ℚ) < b := by exact_mod_cast hb
  obtain ⟨hnonneg, hle⟩ := nearestDouble_part (x := (a : ℚ) / b)
    (div_nonneg (by exact_mod_cast ha) hb'.le) ((div_le_one hb').mpr (by exact_mod_cast hab))
  refine ⟨_, if_pos ⟨hb.ne', ?_⟩⟩
  rw [abs_of_nonneg hnonneg]
  exact hle.trans_lt (one_lt_pow₀ (by norm_num) (by decide))

instance : OfScientific Binary64 :=
  ⟨fun mantissa negative exponent =>
    ⟨nearestDouble (OfScientific.ofScientific mantissa negative exponent)⟩⟩

example : ¬ (0.8 : Binary64) - 0.65 < 0.15 := by decide +kernel

example : (2.675 : Binary64).toFixed 2 = "2.67" := by decide +kernel

end Binary64

end Transact
