import MintFlow.Lib.Decimal
import Mathlib.Data.Int.Log
import Mathlib.Data.Rat.Floor
import Mathlib.Algebra.Order.Floor.Ring
import Mathlib.Tactic.Linarith
import Mathlib.Tactic.FieldSimp
import Mathlib.Tactic.Ring

set_option relaxedAutoImplicit false
set_option autoImplicit false

/-!
# Rounding

Rounding half to even, to a multiple of a power of ten and to so many significant digits, as
functions of rational numbers. The operations on decimals are the exact ones followed by a
rounding.

## Main definitions

* `Transact.roundHalfEven` — the nearest integer.
* `Transact.roundTo` — the nearest multiple of a power of ten.
* `Transact.roundSig` — the nearest number of so many significant digits.
* `Transact.Decimal.toRat` — the number a decimal is.

## Main results

* `Transact.roundHalfEven_mono`, `Transact.roundSig_mono` — rounding is monotone.
* `Transact.roundSig_error` — its relative error.
* `Transact.Decimal.toRat_round`, `toRat_scaleb`, `toRat_mul`, `toRat_div`,
  `quantizeToInt?_eq`, `toScale_eq` — the operations round the exact results.
-/

namespace Transact

/-! ## The nearest integer -/

/-- The nearest integer, half to even. -/
def roundHalfEven (x : ℚ) : ℤ :=
  if x - ⌊x⌋ < 1 / 2 then ⌊x⌋
  else if 1 / 2 < x - ⌊x⌋ then ⌊x⌋ + 1
  else if ⌊x⌋ % 2 = 0 then ⌊x⌋ else ⌊x⌋ + 1

/-- The nearest integer is at most a half away, and even when it is a half away. -/
lemma roundHalfEven_spec (x : ℚ) :
    |x - roundHalfEven x| ≤ 1 / 2 ∧ (|x - roundHalfEven x| = 1 / 2 → Even (roundHalfEven x)) := by
  have hle := Int.floor_le x
  have hlt := Int.lt_floor_add_one x
  unfold roundHalfEven
  split_ifs with h₁ h₂ h₃
  · rw [abs_of_nonneg (by linarith)]
    exact ⟨h₁.le, fun h => absurd h h₁.ne⟩
  · push_cast
    rw [abs_of_nonpos (by linarith)]
    exact ⟨by linarith, fun h => by linarith⟩
  · rw [abs_of_nonneg (by linarith)]
    exact ⟨by linarith, fun _ => Int.even_iff.mpr h₃⟩
  · push_cast
    rw [abs_of_nonpos (by linarith)]
    exact ⟨by linarith, fun _ => Int.even_iff.mpr (by omega)⟩

/-- Only the nearest integer is that.

**Proof sketch.** Two nearest integers are neighbours. If they differ, the number is half way
between them, and both are even. -/
lemma roundHalfEven_unique {x : ℚ} {n : ℤ} (h : |x - n| ≤ 1 / 2)
    (heven : |x - n| = 1 / 2 → Even n) : roundHalfEven x = n := by
  obtain ⟨hm, hmeven⟩ := roundHalfEven_spec x
  generalize roundHalfEven x = m at *
  obtain ⟨h₁, h₂⟩ := abs_le.mp h
  obtain ⟨h₃, h₄⟩ := abs_le.mp hm
  have hle : m ≤ n + 1 := by exact_mod_cast (by linarith : (m : ℚ) ≤ n + 1)
  have hge : n ≤ m + 1 := by exact_mod_cast (by linarith : (n : ℚ) ≤ m + 1)
  rcases lt_trichotomy m n with hlt | heq | hgt
  · -- Both are a half away, so both are even, but they are neighbours.
    have hn : n = m + 1 := by omega
    subst hn
    push_cast at *
    have hx : x = m + 1 / 2 := by linarith
    have hev := hmeven (by rw [hx]; norm_num)
    have hev' := heven (by rw [hx]; norm_num)
    rw [Int.even_iff] at hev hev'
    omega
  · exact heq
  · have hn : m = n + 1 := by omega
    subst hn
    push_cast at *
    have hx : x = n + 1 / 2 := by linarith
    have hev := hmeven (by rw [hx]; norm_num)
    have hev' := heven (by rw [hx]; norm_num)
    rw [Int.even_iff] at hev hev'
    omega

@[simp] lemma roundHalfEven_intCast (n : ℤ) : roundHalfEven n = n :=
  roundHalfEven_unique (by norm_num) (by norm_num)

@[simp] lemma roundHalfEven_natCast (n : ℕ) : roundHalfEven n = n := by
  exact_mod_cast roundHalfEven_intCast n

/-- Rounding is monotone. -/
lemma roundHalfEven_mono {x y : ℚ} (h : x ≤ y) : roundHalfEven x ≤ roundHalfEven y := by
  by_contra hlt
  have hstep : roundHalfEven y + 1 ≤ roundHalfEven x := by omega
  have hstep' : (roundHalfEven y : ℚ) + 1 ≤ roundHalfEven x := by exact_mod_cast hstep
  have hx := (abs_le.mp (roundHalfEven_spec x).1).1
  have hy := (abs_le.mp (roundHalfEven_spec y).1).2
  have hxy : x = y := le_antisymm h (by linarith)
  rw [hxy] at hlt
  exact hlt le_rfl

/-- Numbers strictly between the same two neighbouring half-integers round alike. -/
lemma roundHalfEven_congr {x y : ℚ} {j : ℤ} (hx : j < 2 * x) (hx' : 2 * x < j + 1) (hy : j < 2 * y)
    (hy' : 2 * y < j + 1) : roundHalfEven x = roundHalfEven y := by
  rcases Int.even_or_odd' j with ⟨k, rfl | rfl⟩
  · push_cast at *
    have hround : ∀ z : ℚ, 2 * k < 2 * z → 2 * z < 2 * k + 1 → roundHalfEven z = k := by
      intro z hz hz'
      have h : |z - k| < 1 / 2 := abs_lt.mpr ⟨by linarith, by linarith⟩
      exact roundHalfEven_unique h.le fun h' => absurd h' h.ne
    rw [hround x hx hx', hround y hy hy']
  · push_cast at *
    have hround : ∀ z : ℚ, 2 * k + 1 < 2 * z → 2 * z < 2 * k + 1 + 1 →
        roundHalfEven z = k + 1 := by
      intro z hz hz'
      have h : |z - (k + 1 : ℤ)| < 1 / 2 := by
        push_cast
        exact abs_lt.mpr ⟨by linarith, by linarith⟩
      exact roundHalfEven_unique h.le fun h' => absurd h' h.ne
    rw [hround x hx hx', hround y hy hy']

/-- A quotient rounds as the division of natural numbers does.

**Proof sketch.** The floor is the natural quotient, and the fractional part is the remainder over
the power, so both compare the remainder with half of the power. -/
lemma roundHalfEven_divRound (n k : ℕ) :
    roundHalfEven (n / 10 ^ k : ℚ) = Decimal.divRound n k := by
  have hpos : (0 : ℚ) < 10 ^ k := by positivity
  have hfloor : ⌊(n / 10 ^ k : ℚ)⌋ = (n / 10 ^ k : ℕ) := by
    have h : ⌊((n : ℕ) : ℚ) / ((10 ^ k : ℕ) : ℚ)⌋ = ((n / 10 ^ k : ℕ) : ℤ) :=
      Rat.floor_natCast_div_natCast n (10 ^ k)
    simpa using h
  have hrest : (n / 10 ^ k : ℚ) - ((n / 10 ^ k : ℕ) : ℤ) = (n % 10 ^ k : ℕ) / 10 ^ k := by
    have hsplit : (n : ℚ) = (n / 10 ^ k : ℕ) * 10 ^ k + (n % 10 ^ k : ℕ) := by
      exact_mod_cast (Nat.div_add_mod' n (10 ^ k)).symm
    rw [eq_div_iff hpos.ne', sub_mul, div_mul_cancel₀ _ hpos.ne', Int.cast_natCast]
    linarith
  have hless : (n % 10 ^ k : ℕ) / 10 ^ k < (1 / 2 : ℚ) ↔ 2 * (n % 10 ^ k) < 10 ^ k := by
    rw [div_lt_div_iff₀ hpos two_pos, one_mul, mul_comm]
    exact_mod_cast Iff.rfl
  have hmore : (1 / 2 : ℚ) < (n % 10 ^ k : ℕ) / 10 ^ k ↔ 10 ^ k < 2 * (n % 10 ^ k) := by
    rw [div_lt_div_iff₀ two_pos hpos, one_mul, mul_comm]
    exact_mod_cast Iff.rfl
  unfold roundHalfEven Decimal.divRound
  rw [hfloor, hrest]
  simp only [hless, hmore]
  split_ifs <;> first | rfl | omega

/-! ## The nearest multiple of a power of ten -/

/-- The nearest multiple of `10 ^ k`, half to even. -/
def roundTo (k : ℤ) (x : ℚ) : ℚ := roundHalfEven (x / 10 ^ k) * 10 ^ k

lemma zpow_ten_pos (k : ℤ) : (0 : ℚ) < 10 ^ k := zpow_pos (by norm_num) k

lemma zpow_ten_add (k e : ℤ) : (10 : ℚ) ^ (k + e) = 10 ^ k * 10 ^ e := zpow_add₀ (by norm_num) k e

lemma roundTo_zero (k : ℤ) : roundTo k 0 = 0 := by
  rw [roundTo, zero_div, show (0 : ℚ) = ((0 : ℤ) : ℚ) from rfl, roundHalfEven_intCast]
  simp

lemma roundTo_mono {k : ℤ} {x y : ℚ} (h : x ≤ y) : roundTo k x ≤ roundTo k y := by
  have hpos := zpow_ten_pos k
  refine mul_le_mul_of_nonneg_right ?_ hpos.le
  exact_mod_cast roundHalfEven_mono (div_le_div_of_nonneg_right h hpos.le)

/-- Rounding moves a number by half a unit at most. -/
lemma roundTo_error (k : ℤ) (x : ℚ) : |roundTo k x - x| ≤ 10 ^ k / 2 := by
  have hpos := zpow_ten_pos k
  have hsplit : roundTo k x - x = -((x / 10 ^ k - roundHalfEven (x / 10 ^ k)) * 10 ^ k) := by
    rw [roundTo, sub_mul, div_mul_cancel₀ _ hpos.ne']
    ring
  rw [hsplit, abs_neg, abs_mul, abs_of_pos hpos]
  calc |x / 10 ^ k - roundHalfEven (x / 10 ^ k)| * 10 ^ k ≤ 1 / 2 * 10 ^ k :=
        mul_le_mul_of_nonneg_right (roundHalfEven_spec _).1 hpos.le
    _ = 10 ^ k / 2 := by ring

/-- A multiple of the unit is not rounded. -/
lemma roundTo_mul (k n : ℤ) : roundTo k (n * 10 ^ k) = n * 10 ^ k := by
  rw [roundTo, mul_div_cancel_right₀ _ (zpow_ten_pos k).ne', roundHalfEven_intCast]

/-- Rounding commutes with a shift of the digits. -/
lemma roundTo_shift (k e : ℤ) (x : ℚ) : roundTo (k + e) (x * 10 ^ e) = roundTo k x * 10 ^ e := by
  have he := (zpow_ten_pos e).ne'
  unfold roundTo
  rw [zpow_ten_add, mul_div_mul_right _ _ he, mul_assoc]

/-! ## Significant digits -/

/-- The nearest number of so many significant digits, half to even. -/
def roundSig (precision : ℕ) (x : ℚ) : ℚ := roundTo (Int.log 10 x - (precision - 1)) x

section Significant

variable {x y : ℚ} {k e : ℤ} {p : ℕ}

/-- The order of magnitude is the power of ten below. -/
lemma log_unique (h : (10 : ℚ) ^ k ≤ x) (h' : x < 10 ^ (k + 1)) : Int.log 10 x = k := by
  have hx : 0 < x := (zpow_ten_pos k).trans_le h
  have hle : k ≤ Int.log 10 x := (Int.zpow_le_iff_le_log (by norm_num) hx).mp (by exact_mod_cast h)
  have hlt : Int.log 10 x < k + 1 :=
    (Int.lt_zpow_iff_log_lt (by norm_num) hx).mp (by exact_mod_cast h')
  omega

lemma zpow_log_le (hx : 0 < x) : (10 : ℚ) ^ Int.log 10 x ≤ x := by
  exact_mod_cast Int.zpow_log_le_self (b := 10) (by norm_num) hx

lemma lt_zpow_log (x : ℚ) : x < 10 ^ (Int.log 10 x + 1) := by
  exact_mod_cast Int.lt_zpow_succ_log_self (b := 10) (by norm_num) x

/-- A shift of the digits shifts the order of magnitude. -/
lemma log_shift (hx : 0 < x) (e : ℤ) : Int.log 10 (x * 10 ^ e) = Int.log 10 x + e := by
  have he := zpow_ten_pos e
  refine log_unique ?_ ?_
  · rw [zpow_ten_add]
    exact mul_le_mul_of_nonneg_right (zpow_log_le hx) he.le
  · rw [show Int.log 10 x + e + 1 = Int.log 10 x + 1 + e by ring, zpow_ten_add]
    exact mul_lt_mul_of_pos_right (lt_zpow_log x) he

lemma roundSig_zero (p : ℕ) : roundSig p 0 = 0 := roundTo_zero _

/-- Rounding digits commutes with a shift of them. -/
lemma roundSig_shift (hx : 0 < x) (e : ℤ) : roundSig p (x * 10 ^ e) = roundSig p x * 10 ^ e := by
  rw [roundSig, log_shift hx, roundSig, ← roundTo_shift]
  congr 1
  ring

/-- Rounding digits does not leave the order of magnitude, but for its upper end. -/
lemma roundSig_bounds (hp : 0 < p) (hx : 0 < x) :
    10 ^ Int.log 10 x ≤ roundSig p x ∧ roundSig p x ≤ 10 ^ (Int.log 10 x + 1) := by
  have hpower : ∀ j : ℕ, (10 : ℚ) ^ (Int.log 10 x - (p - 1) + j) =
      ((10 ^ j : ℤ) : ℚ) * 10 ^ (Int.log 10 x - (p - 1)) := by
    intro j
    rw [zpow_ten_add, mul_comm]
    norm_cast
  have hlow := hpower (p - 1)
  have hhigh := hpower p
  rw [show Int.log 10 x - ((p : ℤ) - 1) + ((p - 1 : ℕ) : ℤ) = Int.log 10 x by omega] at hlow
  rw [show Int.log 10 x - ((p : ℤ) - 1) + (p : ℤ) = Int.log 10 x + 1 by ring] at hhigh
  constructor
  · calc (10 : ℚ) ^ Int.log 10 x
        = roundTo (Int.log 10 x - (p - 1)) (10 ^ Int.log 10 x) := by rw [hlow, roundTo_mul]
      _ ≤ roundSig p x := roundTo_mono (zpow_log_le hx)
  · calc roundSig p x
        ≤ roundTo (Int.log 10 x - (p - 1)) (10 ^ (Int.log 10 x + 1)) :=
          roundTo_mono (lt_zpow_log x).le
      _ = 10 ^ (Int.log 10 x + 1) := by rw [hhigh, roundTo_mul]

lemma roundSig_pos (hp : 0 < p) (hx : 0 < x) : 0 < roundSig p x :=
  (zpow_ten_pos _).trans_le (roundSig_bounds hp hx).1

/-- **Rounding digits is monotone.** -/
theorem roundSig_mono (hp : 0 < p) (hx : 0 < x) (h : x ≤ y) : roundSig p x ≤ roundSig p y := by
  have hlog : Int.log 10 x ≤ Int.log 10 y := Int.log_mono_right hx h
  rcases hlog.eq_or_lt with heq | hlt
  · rw [roundSig, roundSig, heq]
    exact roundTo_mono h
  · calc roundSig p x ≤ 10 ^ (Int.log 10 x + 1) := (roundSig_bounds hp hx).2
      _ ≤ 10 ^ Int.log 10 y := zpow_le_zpow_right₀ (by norm_num) (by omega)
      _ ≤ roundSig p y := (roundSig_bounds hp (hx.trans_le h)).1

/-- **The relative error** of rounding digits. -/
theorem roundSig_error (hx : 0 < x) : |roundSig p x - x| ≤ x * (10 ^ (1 - p : ℤ) / 2) := by
  calc |roundSig p x - x| ≤ 10 ^ (Int.log 10 x - (p - 1)) / 2 := roundTo_error _ _
    _ = 10 ^ Int.log 10 x * (10 ^ (1 - p : ℤ) / 2) := by
        rw [show Int.log 10 x - ((p : ℤ) - 1) = Int.log 10 x + (1 - p) by ring, zpow_ten_add]
        ring
    _ ≤ x * (10 ^ (1 - p : ℤ) / 2) :=
        mul_le_mul_of_nonneg_right (zpow_log_le hx) (div_pos (zpow_ten_pos _) two_pos).le

/-- A number is within a relative error of another. -/
def Within (error x y : ℚ) : Prop := x * (1 - error) ≤ y ∧ y ≤ x * (1 + error)

lemma roundSig_within (hx : 0 < x) : Within (10 ^ (1 - p : ℤ) / 2) x (roundSig p x) := by
  obtain ⟨h, h'⟩ := abs_le.mp (roundSig_error (p := p) hx)
  exact ⟨by linarith, by linarith⟩

/-- Relative errors stay what they are under a factor. -/
lemma Within.mul {error c : ℚ} (h : Within error x y) (hc : 0 ≤ c) :
    Within error (x * c) (y * c) := by
  obtain ⟨h, h'⟩ := h
  constructor
  · calc x * c * (1 - error) = x * (1 - error) * c := by ring
      _ ≤ y * c := mul_le_mul_of_nonneg_right h hc
  · calc y * c ≤ x * (1 + error) * c := mul_le_mul_of_nonneg_right h' hc
      _ = x * c * (1 + error) := by ring

lemma Within.mono {error error' : ℚ} (h : Within error x y) (hx : 0 ≤ x) (hle : error ≤ error') :
    Within error' x y := by
  have hscaled := mul_le_mul_of_nonneg_left hle hx
  obtain ⟨h, h'⟩ := h
  exact ⟨by linarith, by linarith⟩

/-- One relative error after another. -/
lemma Within.trans {error error' z : ℚ} (h : Within error x y) (h' : Within error' y z)
    (hx : 0 ≤ x) (he : 0 ≤ error) (he' : 0 ≤ error') (hle : error' ≤ 1) :
    Within (error + error' + error * error') x z := by
  obtain ⟨h₁, h₂⟩ := h
  obtain ⟨h₃, h₄⟩ := h'
  have hprod : 0 ≤ error * error' := mul_nonneg he he'
  constructor
  · calc x * (1 - (error + error' + error * error'))
        = x * (1 - error) * (1 - error') - x * (2 * (error * error')) := by ring
      _ ≤ x * (1 - error) * (1 - error') := sub_le_self _ (mul_nonneg hx (by linarith))
      _ ≤ y * (1 - error') := mul_le_mul_of_nonneg_right h₁ (by linarith)
      _ ≤ z := h₃
  · calc z ≤ y * (1 + error') := h₄
      _ ≤ x * (1 + error) * (1 + error') := mul_le_mul_of_nonneg_right h₂ (by linarith)
      _ = x * (1 + (error + error' + error * error')) := by ring

/-- A number that has so few digits is not rounded. -/
lemma roundSig_of_lt {n : ℕ} (hn : n < 10 ^ p) (e : ℤ) : roundSig p (n * 10 ^ e) = n * 10 ^ e := by
  rcases Nat.eq_zero_or_pos n with rfl | hpos
  · rw [Nat.cast_zero, zero_mul, roundSig_zero]
  · have hpos' : (0 : ℚ) < n := by exact_mod_cast hpos
    have hlog : Nat.log 10 n < p := Nat.log_lt_of_lt_pow hpos.ne' hn
    rw [roundSig_shift hpos']
    congr 1
    rw [roundSig, Int.log_natCast]
    have hunit : (n : ℚ) = ((n * 10 ^ (p - 1 - Nat.log 10 n) : ℕ) : ℤ) *
        10 ^ ((Nat.log 10 n : ℤ) - (p - 1)) := by
      push_cast
      rw [mul_assoc, ← zpow_natCast (10 : ℚ) (p - 1 - Nat.log 10 n), ← zpow_ten_add,
        show ((p - 1 - Nat.log 10 n : ℕ) : ℤ) + ((Nat.log 10 n : ℤ) - (p - 1)) = 0 by omega,
        zpow_zero, mul_one]
    calc roundTo ((Nat.log 10 n : ℤ) - (p - 1)) n
        = roundTo ((Nat.log 10 n : ℤ) - (p - 1)) (((n * 10 ^ (p - 1 - Nat.log 10 n) : ℕ) : ℤ) *
            10 ^ ((Nat.log 10 n : ℤ) - (p - 1))) := by rw [← hunit]
      _ = n := by rw [roundTo_mul, ← hunit]

/-- A rounded number has so few digits.

**Proof sketch.** Rounding `x` to its `p` digits gives at most `10 ^ p` units. Where it gives
exactly that many, it is one unit of a higher power. -/
lemma roundSig_digits (hp : 0 < p) (hx : 0 < x) :
    ∃ n : ℕ, n < 10 ^ p ∧ ∃ e : ℤ, roundSig p x = n * 10 ^ e := by
  have hpos := zpow_ten_pos (Int.log 10 x - (p - 1))
  obtain ⟨hlow, hhigh⟩ := roundSig_bounds hp hx
  have hround : roundSig p x = roundHalfEven (x / 10 ^ (Int.log 10 x - (p - 1))) *
      10 ^ (Int.log 10 x - (p - 1)) := rfl
  generalize roundHalfEven (x / 10 ^ (Int.log 10 x - (p - 1))) = m at hround
  have hm : 0 < (m : ℚ) := by
    have := roundSig_pos hp hx
    rw [hround] at this
    exact (mul_pos_iff_of_pos_right hpos).mp this
  obtain ⟨n, rfl⟩ := Int.eq_ofNat_of_zero_le (by exact_mod_cast hm.le : 0 ≤ m)
  have hle : n ≤ 10 ^ p := by
    rw [hround, show Int.log 10 x + 1 = p + (Int.log 10 x - (p - 1)) by ring, zpow_ten_add] at hhigh
    have := le_of_mul_le_mul_right hhigh hpos
    exact_mod_cast this
  rcases hle.lt_or_eq with hlt | heq
  · exact ⟨n, hlt, _, by rw [hround, Int.cast_natCast]⟩
  · refine ⟨1, Nat.one_lt_pow hp.ne' (by norm_num), p + (Int.log 10 x - (p - 1)), ?_⟩
    rw [hround, zpow_ten_add, heq]
    push_cast
    rw [one_mul, zpow_natCast]

/-- Rounding once more changes nothing. -/
lemma roundSig_roundSig (hp : 0 < p) (hx : 0 < x) : roundSig p (roundSig p x) = roundSig p x := by
  obtain ⟨n, hn, e, h⟩ := roundSig_digits hp hx
  rw [h, roundSig_of_lt hn]

end Significant

/-! ## A sticky digit -/

/-- A whole number with a remainder, made one that does not round like an exact one. -/
def sticky (q : ℕ) (isExact : Prop) [Decidable isExact] : ℕ :=
  if ¬ isExact ∧ q % 5 = 0 then q + 1 else q

lemma sticky_pos {q : ℕ} {isExact : Prop} [Decidable isExact] (h : 0 < q) :
    0 < sticky q isExact := by
  unfold sticky
  split_ifs <;> omega

/-- The integer part of a number, and whether it is the whole of it. -/
structure WholePart (z : ℚ) (q : ℕ) (isExact : Prop) : Prop where
  exact_iff : isExact ↔ z = q
  le : (q : ℚ) ≤ z
  lt : z < q + 1

section Sticky

variable {z : ℚ} {p q k : ℕ} {isExact : Prop} [Decidable isExact]

/-- Of a number between two neighbouring integers the sticky one knows how to round.

**Proof sketch.** Where the quotient is exact nothing is changed. Otherwise the sticky number lies
strictly between the multiples of half a unit, as the number itself does, since half a unit is a
multiple of five. -/
lemma roundHalfEven_sticky (h : WholePart z q isExact) (hk : 0 < k) :
    roundHalfEven (sticky q isExact / 10 ^ k) = roundHalfEven (z / 10 ^ k) := by
  have hle := h.le
  have hlt := h.lt
  unfold sticky
  by_cases he : isExact
  · rw [if_neg (fun h => h.1 he), h.exact_iff.mp he]
  have hq : (q : ℚ) < z := lt_of_le_of_ne h.le fun hz => he (h.exact_iff.mpr hz.symm)
  set s := if ¬ isExact ∧ q % 5 = 0 then q + 1 else q with hs
  have hsle : q ≤ s ∧ s ≤ q + 1 ∧ s % 5 ≠ 0 := by
    rw [hs]
    split_ifs with h
    · omega
    · have : q % 5 ≠ 0 := fun h5 => h ⟨he, h5⟩
      omega
  -- Half of the unit is a multiple of five, so the sticky number is not on a boundary.
  have hhalf : 10 ^ k = 2 * (5 * 10 ^ (k - 1)) := by
    obtain ⟨j, rfl⟩ : ∃ j, k = j + 1 := ⟨k - 1, by omega⟩
    rw [Nat.add_sub_cancel, Nat.pow_succ]
    ring
  have hmod : s % (5 * 10 ^ (k - 1)) ≠ 0 := fun h =>
    hsle.2.2 (Nat.mod_eq_zero_of_dvd ((Dvd.intro _ rfl).trans (Nat.dvd_of_mod_eq_zero h)))
  have hM : 0 < 5 * 10 ^ (k - 1) := by positivity
  generalize 5 * 10 ^ (k - 1) = M at *
  have hdiv := Nat.div_add_mod' s M
  have hmodlt := Nat.mod_lt s hM
  have hbelow : s / M * M < s := by omega
  have habove : s < (s / M + 1) * M := by
    rw [Nat.add_mul]
    omega
  generalize s / M = j at *
  have hMq : (0 : ℚ) < M := by exact_mod_cast hM
  have htwice : ∀ w : ℚ, 2 * (w / 10 ^ k) = w / M := by
    intro w
    have : (10 : ℚ) ^ k = 2 * M := by exact_mod_cast hhalf
    rw [this]
    field_simp
  have hj : (j : ℚ) * M < s := by exact_mod_cast hbelow
  have hj' : (s : ℚ) < (j + 1) * M := by exact_mod_cast habove
  have hjz : (j : ℚ) * M < z := by
    have h : j * M ≤ q := by omega
    have h' : (j : ℚ) * M ≤ q := by exact_mod_cast h
    linarith
  have hzj : z < (j + 1) * M := by
    have h : q + 1 ≤ (j + 1) * M := by omega
    have h' : (q : ℚ) + 1 ≤ (j + 1) * M := by exact_mod_cast h
    linarith
  refine @roundHalfEven_congr _ _ j ?_ ?_ ?_ ?_
  · rw [htwice, lt_div_iff₀ hMq]
    exact_mod_cast hj
  · rw [htwice, div_lt_iff₀ hMq]
    exact_mod_cast hj'
  · rw [htwice, lt_div_iff₀ hMq]
    exact_mod_cast hjz
  · rw [htwice, div_lt_iff₀ hMq]
    exact_mod_cast hzj

/-- The sticky number has the order of magnitude of the number.

**Proof sketch.** Both numbers lie between the same powers of ten as the integer quotient does. -/
lemma log_sticky (h : WholePart z q isExact) (hpos : q ≠ 0) :
    Int.log 10 z = Nat.log 10 q ∧ Nat.log 10 (sticky q isExact) = Nat.log 10 q := by
  have hle := h.le
  have hlow := Nat.pow_log_le_self 10 hpos
  have hhigh := Nat.lt_pow_succ_log_self (b := 10) (by norm_num) q
  constructor
  · refine log_unique ?_ ?_
    · have : ((10 ^ Nat.log 10 q : ℕ) : ℚ) ≤ q := by exact_mod_cast hlow
      rw [zpow_natCast]
      push_cast at this
      linarith
    · have : ((q + 1 : ℕ) : ℚ) ≤ (10 ^ (Nat.log 10 q + 1) : ℕ) := by exact_mod_cast hhigh
      push_cast at this
      rw [← Nat.cast_succ, zpow_natCast]
      exact h.lt.trans_le this
  · refine (Nat.log_eq_iff (.inr ⟨by norm_num, ?_⟩)).mpr ⟨?_, ?_⟩
    · unfold sticky
      split_ifs <;> omega
    · refine hlow.trans ?_
      unfold sticky
      split_ifs <;> omega
    · unfold sticky
      split_ifs with h
      · -- The number after a multiple of five is no power of ten.
        have h10 : 10 ^ (Nat.log 10 q + 1) % 5 = 0 := by
          rw [Nat.pow_succ, Nat.mul_mod]
          simp
        omega
      · exact hhigh

/-- Rounding the sticky number to digits of it rounds the number. -/
lemma roundTo_sticky (h : WholePart z q isExact) (hk : 0 < k) :
    roundTo k (sticky q isExact) = roundTo k z := by
  rw [roundTo, roundTo, zpow_natCast, roundHalfEven_sticky h hk]

/-- So rounding its digits rounds those of the number, when it has more of them. -/
lemma roundSig_sticky (h : WholePart z q isExact) (hq : 10 ^ p ≤ q) :
    roundSig p (sticky q isExact) = roundSig p z := by
  have hpos : q ≠ 0 := (lt_of_lt_of_le (by positivity) hq).ne'
  have hplog : p ≤ Nat.log 10 q := (Nat.le_log_iff_pow_le (by norm_num) hpos).mpr hq
  obtain ⟨hlog, hsticky⟩ := log_sticky h hpos
  unfold roundSig
  rw [hlog, Int.log_natCast, hsticky]
  have hk : (Nat.log 10 q : ℤ) - ((p : ℤ) - 1) = ((Nat.log 10 q + 1 - p : ℕ) : ℤ) := by omega
  rw [hk, roundTo_sticky h (by omega)]

end Sticky

/-! ## Decimals -/

namespace Decimal

/-- The number a decimal is. -/
def toRat (d : Decimal) : ℚ := d.coeff * 10 ^ d.exp

lemma toRat_nonneg (d : Decimal) : 0 ≤ d.toRat := mul_nonneg (Nat.cast_nonneg _) (zpow_ten_pos _).le

lemma toRat_pos {d : Decimal} : 0 < d.toRat ↔ 0 < d.coeff := by
  rw [toRat, mul_pos_iff_of_pos_right (zpow_ten_pos _), Nat.cast_pos]

/-- The number of digits is the order of magnitude and one. -/
lemma numDigits_eq {n : ℕ} (h : n ≠ 0) : numDigits n = Nat.log 10 n + 1 :=
  Nat.length_digits 10 n (by norm_num) h

/-- Dropping the digits beyond the precision leaves no more than so many, or a power of ten. -/
lemma divRound_le {n : ℕ} (h : 10 ^ precision ≤ n) :
    divRound n (numDigits n - precision) ≤ 10 ^ precision := by
  have hne : n ≠ 0 := (lt_of_lt_of_le (by positivity) h).ne'
  have hlog : precision ≤ Nat.log 10 n := (Nat.le_log_iff_pow_le (by norm_num) hne).mpr h
  have hlt : n < 10 ^ numDigits n := by
    rw [numDigits_eq hne]
    exact Nat.lt_pow_succ_log_self (by norm_num) n
  have hsplit : numDigits n = precision + (numDigits n - precision) := by
    rw [numDigits_eq hne]
    omega
  generalize numDigits n - precision = k at *
  have hle : (n / 10 ^ k : ℚ) ≤ ((10 ^ precision : ℕ) : ℚ) := by
    rw [hsplit, Nat.pow_add] at hlt
    rw [div_le_iff₀ (by positivity)]
    exact_mod_cast hlt.le
  have hround := roundHalfEven_mono hle
  rw [roundHalfEven_divRound, roundHalfEven_natCast] at hround
  exact_mod_cast hround

/-- **Rounding a decimal** keeps its significant digits.

**Proof sketch.** A number of few digits is not rounded. Otherwise the digits dropped are those by
which `roundSig` scales, and `divRound` is half-even rounding (`roundHalfEven_divRound`). -/
theorem toRat_round (d : Decimal) : (round d).toRat = roundSig precision d.toRat := by
  by_cases hlt : d.coeff < 10 ^ precision
  · rw [round, if_pos hlt]
    exact (roundSig_of_lt hlt d.exp).symm
  · have hge : 10 ^ precision ≤ d.coeff := Nat.not_lt.mp hlt
    have hne : d.coeff ≠ 0 := (lt_of_lt_of_le (by positivity) hge).ne'
    have hpos : (0 : ℚ) < d.coeff := by exact_mod_cast Nat.pos_of_ne_zero hne
    have hlog : precision ≤ Nat.log 10 d.coeff := (Nat.le_log_iff_pow_le (by norm_num) hne).mpr hge
    have hround : roundSig precision d.toRat =
        divRound d.coeff (numDigits d.coeff - precision) *
          10 ^ (d.exp + (numDigits d.coeff - precision : ℕ)) := by
      rw [toRat, roundSig_shift hpos, roundSig, Int.log_natCast, zpow_ten_add,
        mul_comm (10 ^ d.exp), ← mul_assoc, roundTo, numDigits_eq hne]
      have hunit : (Nat.log 10 d.coeff : ℤ) - ((precision : ℤ) - 1) =
          ((Nat.log 10 d.coeff + 1 - precision : ℕ) : ℤ) := by omega
      rw [hunit, zpow_natCast, roundHalfEven_divRound, Int.cast_natCast]
    have hle := divRound_le hge
    rw [hround, round, if_neg hlt]
    simp only
    split_ifs with hcarry
    · rfl
    · have hq : divRound d.coeff (numDigits d.coeff - precision) = 10 ^ precision := by omega
      rw [hq, toRat, zpow_ten_add _ 1, zpow_one,
        show 10 ^ precision = 10 ^ (precision - 1) * 10 from rfl,
        Nat.mul_div_cancel _ (by norm_num)]
      push_cast
      ring

lemma toRat_scaleb (d : Decimal) (n : ℤ) :
    (d.scaleb n).toRat = roundSig precision (d.toRat * 10 ^ n) := by
  rw [scaleb, toRat_round, toRat, toRat, zpow_ten_add, mul_assoc]

lemma toRat_mul (a b : Decimal) : (a.mul b).toRat = roundSig precision (a.toRat * b.toRat) := by
  rw [mul, toRat_round, toRat, toRat, toRat, zpow_ten_add, Nat.cast_mul]
  congr 1
  ring

/-- The quotient before it is rounded: one digit more than the precision, and a sticky last one. -/
def quotient (a b : Decimal) : Decimal :=
  let shift : ℤ := numDigits b.coeff - numDigits a.coeff + precision + 1
  let n := a.coeff * 10 ^ shift.toNat
  let m := b.coeff * 10 ^ (-shift).toNat
  ⟨sticky (n / m) (n % m = 0), a.exp - b.exp - shift⟩

lemma div_eq_round {a : Decimal} (ha : a.coeff ≠ 0) (b : Decimal) :
    a.div b = round (quotient a b) := by
  rw [div, if_neg ha]
  rfl

/-- **The quotient** has more digits than the precision, and its last one is sticky.

**Proof sketch.** The dividend is scaled so that the integer quotient has at least the digits of the
precision; its last digit is made sticky where there is a remainder. -/
lemma quotient_eq {a b : Decimal} (ha : a.coeff ≠ 0) (hb : 0 < b.coeff) :
    ∃ (z : ℚ) (q r : ℕ), WholePart z q (r = 0) ∧ 10 ^ precision ≤ q ∧
      (quotient a b).coeff = sticky q (r = 0) ∧
      a.toRat / b.toRat = z * 10 ^ (quotient a b).exp := by
  unfold quotient
  set shift : ℤ := numDigits b.coeff - numDigits a.coeff + precision + 1 with hshift
  set n := a.coeff * 10 ^ shift.toNat with hn
  set m := b.coeff * 10 ^ (-shift).toNat with hm
  have hm0 : 0 < m := by positivity
  have hmq : (0 : ℚ) < m := by exact_mod_cast hm0
  have hbq : (0 : ℚ) < b.coeff := by exact_mod_cast hb
  have hshifted : (n / m : ℚ) = a.coeff / b.coeff * 10 ^ shift := by
    have hpow : ((10 : ℚ) ^ shift) * 10 ^ (-shift).toNat = 10 ^ shift.toNat := by
      rw [← zpow_natCast, ← zpow_natCast, ← zpow_ten_add]
      congr 1
      omega
    rw [div_eq_iff hmq.ne', hn, hm]
    push_cast
    rw [← hpow]
    field_simp
  have hquot : a.toRat / b.toRat = n / m * 10 ^ (a.exp - b.exp - shift) := by
    have hae := (zpow_ten_pos b.exp).ne'
    rw [hshifted, toRat, toRat, mul_assoc, ← zpow_ten_add,
      show shift + (a.exp - b.exp - shift) = a.exp - b.exp by ring, zpow_sub₀ (by norm_num)]
    field_simp
  have hq : 10 ^ precision ≤ n / m := by
    rw [Nat.le_div_iff_mul_le hm0]
    have halow : 10 ^ (numDigits a.coeff - 1) ≤ a.coeff := by
      rw [numDigits_eq ha, Nat.add_sub_cancel]
      exact Nat.pow_log_le_self 10 ha
    have hbhigh : b.coeff ≤ 10 ^ numDigits b.coeff := by
      rw [numDigits_eq hb.ne']
      exact (Nat.lt_pow_succ_log_self (by norm_num) _).le
    have hda : 1 ≤ numDigits a.coeff := by
      rw [numDigits_eq ha]
      omega
    calc 10 ^ precision * m ≤ 10 ^ precision * (10 ^ numDigits b.coeff * 10 ^ (-shift).toNat) :=
          Nat.mul_le_mul_left _ (Nat.mul_le_mul_right _ hbhigh)
      _ = 10 ^ (numDigits a.coeff - 1) * 10 ^ shift.toNat := by
          rw [← Nat.pow_add, ← Nat.pow_add, ← Nat.pow_add]
          congr 1
          omega
      _ ≤ n := Nat.mul_le_mul_right _ halow
  have hsplit : (n : ℚ) = (n / m : ℕ) * m + (n % m : ℕ) := by
    exact_mod_cast (Nat.div_add_mod' n m).symm
  have hrest : (n / m : ℚ) = (n / m : ℕ) + (n % m : ℕ) / m := by
    rw [div_eq_iff hmq.ne', add_mul, div_mul_cancel₀ _ hmq.ne', ← hsplit]
  have hmod : ((n % m : ℕ) : ℚ) < m := by exact_mod_cast Nat.mod_lt n hm0
  have hmod0 : (0 : ℚ) ≤ (n % m : ℕ) := Nat.cast_nonneg _
  refine ⟨n / m, n / m, n % m, ?_, hq, rfl, hquot⟩
  constructor
  · rw [hrest, add_eq_left, div_eq_zero_iff]
    constructor
    · intro h
      exact .inl (by exact_mod_cast h)
    · intro h
      exact_mod_cast h.resolve_right hmq.ne'
  · rw [hrest]
    exact le_add_of_nonneg_right (div_nonneg hmod0 hmq.le)
  · rw [hrest]
    exact add_lt_add_of_le_of_lt le_rfl ((div_lt_one hmq).mpr hmod)

lemma quotient_pos {a b : Decimal} (ha : a.coeff ≠ 0) (hb : 0 < b.coeff) :
    0 < (quotient a b).coeff := by
  obtain ⟨z, q, r, -, hq, hcoeff, -⟩ := quotient_eq ha hb
  rw [hcoeff]
  exact sticky_pos (lt_of_lt_of_le (by positivity) hq)

/-- Rounding the quotient rounds the exact one. -/
lemma roundSig_quotient {a b : Decimal} (ha : a.coeff ≠ 0) (hb : 0 < b.coeff) :
    roundSig precision (quotient a b).toRat = roundSig precision (a.toRat / b.toRat) := by
  obtain ⟨z, q, r, hwhole, hq, hcoeff, hquot⟩ := quotient_eq ha hb
  have hq0 : 0 < q := lt_of_lt_of_le (by positivity) hq
  have hz : 0 < z := lt_of_lt_of_le (by exact_mod_cast hq0) hwhole.le
  have hs : (0 : ℚ) < sticky q (r = 0) := by exact_mod_cast sticky_pos hq0
  rw [hquot, toRat, hcoeff, roundSig_shift hs, roundSig_sticky hwhole hq, roundSig_shift hz]

/-- **Division** rounds the exact quotient. -/
theorem toRat_div (a : Decimal) {b : Decimal} (hb : 0 < b.coeff) :
    (a.div b).toRat = roundSig precision (a.toRat / b.toRat) := by
  by_cases ha : a.coeff = 0
  · rw [div, if_pos ha, toRat, toRat, ha]
    simp [roundSig_zero]
  · rw [div_eq_round ha, toRat_round, roundSig_quotient ha hb]

/-- **Quantizing** rounds to an integer, when it has few enough digits.

**Proof sketch.** A number without fractional digits is an integer already, and one with some is
rounded by `divRound`. -/
theorem quantizeToInt?_eq (d : Decimal) : d.quantizeToInt? =
    if roundHalfEven d.toRat < 10 ^ precision then some (roundHalfEven d.toRat).toNat
    else none := by
  have hfits : ∀ n : ℕ, (if n < 10 ^ precision then some n else none) =
      if (n : ℤ) < 10 ^ precision then some (n : ℤ).toNat else none := by
    intro n
    rw [Int.toNat_natCast]
    congr 1
    exact propext (by exact_mod_cast Iff.rfl)
  unfold quantizeToInt? toRat
  cases d.exp with
  | ofNat e =>
    have hround : roundHalfEven (d.coeff * 10 ^ Int.ofNat e) = ((d.coeff * 10 ^ e : ℕ) : ℤ) := by
      rw [Int.ofNat_eq_natCast, zpow_natCast]
      exact_mod_cast roundHalfEven_natCast (d.coeff * 10 ^ e)
    rw [hround]
    exact hfits _
  | negSucc e =>
    have hround : roundHalfEven (d.coeff * 10 ^ Int.negSucc e) =
        ((divRound d.coeff (e + 1) : ℕ) : ℤ) := by
      rw [zpow_negSucc, ← div_eq_mul_inv]
      exact roundHalfEven_divRound _ _
    rw [hround]
    exact hfits _

/-- Rounding to a column's digits is rounding half up.

**Proof sketch.** With a nonnegative exponent the number is an integer. Otherwise the floor of
the number and a half is the natural quotient of twice the coefficient and the power by twice the
power. -/
lemma toScale_eq (d : Decimal) (scale : ℕ) :
    (d.toScale scale : ℤ) = ⌊d.toRat * 10 ^ scale + 1 / 2⌋ := by
  have hshift : d.toRat * 10 ^ scale = d.coeff * 10 ^ (d.exp + scale) := by
    rw [toRat, zpow_ten_add, zpow_natCast, mul_assoc]
  rw [hshift]
  unfold toScale
  cases he : d.exp + scale with
  | ofNat e =>
    rw [Int.ofNat_eq_natCast, zpow_natCast]
    refine (Int.floor_eq_iff.mpr ⟨?_, ?_⟩).symm
    · push_cast
      linarith
    · push_cast
      linarith
  | negSucc e =>
    have hpow : (0 : ℚ) < 10 ^ (e + 1) := by positivity
    have hhalf : (d.coeff : ℚ) * 10 ^ Int.negSucc e + 1 / 2 =
        ((2 * d.coeff + 10 ^ (e + 1) : ℕ) : ℚ) / ((2 * 10 ^ (e + 1) : ℕ) : ℚ) := by
      rw [zpow_negSucc]
      push_cast
      field_simp
    rw [hhalf, Rat.floor_natCast_div_natCast]
    rfl

end Decimal

end Transact
