import MintFlow.Lib.Rounding

set_option relaxedAutoImplicit false
set_option autoImplicit false

/-!
# Decimals in the default context

A decimal may be signed, infinite or not a number, and a result must fit the exponents of the
context: one that is too large is an error, and one that is too small is rounded to a multiple of
the least positive number. Comparing with a NaN by order is an error, and so are the other
conversions that have no result.

## Main definitions

* `Transact.Raised` — what arithmetic and conversions raise.
* `Transact.Decimal.fit` — the last step of an operation of the context; `Transact.Decimal.divide`.
* `Transact.ExtendedDecimal` — signed and special decimals, with `scaleb`, `isIntegral`,
  `isPositive` and `toInt`.
* `Transact.fitted`, `Transact.overflowLimit` — what fitting does to the exact result.

## Main results

* `Transact.Decimal.fit_eq` — fitting is that rounding, or an overflow from the limit on.
* `Transact.Decimal.divide_eq` — so is division, of the exact quotient.
* `Transact.fitted_pos_iff` — which numbers are rounded to zero.
* `Transact.fitted_eq_natCast_iff` — which numbers are rounded to an integer.
* `Transact.Decimal.fit_moderate`, `Transact.Decimal.divide_moderate` — far from the limits of the
  context, the digits are all that is rounded.
-/

namespace Transact

/-- What arithmetic and conversions raise. -/
inductive Raised
  | valueError (message : String)
  | invalidOperation
  | decimalOverflow
  | overflowError
deriving DecidableEq, Repr

/-! ## Which numbers round up to a power of ten -/

/-- A number rounds to a power of ten or more from half a unit below the power on.

**Proof sketch.** Below the power the unit of rounding is `10 ^ (k - p)`, and numbers from half a
unit below the power on round up to it. -/
lemma le_roundSig_iff {p : ℕ} {x : ℚ} (hp : 0 < p) (hx : 0 < x) (k : ℤ) :
    (10 : ℚ) ^ k ≤ roundSig p x ↔ 10 ^ k - 10 ^ (k - p) / 2 ≤ x := by
  have hunit := zpow_ten_pos (k - p)
  have hpow : (10 : ℚ) ^ k = 10 ^ p * 10 ^ (k - p) := by
    rw [← zpow_natCast, ← zpow_ten_add]
    congr 1
    ring
  have hprev : (10 : ℚ) ^ k = 10 * 10 ^ (k - 1) := by
    rw [← zpow_one_add₀ (by norm_num)]
    congr 1
    ring
  have hsmall : (10 : ℚ) ^ (k - p) ≤ 10 ^ (k - 1) :=
    zpow_le_zpow_right₀ (by norm_num) (by omega)
  constructor
  · intro h
    by_contra hlt
    rw [not_le] at hlt
    have hle : x < 10 ^ k := hlt.trans (by linarith)
    have hlog : Int.log 10 x < k :=
      (Int.lt_zpow_iff_log_lt (by norm_num) hx).mp (by exact_mod_cast hle)
    rcases (Int.lt_iff_add_one_le.mp hlog).lt_or_eq with hlog | hlog
    · have hup := (roundSig_bounds hp hx).2
      have hdown : (10 : ℚ) ^ (Int.log 10 x + 1) ≤ 10 ^ (k - 1) :=
        zpow_le_zpow_right₀ (by norm_num) (by omega)
      have := zpow_ten_pos (k - 1)
      linarith
    · have herror := (abs_le.mp (roundTo_error (k - p) x)).2
      rw [roundSig, show Int.log 10 x - ((p : ℤ) - 1) = k - p by omega] at h
      linarith
  · intro h
    have hlow : (10 : ℚ) ^ (k - 1) ≤ 10 ^ k - 10 ^ (k - p) / 2 := by
      have := zpow_ten_pos (k - 1)
      linarith
    have hpos := (zpow_ten_pos (k - 1)).trans_le hlow
    have hlog : Int.log 10 ((10 : ℚ) ^ k - 10 ^ (k - p) / 2) = k - 1 := by
      refine log_unique hlow ?_
      rw [sub_add_cancel]
      linarith
    -- The number half a unit below the power is a tie, and the power is even.
    have hround : roundHalfEven ((10 ^ k - 10 ^ (k - p) / 2) / 10 ^ (k - p) : ℚ) =
        ((10 ^ p : ℕ) : ℤ) := by
      have hquot : ((10 ^ k - 10 ^ (k - p) / 2) / 10 ^ (k - p) : ℚ) = 10 ^ p - 1 / 2 := by
        rw [hpow]
        field_simp
      refine roundHalfEven_unique ?_ fun _ => ?_
      · rw [hquot]
        push_cast
        norm_num
      · rw [Int.even_coe_nat]
        exact (Nat.even_pow.mpr ⟨by decide, hp.ne'⟩)
    have hlimit : roundSig p ((10 : ℚ) ^ k - 10 ^ (k - p) / 2) = 10 ^ k := by
      rw [roundSig, hlog, show k - 1 - ((p : ℤ) - 1) = k - p by ring, roundTo, hround, hpow]
      push_cast
      ring
    exact hlimit ▸ roundSig_mono hp hpos h

/-! ## Fitting a result into the context -/

namespace Decimal

/-- The greatest exponent of a leading digit. -/
def maxAdjusted : ℤ := 999999

/-- The exponent of the least positive number. -/
def leastExp : ℤ := -1000026

/-- The exponent of the leading digit. -/
def adjusted (d : Decimal) : ℤ := d.exp + numDigits d.coeff - 1

/-- Round to a multiple of the least positive number. -/
def roundLeast (d : Decimal) : Decimal :=
  if leastExp ≤ d.exp then d else ⟨divRound d.coeff (leastExp - d.exp).toNat, leastExp⟩

/-- Fit a result into the context: too small a number loses digits, and too large a one
overflows. -/
def fit (d : Decimal) : Except Raised Decimal :=
  if d.coeff = 0 then .ok ⟨0, max leastExp (min d.exp maxAdjusted)⟩
  else if adjusted d < leastExp + precision - 1 then .ok (roundLeast d)
  else if maxAdjusted < adjusted (round d) then .error .decimalOverflow
  else .ok (round d)

/-- Divide, and fit the quotient into the context. -/
def divide (a b : Decimal) : Except Raised Decimal :=
  if a.coeff = 0 then fit ⟨0, a.exp - b.exp⟩ else fit (quotient a b)

/-- Round to an integer, if that has few enough digits. -/
def quantize (d : Decimal) : Except Raised ℕ :=
  match d.quantizeToInt? with
  | some n => .ok n
  | none => .error .invalidOperation

/-- The integer part. -/
def truncate (d : Decimal) : ℕ :=
  match d.exp with
  | .ofNat e => d.coeff * 10 ^ e
  | .negSucc e => d.coeff / 10 ^ (e + 1)

end Decimal

/-! ## Signed and special decimals -/

/-- A decimal as the arithmetic has it. -/
inductive ExtendedDecimal
  | finite (negative : Bool) (size : Decimal)
  | infinity (negative : Bool)
  | nan (signaling : Bool)
deriving DecidableEq, Repr

namespace ExtendedDecimal

/-- Multiply by a power of ten. -/
def scaleb : ExtendedDecimal → ℤ → Except Raised ExtendedDecimal
  | finite negative d, n => (Decimal.fit ⟨d.coeff, d.exp + n⟩).map (finite negative)
  | infinity negative, _ => .ok (infinity negative)
  | nan false, _ => .ok (nan false)
  | nan true, _ => .error .invalidOperation

/-- Whether a decimal equals its integral value; no NaN equals anything. -/
def isIntegral : ExtendedDecimal → Bool
  | finite _ d => d.toNat?.isSome
  | infinity _ => true
  | nan _ => false

/-- `x > 0`. -/
def isPositive : ExtendedDecimal → Except Raised Bool
  | finite negative d => .ok (!negative && decide (0 < d.coeff))
  | infinity negative => .ok !negative
  | nan _ => .error .invalidOperation

/-- `int(x)`. -/
def toInt : ExtendedDecimal → Except Raised ℤ
  | finite negative d => .ok (if negative then -d.truncate else d.truncate)
  | infinity _ => .error .overflowError
  | nan _ => .error (.valueError "cannot convert NaN to integer")

/-- Scale, and go on with the integer if the result is one. -/
def withScaled {β : Type} (value : ExtendedDecimal) (n : ℤ) (f : ℤ → Except Raised β)
    (g : Except Raised β) : Except Raised β := do
  let scaled ← value.scaleb n
  if scaled.isIntegral then scaled.toInt >>= f else g

/-- What two decimals have in common when they are one key of a dictionary: the number they are. -/
def key : ExtendedDecimal → ℚ ⊕ Option Bool
  | finite negative d => .inl (if negative then -d.toRat else d.toRat)
  | infinity negative => .inr (some negative)
  | nan _ => .inr none

end ExtendedDecimal

/-! ## What fitting does to the exact result -/

/-- The exponent of the last digit that fits. -/
def fittedExp (x : ℚ) : ℤ :=
  max (Int.log 10 x - (Decimal.precision - 1 : ℤ)) Decimal.leastExp

/-- The nearest number that fits. -/
def fitted (x : ℚ) : ℚ := roundTo (fittedExp x) x

/-- From here on, numbers are too large: half a unit below the first power of ten that is. -/
def overflowLimit : ℚ :=
  10 ^ (Decimal.maxAdjusted + 1) - 10 ^ (Decimal.maxAdjusted + 1 - Decimal.precision) / 2

/-- Numbers below the greatest power of ten do not overflow. -/
lemma le_overflowLimit : (10 : ℚ) ^ Decimal.maxAdjusted ≤ overflowLimit := by
  have hnext : (10 : ℚ) ^ (Decimal.maxAdjusted + 1) = 10 * 10 ^ Decimal.maxAdjusted := by
    rw [← zpow_one_add₀ (by norm_num), add_comm]
  have hsub : (10 : ℚ) ^ (Decimal.maxAdjusted + 1 - Decimal.precision) ≤ 10 ^ Decimal.maxAdjusted :=
    zpow_le_zpow_right₀ (by norm_num) (by unfold Decimal.precision; omega)
  have hpos := zpow_ten_pos Decimal.maxAdjusted
  unfold overflowLimit
  linarith

namespace Decimal

lemma adjusted_eq {d : Decimal} (h : d.coeff ≠ 0) : adjusted d = Int.log 10 d.toRat := by
  have hpos : (0 : ℚ) < d.coeff := by exact_mod_cast Nat.pos_of_ne_zero h
  rw [toRat, log_shift hpos, Int.log_natCast, adjusted, numDigits_eq h]
  push_cast
  ring

/-- Below the least exponent, digits are rounded half-even at it. -/
lemma toRat_roundLeast (d : Decimal) : (roundLeast d).toRat = roundTo leastExp d.toRat := by
  unfold roundLeast
  split_ifs with h
  · have hshift : d.toRat = ((d.coeff * 10 ^ (d.exp - leastExp).toNat : ℕ) : ℤ) *
        (10 : ℚ) ^ leastExp := by
      rw [toRat]
      push_cast
      rw [mul_assoc, ← zpow_natCast, ← zpow_ten_add]
      congr 2
      omega
    rw [hshift, roundTo_mul]
  · have hquot : d.toRat / 10 ^ leastExp = d.coeff / 10 ^ (leastExp - d.exp).toNat := by
      rw [toRat, mul_div_assoc, ← zpow_sub₀ (by norm_num), div_eq_mul_inv, ← zpow_natCast,
        ← zpow_neg]
      congr 2
      omega
    rw [roundTo, hquot, roundHalfEven_divRound]
    rfl

/-- **Fitting** is rounding to the digits that fit, or an overflow from the limit on.

**Proof sketch.** The rounded number exceeds the largest exponent exactly from the overflow limit on
(`le_roundSig_iff`). Below that, a number below the normal range is rounded to the least exponent,
and any other to its significant digits. -/
theorem fit_eq {d : Decimal} (h : 0 < d.coeff) :
    (overflowLimit ≤ d.toRat ∧ fit d = .error .decimalOverflow) ∨
      (d.toRat < overflowLimit ∧ ∃ d', fit d = .ok d' ∧ d'.toRat = fitted d.toRat) := by
  have hne : d.coeff ≠ 0 := h.ne'
  have hpos : 0 < d.toRat := toRat_pos.mpr h
  have hround : 0 < (round d).coeff := round_coeff_pos h
  have hlimit : maxAdjusted < adjusted (round d) ↔ overflowLimit ≤ d.toRat := by
    rw [adjusted_eq hround.ne', overflowLimit, ← le_roundSig_iff (by decide) hpos, ← toRat_round,
      Int.lt_iff_add_one_le, ← Int.zpow_le_iff_le_log (by norm_num) (toRat_pos.mpr hround)]
    norm_cast
  unfold fit
  rw [if_neg hne, adjusted_eq hne]
  split_ifs with hleast hover
  · right
    refine ⟨?_, _, rfl, ?_⟩
    · -- A number below the normal range is far from the limit.
      have hlt : d.toRat < 10 ^ (Int.log 10 d.toRat + 1) := lt_zpow_log _
      have hle : (10 : ℚ) ^ (Int.log 10 d.toRat + 1) ≤ 10 ^ maxAdjusted :=
        zpow_le_zpow_right₀ (by norm_num) (by
          unfold leastExp precision at hleast
          unfold maxAdjusted
          omega)
      exact hlt.trans_le (hle.trans le_overflowLimit)
    · rw [toRat_roundLeast, fitted, fittedExp, max_eq_right (by omega)]
  · exact .inl ⟨hlimit.mp hover, rfl⟩
  · refine .inr ⟨not_le.mp fun hle => hover (hlimit.mpr hle), _, rfl, ?_⟩
    rw [toRat_round, fitted, fittedExp, max_eq_left (by omega), roundSig]

/-- Fitting the quotient fits the exact one. -/
lemma fitted_quotient {a b : Decimal} (ha : a.coeff ≠ 0) (hb : 0 < b.coeff) :
    fitted (quotient a b).toRat = fitted (a.toRat / b.toRat) := by
  obtain ⟨z, q, r, hwhole, hq, hcoeff, hquot⟩ := quotient_eq ha hb
  set e := (quotient a b).exp
  have hq0 : 0 < q := lt_of_lt_of_le (by positivity) hq
  have hz : 0 < z := lt_of_lt_of_le (by exact_mod_cast hq0) hwhole.le
  have hs : (0 : ℚ) < sticky q (r = 0) := by exact_mod_cast sticky_pos hq0
  obtain ⟨hlog, hsticky⟩ := log_sticky hwhole hq0.ne'
  have hdigits : precision ≤ Nat.log 10 q := (Nat.le_log_iff_pow_le (by norm_num) hq0.ne').mpr hq
  rw [hquot, toRat, hcoeff]
  have hexp : fittedExp (sticky q (r = 0) * 10 ^ e) = fittedExp (z * 10 ^ e) := by
    rw [fittedExp, fittedExp, log_shift hs, log_shift hz, Int.log_natCast, hsticky, hlog]
  have hunit : ∃ k : ℕ, 0 < k ∧ fittedExp (z * 10 ^ e) = k + e := by
    refine ⟨(fittedExp (z * 10 ^ e) - e).toNat, ?_, ?_⟩
    all_goals
      rw [fittedExp, log_shift hz, hlog]
      omega
  obtain ⟨k, hk, hunit⟩ := hunit
  rw [fitted, fitted, hexp, hunit, roundTo_shift, roundTo_shift, roundTo_sticky hwhole hk]

/-- **Division** fits the exact quotient, or overflows from the limit on. -/
theorem divide_eq {a b : Decimal} (ha : 0 < a.coeff) (hb : 0 < b.coeff) :
    (overflowLimit ≤ a.toRat / b.toRat ∧ divide a b = .error .decimalOverflow) ∨
      (a.toRat / b.toRat < overflowLimit ∧
        ∃ d, divide a b = .ok d ∧ d.toRat = fitted (a.toRat / b.toRat)) := by
  have hlimit : overflowLimit ≤ (quotient a b).toRat ↔ overflowLimit ≤ a.toRat / b.toRat := by
    have hpos : 0 < a.toRat / b.toRat := div_pos (toRat_pos.mpr ha) (toRat_pos.mpr hb)
    have hquot : 0 < (quotient a b).toRat := toRat_pos.mpr (quotient_pos ha.ne' hb)
    rw [overflowLimit, ← le_roundSig_iff (by decide) hquot, ← le_roundSig_iff (by decide) hpos,
      roundSig_quotient ha.ne' hb]
  rw [divide, if_neg ha.ne', ← hlimit, ← not_le, ← hlimit, not_le, ← fitted_quotient ha.ne' hb]
  exact fit_eq (quotient_pos ha.ne' hb)

/-- The integer a decimal is, is its value. -/
lemma toNat?_eq_some {d : Decimal} {n : ℕ} : d.toNat? = some n ↔ d.toRat = n := by
  unfold toNat? toRat
  cases he : d.exp with
  | ofNat e =>
    rw [Int.ofNat_eq_natCast, zpow_natCast, Option.some.injEq]
    exact_mod_cast Iff.rfl
  | negSucc e =>
    have hpow : 0 < 10 ^ (e + 1) := by positivity
    rw [zpow_negSucc, ← div_eq_mul_inv, div_eq_iff (by positivity)]
    simp only [Option.ite_none_right_eq_some, Option.some.injEq]
    constructor
    · rintro ⟨hdvd, rfl⟩
      exact_mod_cast (Nat.div_mul_cancel (Nat.dvd_of_mod_eq_zero hdvd)).symm
    · intro h
      have hmul : d.coeff = n * 10 ^ (e + 1) := by exact_mod_cast h
      rw [hmul]
      exact ⟨Nat.mul_mod_left _ _, Nat.mul_div_cancel _ hpow⟩

/-- The integer part of an integer. -/
lemma truncate_of_toNat? {d : Decimal} {n : ℕ} (h : d.toNat? = some n) : d.truncate = n := by
  unfold toNat? at h
  unfold truncate
  cases he : d.exp with
  | ofNat e =>
    rw [he] at h
    exact Option.some.inj h
  | negSucc e =>
    rw [he] at h
    simp only [Option.ite_none_right_eq_some, Option.some.injEq] at h
    exact h.2

end Decimal

/-! ## Which numbers become integers -/

/-- **Rounding to an integer.** A number becomes an integer of few digits exactly when it is within
half of the last digit that fits: the integer is an even multiple of that digit.

**Proof sketch.** An integer of few digits is a multiple of the last digit that fits, so it is the
nearest multiple exactly when it is at most half a digit away; where it is just that far away, the
multiple is even. -/
theorem fitted_eq_natCast_iff {x : ℚ} (hx : 0 < x) {n : ℕ} (hn : n < 10 ^ 26) :
    fitted x = n ↔ |x - n| ≤ 10 ^ fittedExp x / 2 := by
  have hunit := zpow_ten_pos (fittedExp x)
  rcases lt_or_ge (fittedExp x) 0 with hneg | hge
  · obtain ⟨j, hj⟩ : ∃ j : ℕ, fittedExp x = -((j + 1 : ℕ) : ℤ) :=
      ⟨(-fittedExp x - 1).toNat, by omega⟩
    have hmul : (n : ℚ) = ((n * 10 ^ (j + 1) : ℕ) : ℤ) * 10 ^ fittedExp x := by
      rw [hj, zpow_neg, zpow_natCast]
      push_cast
      field_simp
    constructor
    · intro h
      rw [abs_sub_comm, ← h]
      exact roundTo_error _ _
    · intro h
      have hround : roundHalfEven (x / 10 ^ fittedExp x) = ((n * 10 ^ (j + 1) : ℕ) : ℤ) := by
        refine roundHalfEven_unique ?_ fun _ => ?_
        · rw [hmul] at h
          have hdiv : x / 10 ^ fittedExp x - (((n * 10 ^ (j + 1) : ℕ) : ℤ) : ℚ) =
              (x - ((n * 10 ^ (j + 1) : ℕ) : ℤ) * 10 ^ fittedExp x) / 10 ^ fittedExp x := by
            field_simp
          rw [hdiv, abs_div, abs_of_pos hunit, div_le_iff₀ hunit]
          linarith
        · rw [Int.even_coe_nat]
          exact (Nat.even_pow.mpr ⟨by decide, by omega⟩).mul_left n
      rw [fitted, roundTo, hround, ← hmul]
  · -- The number has more integer digits than fit, so neither side holds.
    have hlog : Decimal.precision - 1 ≤ Int.log 10 x := by
      unfold fittedExp Decimal.leastExp at hge
      omega
    have hexp : fittedExp x = Int.log 10 x - (Decimal.precision - 1 : ℤ) := by
      unfold fittedExp
      refine max_eq_left ?_
      unfold Decimal.leastExp
      omega
    have hbig : (10 : ℚ) ^ (27 : ℤ) ≤ 10 ^ Int.log 10 x :=
      zpow_le_zpow_right₀ (by norm_num) hlog
    have hbig' : (10 : ℚ) ^ (27 : ℤ) = 10 * 10 ^ 26 := by norm_num
    have hn' : (n : ℚ) < 10 ^ 26 := by exact_mod_cast hn
    have hlow := zpow_log_le hx
    have hfitted : (10 : ℚ) ^ Int.log 10 x ≤ fitted x := by
      rw [fitted, hexp]
      exact (roundSig_bounds (p := Decimal.precision) (by decide) hx).1
    have hstep : (10 : ℚ) ^ fittedExp x ≤ 10 ^ Int.log 10 x :=
      zpow_le_zpow_right₀ (by norm_num) (by rw [hexp]; unfold Decimal.precision; omega)
    constructor
    · intro h
      linarith
    · intro h
      have := (abs_le.mp h).2
      linarith

/-- Rounding loses no number from the least positive one on. -/
lemma fitted_pos {x : ℚ} (h : (10 : ℚ) ^ Decimal.leastExp ≤ x) : 0 < fitted x := by
  have hx : 0 < x := (zpow_ten_pos _).trans_le h
  have hle : (10 : ℚ) ^ fittedExp x ≤ x := by
    rcases max_cases (Int.log 10 x - (Decimal.precision - 1 : ℤ)) Decimal.leastExp with
      ⟨heq, -⟩ | ⟨heq, -⟩
    · rw [fittedExp, heq]
      refine le_trans (zpow_le_zpow_right₀ (by norm_num) ?_) (zpow_log_le hx)
      unfold Decimal.precision
      omega
    · rw [fittedExp, heq]
      exact h
  calc (0 : ℚ) < 10 ^ fittedExp x := zpow_ten_pos _
    _ = roundTo (fittedExp x) ((1 : ℤ) * 10 ^ fittedExp x) := by
        rw [roundTo_mul, Int.cast_one, one_mul]
    _ ≤ fitted x := roundTo_mono (by rw [Int.cast_one, one_mul]; exact hle)

/-- **Underflow.** Rounding loses exactly the numbers up to half of the least positive one.

**Proof sketch.** Up to half of the least positive number a number rounds to zero, to even. Above
that it rounds to one unit or more. -/
lemma fitted_pos_iff {x : ℚ} (hx : 0 < x) :
    0 < fitted x ↔ (10 : ℚ) ^ Decimal.leastExp / 2 < x := by
  have hleast := zpow_ten_pos Decimal.leastExp
  constructor
  · intro h
    by_contra hle
    rw [not_lt] at hle
    have hlt : x < 10 ^ Decimal.leastExp := hle.trans_lt (half_lt_self hleast)
    have hlog : Int.log 10 x < Decimal.leastExp :=
      (Int.lt_zpow_iff_log_lt (by norm_num) hx).mp (by exact_mod_cast hlt)
    have hexp : fittedExp x = Decimal.leastExp := by
      refine max_eq_right ?_
      unfold Decimal.precision
      omega
    have hzero : roundHalfEven (x / 10 ^ Decimal.leastExp) = 0 := by
      refine roundHalfEven_unique ?_ fun _ => ⟨0, rfl⟩
      rw [Int.cast_zero, sub_zero, abs_of_pos (div_pos hx hleast), div_le_iff₀ hleast]
      linarith
    rw [fitted, hexp, roundTo, hzero, Int.cast_zero, zero_mul] at h
    exact lt_irrefl _ h
  · intro h
    rcases le_or_gt ((10 : ℚ) ^ Decimal.leastExp) x with hle | hlt
    · exact fitted_pos hle
    · have hlog : Int.log 10 x < Decimal.leastExp :=
        (Int.lt_zpow_iff_log_lt (by norm_num) hx).mp (by exact_mod_cast hlt)
      have hexp : fittedExp x = Decimal.leastExp := by
        refine max_eq_right ?_
        unfold Decimal.precision
        omega
      have hone : roundHalfEven (x / 10 ^ Decimal.leastExp) = 1 := by
        have hlow : 1 / 2 < x / 10 ^ Decimal.leastExp := by
          rw [lt_div_iff₀ hleast]
          linarith
        have hhigh : x / 10 ^ Decimal.leastExp < 1 := (div_lt_one hleast).mpr hlt
        refine roundHalfEven_unique ?_ fun heq => ?_
        · rw [Int.cast_one, abs_le]
          constructor <;> linarith
        · rw [Int.cast_one, abs_sub_comm, abs_of_pos (by linarith)] at heq
          linarith
      rw [fitted, hexp, roundTo, hone, Int.cast_one, one_mul]
      exact hleast

/-- Numbers with few digits are not rounded. -/
lemma fitted_natCast {n : ℕ} (hn : 0 < n) (hn' : n < 10 ^ 26) : fitted n = n := by
  rw [fitted_eq_natCast_iff (by exact_mod_cast hn) hn', sub_self, abs_zero]
  exact (half_pos (zpow_ten_pos _)).le

/-! ## Scaling a positive number and reading it as an integer -/

namespace ExtendedDecimal

variable {β : Type} {d : Decimal} {n : ℤ} (f : ℤ → Except Raised β) (g : Except Raised β)

/-- The sum of the exponents scales the number. -/
lemma toRat_shift (d : Decimal) (n : ℤ) :
    (Decimal.mk d.coeff (d.exp + n)).toRat = d.toRat * 10 ^ n := by
  rw [Decimal.toRat, Decimal.toRat, zpow_ten_add, mul_assoc]

/-- Too large a number overflows when it is scaled. -/
lemma withScaled_overflow (h : 0 < d.coeff) (hw : overflowLimit ≤ d.toRat * 10 ^ n) :
    withScaled (finite false d) n f g = .error .decimalOverflow := by
  rcases Decimal.fit_eq (d := ⟨d.coeff, d.exp + n⟩) h with ⟨-, hfit⟩ | ⟨hlt, -⟩
  · rw [withScaled, scaleb, hfit]
    rfl
  · rw [toRat_shift] at hlt
    exact absurd hw (not_le.mpr hlt)

/-- The integer that a number is rounded to is read. -/
lemma withScaled_integer (h : 0 < d.coeff) (hw : d.toRat * 10 ^ n < overflowLimit) {m : ℕ}
    (hm : fitted (d.toRat * 10 ^ n) = m) : withScaled (finite false d) n f g = f m := by
  rcases Decimal.fit_eq (d := ⟨d.coeff, d.exp + n⟩) h with ⟨hle, -⟩ | ⟨-, d', hfit, hd'⟩
  · rw [toRat_shift] at hle
    exact absurd hw (not_lt.mpr hle)
  · rw [toRat_shift] at hd'
    have hnat : d'.toNat? = some m := Decimal.toNat?_eq_some.mpr (hd'.trans hm)
    have hint : isIntegral (finite false d') = true := by
      show d'.toNat?.isSome = true
      rw [hnat]
      rfl
    rw [withScaled, scaleb, hfit]
    show (if isIntegral (finite false d') = true then toInt (finite false d') >>= f else g) = f m
    rw [if_pos hint, toInt, Decimal.truncate_of_toNat? hnat]
    rfl

/-- A number that is rounded to no integer has none. -/
lemma withScaled_fraction (h : 0 < d.coeff) (hw : d.toRat * 10 ^ n < overflowLimit)
    (hm : ∀ m : ℕ, fitted (d.toRat * 10 ^ n) ≠ m) : withScaled (finite false d) n f g = g := by
  rcases Decimal.fit_eq (d := ⟨d.coeff, d.exp + n⟩) h with ⟨hle, -⟩ | ⟨-, d', hfit, hd'⟩
  · rw [toRat_shift] at hle
    exact absurd hw (not_lt.mpr hle)
  · rw [toRat_shift] at hd'
    have hint : isIntegral (finite false d') = false := by
      show d'.toNat?.isSome = false
      cases hnat : d'.toNat? with
      | none => rfl
      | some m => exact absurd (hd'.symm.trans (Decimal.toNat?_eq_some.mp hnat)) (hm m)
    rw [withScaled, scaleb, hfit]
    show (if isIntegral (finite false d') = true then toInt (finite false d') >>= f else g) = g
    rw [hint, if_neg Bool.false_ne_true]

end ExtendedDecimal

/-! ## Numbers far from both limits -/

/-- Neither a number nor its inverse is above a power of ten. -/
def Moderate (k : ℕ) (x : ℚ) : Prop := 10 ^ (-k : ℤ) ≤ x ∧ x ≤ 10 ^ (k : ℤ)

namespace Moderate

variable {j k p : ℕ} {x y : ℚ}

lemma pos (h : Moderate k x) : 0 < x := (zpow_ten_pos _).trans_le h.1

lemma mono (h : Moderate k x) (hle : k ≤ j) : Moderate j x := by
  constructor
  · exact (zpow_le_zpow_right₀ (by norm_num) (by omega)).trans h.1
  · exact h.2.trans (zpow_le_zpow_right₀ (by norm_num) (by omega))

/-- Orders of magnitude add up. -/
lemma mul (hx : Moderate k x) (hy : Moderate j y) : Moderate (k + j) (x * y) := by
  constructor
  · rw [Nat.cast_add, neg_add, zpow_ten_add]
    exact mul_le_mul hx.1 hy.1 (zpow_ten_pos _).le hx.pos.le
  · rw [Nat.cast_add, zpow_ten_add]
    exact mul_le_mul hx.2 hy.2 hy.pos.le (zpow_ten_pos _).le

lemma inv (h : Moderate k x) : Moderate k x⁻¹ := by
  constructor
  · rw [zpow_neg]
    exact inv_anti₀ h.pos h.2
  · rw [← inv_inv ((10 : ℚ) ^ (k : ℤ)), ← zpow_neg]
    exact inv_anti₀ (zpow_ten_pos _) h.1

lemma power {e : ℤ} (h : e.natAbs ≤ k) : Moderate k (10 ^ e) := by
  constructor
  · exact zpow_le_zpow_right₀ (by norm_num) (by omega)
  · exact zpow_le_zpow_right₀ (by norm_num) (by omega)

/-- Rounding digits does not change the order of magnitude by more than one. -/
lemma roundSig (hp : 0 < p) (h : Moderate k x) : Moderate (k + 1) (roundSig p x) := by
  obtain ⟨hlow, hhigh⟩ := roundSig_bounds hp h.pos
  have hlog : (-k : ℤ) ≤ Int.log 10 x :=
    (Int.zpow_le_iff_le_log (by norm_num) h.pos).mp (by exact_mod_cast h.1)
  have hlog' : Int.log 10 x ≤ k := by
    by_contra hlt
    have hpow : (10 : ℚ) ^ (k : ℤ) < 10 ^ Int.log 10 x :=
      zpow_lt_zpow_right₀ (by norm_num) (not_le.mp hlt)
    exact absurd h.2 (not_le.mpr (hpow.trans_le (zpow_log_le h.pos)))
  constructor
  · exact (zpow_le_zpow_right₀ (by norm_num) (by omega)).trans hlow
  · exact hhigh.trans (zpow_le_zpow_right₀ (by norm_num) (by omega))

/-- Fitting such a number only rounds its digits. -/
lemma fitted_eq (h : Moderate 1000 x) : fitted x = Transact.roundSig Decimal.precision x := by
  have hlog : (-1000 : ℤ) ≤ Int.log 10 x :=
    (Int.zpow_le_iff_le_log (by norm_num) h.pos).mp (by exact_mod_cast h.1)
  rw [fitted, fittedExp, max_eq_left (by unfold Decimal.leastExp Decimal.precision; omega),
    Transact.roundSig]

lemma lt_overflowLimit (h : Moderate 1000 x) : x < overflowLimit :=
  h.2.trans_lt ((zpow_lt_zpow_right₀ (by norm_num) (by decide)).trans_le le_overflowLimit)

end Moderate

namespace Decimal

/-- Fitting a number far from both limits rounds its digits. -/
lemma fit_moderate {d : Decimal} (h : Moderate 1000 d.toRat) :
    ∃ d', fit d = .ok d' ∧ d'.toRat = roundSig precision d.toRat := by
  rcases fit_eq (toRat_pos.mp h.pos) with ⟨hover, -⟩ | ⟨-, d', hfit, hd'⟩
  · exact absurd h.lt_overflowLimit (not_lt.mpr hover)
  · exact ⟨d', hfit, hd'.trans h.fitted_eq⟩

/-- So does dividing, if the quotient is. -/
lemma divide_moderate {a b : Decimal} (ha : 0 < a.coeff) (hb : 0 < b.coeff)
    (h : Moderate 1000 (a.toRat / b.toRat)) :
    ∃ d, divide a b = .ok d ∧ d.toRat = roundSig precision (a.toRat / b.toRat) := by
  rcases divide_eq ha hb with ⟨hover, -⟩ | ⟨-, d, hfit, hd⟩
  · exact absurd h.lt_overflowLimit (not_lt.mpr hover)
  · exact ⟨d, hfit, hd.trans h.fitted_eq⟩

/-- An integer below so many digits is rounded to. -/
lemma quantize_eq_ok {d : Decimal} (h : roundHalfEven d.toRat < 10 ^ precision) :
    quantize d = .ok (roundHalfEven d.toRat).toNat := by
  rw [quantize, quantizeToInt?_eq, if_pos h]

/-- Zero fits. -/
lemma fit_zero (e : ℤ) : ∃ e', fit ⟨0, e⟩ = .ok ⟨0, e'⟩ := ⟨_, rfl⟩

end Decimal

end Transact
