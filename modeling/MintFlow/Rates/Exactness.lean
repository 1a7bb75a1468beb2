import MintFlow.Lib.Rounding
import MintFlow.Rates.Refresh
import Mathlib.Tactic.LinearCombination

set_option relaxedAutoImplicit false
set_option autoImplicit false

/-!
# How exact a conversion is

A conversion divides and multiplies with 28 significant digits before it rounds to minor units. The
rounding is meant to be the only one. The digits carried before it decide it only where the exact
result is next to a half of a minor unit, and there they may decide it wrongly.

## Main definitions

* `MintFlow.ExchangeRates.exactResult` — the exact result of a conversion.
* `MintFlow.ExchangeRates.carried` — the result with the digits that are carried.
* `MintFlow.ExchangeRates.RoundsSafely` — amounts and rates whose digits leave the result alone.

## Main results

* `MintFlow.ExchangeRates.convertSize_eq` — a conversion rounds the carried result.
* `MintFlow.ExchangeRates.carried_within` — how far that is from the exact one.
* `MintFlow.ExchangeRates.convert_mono` — a conversion is monotone.
* `MintFlow.ExchangeRates.convert_exactly_rounded` — **Exact rounding**: when a conversion rounds the
  exact result.
-/

namespace MintFlow

open Transact

/-! ## Halves -/

/-- A number that is closer to another one than that is to any half rounds like it. -/
lemma roundHalfEven_eq_of_close {x y : ℚ} (h : ∀ k : ℤ, |y - x| < |x - (k + 1 / 2)|) :
    roundHalfEven y = roundHalfEven x := by
  obtain ⟨hlow, hhigh⟩ := abs_le.mp (roundHalfEven_spec x).1
  have habove := h (roundHalfEven x)
  have hbelow := h (roundHalfEven x - 1)
  have hup : |x - (roundHalfEven x + 1 / 2)| = roundHalfEven x + 1 / 2 - x := by
    rw [abs_of_nonpos (by linarith)]
    ring
  have hdown : |x - ((roundHalfEven x - 1 : ℤ) + 1 / 2)| = x - (roundHalfEven x - 1 / 2) := by
    push_cast
    rw [abs_of_nonneg (by linarith)]
    ring
  rw [hup, abs_lt] at habove
  rw [hdown, abs_lt] at hbelow
  have hstrict : |y - roundHalfEven x| < 1 / 2 := by
    rw [abs_lt]
    constructor <;> linarith
  exact roundHalfEven_unique hstrict.le fun heq => absurd heq hstrict.ne

/-- A fraction that is no half is at least half a part of its denominator away from every half. -/
lemma abs_sub_half {x : ℚ} {denominator : ℕ} {numerator : ℤ} (hx : x * denominator = numerator)
    (hpos : 0 < denominator) {k : ℤ} (hne : x ≠ k + 1 / 2) :
    1 / (2 * denominator) ≤ |x - (k + 1 / 2)| := by
  have hpos' : (0 : ℚ) < 2 * denominator := by positivity
  have hscaled : (x - (k + 1 / 2)) * (2 * denominator) =
      ((2 * numerator - (2 * k + 1) * denominator : ℤ) : ℚ) := by
    push_cast
    linear_combination 2 * hx
  have hne' : 2 * numerator - (2 * k + 1) * denominator ≠ 0 := by
    intro h
    rw [h, Int.cast_zero] at hscaled
    rcases mul_eq_zero.mp hscaled with h | h
    · exact hne (by linarith)
    · exact hpos'.ne' h
  rw [div_le_iff₀ hpos', ← abs_of_pos hpos', ← abs_mul, hscaled, ← Int.cast_abs]
  exact_mod_cast Int.one_le_abs hne'

namespace ExchangeRates

/-! ## The digits that are carried -/

/-- The exact result of a conversion, in minor units. -/
def exactResult (minorUnits : ℕ) (source target : CurrencyCode) (sourceRate targetRate : ℚ) : ℚ :=
  minorUnits * 10 ^ (-source.minorUnitExponent : ℤ) / sourceRate * targetRate *
    10 ^ (target.minorUnitExponent : ℤ)

/-- The result with the digits that are carried: the amount, the quotient and the product each
have 28 of them. -/
def carried (minorUnits : ℕ) (source target : CurrencyCode) (sourceRate targetRate : ℚ) : ℚ :=
  let major := roundSig Decimal.precision (minorUnits * 10 ^ (-source.minorUnitExponent : ℤ))
  let quotient := roundSig Decimal.precision (major / sourceRate)
  roundSig Decimal.precision (quotient * targetRate) * 10 ^ (target.minorUnitExponent : ℤ)

section Carried

variable {source target : CurrencyCode} {sourceRate targetRate : ℚ} {n : ℕ}

lemma precision_pos : 0 < Decimal.precision := by decide

lemma carried_zero : carried 0 source target sourceRate targetRate = 0 := by
  simp [carried, roundSig_zero]

lemma exactResult_zero : exactResult 0 source target sourceRate targetRate = 0 := by
  simp [exactResult]

lemma exactResult_pos (hn : 0 < n) (hs : 0 < sourceRate) (ht : 0 < targetRate) :
    0 < exactResult n source target sourceRate targetRate := by
  have hn' : (0 : ℚ) < n := by exact_mod_cast hn
  exact mul_pos (mul_pos (div_pos (mul_pos hn' (zpow_ten_pos _)) hs) ht) (zpow_ten_pos _)

/-- More is carried of more.

**Proof sketch.** Each of the three roundings is monotone on positive numbers, and the scalings, the
quotient and the product in between are. -/
lemma carried_mono {m : ℕ} (hs : 0 < sourceRate) (ht : 0 < targetRate) (h : m ≤ n) :
    carried m source target sourceRate targetRate ≤
      carried n source target sourceRate targetRate := by
  have hp := precision_pos
  have hscale : ∀ {k : ℕ}, 0 < k → (0 : ℚ) < k * 10 ^ (-source.minorUnitExponent : ℤ) :=
    fun hk => mul_pos (by exact_mod_cast hk) (zpow_ten_pos _)
  have hmajor : ∀ {k : ℕ}, 0 < k → (0 : ℚ) <
      roundSig Decimal.precision (k * 10 ^ (-source.minorUnitExponent : ℤ)) / sourceRate :=
    fun hk => div_pos (roundSig_pos hp (hscale hk)) hs
  have hproduct : ∀ {k : ℕ}, 0 < k → (0 : ℚ) < roundSig Decimal.precision
      (roundSig Decimal.precision (k * 10 ^ (-source.minorUnitExponent : ℤ)) / sourceRate) *
        targetRate := fun hk => mul_pos (roundSig_pos hp (hmajor hk)) ht
  rcases Nat.eq_zero_or_pos m with rfl | hm
  · rw [carried_zero]
    rcases Nat.eq_zero_or_pos n with rfl | hn
    · rw [carried_zero]
    · exact (mul_pos (roundSig_pos hp (hproduct hn)) (zpow_ten_pos _)).le
  · refine mul_le_mul_of_nonneg_right (roundSig_mono hp (hproduct hm) ?_) (zpow_ten_pos _).le
    refine mul_le_mul_of_nonneg_right (roundSig_mono hp (hmajor hm) ?_) ht.le
    refine div_le_div_of_nonneg_right (roundSig_mono hp (hscale hm) ?_) hs.le
    exact mul_le_mul_of_nonneg_right (by exact_mod_cast h) (zpow_ten_pos _).le

/-- What the carried digits change of a result, at most, as a part of it. -/
def margin : ℚ := 16 / 10 ^ 28

/-- **The carried result** is close to the exact one.

**Proof sketch.** Each of the three roundings moves a positive number by at most 5/10^28 of itself,
and their errors compose to less than the margin. -/
lemma carried_within (hn : 0 < n) (hs : 0 < sourceRate) (ht : 0 < targetRate) :
    Within margin (exactResult n source target sourceRate targetRate)
      (carried n source target sourceRate targetRate) := by
  have hp := precision_pos
  have hunit : (10 : ℚ) ^ (1 - Decimal.precision : ℤ) / 2 = 5 / 10 ^ 28 := by
    norm_num [Decimal.precision]
  have hround : ∀ {x : ℚ}, 0 < x → Within (5 / 10 ^ 28) x (roundSig Decimal.precision x) := by
    intro x hx
    rw [← hunit]
    exact roundSig_within hx
  have hn' : (0 : ℚ) < n := by exact_mod_cast hn
  have hscaled : (0 : ℚ) < n * 10 ^ (-source.minorUnitExponent : ℤ) :=
    mul_pos hn' (zpow_ten_pos _)
  have hmajor := hround hscaled
  have hmajor' := hmajor.mul (inv_nonneg.mpr hs.le)
  rw [← div_eq_mul_inv, ← div_eq_mul_inv] at hmajor'
  have hquotpos := div_pos (roundSig_pos hp hscaled) hs
  have hquot := hmajor'.trans (hround hquotpos) (div_pos hscaled hs).le (by norm_num) (by norm_num)
    (by norm_num)
  have hprodpos := mul_pos (roundSig_pos hp hquotpos) ht
  have hprod := (hquot.mul ht.le).trans (hround hprodpos) (mul_pos (div_pos hscaled hs) ht).le
    (by norm_num) (by norm_num) (by norm_num)
  have hresult := hprod.mul (zpow_ten_pos target.minorUnitExponent).le
  have hpos : 0 < exactResult n source target sourceRate targetRate := exactResult_pos hn hs ht
  have hmargin : (5 / 10 ^ 28 + 5 / 10 ^ 28 + 5 / 10 ^ 28 * (5 / 10 ^ 28) + 5 / 10 ^ 28 +
      (5 / 10 ^ 28 + 5 / 10 ^ 28 + 5 / 10 ^ 28 * (5 / 10 ^ 28)) * (5 / 10 ^ 28) : ℚ) ≤ margin := by
    norm_num [margin]
  exact hresult.mono hpos.le hmargin

end Carried

/-! ## Conversions -/

section Convert

variable {rs : ExchangeRates} {source target : CurrencyCode} {sourceRate targetRate : Decimal}

/-- A conversion rounds the carried result to an integer.

**Proof sketch.** Each decimal operation is its rational counterpart, rounded (`toRat_scaleb`,
`toRat_div`, `toRat_mul`), and quantizing rounds to an integer (`quantizeToInt?_eq`). -/
lemma convertSize_eq (n : ℕ) (hs : 0 < sourceRate.coeff) (ht : 0 < targetRate.coeff) :
    convertSize n source target sourceRate targetRate =
      let size := roundHalfEven (carried n source target sourceRate.toRat targetRate.toRat)
      if size < 10 ^ Decimal.precision then some size.toNat else none := by
  have hp := precision_pos
  have hmajor : ((Decimal.mk n 0).scaleb (-source.minorUnitExponent)).toRat =
      roundSig Decimal.precision (n * 10 ^ (-source.minorUnitExponent : ℤ)) := by
    rw [Decimal.toRat_scaleb, Decimal.toRat, zpow_zero, mul_one]
  have hvalue : (((((Decimal.mk n 0).scaleb (-source.minorUnitExponent)).div sourceRate).mul
      targetRate).scaleb target.minorUnitExponent).toRat =
      carried n source target sourceRate.toRat targetRate.toRat := by
    rw [Decimal.toRat_scaleb, Decimal.toRat_mul, Decimal.toRat_div _ hs, hmajor]
    unfold carried
    simp only
    rcases Nat.eq_zero_or_pos n with rfl | hn
    · simp [roundSig_zero]
    · have hn' : (0 : ℚ) < n := by exact_mod_cast hn
      have hprodpos := mul_pos (roundSig_pos hp (div_pos (roundSig_pos hp
        (mul_pos hn' (zpow_ten_pos (-source.minorUnitExponent)))) (Decimal.toRat_pos.mpr hs)))
        (Decimal.toRat_pos.mpr ht)
      rw [roundSig_shift (roundSig_pos hp hprodpos), roundSig_roundSig hp hprodpos]
  unfold convertSize
  rw [Decimal.quantizeToInt?_eq, hvalue]

/-- Every known rate is positive. -/
lemma unitsPerEur_pos {currency : CurrencyCode} {rate : Decimal}
    (h : rs.unitsPerEur currency = some rate) : 0 < rate.coeff := by
  unfold unitsPerEur at h
  split_ifs at h
  · obtain rfl := Option.some.inj h
    exact Nat.one_pos
  · obtain ⟨r, -, rfl⟩ := Option.map_eq_some_iff.mp h
    exact r.positive

lemma carried_nonneg (n : ℕ) (hs : 0 < sourceRate.coeff) (ht : 0 < targetRate.coeff) :
    0 ≤ carried n source target sourceRate.toRat targetRate.toRat := by
  rw [← @carried_zero source target sourceRate.toRat targetRate.toRat]
  exact carried_mono (Decimal.toRat_pos.mpr hs) (Decimal.toRat_pos.mpr ht) (Nat.zero_le n)

/-- A conversion rounds the carried result, unless that has too many digits. -/
lemma convert_eq (hne : source ≠ target) (hs : rs.unitsPerEur source = some sourceRate)
    (ht : rs.unitsPerEur target = some targetRate) (n : ℕ) :
    rs.convert n source target =
      let size := roundHalfEven (carried n source target sourceRate.toRat targetRate.toRat)
      if size < 10 ^ Decimal.precision then .ok (some size) else .error .invalidOperation := by
  have hs' := unitsPerEur_pos hs
  have ht' := unitsPerEur_pos ht
  have hsize : 0 ≤ roundHalfEven (carried n source target sourceRate.toRat targetRate.toRat) := by
    have h := roundHalfEven_mono (@carried_nonneg source target _ _ n hs' ht')
    rwa [show (0 : ℚ) = ((0 : ℤ) : ℚ) from rfl, roundHalfEven_intCast] at h
  unfold convert
  rw [if_neg hne, hs, ht]
  simp only [Int.natAbs_natCast, convertSize_eq n hs' ht']
  split_ifs with hfits
  · rcases Nat.eq_zero_or_pos n with rfl | hn
    · rw [carried_zero, show (0 : ℚ) = ((0 : ℤ) : ℚ) from rfl, roundHalfEven_intCast]
      rfl
    · simp only [Int.sign_natCast_of_ne_zero hn.ne', one_mul, Int.toNat_of_nonneg hsize]
  · rfl

/-- **A conversion is monotone**: what converts bounds what a smaller amount converts to.

**Proof sketch.** What is carried of the smaller amount is less (`carried_mono`), half-even rounding
is monotone, and what is less has no more digits. -/
theorem convert_mono {m n : ℕ} (h : m ≤ n) {v : ℤ}
    (hv : rs.convert n source target = .ok (some v)) :
    ∃ u ≤ v, rs.convert m source target = .ok (some u) := by
  by_cases hst : source = target
  · unfold convert at hv ⊢
    rw [if_pos hst] at hv ⊢
    obtain rfl := Option.some.inj (Except.ok.inj hv)
    exact ⟨m, by exact_mod_cast h, rfl⟩
  · cases hs : rs.unitsPerEur source with
    | none =>
      unfold convert at hv
      rw [if_neg hst, hs] at hv
      cases hv
    | some sourceRate =>
      cases ht : rs.unitsPerEur target with
      | none =>
        unfold convert at hv
        rw [if_neg hst, hs, ht] at hv
        cases hv
      | some targetRate =>
        rw [convert_eq hst hs ht] at hv ⊢
        simp only at hv ⊢
        have hle := roundHalfEven_mono (@carried_mono source target _ _ n m
          (Decimal.toRat_pos.mpr (unitsPerEur_pos hs)) (Decimal.toRat_pos.mpr (unitsPerEur_pos ht)) h)
        split_ifs at hv with hfits
        obtain rfl := Option.some.inj (Except.ok.inj hv)
        exact ⟨_, hle, if_pos (hle.trans_lt hfits)⟩

/-- A result below `10 ^ 27` is carried with few enough digits.

**Proof sketch.** The carried result exceeds the exact one by less than a tenth of it
(`carried_within`). -/
lemma roundHalfEven_carried_lt (hs : 0 < sourceRate.coeff) (ht : 0 < targetRate.coeff) {n : ℕ}
    (hlt : exactResult n source target sourceRate.toRat targetRate.toRat < 10 ^ 27) :
    roundHalfEven (carried n source target sourceRate.toRat targetRate.toRat) <
      10 ^ Decimal.precision := by
  have hcarried : carried n source target sourceRate.toRat targetRate.toRat <
      10 ^ Decimal.precision - 1 := by
    rcases Nat.eq_zero_or_pos n with rfl | hn
    · rw [carried_zero]
      norm_num [Decimal.precision]
    · obtain ⟨-, hup⟩ := @carried_within source target _ _ n hn (Decimal.toRat_pos.mpr hs)
        (Decimal.toRat_pos.mpr ht)
      have hmargin := mul_le_mul_of_nonneg_right hlt.le (show (0 : ℚ) ≤ 1 + margin by
        norm_num [margin])
      have hnum : (10 : ℚ) ^ 27 * (1 + margin) < 10 ^ Decimal.precision - 1 := by
        norm_num [margin, Decimal.precision]
      linarith
  have h := roundHalfEven_mono hcarried.le
  rw [show (10 : ℚ) ^ Decimal.precision - 1 = ((10 ^ Decimal.precision - 1 : ℤ) : ℚ) by
    norm_num, roundHalfEven_intCast] at h
  omega

/-- A number of at most 28 significant digits. -/
def FewDigits (x : ℚ) : Prop := ∃ (digits : ℕ) (e : ℤ), digits < 10 ^ Decimal.precision ∧
  x = digits * 10 ^ e

/-- **Amounts and rates that are safe**: the exact result is further from every half than the digits
can move it; or the amount in major units, its exact quotient by the rate of the source and the exact
product of that with the rate of the target have no more digits than are carried. -/
def RoundsSafely (minorUnits : ℕ) (source target : CurrencyCode) (sourceRate targetRate : ℚ) : Prop :=
  let x := exactResult minorUnits source target sourceRate targetRate
  let major : ℚ := minorUnits * 10 ^ (-source.minorUnitExponent : ℤ)
  (∀ k : ℤ, x * margin < |x - (k + 1 / 2)|) ∨
    FewDigits major ∧ FewDigits (major / sourceRate) ∧ FewDigits (major / sourceRate * targetRate)

lemma FewDigits.roundSig_eq {x : ℚ} (h : FewDigits x) : roundSig Decimal.precision x = x := by
  obtain ⟨digits, e, hdigits, rfl⟩ := h
  exact roundSig_of_lt hdigits e

/-- Nothing is lost of numbers with few digits. -/
lemma carried_of_fewDigits {sourceRate targetRate : ℚ} {n : ℕ}
    (hmajor : FewDigits (n * 10 ^ (-source.minorUnitExponent : ℤ)))
    (hquotient : FewDigits (n * 10 ^ (-source.minorUnitExponent : ℤ) / sourceRate))
    (hproduct : FewDigits (n * 10 ^ (-source.minorUnitExponent : ℤ) / sourceRate * targetRate)) :
    carried n source target sourceRate targetRate =
      exactResult n source target sourceRate targetRate := by
  unfold carried exactResult
  simp only [hmajor.roundSig_eq, hquotient.roundSig_eq, hproduct.roundSig_eq]

/-- Of safe amounts and rates the carried digits round like the exact result. -/
lemma RoundsSafely.round_eq {sourceRate targetRate : ℚ} {n : ℕ}
    (h : RoundsSafely n source target sourceRate targetRate) (hs : 0 < sourceRate)
    (ht : 0 < targetRate) : roundHalfEven (carried n source target sourceRate targetRate) =
      roundHalfEven (exactResult n source target sourceRate targetRate) := by
  rcases h with hfar | ⟨hmajor, hquotient, hproduct⟩
  · refine roundHalfEven_eq_of_close fun k => ?_
    rcases Nat.eq_zero_or_pos n with rfl | hn
    · have hk := hfar k
      rw [exactResult_zero, zero_mul] at hk
      rw [carried_zero, exactResult_zero, sub_zero, abs_zero]
      exact hk
    · obtain ⟨hlow, hhigh⟩ := @carried_within source target _ _ n hn hs ht
      refine lt_of_le_of_lt (abs_le.mpr ⟨?_, ?_⟩) (hfar k) <;> linarith
  · rw [carried_of_fewDigits hmajor hquotient hproduct]

/-- Rates with ten decimals are safe where the amount is not too large and the exact result is no
half.

**Proof sketch.** The exact result is a fraction, of the amount times one rate by the other rate, so
it is at least half a part of its denominator away from every half that it is not. -/
lemma roundsSafely_of_not_half {n a b : ℕ} (ha : 0 < a)
    (hsmall : 32 * (n * b * 10 ^ target.minorUnitExponent) < 10 ^ 28)
    (hne : ∀ k : ℕ, 2 * (n * b * 10 ^ target.minorUnitExponent) ≠
      (2 * k + 1) * (a * 10 ^ source.minorUnitExponent)) :
    RoundsSafely n source target (a / 10 ^ 10) (b / 10 ^ 10) := by
  have hpos : 0 < a * 10 ^ source.minorUnitExponent := Nat.mul_pos ha (by positivity)
  have hpos' : (0 : ℚ) < a * 10 ^ source.minorUnitExponent := by exact_mod_cast hpos
  have hx : exactResult n source target (a / 10 ^ 10) (b / 10 ^ 10) =
      (n * b * 10 ^ target.minorUnitExponent) / (a * 10 ^ source.minorUnitExponent) := by
    have ha' : (a : ℚ) ≠ 0 := by exact_mod_cast ha.ne'
    unfold exactResult
    rw [zpow_neg, zpow_natCast, zpow_natCast]
    field_simp
  have hnumerator : exactResult n source target (a / 10 ^ 10) (b / 10 ^ 10) *
      (a * 10 ^ source.minorUnitExponent : ℕ) = (n * b * 10 ^ target.minorUnitExponent : ℤ) := by
    rw [hx]
    push_cast
    rw [div_mul_cancel₀ _ hpos'.ne']
  refine .inl fun k => ?_
  refine lt_of_lt_of_le ?_ (abs_sub_half hnumerator hpos fun hk => ?_)
  · rw [lt_div_iff₀ (by positivity), mul_comm 2, ← mul_assoc, mul_right_comm _ margin, hnumerator]
    have hsmall' : (32 * (n * b * 10 ^ target.minorUnitExponent) : ℚ) < 10 ^ 28 := by
      exact_mod_cast hsmall
    push_cast
    norm_num [margin]
    linarith
  · rw [hk] at hnumerator
    have heq : (2 * (n * b * 10 ^ target.minorUnitExponent) : ℤ) =
        (2 * k + 1) * (a * 10 ^ source.minorUnitExponent) := by
      have hrat : (2 * (n * b * 10 ^ target.minorUnitExponent) : ℚ) =
          (2 * k + 1) * (a * 10 ^ source.minorUnitExponent) := by
        push_cast at hnumerator
        linear_combination -2 * hnumerator
      exact_mod_cast hrat
    have hk' : 0 ≤ k := by
      by_contra hneg
      have hle : (2 * k + 1) * (a * 10 ^ source.minorUnitExponent : ℤ) ≤ -1 * 1 := by
        have h1 : 2 * k + 1 ≤ -1 := by omega
        have h2 : (1 : ℤ) ≤ a * 10 ^ source.minorUnitExponent := by exact_mod_cast hpos
        nlinarith
      have hnonneg : (0 : ℤ) ≤ 2 * (n * b * 10 ^ target.minorUnitExponent) := by positivity
      omega
    obtain ⟨k, rfl⟩ := Int.eq_ofNat_of_zero_le hk'
    exact hne k (by exact_mod_cast heq)

/-- **Exact rounding.** Between two currencies with a rate each, an amount whose exact result is
below `10 ^ 27` converts without an error. The result is the exact one rounded half to even for safe
amounts and rates: when the exact result is further from every half than `16 / 10 ^ 28` of itself, or
nothing needs more than 28 digits. For rates with ten decimals, as the table holds them, and amounts
that are not too large, it is so whenever the exact result is no half.

**Proof sketch.** Each operation rounds to 28 digits, and a conversion rounds what is left to an
integer. Three relative errors of half a unit of the last digit make less than the margin. -/
theorem convert_exactly_rounded (hne : source ≠ target)
    (hs : rs.unitsPerEur source = some sourceRate) (ht : rs.unitsPerEur target = some targetRate)
    (n : ℕ) (hlt : exactResult n source target sourceRate.toRat targetRate.toRat < 10 ^ 27) :
    let exact := rs.convert n source target =
      .ok (some (roundHalfEven (exactResult n source target sourceRate.toRat targetRate.toRat)))
    (∃ v, rs.convert n source target = .ok (some v)) ∧
      (RoundsSafely n source target sourceRate.toRat targetRate.toRat → exact) ∧
      ∀ a b : ℕ, sourceRate.toRat = a / 10 ^ 10 → targetRate.toRat = b / 10 ^ 10 →
        32 * (n * b * 10 ^ target.minorUnitExponent) < 10 ^ 28 →
        (∀ k : ℕ, 2 * (n * b * 10 ^ target.minorUnitExponent) ≠
          (2 * k + 1) * (a * 10 ^ source.minorUnitExponent)) → exact := by
  intro exact
  have hs' := Decimal.toRat_pos.mpr (unitsPerEur_pos hs)
  have ht' := Decimal.toRat_pos.mpr (unitsPerEur_pos ht)
  have hconvert : rs.convert n source target =
      .ok (some (roundHalfEven (carried n source target sourceRate.toRat targetRate.toRat))) := by
    rw [convert_eq hne hs ht]
    exact if_pos (roundHalfEven_carried_lt (unitsPerEur_pos hs) (unitsPerEur_pos ht) hlt)
  have hsafe : RoundsSafely n source target sourceRate.toRat targetRate.toRat → exact := by
    intro h
    exact hconvert.trans (congrArg (fun v => Except.ok (some v)) (h.round_eq hs' ht'))
  refine ⟨⟨_, hconvert⟩, hsafe, fun a b ha hb hsmall hhalf => hsafe ?_⟩
  rw [ha] at hs'
  have hpos : 0 < a := by
    rcases Nat.eq_zero_or_pos a with rfl | hpos
    · norm_num at hs'
    · exact hpos
  rw [ha, hb]
  exact roundsSafely_of_not_half hpos hsmall hhalf

end Convert

/-! ## Halves -/

/-- Seven dollars or three and a half pounds to the euro. -/
def halving : RateTable :=
  ⟨[⟨"USD", 70000000000, july29.value, "ECB", 0, by decide, by decide, known_ecb⟩,
    ⟨"GBP", 35000000000, july29.value, "ECB", 0, by decide, by decide, known_ecb⟩],
    by decide⟩

/-- Two dollars are a pound; and a euro cent is three and a half pence, which rounds to four. -/
theorem convert_exactly_rounded_halving :
    letI := PythonRuntime.ascii
    ∃ dollar pound : CurrencyCode, halving.latest.convert 200 dollar pound = .ok (some 100) ∧
      exactResult 1 euro pound 1 (7 / 2) = 7 / 2 ∧
      halving.latest.convert 1 euro pound = .ok (some 4) := by
  let _ := PythonRuntime.ascii
  refine ⟨⟨"USD", by decide⟩, ⟨"GBP", by decide⟩, ?_, by decide +kernel, ?_⟩
  · obtain ⟨-, -, hnot⟩ := @convert_exactly_rounded halving.latest ⟨"USD", by decide⟩
      ⟨"GBP", by decide⟩ ⟨70000000000, -10⟩ ⟨35000000000, -10⟩ (by decide) (by decide +kernel)
      (by decide +kernel) 200 (by decide +kernel)
    refine (hnot 70000000000 35000000000 (by decide +kernel) (by decide +kernel) (by decide +kernel)
      fun k hk => ?_).trans (by decide +kernel)
    have hexponents : CurrencyCode.minorUnitExponent ⟨"GBP", by decide⟩ = 2 ∧
        CurrencyCode.minorUnitExponent ⟨"USD", by decide⟩ = 2 := by decide +kernel
    rw [hexponents.1, hexponents.2] at hk
    omega
  · obtain ⟨-, hsafe, -⟩ := @convert_exactly_rounded halving.latest euro ⟨"GBP", by decide⟩ ⟨1, 0⟩
      ⟨35000000000, -10⟩ (by decide) (by decide +kernel) (by decide +kernel) 1 (by decide +kernel)
    refine (hsafe (.inr ⟨⟨1, -2, by decide, by decide +kernel⟩, ⟨1, -2, by decide, by decide +kernel⟩,
      ⟨35, -3, by decide, by decide +kernel⟩⟩)).trans (by decide +kernel)

/-- One cent is exactly half a penny, which rounds to the even none, and converts to one: a seventh
is carried rounded up. -/
theorem halving_not_exact :
    letI := PythonRuntime.ascii
    ∃ (dollar pound : CurrencyCode) (dollars pounds : Decimal),
      halving.latest.unitsPerEur dollar = some dollars ∧
        halving.latest.unitsPerEur pound = some pounds ∧ dollar ≠ pound ∧
        exactResult 1 dollar pound dollars.toRat pounds.toRat = 1 / 2 ∧
        halving.latest.convert 1 dollar pound ≠
          .ok (some (roundHalfEven (exactResult 1 dollar pound dollars.toRat pounds.toRat))) := by
  refine ⟨⟨"USD", by decide⟩, ⟨"GBP", by decide⟩, ⟨70000000000, -10⟩, ⟨35000000000, -10⟩,
    by decide +kernel, by decide +kernel, by decide, by decide +kernel, by decide +kernel⟩

-- A result next to a half is no safer when the division is exact: here the product has 29 digits.
example : exactResult (10 ^ 26 + 1) euro dollar 1 (146 / 100) = 10 ^ 26 + 46 * 10 ^ 24 + 146 / 100 ∧
    convertSize (10 ^ 26 + 1) euro dollar ⟨1, 0⟩ ⟨146, -2⟩ = some (10 ^ 26 + 46 * 10 ^ 24 + 2) := by
  decide +kernel

end ExchangeRates

end MintFlow
