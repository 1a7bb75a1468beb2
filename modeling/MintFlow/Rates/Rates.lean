import MintFlow.Domain.Values
import MintFlow.Lib.Decimal
import MintFlow.Lib.Table
import Mathlib.Data.String.Basic

set_option relaxedAutoImplicit false
set_option autoImplicit false

/-!
# Exchange rates

Rates are units of a currency per one euro. A currency without a rate converts to nothing.
Expenses are never converted in storage; only displayed totals are.

## Main definitions

* `MintFlow.ExchangeRate` — one rate; it is positive.
* `MintFlow.ExchangeRates` — the latest known rate per currency.
* `MintFlow.ExchangeRates.convert` — an amount in another currency.

## Main results

* `MintFlow.ExchangeRates.convert_of_canConvert` — which conversions have a result.
* `MintFlow.ExchangeRates.convert_zero` — nothing converts to nothing.
-/

namespace MintFlow

open Transact

/-- The rate of one currency. -/
structure ExchangeRate where
  currency : CurrencyCode
  unitsPerEur : Decimal
  rateDate : Date
  source : String
  /-- A rate is a positive number. -/
  positive : 0 < unitsPerEur.coeff
deriving DecidableEq

/-- The code a rate is stored and looked up by. -/
def ExchangeRate.code (r : ExchangeRate) : String := r.currency.value

/-- The latest known rate per currency; the euro itself needs none. -/
structure ExchangeRates where
  rates : Table ExchangeRate.code

namespace ExchangeRates

variable (rs : ExchangeRates)

/-- `_units_per_eur`. -/
def unitsPerEur (currency : CurrencyCode) : Option Decimal :=
  if currency = euro then some ⟨1, 0⟩ else (rs.rates.find currency.value).map ExchangeRate.unitsPerEur

/-- `can_convert`. -/
def canConvert (source target : CurrencyCode) : Bool :=
  decide (source = target) || ((rs.unitsPerEur source).isSome && (rs.unitsPerEur target).isSome)

/-- The size of a converted amount, `major / source_rate * target_rate`; rounding it to minor units
raises `InvalidOperation` when it has more digits than the context keeps. -/
def convertSize (minorUnits : ℕ) (source target : CurrencyCode) (sourceRate targetRate : Decimal) :
    Option ℕ :=
  let major := (Decimal.mk minorUnits 0).scaleb (-source.minorUnitExponent)
  ((major.div sourceRate).mul targetRate).scaleb target.minorUnitExponent |>.quantizeToInt?

/-- `convert`: minor units of `source` in minor units of `target`, rounded half to even. The inner
result is the `None` of a missing rate. Decimal arithmetic rounds both signs alike. -/
def convert (minorUnits : ℤ) (source target : CurrencyCode) :
    Except Decimal.Signal (Option ℤ) :=
  if source = target then .ok (some minorUnits)
  else
    match rs.unitsPerEur source, rs.unitsPerEur target with
    | some sourceRate, some targetRate =>
      match convertSize minorUnits.natAbs source target sourceRate targetRate with
      | some size => .ok (some (minorUnits.sign * size))
      | none => .error .invalidOperation
    | _, _ => .ok none

variable {rs}

/-- What can be converted either converts or has too many digits. -/
lemma convert_of_canConvert {source target : CurrencyCode} (h : rs.canConvert source target = true)
    (minorUnits : ℤ) : (∃ v, rs.convert minorUnits source target = .ok (some v)) ∨
      rs.convert minorUnits source target = .error .invalidOperation := by
  unfold convert
  by_cases hst : source = target
  · exact .inl ⟨minorUnits, by rw [if_pos hst]⟩
  · rw [if_neg hst]
    simp only [canConvert, hst, decide_false, Bool.false_or, Bool.and_eq_true] at h
    obtain ⟨sourceRate, hs⟩ := Option.isSome_iff_exists.mp h.1
    obtain ⟨targetRate, ht⟩ := Option.isSome_iff_exists.mp h.2
    rw [hs, ht]
    cases hsize : convertSize minorUnits.natAbs source target sourceRate targetRate with
    | some size => exact .inl ⟨minorUnits.sign * size, by simp only [hsize]⟩
    | none => exact .inr (by simp only [hsize])

/-- What cannot be converted converts to nothing. -/
lemma convert_of_not_canConvert {source target : CurrencyCode}
    (h : ¬ rs.canConvert source target = true) (minorUnits : ℤ) :
    rs.convert minorUnits source target = .ok none := by
  unfold convert
  unfold canConvert at h
  by_cases hst : source = target
  · simp [hst] at h
  · rw [if_neg hst]
    cases hs : rs.unitsPerEur source with
    | none => rfl
    | some sourceRate =>
      cases ht : rs.unitsPerEur target with
      | none => rfl
      | some targetRate => simp [hs, ht] at h

/-- Nothing converts to nothing.

**Proof sketch.** Zero stays zero through every rounding, and an integer zero is of few digits. -/
lemma convert_zero {source target : CurrencyCode} (h : rs.canConvert source target = true) :
    rs.convert 0 source target = .ok (some 0) := by
  have hsize : ∀ a b, convertSize 0 source target a b = some 0 := by
    intro a b
    unfold convertSize Decimal.scaleb
    simp only [Decimal.round_zero]
    obtain ⟨e, he⟩ := Decimal.mul_div_zero (0 + -(source.minorUnitExponent : ℤ)) a b
    rw [he]
    simp only [Decimal.round_zero]
    exact Decimal.quantizeToInt?_zero _
  rcases convert_of_canConvert h 0 with ⟨v, hv⟩ | herror
  · have hzero : v = 0 := by
      unfold convert at hv
      by_cases hst : source = target
      · rw [if_pos hst] at hv
        cases hv
        rfl
      · rw [if_neg hst] at hv
        split at hv
        · simp only [Int.natAbs_zero, hsize, Int.sign_zero, Nat.cast_zero, mul_zero] at hv
          cases hv
          rfl
        · cases hv
    rw [hv, hzero]
  · unfold convert at herror
    split_ifs at herror
    split at herror
    · simp only [Int.natAbs_zero, hsize] at herror
      cases herror
    · cases herror

end ExchangeRates

end MintFlow
