import Mathlib.Data.Nat.Digits.Lemmas
import Mathlib.Tactic.Common
import Mathlib.Tactic.NormNum
import Mathlib.Tactic.Positivity

set_option relaxedAutoImplicit false
set_option autoImplicit false

/-!
# Nonnegative decimal floating point

A nonnegative decimal number is a coefficient and an exponent. Exact operations keep the
coefficient; operations of the arithmetic context round it half to even to a fixed number of
significant digits. Exponent limits are not represented.

## Main definitions

* `Transact.Decimal` — `coeff * 10 ^ exp`.
* `Transact.Decimal.scaleb` — multiply by a power of ten and round to the context's precision.
* `Transact.Decimal.mul`, `Transact.Decimal.div` — the rounded product and quotient.
* `Transact.Decimal.toNat?` — the integer a decimal is, if it is one.
* `Transact.Decimal.quantizeToInt?`, `Transact.Decimal.toScale` — the nearest integer, and the
  nearest multiple of a power of ten.

## Main results

* `Transact.Decimal.round_coeff_pos` — rounding significant digits keeps a positive number positive.
-/

namespace Transact

/-- A nonnegative decimal number. -/
structure Decimal where
  /-- The significant digits, as a number. -/
  coeff : ℕ
  /-- The power of ten they are scaled by. -/
  exp : ℤ
deriving DecidableEq, Repr

namespace Decimal

/-- What an operation of the context raises. -/
inductive Signal
  | invalidOperation
deriving DecidableEq, Repr

/-- The significant digits the default context keeps. -/
def precision : ℕ := 28

/-- The number of decimal digits of a coefficient. -/
def numDigits (n : ℕ) : ℕ := (Nat.digits 10 n).length

/-- Divide by `10 ^ k`, rounding half to even. -/
def divRound (n k : ℕ) : ℕ :=
  let q := n / 10 ^ k
  let r := 2 * (n % 10 ^ k)
  if r < 10 ^ k then q
  else if 10 ^ k < r then q + 1
  else if q % 2 = 0 then q else q + 1

/-- Round to the context's precision. -/
def round (d : Decimal) : Decimal :=
  if d.coeff < 10 ^ precision then d
  else
    let extra := numDigits d.coeff - precision
    let q := divRound d.coeff extra
    -- Rounding up may carry into one digit more than the precision.
    if q < 10 ^ precision then ⟨q, d.exp + extra⟩ else ⟨q / 10, d.exp + extra + 1⟩

/-- Multiply by `10 ^ n`, rounded to the context's precision. -/
def scaleb (d : Decimal) (n : ℤ) : Decimal := round ⟨d.coeff, d.exp + n⟩

/-- The integer that a decimal is, if it has no fractional part. -/
def toNat? (d : Decimal) : Option ℕ :=
  match d.exp with
  | .ofNat e => some (d.coeff * 10 ^ e)
  | .negSucc e => if d.coeff % 10 ^ (e + 1) = 0 then some (d.coeff / 10 ^ (e + 1)) else none

/-- Multiply, rounded to the context's precision. -/
def mul (a b : Decimal) : Decimal := round ⟨a.coeff * b.coeff, a.exp + b.exp⟩

/-- Divide, rounded to the context's precision: one digit more than that is computed, and a last
digit that would round like an exact one is raised when a remainder is left. -/
def div (a b : Decimal) : Decimal :=
  if a.coeff = 0 then ⟨0, a.exp - b.exp⟩
  else
    let shift : ℤ := numDigits b.coeff - numDigits a.coeff + precision + 1
    let n := a.coeff * 10 ^ shift.toNat
    let m := b.coeff * 10 ^ (-shift).toNat
    let q := n / m
    round ⟨if n % m ≠ 0 ∧ q % 5 = 0 then q + 1 else q, a.exp - b.exp - shift⟩

/-- Round to an integer, half to even; the result must fit the context's precision. -/
def quantizeToInt? (d : Decimal) : Option ℕ :=
  let n := match d.exp with
    | .ofNat e => d.coeff * 10 ^ e
    | .negSucc e => divRound d.coeff (e + 1)
  if n < 10 ^ precision then some n else none

/-- The units of `10 ^ -scale` nearest to a decimal, half away from zero: what a column with that
many fractional digits stores. -/
def toScale (d : Decimal) (scale : ℕ) : ℕ :=
  match d.exp + scale with
  | .ofNat e => d.coeff * 10 ^ e
  | .negSucc e => (2 * d.coeff + 10 ^ (e + 1)) / (2 * 10 ^ (e + 1))

/-- Dropping the digits beyond the precision leaves a number with more than one digit. -/
lemma ten_le_divRound {n : ℕ} (h : 10 ^ precision ≤ n) :
    10 ≤ divRound n (numDigits n - precision) := by
  have hlen : precision < numDigits n := (Nat.lt_digits_length_iff (by omega) n).mpr h
  obtain ⟨k, hk⟩ : ∃ k, numDigits n = k + precision := ⟨numDigits n - precision, by omega⟩
  have hn : 10 ^ (k + precision - 1) ≤ n :=
    (Nat.lt_digits_length_iff (by omega) n).mp (by rw [← numDigits]; omega)
  have hq : 10 ^ (precision - 1) ≤ n / 10 ^ k := by
    rw [Nat.le_div_iff_mul_le (by positivity), ← Nat.pow_add]
    refine le_trans (Nat.pow_le_pow_right (by omega) ?_) hn
    unfold precision at *
    omega
  have h10 : 10 ≤ 10 ^ (precision - 1) := by norm_num [precision]
  rw [show numDigits n - precision = k by omega]
  unfold divRound
  simp only
  split_ifs <;> omega

/-- Rounding keeps a positive number positive. -/
lemma round_coeff_pos {d : Decimal} (h : 0 < d.coeff) : 0 < (round d).coeff := by
  unfold round
  simp only
  split_ifs with h₁ h₂
  · exact h
  · exact lt_of_lt_of_le (by omega) (ten_le_divRound (Nat.not_lt.mp h₁))
  · exact Nat.div_pos (ten_le_divRound (Nat.not_lt.mp h₁)) (by omega)

/-- Rounding drops digits. -/
lemma exp_le_round (d : Decimal) : d.exp ≤ (round d).exp := by
  unfold round
  simp only
  split_ifs
  · exact le_rfl
  · show d.exp ≤ d.exp + _
    omega
  · show d.exp ≤ d.exp + _ + 1
    omega

/-! ## Zero -/

/-- Rounding keeps zero. -/
lemma round_zero (e : ℤ) : round ⟨0, e⟩ = ⟨0, e⟩ := by
  rw [round, if_pos (by norm_num [precision])]

/-- Zero rounds to the integer zero. -/
lemma quantizeToInt?_zero (e : ℤ) : (Decimal.mk 0 e).quantizeToInt? = some 0 := by
  unfold quantizeToInt?
  cases e with
  | ofNat e => simp [precision]
  | negSucc e => simp [divRound, precision]

/-- Zero times anything, divided by anything, is zero. -/
lemma mul_div_zero (e : ℤ) (a b : Decimal) : ∃ e', mul (div ⟨0, e⟩ a) b = ⟨0, e'⟩ := by
  refine ⟨e - a.exp + b.exp, ?_⟩
  unfold div mul
  rw [if_pos rfl]
  simp only [Nat.zero_mul]
  exact round_zero _

example : ((Decimal.mk 1250 (-2)).scaleb 2).toNat? = some 1250 := by decide

end Decimal

end Transact
