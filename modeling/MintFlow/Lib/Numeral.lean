import MintFlow.Lib.DecimalContext
import Mathlib.Data.Nat.Digits.Defs

set_option relaxedAutoImplicit false
set_option autoImplicit false

/-!
# Numerals

The ASCII texts that spell a decimal: a sign, then digits with at most one point among them and an
optional exponent, or the name of an infinity or a NaN in letters of either case.

## Main definitions

* `Transact.Numeral.read` — the decimal that a text spells.
* `Transact.Numeral.Constructible` — the finite decimals a text may spell.
-/

namespace Transact.Numeral

/-- Whether the number is negative, and what follows the sign. -/
def readSign : List Char → Bool × List Char
  | '-' :: cs => (true, cs)
  | '+' :: cs => (false, cs)
  | cs => (false, cs)

/-- The digits after a point, and what follows them. -/
def readFraction : List Char → List Char × List Char
  | '.' :: cs => cs.span Char.isDigit
  | cs => ([], cs)

/-- An exponent that is all of the text, if the text has one. -/
def readExponent : List Char → Option ℤ
  | [] => some 0
  | c :: cs =>
    let (negative, digits) := readSign cs
    if (c = 'e' ∨ c = 'E') ∧ digits ≠ [] ∧ digits.all Char.isDigit then
      let n : ℤ := Nat.ofDigitChars 10 digits 0
      some (if negative then -n else n)
    else none

/-- The finite decimals a text may spell; they exceed those of the context by far. -/
def Constructible (d : Decimal) : Prop :=
  Decimal.adjusted d ≤ 999999999999999999 ∧ -1999999999999999997 ≤ d.exp

instance (d : Decimal) : Decidable (Constructible d) := by
  unfold Constructible
  infer_instance

/-- A number without its sign. -/
def readFinite (cs : List Char) : Option Decimal := do
  let (whole, cs) := cs.span Char.isDigit
  let (fraction, cs) := readFraction cs
  let exponent ← readExponent cs
  let d : Decimal := ⟨Nat.ofDigitChars 10 (whole ++ fraction) 0, exponent - fraction.length⟩
  if whole ++ fraction ≠ [] ∧ Constructible d then some d else none

/-- An infinity or a NaN, which may carry digits. -/
def readSpecial (negative : Bool) (cs : List Char) : Option ExtendedDecimal :=
  let name := cs.map Char.toLower
  if name = "inf".toList ∨ name = "infinity".toList then some (.infinity negative)
  else if name.take 3 = "nan".toList ∧ (name.drop 3).all Char.isDigit then some (.nan false)
  else if name.take 4 = "snan".toList ∧ (name.drop 4).all Char.isDigit then some (.nan true)
  else none

/-- The decimal that a text spells. -/
def read (cs : List Char) : Option ExtendedDecimal :=
  let (negative, cs) := readSign cs
  (readSpecial negative cs).or ((readFinite cs).map (.finite negative))

example : read "-12.50e+3".toList = some (.finite true ⟨1250, 1⟩) := by decide
example : read "1.2.3".toList = none := by decide

end Transact.Numeral
