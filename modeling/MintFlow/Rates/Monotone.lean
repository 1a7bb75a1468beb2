import MintFlow.Lib.DecimalContext
import MintFlow.Rates.Exactness

set_option relaxedAutoImplicit false
set_option autoImplicit false

/-!
# Conversions in the default context

A conversion with the exponents of the default context taken into account: an operation may overflow
or lose digits below the least positive number. With rates that the table of rates can hold it does
neither, so that a conversion is what it is without these limits; it keeps the order of amounts, and
it keeps zero.

## Main definitions

* `MintFlow.TableRate` — a rate that the table can hold.
* `MintFlow.ExchangeRates.convertInContext` — `convert`, with every signal of the context.

## Main results

* `MintFlow.ExchangeRates.convertInContext_eq` — with such rates, it is `convert`.
* `MintFlow.ExchangeRates.convertInContext_monotone` — **Monotone conversion**.
-/

namespace MintFlow

open Transact

/-- A positive rate with at most 14 integer and 10 fractional digits. -/
def TableRate (rate : Decimal) : Prop :=
  0 < rate.coeff ∧ rate.toRat < 10 ^ 14 ∧ ∃ n : ℕ, rate.toRat = n / 10 ^ 10

/-- A stored rate is one that the table can hold. -/
lemma tableRate_unitsPerEur (r : ExchangeRateRecord) : TableRate ⟨r.unitsPerEur, -rateScale⟩ := by
  have hvalue : (Decimal.mk r.unitsPerEur (-rateScale)).toRat = r.unitsPerEur / 10 ^ 10 := by
    rw [Decimal.toRat, zpow_neg, zpow_natCast, ← div_eq_mul_inv]
    rfl
  refine ⟨r.positive, ?_, r.unitsPerEur, hvalue⟩
  have hfits : (r.unitsPerEur : ℚ) < 10 ^ ratePrecision := by exact_mod_cast r.fits
  rw [hvalue, div_lt_iff₀ (by norm_num)]
  unfold ratePrecision at hfits
  linarith

/-- The rates that are read from the table, and that of the euro, are rates that it can hold.

**Proof sketch.** By induction on the rows read so far: each puts one such rate. -/
lemma tableRate_latest [PythonRuntime] (table : RateTable) {currency : CurrencyCode}
    {rate : Decimal} (h : table.latest.unitsPerEur currency = some rate) : TableRate rate := by
  have hrows : ∀ r ∈ table.latest.rates, TableRate r.unitsPerEur := by
    unfold RateTable.latest
    refine List.foldlRecOn (motive := fun rates : Table ExchangeRate.code =>
      ∀ r ∈ rates, TableRate r.unitsPerEur) table.rows _ (fun _ hr => absurd hr List.not_mem_nil)
      ?_
    intro rates hrates record _ r hr
    cases hcode : CurrencyCode.new record.currency with
    | error message =>
      rw [hcode] at hr
      exact hrates r hr
    | ok currency =>
      rw [hcode] at hr
      rcases Table.mem_upsert.mp hr with rfl | ⟨hr, -⟩
      · exact tableRate_unitsPerEur record
      · exact hrates r hr
  unfold ExchangeRates.unitsPerEur at h
  split_ifs at h with heuro
  · obtain rfl := Option.some.inj h
    exact ⟨Nat.one_pos, by norm_num [Decimal.toRat], 10 ^ 10, by norm_num [Decimal.toRat]⟩
  · obtain ⟨r, hr, rfl⟩ := Option.map_eq_some_iff.mp h
    exact hrows r (Table.mem_of_find hr)

/-- Such a rate is far from the limits of the context. -/
lemma TableRate.moderate {rate : Decimal} (h : TableRate rate) : Moderate 14 rate.toRat := by
  obtain ⟨hpos, hlt, n, hn⟩ := h
  have hn' : 1 ≤ n := by
    have hrate := Decimal.toRat_pos.mpr hpos
    rw [hn] at hrate
    by_contra hzero
    rw [show n = 0 by omega] at hrate
    norm_num at hrate
  have hcast : (1 : ℚ) ≤ n := by exact_mod_cast hn'
  constructor
  · rw [hn]
    norm_num
    linarith
  · exact hlt.le.trans (by norm_num)

namespace ExchangeRates

/-! ## Conversion, with every signal -/

/-- The size of a converted amount, each operation fitted into the context. -/
def convertSizeInContext (minorUnits : ℕ) (source target : CurrencyCode)
    (sourceRate targetRate : Decimal) : Except Raised ℕ := do
  let major ← Decimal.fit ⟨minorUnits, -source.minorUnitExponent⟩
  let quotient ← major.divide sourceRate
  let product ← Decimal.fit ⟨quotient.coeff * targetRate.coeff, quotient.exp + targetRate.exp⟩
  let converted ← Decimal.fit ⟨product.coeff, product.exp + target.minorUnitExponent⟩
  converted.quantize

/-- `convert`, in the default context. -/
def convertInContext (rs : ExchangeRates) (minorUnits : ℤ) (source target : CurrencyCode) :
    Except Raised (Option ℤ) :=
  if source = target then .ok (some minorUnits)
  else
    match rs.unitsPerEur source, rs.unitsPerEur target with
    | some sourceRate, some targetRate =>
      (convertSizeInContext minorUnits.natAbs source target sourceRate targetRate).map
        fun size : ℕ => some (minorUnits.sign * size)
    | _, _ => .ok none

section Context

variable {source target : CurrencyCode} {sourceRate targetRate : Decimal} {n : ℕ}

/-- Nothing converts to nothing, in the context too. -/
lemma convertSizeInContext_zero (sourceRate targetRate : Decimal) :
    convertSizeInContext 0 source target sourceRate targetRate = .ok 0 := by
  obtain ⟨e₁, h₁⟩ := Decimal.fit_zero (-source.minorUnitExponent)
  obtain ⟨e₂, h₂⟩ := Decimal.fit_zero (e₁ - sourceRate.exp)
  obtain ⟨e₃, h₃⟩ := Decimal.fit_zero (e₂ + targetRate.exp)
  obtain ⟨e₄, h₄⟩ := Decimal.fit_zero (e₃ + target.minorUnitExponent)
  have hdivide : (Decimal.mk 0 e₁).divide sourceRate = .ok ⟨0, e₂⟩ := by
    rw [Decimal.divide, if_pos rfl]
    exact h₂
  unfold convertSizeInContext
  rw [h₁]
  show ((Decimal.mk 0 e₁).divide sourceRate >>= fun _ => _) = _
  rw [hdivide]
  show (Decimal.fit ⟨0 * targetRate.coeff, e₂ + targetRate.exp⟩ >>= fun _ => _) = _
  rw [Nat.zero_mul, h₃]
  show (Decimal.fit ⟨0, e₃ + target.minorUnitExponent⟩ >>= fun _ => _) = _
  rw [h₄]
  show Decimal.quantize ⟨0, e₄⟩ = _
  rw [Decimal.quantize, Decimal.quantizeToInt?_zero]

/-- An amount whose exact result is below `10 ^ 27` is far from the limits of the context.

**Proof sketch.** The amount is its exact result times powers and rates that are moderate
themselves. -/
lemma moderate_amount (hs : TableRate sourceRate) (ht : TableRate targetRate) (hn : 0 < n)
    (hlt : exactResult n source target sourceRate.toRat targetRate.toRat < 10 ^ 27) :
    Moderate 64 (n : ℚ) := by
  have hscale : (source.minorUnitExponent : ℤ).natAbs ≤ 3 := by
    rw [Int.natAbs_natCast]
    exact source.minorUnitExponent_le
  have hscale' : (-target.minorUnitExponent : ℤ).natAbs ≤ 3 := by
    rw [Int.natAbs_neg, Int.natAbs_natCast]
    exact target.minorUnitExponent_le
  have hfactor := ((Moderate.power hscale).mul hs.moderate).mul
    (ht.moderate.inv.mul (Moderate.power hscale'))
  have hvalue : (n : ℚ) = exactResult n source target sourceRate.toRat targetRate.toRat *
      (10 ^ (source.minorUnitExponent : ℤ) * sourceRate.toRat *
        (targetRate.toRat⁻¹ * 10 ^ (-target.minorUnitExponent : ℤ))) := by
    have hs' := hs.moderate.pos.ne'
    have ht' := ht.moderate.pos.ne'
    unfold exactResult
    rw [zpow_neg, zpow_neg]
    field_simp
  have hone : (1 : ℚ) ≤ n := by exact_mod_cast hn
  constructor
  · exact (zpow_le_one_of_nonpos₀ (by norm_num) (by norm_num)).trans hone
  · rw [hvalue]
    refine (mul_le_mul hlt.le hfactor.2 hfactor.pos.le (by norm_num)).trans ?_
    norm_num

/-- **No operation overflows or loses digits**, with rates that the table can hold: a conversion in
the context rounds the digits that are carried.

**Proof sketch.** The amount and the rates are far from the limits, and each operation adds little
to the order of magnitude. So each is rounded to 28 digits and nothing else. -/
theorem convertSizeInContext_eq (hs : TableRate sourceRate) (ht : TableRate targetRate)
    (hlt : exactResult n source target sourceRate.toRat targetRate.toRat < 10 ^ 27) :
    convertSizeInContext n source target sourceRate targetRate =
      .ok (roundHalfEven (carried n source target sourceRate.toRat targetRate.toRat)).toNat := by
  have hfits := roundHalfEven_carried_lt hs.1 ht.1 hlt
  rcases Nat.eq_zero_or_pos n with rfl | hn
  · rw [convertSizeInContext_zero, carried_zero, show (0 : ℚ) = ((0 : ℤ) : ℚ) from rfl,
      roundHalfEven_intCast]
    rfl
  have hp := precision_pos
  have hexp : (-source.minorUnitExponent : ℤ).natAbs ≤ 3 := by
    rw [Int.natAbs_neg, Int.natAbs_natCast]
    exact source.minorUnitExponent_le
  have hexp' : (target.minorUnitExponent : ℤ).natAbs ≤ 3 := by
    rw [Int.natAbs_natCast]
    exact target.minorUnitExponent_le
  -- the amount in major units
  have hscaled := (moderate_amount hs ht hn hlt).mul (Moderate.power hexp)
  have hvalue : (Decimal.mk n (-source.minorUnitExponent)).toRat =
      n * 10 ^ (-source.minorUnitExponent : ℤ) := rfl
  obtain ⟨major, hmajor, hmajorvalue⟩ := Decimal.fit_moderate (d := ⟨n, -source.minorUnitExponent⟩)
    (hvalue ▸ hscaled.mono (by omega))
  rw [hvalue] at hmajorvalue
  have hmajororder := hmajorvalue ▸ hscaled.roundSig hp
  -- the quotient
  have hdivided := hmajororder.mul hs.moderate.inv
  rw [← div_eq_mul_inv] at hdivided
  obtain ⟨quotient, hquotient, hquotientvalue⟩ := Decimal.divide_moderate
    (Decimal.toRat_pos.mp hmajororder.pos) hs.1 (hdivided.mono (by omega))
  have hquotientorder := hquotientvalue ▸ hdivided.roundSig hp
  -- the product
  have hmultiplied := hquotientorder.mul ht.moderate
  have hproductexact : (Decimal.mk (quotient.coeff * targetRate.coeff)
      (quotient.exp + targetRate.exp)).toRat = quotient.toRat * targetRate.toRat := by
    rw [Decimal.toRat, Decimal.toRat, Decimal.toRat, zpow_ten_add]
    push_cast
    ring
  obtain ⟨product, hproduct, hproductvalue⟩ := Decimal.fit_moderate
    (hproductexact ▸ hmultiplied.mono (by omega))
  rw [hproductexact] at hproductvalue
  have hproductorder := hproductvalue ▸ hmultiplied.roundSig hp
  -- the product in minor units
  have hconvertedexact := ExtendedDecimal.toRat_shift product target.minorUnitExponent
  obtain ⟨converted, hconverted, hconvertedvalue⟩ := Decimal.fit_moderate
    (hconvertedexact ▸ (hproductorder.mul (Moderate.power hexp')).mono (by omega))
  have hcarried : converted.toRat =
      carried n source target sourceRate.toRat targetRate.toRat := by
    rw [hconvertedvalue, hconvertedexact, roundSig_shift hproductorder.pos, hproductvalue,
      roundSig_roundSig hp hmultiplied.pos, hquotientvalue, hmajorvalue]
    rfl
  unfold convertSizeInContext
  rw [hmajor]
  show (major.divide sourceRate >>= fun _ => _) = _
  rw [hquotient]
  show (Decimal.fit ⟨quotient.coeff * targetRate.coeff, _⟩ >>= fun _ => _) = _
  rw [hproduct]
  show (Decimal.fit ⟨product.coeff, _⟩ >>= fun _ => _) = _
  rw [hconverted]
  show converted.quantize = _
  rw [Decimal.quantize_eq_ok (hcarried ▸ hfits), hcarried]

end Context

/-! ## Order and zero -/

section Monotone

variable {rs : ExchangeRates} {source target : CurrencyCode} {sourceRate targetRate : Decimal}

/-- The exact result grows with the amount. -/
lemma exactResult_mono {m n : ℕ} (hs : 0 < sourceRate.coeff) (ht : 0 < targetRate.coeff)
    (h : m ≤ n) : exactResult m source target sourceRate.toRat targetRate.toRat ≤
      exactResult n source target sourceRate.toRat targetRate.toRat := by
  have hs' := Decimal.toRat_pos.mpr hs
  have ht' := Decimal.toRat_pos.mpr ht
  have hcast : (m : ℚ) ≤ n := by exact_mod_cast h
  unfold exactResult
  refine mul_le_mul_of_nonneg_right ?_ (zpow_ten_pos _).le
  refine mul_le_mul_of_nonneg_right ?_ ht'.le
  refine div_le_div_of_nonneg_right ?_ hs'.le
  exact mul_le_mul_of_nonneg_right hcast (zpow_ten_pos _).le

/-- **In the context, a conversion is what it is without limits**: the carried result, rounded.

**Proof sketch.** Each operation stays far from the limits of the context, so fitting is rounding
(`convertSizeInContext_eq`), and the carried result has few enough digits. -/
theorem convertInContext_eq (hs : rs.unitsPerEur source = some sourceRate)
    (ht : rs.unitsPerEur target = some targetRate) (hs' : TableRate sourceRate)
    (ht' : TableRate targetRate) {n : ℕ}
    (hlt : exactResult n source target sourceRate.toRat targetRate.toRat < 10 ^ 27) :
    ∃ v, rs.convertInContext n source target = .ok (some v) ∧
      rs.convert n source target = .ok (some v) := by
  by_cases hst : source = target
  · unfold convertInContext convert
    exact ⟨n, if_pos hst, if_pos hst⟩
  · have hsize : 0 ≤ roundHalfEven (carried n source target sourceRate.toRat targetRate.toRat) := by
      have h := roundHalfEven_mono (@carried_nonneg source target _ _ n hs'.1 ht'.1)
      rwa [show (0 : ℚ) = ((0 : ℤ) : ℚ) from rfl, roundHalfEven_intCast] at h
    refine ⟨_, ?_, (convert_eq hst hs ht n).trans
      (if_pos (roundHalfEven_carried_lt hs'.1 ht'.1 hlt))⟩
    unfold convertInContext
    rw [if_neg hst, hs, ht]
    show Except.map _ (convertSizeInContext (Int.natAbs n) source target sourceRate targetRate) = _
    rw [Int.natAbs_natCast, convertSizeInContext_eq hs' ht' hlt]
    show Except.ok (some ((n : ℤ).sign * (Int.toNat _ : ℤ))) = _
    rw [Int.toNat_of_nonneg hsize]
    rcases Nat.eq_zero_or_pos n with rfl | hn
    · rw [carried_zero, show (0 : ℚ) = ((0 : ℤ) : ℚ) from rfl, roundHalfEven_intCast]
      rfl
    · rw [Int.sign_natCast_of_ne_zero hn.ne', one_mul]

/-- **Monotone conversion.** With rates that the table can hold, no operation of a conversion whose
exact result is below `10 ^ 27` raises; of two amounts the greater does not convert to less, no
amount converts to less than nothing, and nothing converts to nothing.

**Proof sketch.** Each operation rounds digits, which is monotone even where the exponent changes:
a number rounds to the next power of ten at most. -/
theorem convertInContext_monotone (hs : rs.unitsPerEur source = some sourceRate)
    (ht : rs.unitsPerEur target = some targetRate) (hs' : TableRate sourceRate)
    (ht' : TableRate targetRate) {a b : ℕ} (hab : a ≤ b)
    (hlt : exactResult b source target sourceRate.toRat targetRate.toRat < 10 ^ 27) :
    ∃ u v, rs.convertInContext a source target = .ok (some u) ∧
      rs.convertInContext b source target = .ok (some v) ∧
      rs.convert a source target = .ok (some u) ∧ rs.convert b source target = .ok (some v) ∧
      0 ≤ u ∧ u ≤ v ∧ rs.convertInContext 0 source target = .ok (some 0) := by
  have hzero : ∀ m ≤ b, exactResult m source target sourceRate.toRat targetRate.toRat < 10 ^ 27 :=
    fun m hm => (exactResult_mono hs'.1 ht'.1 hm).trans_lt hlt
  have hconvert : rs.canConvert source target = true := by
    unfold canConvert
    rw [hs, ht]
    simp
  obtain ⟨z, hz, hz'⟩ := convertInContext_eq hs ht hs' ht' (hzero 0 (Nat.zero_le b))
  obtain ⟨u, hu, hu'⟩ := convertInContext_eq hs ht hs' ht' (hzero a hab)
  obtain ⟨v, hv, hv'⟩ := convertInContext_eq hs ht hs' ht' hlt
  have hnothing : z = 0 :=
    Option.some.inj (Except.ok.inj (hz'.symm.trans (convert_zero hconvert)))
  subst hnothing
  obtain ⟨u', hle, hu''⟩ := convert_mono hab hv'
  obtain ⟨z', hle', hz''⟩ := convert_mono (Nat.zero_le a) hu'
  obtain rfl := Option.some.inj (Except.ok.inj (hu'.symm.trans hu''))
  obtain rfl := Option.some.inj (Except.ok.inj (hz'.symm.trans hz''))
  exact ⟨u, v, hu, hv, hu', hv', hle', hle, hz⟩

end Monotone

/-- One dollar and two dollars in pounds. -/
theorem convertInContext_monotone_halving :
    letI := PythonRuntime.ascii
    ∃ u v, halving.latest.convertInContext 100 dollar ⟨"GBP", by decide⟩ = .ok (some u) ∧
      halving.latest.convertInContext 200 dollar ⟨"GBP", by decide⟩ = .ok (some v) ∧
      halving.latest.convert 100 dollar ⟨"GBP", by decide⟩ = .ok (some u) ∧
      halving.latest.convert 200 dollar ⟨"GBP", by decide⟩ = .ok (some v) ∧ 0 ≤ u ∧ u ≤ v ∧
      halving.latest.convertInContext 0 dollar ⟨"GBP", by decide⟩ = .ok (some 0) := by
  let _ := PythonRuntime.ascii
  have hdollar : halving.latest.unitsPerEur dollar = some ⟨70000000000, -10⟩ := by decide +kernel
  have hpound : halving.latest.unitsPerEur ⟨"GBP", by decide⟩ = some ⟨35000000000, -10⟩ := by
    decide +kernel
  exact convertInContext_monotone hdollar hpound (tableRate_latest halving hdollar)
    (tableRate_latest halving hpound) (show 100 ≤ 200 by decide) (by decide +kernel)

end ExchangeRates

end MintFlow
