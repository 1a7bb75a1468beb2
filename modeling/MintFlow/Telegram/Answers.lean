import MintFlow.Receipts.Azure
import MintFlow.Receipts.Selection
import MintFlow.Telegram.ReceiptWorker
import Mathlib.Data.List.ReduceOption
import Mathlib.Tactic.Linarith

set_option relaxedAutoImplicit false
set_option autoImplicit false

/-!
# Which recognizer answers can be stored

An answer passes through the mapping to candidates, the selection of values and the columns of the
result. What the layers pass on to each other are value objects, but the selection compares and
converts decimals that may be special, and a name may hold what no column takes.

## Main definitions

* `MintFlow.AnswerFits` — the calendar has the days that are asked for, no special number is compared
  or converted, and the name that is foremost can be stored.

## Main results

* `MintFlow.selectValues_isOk_iff` — when the selection returns.
* `MintFlow.answerFits_iff` — the values of an answer are selected and sent exactly when it fits.
-/

namespace MintFlow

open Transact Transact.Prog

/-! ## Numbers -/

/-- Only infinity is keyed as infinity. -/
lemma key_eq_infinity {value : ExtendedDecimal} :
    value.key = (ExtendedDecimal.infinity false).key ↔ value = .infinity false := by
  cases value with
  | finite negative d => exact iff_of_false nofun nofun
  | nan signaling => exact iff_of_false nofun nofun
  | infinity negative =>
    constructor
    · intro h
      rw [Option.some.inj (Sum.inr.inj h)]
    · exact fun h => congrArg _ h

/-- A number that can be printed is scaled without an overflow. -/
lemma scaled_lt_overflowLimit {d : Decimal} (h : d.toRat < 10 ^ 4300) (currency : CurrencyCode) :
    d.toRat * 10 ^ (currency.minorUnitExponent : ℤ) < overflowLimit := by
  have hexp := currency.minorUnitExponent_le
  have hscale : (10 : ℚ) ^ (currency.minorUnitExponent : ℤ) ≤ 10 ^ (3 : ℤ) :=
    zpow_le_zpow_right₀ (by norm_num) (by omega)
  calc d.toRat * 10 ^ (currency.minorUnitExponent : ℤ)
      ≤ d.toRat * 10 ^ (3 : ℤ) := mul_le_mul_of_nonneg_left hscale (Decimal.toRat_nonneg d)
    _ < 10 ^ 4300 * 10 ^ (3 : ℤ) := mul_lt_mul_of_pos_right h (zpow_ten_pos _)
    _ = 10 ^ ((4300 : ℕ) + 3 : ℤ) := by rw [zpow_ten_add, zpow_natCast]
    _ ≤ 10 ^ Decimal.maxAdjusted := zpow_le_zpow_right₀ (by norm_num) (by decide)
    _ ≤ overflowLimit := le_overflowLimit

/-- A recognized number is read or refused, unless it is positive infinity.

**Proof sketch.** A positive number is finite or positive infinity. A finite one that was printed
stays below the overflow limit when it is scaled, so it is read or refused. -/
lemma recognizedMoney_isOk_iff {value : ExtendedDecimal} {currency : CurrencyCode}
    (hpositive : value.isPositive = .ok true) (hprinted : Printed value) :
    (∃ money, recognizedMoney value currency = .ok money) ↔ value ≠ .infinity false := by
  cases value with
  | nan _ => cases hpositive
  | infinity negative =>
    cases negative with
    | true => cases hpositive
    | false =>
      refine iff_of_false ?_ fun h => h rfl
      rintro ⟨money, h⟩
      cases h
  | finite negative d =>
    obtain rfl : negative = false := by
      cases negative with
      | true => simp [ExtendedDecimal.isPositive] at hpositive
      | false => rfl
    refine iff_of_true ?_ fun h => by cases h
    have hd : 0 < d.coeff := by simpa [ExtendedDecimal.isPositive] using hpositive
    have hlt := scaled_lt_overflowLimit hprinted.1 currency
    by_cases hint : ∃ n : ℕ, fitted (d.toRat * 10 ^ (currency.minorUnitExponent : ℤ)) = n
    · obtain ⟨n, hn⟩ := hint
      exact ⟨_, ExtendedDecimal.withScaled_integer _ _ hd hlt hn⟩
    · push Not at hint
      exact ⟨_, ExtendedDecimal.withScaled_fraction _ _ hd hlt hint⟩

section Totals

variable {C : Type} [LinearOrder C] [Sub C] [OfScientific C] {candidates : List (TotalCandidate C)}

omit [LinearOrder C] [Sub C] [OfScientific C] in
/-- A total is compared, unless it is no number. -/
lemma usableTotal_isOk_iff (t : TotalCandidate C) :
    (∃ scored, usableTotal t = .ok scored) ↔
      (t.label = .total → ∀ signaling, t.value ≠ .nan signaling) := by
  unfold usableTotal
  split_ifs with hlabel
  · cases hvalue : t.value with
    | finite negative d => exact iff_of_true ⟨_, rfl⟩ fun _ _ => nofun
    | infinity negative => exact iff_of_true ⟨_, rfl⟩ fun _ _ => nofun
    | nan signaling =>
      refine iff_of_false ?_ fun h => h hlabel signaling rfl
      rintro ⟨scored, h⟩
      cases h
  · exact iff_of_true ⟨_, rfl⟩ fun h => absurd h hlabel

omit [LinearOrder C] [Sub C] [OfScientific C] in
/-- What was compared is a positive total of the candidates.

**Proof sketch.** The loop goes through the candidates one by one, and a candidate is usable only
when it is a positive total. -/
lemma mem_of_usableTotals {scored : List (Option (ExtendedDecimal × C))}
    (h : candidates.mapM usableTotal = .ok scored) {value : ExtendedDecimal}
    (hmem : value ∈ scored.reduceOption.map Prod.fst) :
    value.isPositive = .ok true ∧ ∃ t ∈ candidates, t.value = value := by
  obtain ⟨⟨v, confidence⟩, hs, rfl⟩ := List.mem_map.mp hmem
  have hs' : some (v, confidence) ∈ scored := List.reduceOption_mem_iff.mp hs
  obtain ⟨t, ht, htotal⟩ : ∃ t ∈ candidates, usableTotal t = .ok (some (v, confidence)) := by
    have hall := Checked.mapM_eq_ok.mp h
    obtain ⟨i, hi, hget⟩ := List.getElem_of_mem hs'
    have hlength := hall.length_eq
    have hrel := (List.forall₂_iff_get.mp hall).2 i (by omega) hi
    refine ⟨candidates.get ⟨i, by omega⟩, List.get_mem _ _, ?_⟩
    rw [hrel]
    exact congrArg Except.ok hget
  unfold usableTotal at htotal
  split_ifs at htotal
  · obtain ⟨positive, hpositive, htotal⟩ := Checked.bind_eq_ok.mp htotal
    cases positive with
    | false => cases htotal
    | true =>
      cases htotal
      exact ⟨hpositive, t, ht, rfl⟩
  · cases htotal

/-- **The total** is selected or not, unless a total is no number or infinity is foremost.

**Proof sketch.** The loop over the totals goes through exactly when none of them is NaN
(`usableTotal_isOk_iff`). What leads is foremost, and of what can lead only infinity raises
(`recognizedMoney_isOk_iff`). -/
lemma selectTotal_isOk_iff [ConfidenceGap C] {output : RecognitionOutput C}
    (hprinted : ∀ t ∈ output.totals, Printed t.value) (hnonneg : ConfidencesNonneg output)
    (currency : Option CurrencyCode) :
    (∃ total, selectTotal output.totals currency = .ok total) ↔
      (currency.isSome = true →
        (∀ t ∈ output.totals, t.label = .total → ∀ signaling, t.value ≠ .nan signaling) ∧
          ¬ Foremost (readsTotal output) 0.8 (ExtendedDecimal.infinity false).key) := by
  cases currency with
  | none => exact iff_of_true ⟨none, rfl⟩ nofun
  | some currency =>
    have hcompared :
        (∀ t ∈ output.totals, t.label = .total → ∀ signaling, t.value ≠ .nan signaling) ↔
          ∃ scored, output.totals.mapM usableTotal = .ok scored := by
      rw [Checked.mapM_isOk_iff]
      exact forall₂_congr fun t _ => (usableTotal_isOk_iff t).symm
    rw [Option.isSome_some, eq_self, true_implies, hcompared]
    unfold selectTotal
    dsimp only
    cases hscored : output.totals.mapM usableTotal with
    | error e =>
      refine iff_of_false ?_ ?_
      · rintro ⟨total, h⟩
        cases h
      · rintro ⟨⟨scored, h⟩, -⟩
        cases h
    | ok scored =>
      rw [Checked.bind_ok]
      rw [← leader_totals_eq_some_iff hnonneg hscored]
      cases hleader : leader ExtendedDecimal.key scored.reduceOption (0.8 : C) with
      | none => exact iff_of_true ⟨none, rfl⟩ ⟨⟨scored, rfl⟩, nofun⟩
      | some chosen =>
        obtain ⟨hpositive, t, ht, rfl⟩ := mem_of_usableTotals hscored (leader_mem hleader)
        have hkey : t.value ≠ .infinity false ↔
            ¬ (some t.value).map ExtendedDecimal.key = some (ExtendedDecimal.infinity false).key := by
          rw [Option.map_some, Option.some.injEq, key_eq_infinity]
        dsimp only
        rw [recognizedMoney_isOk_iff hpositive (hprinted t ht), hkey]
        exact ⟨fun h => ⟨⟨scored, rfl⟩, h⟩, fun h => h.2⟩

end Totals

/-- A number that can be printed and is positive stays so when it is scaled. -/
lemma fitted_scaled_pos {d : Decimal} (hd : 0 < d.coeff) (hexp : -400 ≤ d.exp)
    (currency : CurrencyCode) :
    0 < fitted (d.toRat * 10 ^ (currency.minorUnitExponent : ℤ)) := by
  refine fitted_pos ?_
  have hone : (1 : ℚ) ≤ d.coeff := by exact_mod_cast hd
  have hscale : (1 : ℚ) ≤ 10 ^ (currency.minorUnitExponent : ℤ) :=
    one_le_zpow₀ (by norm_num) (Int.natCast_nonneg _)
  calc (10 : ℚ) ^ Decimal.leastExp ≤ 10 ^ d.exp :=
        zpow_le_zpow_right₀ (by norm_num) (le_trans (by decide) hexp)
    _ ≤ d.coeff * 10 ^ d.exp := le_mul_of_one_le_left (zpow_ten_pos _).le hone
    _ = d.toRat := rfl
    _ ≤ d.toRat * 10 ^ (currency.minorUnitExponent : ℤ) :=
        le_mul_of_one_le_right (Decimal.toRat_nonneg d) hscale

/-- **A total that is selected** is positive.

**Proof sketch.** The money is the leading amount in minor units, and a printed amount is not so
small that it rounds to zero. -/
lemma pos_of_selectTotal {C : Type} [Sub C] [LT C] [DecidableLT C] [OfScientific C]
    {candidates : List (TotalCandidate C)} (hprinted : ∀ t ∈ candidates, Printed t.value)
    {currency : Option CurrencyCode} {m : Money}
    (h : selectTotal candidates currency = .ok (some m)) : 0 < m.minorUnits := by
  cases currency with
  | none => cases h
  | some currency =>
    obtain ⟨scored, hscored, h⟩ := Checked.bind_eq_ok.mp h
    cases hleader : leader ExtendedDecimal.key scored.reduceOption (0.8 : C) with
    | none =>
      rw [hleader] at h
      cases h
    | some chosen =>
      rw [hleader] at h
      obtain ⟨hpositive, t, ht, rfl⟩ := mem_of_usableTotals hscored (leader_mem hleader)
      obtain ⟨-, d, hvalue, hd, hunits⟩ := recognizedMoney_eq_some hpositive h
      have hexp : -400 ≤ d.exp := by
        have hp := hprinted t ht
        rw [hvalue] at hp
        exact hp.2
      have hpos := fitted_scaled_pos hd hexp currency
      rw [← hunits] at hpos
      exact_mod_cast hpos

/-! ## Dates -/

section Dates

variable [PythonRuntime] {now : Instant} {timezone : String} {today : Date}

/-- A reading is judged as soon as the calendar reaches back a year from today: a reading that is
judged further is no date when today is the calendar's last.

**Proof sketch.** The day 366 days before today must be in the calendar. The tolerance raises
only when today is the last day, which is in 9999, and a reading that comes so far is a date
before 2101. -/
lemma plausibleDate_isOk_iff (htoday : PythonRuntime.localDate timezone now = some today)
    (reading : Date) :
    (∃ date, plausibleDate today now timezone reading = .ok date) ↔ 366 < today.ordinal := by
  have hvalid := today.valid
  unfold plausibleDate
  by_cases hlt : 366 < today.ordinal
  · refine iff_of_true ?_ hlt
    obtain ⟨oldest, holdest, hordinal⟩ := Date.addDays?_eq_some (d := today) (n := -366)
      (by omega) (by omega)
    rw [holdest, inCalendar, Checked.bind_ok]
    split_ifs with hold
    · exact ⟨none, rfl⟩
    · cases hdate : TransactionDate.new reading with
      | error e => exact ⟨none, rfl⟩
      | ok date =>
        have hyear : reading.year < 2101 := by
          unfold TransactionDate.new at hdate
          split_ifs at hdate with h
          omega
        have hreading : reading.ordinal + 367 ≤ maxOrdinal :=
          (Nat.add_le_add_right (Date.ordinal_lt_of_year_lt hyear) 367).trans (by decide)
        have hafter : oldest.ordinal ≤ reading.ordinal := not_lt.mp hold
        have htolerance : isWithinFutureTolerance date now timezone = .ok
            (decide (date.value.ordinal ≤ today.ordinal + 1)) :=
          isWithinFutureTolerance_eq_ok.mpr ⟨today, htoday, by omega, rfl⟩
        exact ⟨_, Checked.bind_eq_ok.mpr ⟨_, htolerance, rfl⟩⟩
  · refine iff_of_false ?_ hlt
    have hnone : today.addDays? (-366) = none := Date.addDays?_eq_none.mpr (by omega)
    rw [hnone]
    rintro ⟨date, h⟩
    cases h

/-- A candidate is read unless it has readings and the calendar does not reach back far enough.

**Proof sketch.** Only the readings raise, and each of them raises on the same condition
(`plausibleDate_isOk_iff`). -/
lemma trustedReading_isOk_iff {C : Type}
    (htoday : PythonRuntime.localDate timezone now = some today) (candidate : DateCandidate C) :
    (∃ scored, trustedReading today now timezone candidate = .ok scored) ↔
      (candidate.readings ≠ [] → 366 < today.ordinal) := by
  have hreadings : (∃ dates, candidate.readings.dedup.mapM (plausibleDate today now timezone) =
      .ok dates) ↔ (candidate.readings ≠ [] → 366 < today.ordinal) := by
    rw [Checked.mapM_isOk_iff]
    constructor
    · intro h hne
      obtain ⟨reading, hmem⟩ := List.exists_mem_of_ne_nil _ hne
      exact (plausibleDate_isOk_iff htoday reading).mp (h reading (List.mem_dedup.mpr hmem))
    · intro h reading hmem
      exact (plausibleDate_isOk_iff htoday reading).mpr
        (h (List.ne_nil_of_mem (List.mem_dedup.mp hmem)))
  rw [← hreadings]
  unfold trustedReading
  cases candidate.readings.dedup.mapM (plausibleDate today now timezone) with
  | error e =>
    refine iff_of_false ?_ ?_ <;>
    · rintro ⟨_, h⟩
      cases h
  | ok dates =>
    refine iff_of_true ?_ ⟨dates, rfl⟩
    rw [Checked.bind_ok]
    split
    · exact ⟨_, rfl⟩
    · exact ⟨_, rfl⟩

/-- **The date** is selected or not, unless the calendar has no today, or there is something to judge
and the calendar does not reach back far enough.

**Proof sketch.** Today is asked for first, whatever the candidates are. From then on a candidate
raises only where it has readings, all of which ask for the day a year ago. -/
lemma selectDate_isOk_iff {C : Type} [Sub C] [LT C] [DecidableLT C] [OfScientific C]
    (candidates : List (DateCandidate C)) :
    (∃ date, selectDate candidates now timezone = .ok date) ↔
      ∃ today, PythonRuntime.localDate timezone now = some today ∧
        ((∃ candidate ∈ candidates, candidate.readings ≠ []) → 366 < today.ordinal) := by
  unfold selectDate localToday
  cases htoday : PythonRuntime.localDate timezone now with
  | none =>
    refine iff_of_false ?_ ?_
    · rintro ⟨date, h⟩
      cases h
    · rintro ⟨today, h, -⟩
      cases h
  | some today =>
    rw [inCalendar, Checked.bind_ok]
    have hall : (∃ scored, candidates.mapM (trustedReading today now timezone) = .ok scored) ↔
        ((∃ candidate ∈ candidates, candidate.readings ≠ []) → 366 < today.ordinal) := by
      rw [Checked.mapM_isOk_iff]
      constructor
      · rintro h ⟨candidate, hmem, hne⟩
        exact (trustedReading_isOk_iff htoday candidate).mp (h candidate hmem) hne
      · exact fun h candidate hmem => (trustedReading_isOk_iff htoday candidate).mpr
          fun hne => h ⟨candidate, hmem, hne⟩
    simp only [Option.some.injEq, exists_eq_left']
    rw [← hall]
    cases candidates.mapM (trustedReading today now timezone) with
    | error e =>
      refine iff_of_false ?_ ?_ <;>
      · rintro ⟨_, h⟩
        cases h
    | ok scored => exact iff_of_true ⟨_, rfl⟩ ⟨scored, rfl⟩

end Dates

/-! ## Names -/

/-- Every code point of a name is a character that a column takes. -/
def RecognizedMerchant.Storable (name : RecognizedMerchant) : Prop :=
  ∀ c ∈ name.value, ∃ ch : Char, c = .inl ch ∧ ch ≠ Char.ofNat 0

/-- A name is sent exactly when it can be stored.

**Proof sketch.** A name without surrogates is encoded as its text, and the driver refuses a text
with a zero character; a name with a surrogate is not encoded. -/
lemma sentName_isOk_iff (name : RecognizedMerchant) :
    (∃ sent, sentName name = .ok sent) ↔ name.Storable := by
  by_cases hall : name.value.all Sum.isLeft = true
  · have htext : name.value.toString? =
        some (String.ofList (name.value.filterMap Sum.getLeft?)) := if_pos hall
    obtain ⟨sent, hencode, hsent⟩ : ∃ sent, name.encode = some sent ∧
        sent.value = String.ofList (name.value.filterMap Sum.getLeft?) := by
      unfold RecognizedMerchant.encode
      split
      · rename_i hnone
        rw [htext] at hnone
        cases hnone
      · rename_i s hs
        rw [htext] at hs
        exact ⟨_, rfl, (Option.some.inj hs).symm⟩
    have hnul : Char.ofNat 0 ∈ sent.value.toList ↔ (.inl (Char.ofNat 0) : CodePoint) ∈ name.value := by
      rw [hsent, String.toList_ofList, List.mem_filterMap]
      constructor
      · rintro ⟨c, hc, hleft⟩
        rw [Sum.getLeft?_eq_some_iff] at hleft
        exact hleft ▸ hc
      · exact fun h => ⟨_, h, rfl⟩
    have hsend : (∃ sent, sentName name = .ok sent) ↔ ¬ Char.ofNat 0 ∈ sent.value.toList := by
      unfold sentName
      rw [hencode]
      dsimp only
      split_ifs with h
      · exact iff_of_false nofun (not_not.mpr h)
      · exact iff_of_true ⟨_, rfl⟩ h
    rw [hsend, hnul]
    constructor
    · intro h c hc
      obtain ⟨ch, rfl⟩ := Sum.isLeft_iff.mp (List.all_eq_true.mp hall c hc)
      exact ⟨ch, rfl, fun hch => h (hch ▸ hc)⟩
    · intro h hmem
      obtain ⟨ch, hch, hne⟩ := h _ hmem
      exact hne (Sum.inl.inj hch).symm
  · have htext : name.value.toString? = none := if_neg hall
    have hencode : name.encode = none := by
      unfold RecognizedMerchant.encode
      split
      · rfl
      · rename_i s hs
        rw [htext] at hs
        cases hs
    refine iff_of_false ?_ fun h => hall (List.all_eq_true.mpr fun c hc => ?_)
    · rintro ⟨sent, h⟩
      rw [sentName, hencode] at h
      cases h
    · obtain ⟨ch, rfl, -⟩ := h c hc
      rfl

/-! ## Values -/

section Values

variable [PythonRuntime]

/-- An answer fits a time and a time zone: the calendar has today, and a year before it when a date
was read; when a currency is foremost no total is no number and infinity is not foremost among the
totals; and a merchant that is foremost can be stored. -/
structure AnswerFits (output : RecognitionOutput Binary64) (now : Instant) (timezone : String) :
    Prop where
  calendar : ∃ today, PythonRuntime.localDate timezone now = some today ∧
    ((∃ candidate ∈ output.dates, candidate.readings ≠ []) → 366 < today.ordinal)
  compared : (∃ currency, Foremost (readsCurrency output) 0.8 currency) →
    ∀ t ∈ output.totals, t.label = .total → ∀ signaling, t.value ≠ .nan signaling
  converted : (∃ currency, Foremost (readsCurrency output) 0.8 currency) →
    ¬ Foremost (readsTotal output) 0.8 (ExtendedDecimal.infinity false).key
  stored : ∀ name, Foremost (readsMerchant output) 0.6 name → name.Storable

variable {output : RecognitionOutput Binary64} {now : Instant} {timezone : String}

/-- **The selection** returns exactly when neither the date nor the total raises.

**Proof sketch.** Merchant and currency never raise. The currency that is handed to the total is
there exactly when one is foremost (`selectCurrency_eq_some_iff`). -/
lemma selectValues_isOk_iff (hprinted : ∀ t ∈ output.totals, Printed t.value)
    (hnonneg : ConfidencesNonneg output) :
    (∃ values, selectValues output now timezone = .ok values) ↔
      (∃ today, PythonRuntime.localDate timezone now = some today ∧
        ((∃ candidate ∈ output.dates, candidate.readings ≠ []) → 366 < today.ordinal)) ∧
      ((∃ currency, Foremost (readsCurrency output) 0.8 currency) →
        (∀ t ∈ output.totals, t.label = .total → ∀ signaling, t.value ≠ .nan signaling) ∧
          ¬ Foremost (readsTotal output) 0.8 (ExtendedDecimal.infinity false).key) := by
  have hcurrency : (∃ currency, Foremost (readsCurrency output) 0.8 currency) ↔
      (selectCurrency output.currencies).isSome = true := by
    rw [Option.isSome_iff_exists]
    exact exists_congr fun currency => (selectCurrency_eq_some_iff hnonneg).symm
  rw [hcurrency, ← selectDate_isOk_iff output.dates, ← selectTotal_isOk_iff hprinted hnonneg]
  unfold selectValues
  constructor
  · rintro ⟨values, h⟩
    obtain ⟨date, hdate, h⟩ := Checked.bind_eq_ok.mp h
    obtain ⟨total, htotal, -⟩ := Checked.bind_eq_ok.mp h
    exact ⟨⟨date, hdate⟩, total, htotal⟩
  · rintro ⟨⟨date, hdate⟩, total, htotal⟩
    exact ⟨_, Checked.bind_eq_ok.mpr ⟨date, hdate, Checked.bind_eq_ok.mpr ⟨total, htotal, rfl⟩⟩⟩

/-- The name that is selected is the one that leads. -/
lemma merchant_selectValues {values : SelectedValues}
    (h : selectValues output now timezone = .ok values) :
    values.merchant = selectMerchant output.merchants := by
  obtain ⟨_, -, h⟩ := Checked.bind_eq_ok.mp h
  obtain ⟨_, -, h⟩ := Checked.bind_eq_ok.mp h
  rw [← Checked.pure_eq_ok.mp h]

/-- The total that is selected is positive. -/
lemma pos_of_selectValues (hprinted : ∀ t ∈ output.totals, Printed t.value)
    {values : SelectedValues} (h : selectValues output now timezone = .ok values) :
    ∀ m ∈ values.total, 0 < m.minorUnits := by
  obtain ⟨_, -, h⟩ := Checked.bind_eq_ok.mp h
  obtain ⟨total, htotal, h⟩ := Checked.bind_eq_ok.mp h
  intro m hm
  rw [← Checked.pure_eq_ok.mp h] at hm
  obtain rfl : total = some m := hm
  exact pos_of_selectTotal hprinted htotal

/-- **The values** of an answer are selected and sent exactly when it fits.

**Proof sketch.** The values are selected under the first three conditions
(`selectValues_isOk_iff`), and the merchant that is selected is the foremost one, which can be sent
under the last (`sentName_isOk_iff`). -/
lemma answerFits_iff (hprinted : ∀ t ∈ output.totals, Printed t.value)
    (hnonneg : ConfidencesNonneg output) :
    (∃ values, selectValues output now timezone = .ok values ∧
      ∀ name ∈ values.merchant, ∃ sent, sentName name = .ok sent) ↔
    AnswerFits output now timezone := by
  have hmerchant : ∀ {values}, selectValues output now timezone = .ok values → ∀ name,
      name ∈ values.merchant ↔ Foremost (readsMerchant output) 0.6 name := by
    intro values hvalues name
    rw [merchant_selectValues hvalues]
    exact selectMerchant_eq_some_iff hnonneg
  constructor
  · rintro ⟨values, hvalues, hsent⟩
    obtain ⟨hdates, htotals⟩ := (selectValues_isOk_iff hprinted hnonneg).mp ⟨values, hvalues⟩
    exact ⟨hdates, fun h => (htotals h).1, fun h => (htotals h).2,
      fun name hname => (sentName_isOk_iff name).mp (hsent name ((hmerchant hvalues name).mpr hname))⟩
  · intro h
    obtain ⟨values, hvalues⟩ := (selectValues_isOk_iff hprinted hnonneg).mpr
      ⟨h.calendar, fun hc => ⟨h.compared hc, h.converted hc⟩⟩
    exact ⟨values, hvalues, fun name hname =>
      (sentName_isOk_iff name).mpr (h.stored name ((hmerchant hvalues name).mp hname))⟩

end Values

end MintFlow
