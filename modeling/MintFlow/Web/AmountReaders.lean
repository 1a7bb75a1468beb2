import MintFlow.Receipts.Recognition
import MintFlow.Telegram.Parsing
import MintFlow.Web.ExpenseForm
import Mathlib.Data.List.TakeWhile

set_option relaxedAutoImplicit false
set_option autoImplicit false

/-!
# The three readers of amounts

A typed Telegram message, the edit form and a recognized receipt each scale a number to minor units,
test that the result is integral, and read it as money. All three scale in the decimal context, so
what they test is not the exact product but the nearest number that fits.

## Main definitions

* `MintFlow.telegramMoney`, `MintFlow.webMoney`, `MintFlow.receiptMoney` — the money that each reads,
  or nothing when it refuses.
* `MintFlow.ReadsExactly` — a reader gives the amount that the number is, and refuses any other.

## Main results

* `MintFlow.amount_readers_exact_iff` — the three are exact, and so agree, unless the number
  overflows or is near an amount that it is not.
-/

namespace MintFlow

open Transact Babel

/-! ## The readers -/

/-- A `ValueError` is a refusal; anything else that is raised is not. -/
def refused {α : Type} : Except Raised α → Except Raised (Option α)
  | .ok a => .ok (some a)
  | .error (.valueError _) => .ok none
  | .error e => .error e

/-- `parse_amount`, then `to_money`. -/
def telegramMoney [PythonRuntime] (text : String) (currency : CurrencyCode) :
    Except Raised (Option Money) :=
  match parseAmount text with
  | .error _ => .ok none
  | .ok typed => refused (toMoney (.finite false typed.value) currency)

/-- `_money`; to blame a field is to refuse. -/
def webMoney [PythonRuntime] [Babel] (amount currency : String) (locale : Babel.Locale) :
    Except Raised (Option Money) :=
  (ExpenseForm.money amount currency locale).map Except.toOption

section Receipt

variable {C : Type} [Sub C] [LT C] [DecidableLT C] [OfScientific C]

/-- `_select_total` in a currency. -/
def receiptMoney (candidates : List (TotalCandidate C)) (currency : CurrencyCode) :
    Except Raised (Option Money) := selectTotal candidates (some currency)

end Receipt

/-- A text writes a number plainly: digits, and possibly a point or a comma and more digits. -/
def WritesPlainly (cs : List Char) (x : ℚ) : Prop :=
  ∃ whole fraction : List Char, whole ≠ [] ∧ (∀ c ∈ whole, isDigit c) ∧ (∀ c ∈ fraction, isDigit c) ∧
    (fraction = [] ∧ cs = whole ∨
      fraction ≠ [] ∧ ∃ separator ∈ ['.', ','], cs = whole ++ separator :: fraction) ∧
    x = (Decimal.mk (digitsValue (whole ++ fraction)) (-fraction.length)).toRat

/-- What was read is a number. -/
def IsNumber (value : ExtendedDecimal) (x : ℚ) : Prop :=
  ∃ d : Decimal, value = .finite false d ∧ d.toRat = x

/-! ## Exactness -/

/-- A reader is exact on so many minor units: it returns, the amount that has them if there is one,
and otherwise nothing. -/
def ReadsExactly (reader : Except Raised (Option Money)) (w : ℚ) (currency : CurrencyCode) : Prop :=
  ∃ result, reader = .ok result ∧
    ∀ m : Money, result = some m ↔ m.currency = currency ∧ (m.minorUnits : ℚ) = w

/-- What a reader does that scales in the decimal context: it overflows, or it reads the amount of
at least `least` minor units that the number is rounded to, or it refuses. -/
structure ReadsFitted (least : ℕ) (reader : Except Raised (Option Money)) (w : ℚ)
    (currency : CurrencyCode) : Prop where
  overflows : overflowLimit ≤ w → reader = .error .decimalOverflow
  reads : w < overflowLimit → ∀ (n : ℕ) (h : (n : ℤ) ≤ maxMinorUnits currency), least ≤ n →
    fitted w = n → reader = .ok (some ⟨n, currency, Int.natCast_nonneg n, h⟩)
  refuses : w < overflowLimit →
    (∀ n : ℕ, least ≤ n → (n : ℤ) ≤ maxMinorUnits currency → fitted w ≠ n) → reader = .ok none

section Exactness

variable {least : ℕ} {reader : Except Raised (Option Money)} {w : ℚ} {currency : CurrencyCode}

/-- A positive number of minor units that is an amount is rounded to that amount. -/
lemma fitted_of_money {m : Money} (hw : 0 < w) (hunits : (m.minorUnits : ℚ) = w) :
    ∃ n : ℕ, 0 < n ∧ (n : ℤ) = m.minorUnits ∧ fitted w = n := by
  obtain ⟨n, hn⟩ := Int.eq_ofNat_of_zero_le m.nonneg
  have hwn : w = n := by
    rw [← hunits, hn]
    rfl
  have hpos : 0 < n := by
    rw [hwn] at hw
    exact_mod_cast hw
  refine ⟨n, hpos, hn.symm, ?_⟩
  have hmax := m.le_max
  rw [hn] at hmax
  rw [hwn]
  exact fitted_natCast hpos (lt_of_le_maxMinorUnits hmax)

/-- **Exactness.** Such a reader is exact on a positive number exactly when the number does not
overflow and is near no amount but itself.

**Proof sketch.** Such a reader yields the amount that the number is fitted to, and the number is
fitted to an amount exactly when it is near it (`fitted_eq_iff_near`). So it is exact when there is
none but itself. -/
theorem ReadsFitted.exactly_iff (h : ReadsFitted least reader w currency) (hleast : least ≤ 1)
    (hw : 0 < w) :
    ReadsExactly reader w currency ↔ w < overflowLimit ∧ NearOnlyItself least w currency := by
  constructor
  · rintro ⟨result, hresult, hexact⟩
    have hlt : w < overflowLimit := by
      by_contra hle
      rw [h.overflows (not_lt.mp hle)] at hresult
      cases hresult
    refine ⟨hlt, fun n hn hmax hnear => ?_⟩
    have hread := h.reads hlt n hmax hn ((fitted_eq_iff_near hw hmax).mpr hnear)
    have hsome := Except.ok.inj (hresult.symm.trans hread)
    exact ((hexact _).mp hsome).2.symm
  · rintro ⟨hlt, hnear⟩
    by_cases hamount : ∃ n : ℕ, least ≤ n ∧ (n : ℤ) ≤ maxMinorUnits currency ∧ fitted w = n
    · obtain ⟨n, hn, hmax, hfit⟩ := hamount
      have hwn : w = n := hnear n hn hmax ((fitted_eq_iff_near hw hmax).mp hfit)
      refine ⟨_, h.reads hlt n hmax hn hfit, fun m => ?_⟩
      rw [Option.some.injEq]
      constructor
      · rintro rfl
        exact ⟨rfl, hwn.symm⟩
      · rintro ⟨hcurrency, hunits⟩
        refine Money.ext' ?_ hcurrency.symm
        rw [hwn] at hunits
        exact_mod_cast hunits.symm
    · push Not at hamount
      refine ⟨none, h.refuses hlt hamount, fun m => iff_of_false (fun h => by cases h) ?_⟩
      rintro ⟨rfl, hunits⟩
      obtain ⟨n, hpos, hn, hfit⟩ := fitted_of_money hw hunits
      exact hamount n (by omega) (hn ▸ m.le_max) hfit

end Exactness

/-! ## The three readers scale in the decimal context -/

section Readers

variable {v d : Decimal} {currency : CurrencyCode}

/-- Reading a recognized total scales in the decimal context. -/
lemma readsFitted_recognizedMoney (currency : CurrencyCode) (hd : 0 < d.coeff) :
    ReadsFitted 0 (recognizedMoney (.finite false d) currency) (minorUnitsOf d currency)
      currency where
  overflows hle := ExtendedDecimal.withScaled_overflow _ _ hd hle
  reads hlt n hmax _ hfit := by
    rw [recognizedMoney, ExtendedDecimal.withScaled_integer _ _ hd hlt hfit, Money.new_natCast hmax]
    rfl
  refuses hlt hnone := by
    by_cases hint : ∃ n : ℕ, fitted (minorUnitsOf d currency) = n
    · obtain ⟨n, hn⟩ := hint
      obtain ⟨message, herror⟩ :=
        Money.new_natCast_error fun hmax => hnone n (Nat.zero_le n) hmax hn
      rw [recognizedMoney, ExtendedDecimal.withScaled_integer _ _ hd hlt hn, herror]
      rfl
    · push Not at hint
      exact ExtendedDecimal.withScaled_fraction _ _ hd hlt hint

/-- `to_money` gives what reading a recognized total gives.

**Proof sketch.** Both scale the number and then ask whether it is an integer and in range; they
differ in how they refuse. -/
lemma refused_toMoney (d : Decimal) (currency : CurrencyCode) :
    refused (toMoney (.finite false d) currency) = recognizedMoney (.finite false d) currency := by
  set e : ℤ := (currency.minorUnitExponent : ℤ) with he
  have hscaled : (∃ d', ExtendedDecimal.scaleb (.finite false d) e = .ok (.finite false d')) ∨
      ExtendedDecimal.scaleb (.finite false d) e = .error .decimalOverflow := by
    rw [ExtendedDecimal.scaleb]
    unfold Decimal.fit
    split_ifs
    · exact .inl ⟨_, rfl⟩
    · exact .inl ⟨_, rfl⟩
    · exact .inr rfl
    · exact .inl ⟨_, rfl⟩
  unfold toMoney recognizedMoney ExtendedDecimal.withScaled
  rw [← he]
  rcases hscaled with ⟨d', hscaled⟩ | hscaled
  · rw [hscaled, Checked.bind_ok, Checked.bind_ok]
    split_ifs
    · rw [ExtendedDecimal.toInt, Checked.bind_ok, Checked.bind_ok]
      cases Money.new _ currency <;> rfl
    · rfl
  · rw [hscaled]
    rfl

/-- The receipt path gives what reading its unrivalled candidate gives. -/
lemma receiptMoney_eq {C : Type} [Sub C] [LT C] [DecidableLT C] [OfScientific C]
    {candidates : List (TotalCandidate C)} {value : ExtendedDecimal}
    (h : Unrivalled candidates value) :
    receiptMoney candidates currency = recognizedMoney value currency := by
  obtain ⟨scored, hscored, hleader⟩ := h
  unfold receiptMoney selectTotal
  dsimp only
  rw [hscored, Checked.bind_ok, hleader]

/-- The form scales in the decimal context too, but refuses what is rounded to zero. -/
lemma readsFitted_webMoney [PythonRuntime] [Babel] {amount code : String} {locale : Babel.Locale}
    (hcode : CurrencyCode.new code = .ok currency)
    (hparse : parseDecimal (strip amount) locale = some (.finite false d)) (hd : 0 < d.coeff) :
    ReadsFitted 1 (webMoney amount code locale) (minorUnitsOf d currency) currency where
  overflows hle := by
    rw [webMoney, money_overflow hcode hparse hd hle]
    rfl
  reads hlt n hmax hn hfit := by
    rw [webMoney, money_near hcode hparse hd hlt hn hmax hfit]
    rfl
  refuses hlt hnone := by
    obtain ⟨message, h⟩ := money_far hcode hparse hd hlt fun n hn hmax => hnone n hn hmax
    rw [webMoney, h]
    rfl

end Readers

/-! ## A plain text is typed as the number that it writes -/

/-- A plain text matches the pattern of an amount in full, without a currency.

**Proof sketch.** The digits before the separator are taken up to it and those behind it to the end,
so the pattern matches the whole text. -/
lemma matchAmount_of_writesPlainly {cs : List Char} {x : ℚ} (h : WritesPlainly cs x) :
    ∃ d : Decimal, matchAmount cs = some (d, none) ∧ d.toRat = x := by
  obtain ⟨whole, fraction, hne, hwhole, hfraction, hcs, rfl⟩ := h
  rcases hcs with ⟨rfl, rfl⟩ | ⟨hfne, separator, hseparator, rfl⟩
  · have htake : cs.takeWhile isDigit = cs := List.takeWhile_eq_self_iff.mpr hwhole
    have hdrop : cs.dropWhile isDigit = [] := List.dropWhile_eq_nil_iff.mpr hwhole
    refine ⟨⟨digitsValue cs, 0⟩, ?_, by simp⟩
    rw [matchAmount, htake, if_neg hne, hdrop]
  · have hnot : ¬ isDigit separator := by
      simp only [List.mem_cons, List.not_mem_nil, or_false] at hseparator
      rcases hseparator with rfl | rfl <;> decide
    have htake : (whole ++ separator :: fraction).takeWhile isDigit = whole := by
      rw [List.takeWhile_append_of_pos hwhole, List.takeWhile_cons_of_neg hnot, List.append_nil]
    have hdrop : (whole ++ separator :: fraction).dropWhile isDigit = separator :: fraction := by
      rw [List.dropWhile_append_of_pos hwhole, List.dropWhile_cons_of_neg hnot]
    have htake' : fraction.takeWhile isDigit = fraction := List.takeWhile_eq_self_iff.mpr hfraction
    have hdrop' : fraction.dropWhile isDigit = [] := List.dropWhile_eq_nil_iff.mpr hfraction
    have hpoint : ((separator = '.' || separator = ',') && !fraction.isEmpty) = true := by
      simpa [hfne] using hseparator
    refine ⟨_, ?_, rfl⟩
    rw [matchAmount, htake, if_neg hne, hdrop]
    dsimp only
    rw [htake', hdrop', if_pos hpoint]
    rfl

/-- A typed plain text is read as its number. -/
lemma telegramMoney_eq [PythonRuntime] {text : String} {x : ℚ} (currency : CurrencyCode)
    (h : WritesPlainly (stripChars text.toList) x) (hx : 0 < x) :
    ∃ d : Decimal, d.toRat = x ∧
      telegramMoney text currency = recognizedMoney (.finite false d) currency := by
  obtain ⟨d, hmatch, hd⟩ := matchAmount_of_writesPlainly h
  have hpos : 0 < d.coeff := Decimal.toRat_pos.mp (hd ▸ hx)
  have hparse : parseAmount text = .ok ⟨d, none⟩ := by
    rw [parseAmount, hmatch]
    dsimp only
    rw [show require (0 < d.coeff) "amount must be greater than zero" = .ok () from
      require_eq_ok.mpr hpos]
    rfl
  refine ⟨d, hd, ?_⟩
  rw [telegramMoney, hparse]
  exact refused_toMoney d currency

/-- **The three readers of amounts.** For every positive number, the Telegram path, the web form and
the receipt path are exact, and so agree, exactly when the number in minor units does not overflow
the decimal context and is within half of its last digit that fits of no amount but itself.

**Proof sketch.** Each of the three readers is one that yields the amount the number is fitted to
(`ReadsFitted`), and its condition is that of `ReadsFitted.exactly_iff`; they differ in whether zero
is an amount, which only widens what Telegram and the receipt path read. -/
theorem amount_readers_exact_iff [PythonRuntime] [Babel] {C : Type} [Sub C] [LT C] [DecidableLT C]
    [OfScientific C] (v : Decimal) (hv : 0 < v.coeff) (currency : CurrencyCode)
    (text : String) (htext : WritesPlainly (stripChars text.toList) v.toRat)
    (amount code : String) (locale : Babel.Locale) (hcode : CurrencyCode.new code = .ok currency)
    (value : ExtendedDecimal) (hparse : parseDecimal (strip amount) locale = some value)
    (hvalue : IsNumber value v.toRat)
    (candidates : List (TotalCandidate C)) (total : ExtendedDecimal)
    (htotal : Unrivalled candidates total) (hnumber : IsNumber total v.toRat) :
    (ReadsExactly (telegramMoney text currency) (minorUnitsOf v currency) currency ∧
      ReadsExactly (webMoney amount code locale) (minorUnitsOf v currency) currency ∧
      ReadsExactly (receiptMoney candidates currency) (minorUnitsOf v currency) currency) ↔
    minorUnitsOf v currency < overflowLimit ∧
      NearOnlyItself 0 (minorUnitsOf v currency) currency := by
  have hpos : 0 < v.toRat := Decimal.toRat_pos.mpr hv
  have hw : 0 < minorUnitsOf v currency := mul_pos hpos (zpow_ten_pos _)
  have hsame : ∀ d : Decimal, d.toRat = v.toRat →
      0 < d.coeff ∧ minorUnitsOf d currency = minorUnitsOf v currency := fun d hd =>
    ⟨Decimal.toRat_pos.mp (hd ▸ hpos), by rw [minorUnitsOf, hd, minorUnitsOf]⟩
  obtain ⟨typed, htyped, htelegram⟩ := telegramMoney_eq currency htext hpos
  obtain ⟨parsed, rfl, hparsed⟩ := hvalue
  obtain ⟨chosen, rfl, hchosen⟩ := hnumber
  have htelegramFits := readsFitted_recognizedMoney currency (hsame typed htyped).1
  have hwebFits := readsFitted_webMoney hcode hparse (hsame parsed hparsed).1
  have hreceiptFits := readsFitted_recognizedMoney currency (hsame chosen hchosen).1
  rw [(hsame typed htyped).2, ← htelegram] at htelegramFits
  rw [(hsame parsed hparsed).2] at hwebFits
  rw [(hsame chosen hchosen).2, ← receiptMoney_eq htotal] at hreceiptFits
  rw [htelegramFits.exactly_iff (Nat.zero_le 1) hw, hwebFits.exactly_iff (le_refl 1) hw,
    hreceiptFits.exactly_iff (Nat.zero_le 1) hw]
  constructor
  · rintro ⟨h, -, -⟩
    exact h
  · rintro ⟨hlt, hnear⟩
    exact ⟨⟨hlt, hnear⟩, ⟨hlt, fun n _ => hnear n (Nat.zero_le n)⟩, ⟨hlt, hnear⟩⟩

/-- One recognized total of a receipt, read with a confidence of 0.9. -/
def oneTotal (value : ExtendedDecimal) : List (TotalCandidate ℚ) := [⟨value, .total, 0.9⟩]

/-- Twelve euros are read exactly by the three, because they are near no other amount. -/
theorem amount_readers_exact_iff_twelve :
    letI := PythonRuntime.ascii
    letI := Babel.digits
    ReadsExactly (telegramMoney "12" euro) (minorUnitsOf ⟨12, 0⟩ euro) euro ∧
      ReadsExactly (webMoney "12" "EUR" ()) (minorUnitsOf ⟨12, 0⟩ euro) euro ∧
      ReadsExactly (receiptMoney (oneTotal (.finite false ⟨12, 0⟩)) euro)
        (minorUnitsOf ⟨12, 0⟩ euro) euro := by
  refine (@amount_readers_exact_iff PythonRuntime.ascii Babel.digits ℚ _ _ _ _ ⟨12, 0⟩ (by decide)
    euro "12"
    ⟨['1', '2'], [], by decide, List.all_eq_true.mp (by decide +kernel),
      List.all_eq_true.mp (by decide +kernel), .inl (by decide +kernel), by decide +kernel⟩
    "12" "EUR" () (by decide +kernel) (.finite false ⟨12, 0⟩) (by decide +kernel) ⟨_, rfl, rfl⟩
    (oneTotal (.finite false ⟨12, 0⟩)) (.finite false ⟨12, 0⟩)
    (unrivalled_singleton (by decide) (by norm_num) (by norm_num)) ⟨_, rfl, rfl⟩).mpr ?_
  have hunits : minorUnitsOf ⟨12, 0⟩ euro = (1200 : ℕ) := by decide +kernel
  rw [hunits]
  exact ⟨lt_overflowLimit_natCast (show ((1200 : ℕ) : ℤ) ≤ maxMinorUnits euro by decide),
    nearOnlyItself_natCast (by decide) (by decide) 0⟩

/-- One euro and 10^-28 more: the excess digit is rounded away before the test for integrality. -/
def aboveOneEuro : Decimal := ⟨10 ^ 28 + 1, -28⟩

/-- The three readers take one euro and 10^-28 more for one euro. -/
theorem aboveOneEuro_not_exact :
    letI := PythonRuntime.ascii
    letI := Babel.digits
    ¬ ∀ (v : Decimal), 0 < v.coeff → ∀ (currency : CurrencyCode) (text : String),
      WritesPlainly (stripChars text.toList) v.toRat →
      ∀ (amount code : String) (locale : Babel.Locale), CurrencyCode.new code = .ok currency →
      ∀ (value : ExtendedDecimal), parseDecimal (strip amount) locale = some value →
      IsNumber value v.toRat →
      ∀ (candidates : List (TotalCandidate ℚ)) (total : ExtendedDecimal),
      Unrivalled candidates total → IsNumber total v.toRat →
        ReadsExactly (telegramMoney text currency) (minorUnitsOf v currency) currency ∧
        ReadsExactly (webMoney amount code locale) (minorUnitsOf v currency) currency ∧
        ReadsExactly (receiptMoney candidates currency) (minorUnitsOf v currency) currency := by
  intro hall
  have hexact := (hall aboveOneEuro (by decide) ⟨"EUR", by decide⟩ "1.0000000000000000000000000001"
    ⟨['1'], "0000000000000000000000000001".toList, by decide,
      List.all_eq_true.mp (by decide +kernel), List.all_eq_true.mp (by decide +kernel),
      .inr ⟨by decide +kernel, '.', by decide, by decide +kernel⟩, by decide +kernel⟩
    "1.0000000000000000000000000001" "EUR" () (by decide +kernel) (.finite false aboveOneEuro)
    (by decide +kernel) ⟨_, rfl, rfl⟩ (oneTotal (.finite false aboveOneEuro))
    (.finite false aboveOneEuro)
    (unrivalled_singleton (by decide) (by norm_num) (by norm_num)) ⟨_, rfl, rfl⟩).1
  have hrun : @telegramMoney PythonRuntime.ascii "1.0000000000000000000000000001"
      ⟨"EUR", by decide⟩ = .ok (some ⟨100, ⟨"EUR", by decide⟩, by decide, by decide⟩) := by
    decide +kernel
  obtain ⟨result, hresult, hmoney⟩ := hexact
  have hunits := ((hmoney _).mp (Except.ok.inj (hresult.symm.trans hrun))).2
  exact absurd hunits (by decide +kernel)

end MintFlow
