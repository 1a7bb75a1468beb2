import MintFlow.Application.AuditTrail
import MintFlow.Web.ExpenseForm

set_option relaxedAutoImplicit false
set_option autoImplicit false

/-!
# A form that has gone stale

An Expense may have been changed since a form was rendered from it. The edit of a submission holds
the changed fields only, so that the others keep what they have by now. Amount and currency are one
field of the edit, though, and surrounding whitespace is not looked at.

## Main definitions

* `MintFlow.ExpenseForm.Applied` — each field left as rendered is kept, and each changed one has the
  value submitted.
* `MintFlow.ExpenseForm.Undisturbed` — the fields that an edit takes along have not been changed
  elsewhere.

## Main results

* `MintFlow.stale_form_applied_iff` — a submission is applied exactly when the Expense is
  undisturbed.
-/

namespace Transact

/-- A number with few digits is not rounded. -/
lemma fitted_of_le {m e : ℤ} (h : fittedExp (m * 10 ^ e) ≤ e) :
    fitted (m * 10 ^ e) = m * 10 ^ e := by
  set f := fittedExp ((m : ℚ) * 10 ^ e) with hf
  have hmul : (m : ℚ) * 10 ^ e = ((m * 10 ^ (e - f).toNat : ℤ) : ℚ) * 10 ^ f := by
    push_cast
    rw [mul_assoc, ← zpow_natCast, ← zpow_ten_add, Int.toNat_of_nonneg (by omega),
      sub_add_cancel]
  rw [fitted, ← hf, hmul, roundTo_mul]

/-- Numbers below 10^15 have their last digit that fits behind the third decimal place. -/
lemma fittedExp_le {x : ℚ} (h₀ : 0 ≤ x) (h : x < 10 ^ 15) : fittedExp x ≤ -3 := by
  have hlog : Int.log 10 x ≤ 14 := by
    rcases h₀.eq_or_lt with rfl | hpos
    · rw [Int.log_zero_right]
      decide
    · have hlt : Int.log 10 x < 15 :=
        (Int.lt_zpow_iff_log_lt (by norm_num) hpos).mp (by exact_mod_cast h)
      omega
  unfold fittedExp Decimal.precision Decimal.leastExp
  omega

end Transact

namespace MintFlow

open Transact Babel

/-- The amount in major units. -/
def Money.major (money : Money) : ℚ :=
  money.minorUnits * 10 ^ (-(money.currency.minorUnitExponent : ℤ))

section Meaning

variable [Babel]

/-- An amount text writes a number. -/
def WritesAmount (text : String) (locale : Babel.Locale) (x : ℚ) : Prop :=
  ∃ d : Decimal, parseDecimal (strip text) locale = some (.finite false d) ∧ d.toRat = x

end Meaning

/-- A date text writes a date. -/
def WritesDate (text : String) (date : TransactionDate) : Prop :=
  ∃ value, dateFromIsoformat text = some value ∧ TransactionDate.new value = .ok date

/-- A merchant text writes a merchant, or none. -/
def WritesMerchant (text : String) (merchant : Option MerchantName) : Prop :=
  if strip text = "" then merchant = none
  else ∃ name, MerchantName.new text = .ok name ∧ merchant = some name

/-- A note text writes a note, or none. -/
def WritesNote (text : String) (note : Option String) : Prop :=
  note = if strip text = "" then none else some (strip text)

namespace ExpenseForm

variable [PythonRuntime] [Babel]

/-- A submission is applied to an Expense: each field left as it was rendered has the value it had
before, and each changed field has the value submitted. -/
structure Applied (submitted original : ExpenseForm) (locale : Babel.Locale)
    (before after : Expense) : Prop where
  amount_kept : submitted.amount = original.amount → after.money.major = before.money.major
  amount_set : submitted.amount ≠ original.amount →
    WritesAmount submitted.amount locale after.money.major
  currency_kept : submitted.currency = original.currency →
    after.money.currency = before.money.currency
  currency_set : submitted.currency ≠ original.currency →
    CurrencyCode.new submitted.currency = .ok after.money.currency
  transactionDate_kept : submitted.transactionDate = original.transactionDate →
    after.transactionDate = before.transactionDate
  transactionDate_set : submitted.transactionDate ≠ original.transactionDate →
    WritesDate submitted.transactionDate after.transactionDate
  merchant_kept : submitted.merchant = original.merchant → after.merchant = before.merchant
  merchant_set : submitted.merchant ≠ original.merchant →
    WritesMerchant submitted.merchant after.merchant
  categoryKey_kept : submitted.categoryKey = original.categoryKey →
    after.categoryKey = before.categoryKey
  categoryKey_set : submitted.categoryKey ≠ original.categoryKey →
    after.categoryKey = submitted.categoryKey
  note_kept : submitted.note = original.note → after.note = before.note
  note_set : submitted.note ≠ original.note → WritesNote submitted.note after.note

/-- What an edit takes along, or leaves although it was submitted, has not been changed elsewhere:
the amount with a changed currency, the currency with a changed amount, and a merchant or a note
that was changed in its surrounding whitespace only. A changed amount is near no amount but
itself. -/
structure Undisturbed (submitted original : ExpenseForm) (locale : Babel.Locale)
    (before : Expense) : Prop where
  amount : submitted.amount = original.amount → submitted.currency ≠ original.currency →
    WritesAmount submitted.amount locale before.money.major
  currency : submitted.currency = original.currency → submitted.amount ≠ original.amount →
    CurrencyCode.new submitted.currency = .ok before.money.currency
  exact : submitted.amount ≠ original.amount →
    ∀ code d, CurrencyCode.new submitted.currency = .ok code →
      parseDecimal (strip submitted.amount) locale = some (.finite false d) →
        NearOnlyItself 1 (minorUnitsOf d code) code
  merchant : submitted.merchant ≠ original.merchant →
    strip submitted.merchant = strip original.merchant →
      WritesMerchant submitted.merchant before.merchant
  note : submitted.note ≠ original.note → strip submitted.note = strip original.note →
    WritesNote submitted.note before.note

/-- An edit holds what a changed text writes, and nothing for the others. -/
structure FilledIn (submitted original : ExpenseForm) (locale : Babel.Locale) (edit : ExpenseEdit) :
    Prop where
  money_none : ¬ submitted.MoneyChanged original → edit.money = none
  money_some : submitted.MoneyChanged original →
    ∃ (code : CurrencyCode) (d : Decimal) (n : ℕ) (hmax : (n : ℤ) ≤ maxMinorUnits code),
      CurrencyCode.new submitted.currency = .ok code ∧
      parseDecimal (strip submitted.amount) locale = some (.finite false d) ∧ 0 < d.coeff ∧
      0 < n ∧ fitted (minorUnitsOf d code) = n ∧
      edit.money = some ⟨n, code, Int.natCast_nonneg n, hmax⟩
  transactionDate_none : submitted.transactionDate = original.transactionDate →
    edit.transactionDate = none
  transactionDate_some : submitted.transactionDate ≠ original.transactionDate →
    ∃ date, WritesDate submitted.transactionDate date ∧ edit.transactionDate = some date
  merchant_none : strip submitted.merchant = strip original.merchant → edit.merchant = none
  merchant_some : strip submitted.merchant ≠ strip original.merchant →
    ∃ merchant, WritesMerchant submitted.merchant merchant ∧ edit.merchant = some merchant
  categoryKey_none : submitted.categoryKey = original.categoryKey → edit.categoryKey = none
  categoryKey_some : submitted.categoryKey ≠ original.categoryKey →
    edit.categoryKey = some submitted.categoryKey
  note_none : strip submitted.note = strip original.note → edit.note = none
  note_some : strip submitted.note ≠ strip original.note →
    ∃ note, WritesNote submitted.note note ∧ edit.note = some note

end ExpenseForm

/-! ## The edit of a submission without errors -/

section Filled

variable [PythonRuntime] [Babel] {submitted original : ExpenseForm} {locale : Babel.Locale}
  {categoryKeys : List String} {dateIsAcceptable : TransactionDate → Except Raised Bool}

omit [PythonRuntime] [Babel] in
/-- A field that was not changed has no value. -/
lemma valueOf_of_not {α : Type} {changed : Prop} [Decidable changed] {check : FieldCheck α}
    (h : ¬ changed) : valueOf (if changed then some check else none) = none := by
  rw [if_neg h]
  rfl

omit [PythonRuntime] [Babel] in
/-- A changed field without a message has a value. -/
lemma valueOf_of_changed {α : Type} {changed : Prop} [Decidable changed] {check : FieldCheck α}
    (herror : errorOf (if changed then some check else none) = []) (h : changed) :
    ∃ a, check = .ok a ∧ valueOf (if changed then some check else none) = some a := by
  rw [if_pos h] at herror
  rw [if_pos h]
  cases check with
  | ok a => exact ⟨a, rfl, rfl⟩
  | error e => cases herror

omit [PythonRuntime] in
/-- A date that is accepted is written as it was read. -/
lemma writesDate_of_check {text : String} {date : TransactionDate}
    (h : checkTransactionDate text dateIsAcceptable = .ok (.ok date)) : WritesDate text date := by
  obtain ⟨value, hvalue, hdate, -⟩ := checkTransactionDate_ok h
  exact ⟨value, hvalue, hdate⟩

omit [PythonRuntime] in
/-- A merchant that is accepted is written as it was read. -/
lemma writesMerchant_of_check {text : String} {merchant : Option MerchantName}
    (h : checkMerchant text = .ok merchant) : WritesMerchant text merchant := by
  unfold WritesMerchant
  rcases checkMerchant_ok h with ⟨hblank, hmerchant⟩ | ⟨hblank, name, hname, hmerchant⟩
  · rwa [if_pos hblank]
  · rw [if_neg hblank]
    exact ⟨name, hname, hmerchant⟩

omit [PythonRuntime] in
/-- A note that is accepted is written as it was read. -/
lemma writesNote_of_check {text : String} {note : Option String} (h : checkNote text = .ok note) :
    WritesNote text note := by
  unfold checkNote at h
  dsimp only at h
  split_ifs at h with hlong hempty
  all_goals
    unfold WritesNote
    first
    | rw [if_pos hempty]
    | rw [if_neg hempty]
    exact (Except.ok.inj h).symm

omit [PythonRuntime] [Babel] in
/-- A check that may raise, without a message, gives a value exactly when the field was changed. -/
lemma valueOf_whenChanged {α : Type} {changed : Prop} [Decidable changed]
    {check : Except Raised (FieldCheck α)} {c : Option (FieldCheck α)}
    (h : whenChanged changed check = .ok c) (herror : errorOf c = []) :
    (¬ changed → valueOf c = none) ∧
      (changed → ∃ a, check = .ok (.ok a) ∧ valueOf c = some a) := by
  rcases whenChanged_eq_ok.mp h with ⟨hchanged, read, hread, rfl⟩ | ⟨hkept, rfl⟩
  · refine ⟨fun hkept => absurd hchanged hkept, fun _ => ?_⟩
    cases read with
    | ok a => exact ⟨a, hread, rfl⟩
    | error e => cases herror
  · exact ⟨fun _ => rfl, fun hchanged => absurd hchanged hkept⟩

/-- **A submission without errors** is filled in.

**Proof sketch.** Each part of the validation raised no error, so a changed field has the value that
was read and an unchanged one has none (`valueOf_whenChanged`). -/
lemma filledIn_of_validateEdit {r : ValidatedEdit}
    (h : validateEdit submitted original locale categoryKeys dateIsAcceptable = .ok r)
    (hnone : r.errors = []) : submitted.FilledIn original locale r.edit := by
  obtain ⟨money, hmoney, transactionDate, htransactionDate, rfl⟩ := validateEdit_eq_ok.mp h
  simp only [editOf, List.append_eq_nil_iff] at hnone
  obtain ⟨⟨⟨⟨hmoneyError, hdate⟩, hmerchant⟩, hcategory⟩, hnote⟩ := hnone
  obtain ⟨hmoneyNone, hmoneySome⟩ := valueOf_whenChanged hmoney hmoneyError
  obtain ⟨hdateNone, hdateSome⟩ := valueOf_whenChanged htransactionDate hdate
  constructor <;> dsimp only [editOf]
  · exact hmoneyNone
  · intro hchanged
    obtain ⟨m, hread, hvalue⟩ := hmoneySome hchanged
    obtain ⟨code, d, n, hmax, hcode, hparse, hd, hn, hfit, rfl⟩ := money_eq_ok hread
    exact ⟨code, d, n, hmax, hcode, hparse, hd, hn, hfit, hvalue⟩
  · exact fun h => hdateNone (not_not.mpr h)
  · intro hchanged
    obtain ⟨date, hcheck, hvalue⟩ := hdateSome hchanged
    exact ⟨date, writesDate_of_check hcheck, hvalue⟩
  · exact fun h => valueOf_of_not (not_not.mpr h)
  · intro hchanged
    obtain ⟨merchant, hcheck, hvalue⟩ := valueOf_of_changed hmerchant hchanged
    exact ⟨merchant, writesMerchant_of_check hcheck, hvalue⟩
  · exact fun h => valueOf_of_not (not_not.mpr h)
  · intro hchanged
    obtain ⟨key, hcheck, hvalue⟩ := valueOf_of_changed hcategory hchanged
    unfold checkCategory at hcheck
    split_ifs at hcheck
    obtain rfl := Except.ok.inj hcheck
    exact hvalue
  · exact fun h => valueOf_of_not (not_not.mpr h)
  · intro hchanged
    obtain ⟨note, hcheck, hvalue⟩ := valueOf_of_changed hnote hchanged
    exact ⟨note, writesNote_of_check hcheck, hvalue⟩

end Filled

/-! ## The Expense afterwards -/

/-- What `EditExpense` returns is stored, with the supplied fields of the edit and the others as they
were before.

**Proof sketch.** An edit that returns leaves the Expense with the audited values of the edited one
(`wp_editExpense`), and these determine its fields (`AuditState.of_injective`). -/
lemma stored_of_editExpense [PythonRuntime] {db : Database} {id caller : UUID} {edit : ExpenseEdit}
    {tape : Stream' Reading} {after : Expense}
    (h : ((editExpense id caller edit).exec postgres tape ⟨db, db⟩).result = .ok after) :
    ∃ before, db.expenses.find id = some before ∧
      ((editExpense id caller edit).exec postgres tape ⟨db, db⟩).final.db.expenses.find id =
        some after ∧
      after.money = edit.money.getD before.money ∧
      after.transactionDate = edit.transactionDate.getD before.transactionDate ∧
      after.merchant = edit.merchant.getD before.merchant ∧
      after.categoryKey = edit.categoryKey.getD before.categoryKey ∧
      after.note = edit.note.getD before.note := by
  have hwp := @wp_editExpense db id caller _ edit
  obtain ⟨hserved, before, t, hbefore, hstate⟩ := (exec_alone _ tape hwp).1 after h
  obtain ⟨hmoney, hdate, hmerchant, hcategory, hnote, -⟩ := AuditState.of_injective hstate
  refine ⟨before, hbefore, ?_, hmoney, hdate, hmerchant, hcategory, hnote⟩
  revert hserved
  generalize ((editExpense id caller edit).exec postgres tape ⟨db, db⟩).final.db = db'
  intro hserved
  cases hserved with
  | unchanged _ hfind => exact hfind
  | recorded b _ r _ _ _ hid _ _ _ _ =>
    show (db.expenses.upsert after).find id = some after
    rw [← hid]
    exact Table.find_upsert_self _ _

/-! ## Amounts that are shown -/

/-- An amount of money is a number with few digits in every currency, so when it is rounded to an
amount there it is that amount.

**Proof sketch.** In thousandths of a minor unit the number is an integer of few digits, so the
integer nearest to it within the context is itself. -/
lemma eq_of_fitted_major {money : Money} {d : Decimal} {code : CurrencyCode} {n : ℕ}
    (hd : d.toRat = money.major) (hn : fitted (minorUnitsOf d code) = n) :
    minorUnitsOf d code = n := by
  have hsource := money.currency.minorUnitExponent_le
  have htarget := code.minorUnitExponent_le
  obtain ⟨k, hk⟩ := Int.eq_ofNat_of_zero_le money.nonneg
  have hmax : (k : ℤ) ≤ maxMinorUnits money.currency := hk ▸ money.le_max
  have hpow : 10 ^ money.currency.minorUnitExponent ≤ 10 ^ 3 :=
    Nat.pow_le_pow_right (by decide) hsource
  -- In thousandths of a minor unit the number is an integer.
  set j := code.minorUnitExponent + (3 - money.currency.minorUnitExponent) with hj
  have hw : minorUnitsOf d code = ((k * 10 ^ j : ℕ) : ℤ) * (10 : ℚ) ^ (-3 : ℤ) := by
    rw [minorUnitsOf, hd, Money.major, hk]
    push_cast
    rw [mul_assoc, mul_assoc, ← zpow_natCast, ← zpow_ten_add, ← zpow_ten_add]
    congr 2
    omega
  have hsmall : minorUnitsOf d code < 10 ^ 15 := by
    have hk' : k < 10 ^ 12 := by
      unfold maxMinorUnits maxMajorUnits at hmax
      have hcast : (k : ℤ) ≤ 999999999 * 10 ^ 3 :=
        hmax.trans (mul_le_mul_of_nonneg_left (by exact_mod_cast hpow) (by decide))
      omega
    have hjpow : 10 ^ j ≤ 10 ^ 6 := Nat.pow_le_pow_right (by decide) (by omega)
    have hprod : k * 10 ^ j < 10 ^ 12 * 10 ^ 6 := by
      refine lt_of_le_of_lt (Nat.mul_le_mul_left k hjpow) ?_
      exact Nat.mul_lt_mul_of_pos_right hk' (by decide)
    have hcast : ((k * 10 ^ j : ℕ) : ℚ) < 10 ^ 18 := by exact_mod_cast hprod
    rw [hw, Int.cast_natCast, zpow_neg]
    norm_num
    norm_num at hcast
    linarith
  have hexp : fittedExp (minorUnitsOf d code) ≤ -3 := by
    refine fittedExp_le ?_ hsmall
    rw [hw, Int.cast_natCast]
    exact mul_nonneg (Nat.cast_nonneg _) (zpow_ten_pos _).le
  rw [hw] at hexp hn ⊢
  rw [fitted_of_le hexp] at hn
  exact hn

/-! ## Submissions of a stale form -/

section Stale

variable [PythonRuntime] [Babel] {submitted original : ExpenseForm} {locale : Babel.Locale}
  {edit : ExpenseEdit} {before after : Expense}

omit [PythonRuntime] in
/-- An amount text writes one number only. -/
lemma WritesAmount.eq {text : String} {d : Decimal} {x : ℚ} (h : WritesAmount text locale x)
    (hparse : parseDecimal (strip text) locale = some (.finite false d)) : d.toRat = x := by
  obtain ⟨d', hd', rfl⟩ := h
  rw [hparse] at hd'
  cases hd'
  rfl

omit [PythonRuntime] [Babel] in
/-- The amount that was read is the number, exactly when it was not rounded. -/
lemma major_eq_iff {d : Decimal} {code : CurrencyCode} {n : ℕ}
    (hmax : (n : ℤ) ≤ maxMinorUnits code) :
    d.toRat = (Money.mk n code (Int.natCast_nonneg n) hmax).major ↔ minorUnitsOf d code = n := by
  have hunit := (zpow_ten_pos (code.minorUnitExponent : ℤ)).ne'
  rw [Money.major, minorUnitsOf, zpow_neg, Int.cast_natCast, ← div_eq_mul_inv, eq_div_iff hunit]

/-- **The amount and the currency** are applied exactly when the one that was not changed is what
the form shows, and the other was not rounded.

**Proof sketch.** Cases on which of amount and currency was changed. The pair is written whole, so
the one that was not changed is applied exactly when its current value is what the form shows; and
the amount that is written is the submitted one unless it was rounded, which does not happen to a
rendered amount (`eq_of_fitted_major`). -/
lemma applied_money_iff (hfilled : submitted.FilledIn original locale edit) {rendered : Money}
    (hreads : WritesAmount original.amount locale rendered.major)
    (hafter : after.money = edit.money.getD before.money) :
    (((submitted.amount = original.amount → after.money.major = before.money.major) ∧
        (submitted.amount ≠ original.amount →
          WritesAmount submitted.amount locale after.money.major)) ∧
      (submitted.currency = original.currency →
        after.money.currency = before.money.currency) ∧
      (submitted.currency ≠ original.currency →
        CurrencyCode.new submitted.currency = .ok after.money.currency)) ↔
    (submitted.amount = original.amount → submitted.currency ≠ original.currency →
      WritesAmount submitted.amount locale before.money.major) ∧
    (submitted.currency = original.currency → submitted.amount ≠ original.amount →
      CurrencyCode.new submitted.currency = .ok before.money.currency) ∧
    (submitted.amount ≠ original.amount →
      ∀ code d, CurrencyCode.new submitted.currency = .ok code →
        parseDecimal (strip submitted.amount) locale = some (.finite false d) →
          NearOnlyItself 1 (minorUnitsOf d code) code) := by
  by_cases hchanged : submitted.MoneyChanged original
  swap
  · obtain ⟨hamount, hcurrency⟩ := Prod.mk.inj (not_not.mp hchanged)
    rw [hfilled.money_none hchanged] at hafter
    refine iff_of_true ⟨⟨fun _ => by rw [hafter]; rfl, fun h => absurd hamount h⟩,
      fun _ => by rw [hafter]; rfl, fun h => absurd hcurrency h⟩
      ⟨fun _ h => absurd hcurrency h, fun _ h => absurd hamount h, fun h => absurd hamount h⟩
  obtain ⟨code, d, n, hmax, hcode, hparse, hd, hn, hfit, hmoney⟩ := hfilled.money_some hchanged
  rw [hmoney, Option.getD_some] at hafter
  have hw : 0 < minorUnitsOf d code := mul_pos (Decimal.toRat_pos.mpr hd) (zpow_ten_pos _)
  have hmajor := major_eq_iff (d := d) hmax
  rw [← hafter] at hmajor
  have hcurrency : after.money.currency = code := by rw [hafter]
  -- A changed amount is set to what it writes exactly when it is near no amount but itself.
  have hset : WritesAmount submitted.amount locale after.money.major ↔
      minorUnitsOf d code = n :=
    ⟨fun h => hmajor.mp (h.eq hparse), fun h => ⟨d, hparse, hmajor.mpr h⟩⟩
  have hexact : (∀ code' d', CurrencyCode.new submitted.currency = .ok code' →
      parseDecimal (strip submitted.amount) locale = some (.finite false d') →
        NearOnlyItself 1 (minorUnitsOf d' code') code') ↔ minorUnitsOf d code = n := by
    constructor
    · intro h
      exact h code d hcode hparse n hn hmax ((fitted_eq_iff_near hw hmax).mp hfit)
    · intro h code' d' hcode' hparse' n' _ hmax' hnear
      rw [hcode] at hcode'
      rw [hparse] at hparse'
      cases hcode'
      cases hparse'
      have hn' := (fitted_eq_iff_near hw hmax').mpr hnear
      rw [h, ← hfit, hn']
  have hkept : submitted.amount = original.amount →
      (after.money.major = before.money.major ↔
        WritesAmount submitted.amount locale before.money.major) := by
    intro hamount
    have hshown : d.toRat = rendered.major := hreads.eq (hamount ▸ hparse)
    have hd' : d.toRat = after.money.major := hmajor.mpr (eq_of_fitted_major hshown hfit)
    rw [← hd']
    exact ⟨fun h => ⟨d, hparse, h⟩, fun h => h.eq hparse⟩
  have hsame : CurrencyCode.new submitted.currency = .ok before.money.currency ↔
      after.money.currency = before.money.currency := by
    rw [hcode, hcurrency, Except.ok.injEq]
  rw [hset, hexact, hsame]
  constructor
  · rintro ⟨⟨hamount, hset⟩, hcur, -⟩
    exact ⟨fun h _ => (hkept h).mp (hamount h), fun h _ => hcur h, hset⟩
  · rintro ⟨hamount, hcur, hset⟩
    refine ⟨⟨fun h => (hkept h).mpr (hamount h fun hc => hchanged ?_), hset⟩,
      fun h => hcur h fun ha => hchanged ?_, fun _ => by rw [hcode, hcurrency]⟩
    · exact Prod.ext h hc
    · exact Prod.ext ha h

omit [PythonRuntime] [Babel] in
/-- A text whose surrounding whitespace is looked at no more than its field is applied exactly when
it writes the value the field has, if nothing else of it was changed. -/
lemma applied_text_iff {α : Type} {text text' : String} {writes : String → α → Prop}
    {value : Option α} {current later : α}
    (hnone : strip text = strip text' → value = none)
    (hsome : strip text ≠ strip text' → ∃ a, writes text a ∧ value = some a)
    (hlater : later = value.getD current) :
    ((text = text' → later = current) ∧ (text ≠ text' → writes text later)) ↔
      (text ≠ text' → strip text = strip text' → writes text current) := by
  by_cases hstrip : strip text = strip text'
  · rw [hnone hstrip, Option.getD_none] at hlater
    rw [hlater]
    exact ⟨fun h hne _ => h.2 hne, fun h => ⟨fun _ => rfl, fun hne => h hne hstrip⟩⟩
  · obtain ⟨a, hwrites, hvalue⟩ := hsome hstrip
    rw [hvalue, Option.getD_some] at hlater
    refine iff_of_true ⟨fun h => absurd (h ▸ rfl) hstrip, fun _ => hlater ▸ hwrites⟩
      fun _ h => absurd h hstrip

/-- **A stale form.** Whatever happened to an Expense since a form was rendered from it, a submission
without errors that `EditExpense` carries out is applied exactly when the Expense is undisturbed:
when only one of amount and currency was changed the other is what the form shows, a merchant or a
note that differs in surrounding whitespace only is what was submitted, and a changed amount is near
no amount but itself.

**Proof sketch.** The edit has the values of the changed fields (`filledIn_of_validateEdit`), and
what is stored has them in place of those before (`stored_of_editExpense`). Amount and currency are
`applied_money_iff`, and the other fields are independent of each other. -/
theorem stale_form_applied_iff (rendered : Expense) (locale : Babel.Locale)
    (hreads : WritesAmount (amountText rendered.money locale) locale rendered.money.major)
    (submitted : ExpenseForm) (categoryKeys : List String)
    (dateIsAcceptable : TransactionDate → Except Raised Bool) (r : ValidatedEdit)
    (hvalid : validateEdit submitted (formFromExpense rendered locale) locale categoryKeys
      dateIsAcceptable = .ok r) (hnone : r.errors = [])
    (db : Database) (caller : UUID) (tape : Stream' Reading) (after : Expense)
    (hafter : ((editExpense rendered.id caller r.edit).exec postgres tape ⟨db, db⟩).result =
      .ok after) :
    ∃ before, db.expenses.find rendered.id = some before ∧
      ((editExpense rendered.id caller r.edit).exec postgres tape
        ⟨db, db⟩).final.db.expenses.find rendered.id = some after ∧
      (submitted.Applied (formFromExpense rendered locale) locale before after ↔
        submitted.Undisturbed (formFromExpense rendered locale) locale before) := by
  have hfilled := filledIn_of_validateEdit hvalid hnone
  obtain ⟨before, hbefore, hstored, hmoney, hdate, hmerchant, hcategory, hnote⟩ :=
    stored_of_editExpense hafter
  have hmoney' := applied_money_iff hfilled hreads hmoney
  have hmerchant' := applied_text_iff hfilled.merchant_none hfilled.merchant_some hmerchant
  have hnote' := applied_text_iff hfilled.note_none hfilled.note_some hnote
  refine ⟨before, hbefore, hstored, ?_⟩
  constructor
  · intro h
    obtain ⟨hamount, hcurrency, hexact⟩ := hmoney'.mp ⟨⟨h.amount_kept, h.amount_set⟩,
      h.currency_kept, h.currency_set⟩
    exact ⟨hamount, hcurrency, hexact, hmerchant'.mp ⟨h.merchant_kept, h.merchant_set⟩,
      hnote'.mp ⟨h.note_kept, h.note_set⟩⟩
  · intro h
    obtain ⟨⟨hamountKept, hamountSet⟩, hcurrencyKept, hcurrencySet⟩ :=
      hmoney'.mpr ⟨h.amount, h.currency, h.exact⟩
    obtain ⟨hmerchantKept, hmerchantSet⟩ := hmerchant'.mpr h.merchant
    obtain ⟨hnoteKept, hnoteSet⟩ := hnote'.mpr h.note
    refine ⟨hamountKept, hamountSet, hcurrencyKept, hcurrencySet, ?_, ?_, hmerchantKept,
      hmerchantSet, ?_, ?_, hnoteKept, hnoteSet⟩
    · intro hkept
      rw [hdate, hfilled.transactionDate_none hkept]
      rfl
    · intro hchanged
      obtain ⟨date, hwrites, hvalue⟩ := hfilled.transactionDate_some hchanged
      rw [hdate, hvalue]
      exact hwrites
    · intro hkept
      rw [hcategory, hfilled.categoryKey_none hkept]
      rfl
    · intro hchanged
      rw [hcategory, hfilled.categoryKey_some hchanged]
      rfl

end Stale

/-! ## Two submissions -/

/-- Five euros, as they are stored. -/
def fiveEurosExpense : Expense :=
  ⟨9, 7, ⟨500, euro, by decide, by decide⟩, july29, none,
    "uncategorized", none, .webManual, 5, none, 0, 0, none⟩

/-- The store of that Expense. -/
def Database.fiveEuros : Database := { Database.small with expenses := ⟨[fiveEurosExpense], by decide⟩ }

/-- The form rendered from it. -/
def fiveEurosForm : ExpenseForm :=
  @formFromExpense Babel.digits fiveEurosExpense ()

/-- The same form with twelve for an amount. -/
def twelveForm : ExpenseForm := { fiveEurosForm with amount := "12" }

/-- The readings of a clock that stands still, with new ids for each request. -/
def idleTape (n : ℕ) : Stream' Reading :=
  fun k => ⟨0, BitVec.ofNat 128 (100 * n + k), none, 0, none⟩

/-- An edit elsewhere that turns the euros into dollars. -/
def intoDollars : ExpenseRequest :=
  .edit 9 7 ⟨some ⟨500, dollar, by decide, by decide⟩, none, none, none, none⟩

/-- The rendered amount reads back. -/
lemma fiveEuros_reads : @WritesAmount Babel.digits
    (@amountText Babel.digits fiveEurosExpense.money ()) () fiveEurosExpense.money.major :=
  ⟨⟨500, -2⟩, by decide +kernel, by decide +kernel⟩

/-- An edit elsewhere that notes what the euros were spent on. -/
def noteLunch : ExpenseRequest := .edit 9 7 ⟨none, none, none, none, some (some "lunch")⟩

/-- The store after that edit. -/
def Database.lunch : Database := @serveAll PythonRuntime.ascii .fiveEuros [(noteLunch, idleTape 1)]

/-- Twelve euros are entered in a form rendered before the note was: the note stays, and the amount is
set. -/
theorem stale_form_applied_iff_twelve :
    letI := PythonRuntime.ascii
    letI := Babel.digits
    ∃ r after before,
      validateEdit twelveForm fiveEurosForm () ["uncategorized"] (fun _ => .ok true) = .ok r ∧
      ((editExpense 9 7 r.edit).exec postgres (idleTape 2) ⟨.lunch, .lunch⟩).result = .ok after ∧
      Database.lunch.expenses.find 9 = some before ∧ before.note = some "lunch" ∧
      twelveForm.Applied fiveEurosForm () before after := by
  let _ := PythonRuntime.ascii
  let _ := Babel.digits
  have hrun : ((@validateEdit PythonRuntime.ascii Babel.digits twelveForm fiveEurosForm ()
      ["uncategorized"] (fun _ => .ok true)).toOption.any fun r =>
        r.errors.isEmpty && ((@editExpense PythonRuntime.ascii 9 7 r.edit).exec postgres
          (idleTape 2) ⟨.lunch, .lunch⟩).result.isOk) = true := by decide +kernel
  have hstore : (Database.lunch.expenses.find 9).all (fun before =>
      before.money.currency == euro && before.note == some "lunch") = true := by decide +kernel
  cases hvalid : @validateEdit PythonRuntime.ascii Babel.digits twelveForm fiveEurosForm ()
      ["uncategorized"] (fun _ => .ok true) with
  | error e =>
    rw [hvalid] at hrun
    cases hrun
  | ok r =>
    rw [hvalid] at hrun
    obtain ⟨hnone, hok⟩ := (Bool.and_eq_true _ _).mp hrun
    cases hafter : ((@editExpense PythonRuntime.ascii 9 7 r.edit).exec postgres (idleTape 2)
        ⟨.lunch, .lunch⟩).result with
    | error e =>
      rw [hafter] at hok
      cases hok
    | ok after =>
      obtain ⟨before, hbefore, -, hiff⟩ := @stale_form_applied_iff PythonRuntime.ascii Babel.digits
        fiveEurosExpense () fiveEuros_reads twelveForm ["uncategorized"] (fun _ => .ok true) r hvalid
        (List.isEmpty_iff.mp hnone) .lunch 7 (idleTape 2) after hafter
      rw [show Database.lunch.expenses.find 9 = some before from hbefore] at hstore
      obtain ⟨hcurrency, hnote⟩ := (Bool.and_eq_true _ _).mp hstore
      refine ⟨r, after, before, rfl, hafter, hbefore, beq_iff_eq.mp hnote, hiff.mpr ⟨?_, ?_, ?_,
        fun h => absurd rfl h, fun h => absurd rfl h⟩⟩
      · exact fun _ h => absurd rfl h
      · intro _ _
        rw [beq_iff_eq.mp hcurrency]
        decide +kernel
      · intro _ code d hcode hparse
        have heuro : @CurrencyCode.new PythonRuntime.ascii "EUR" = .ok euro := by decide +kernel
        have htwelve : @parseDecimal Babel.digits (strip "12") () =
            some (.finite false ⟨12, 0⟩) := by decide +kernel
        obtain rfl := Except.ok.inj (heuro.symm.trans hcode)
        obtain ⟨⟩ := Option.some.inj (htwelve.symm.trans hparse)
        have hunits : minorUnitsOf ⟨12, 0⟩ euro = (1200 : ℕ) := by decide +kernel
        rw [hunits]
        exact nearOnlyItself_natCast (by decide) (by decide) 1

/-- The amount of five euros is changed to twelve in a form rendered before the Expense was changed
to dollars: the dollars are euros again. -/
theorem toDollars_overwritten :
    letI := PythonRuntime.ascii
    letI := Babel.digits
    ¬ ∀ (rendered : Expense) (locale : Babel.Locale),
      WritesAmount (amountText rendered.money locale) locale rendered.money.major →
      ∀ (submitted : ExpenseForm) (categoryKeys : List String)
        (dateIsAcceptable : TransactionDate → Except Raised Bool) (r : ValidatedEdit),
      validateEdit submitted (formFromExpense rendered locale) locale categoryKeys
        dateIsAcceptable = .ok r → r.errors = [] →
      ∀ (db₀ : Database), db₀.expenses.find rendered.id = some rendered →
      ∀ (edits : List (ExpenseRequest × Stream' Reading)) (caller : UUID) (tape : Stream' Reading)
        (after : Expense),
      ((editExpense rendered.id caller r.edit).exec postgres tape
        ⟨serveAll db₀ edits, serveAll db₀ edits⟩).result = .ok after →
      ∃ before, (serveAll db₀ edits).expenses.find rendered.id = some before ∧
        submitted.Applied (formFromExpense rendered locale) locale before after := by
  intro hall
  have hrun : ((@validateEdit PythonRuntime.ascii Babel.digits twelveForm fiveEurosForm ()
      ["uncategorized"] (fun _ => .ok true)).toOption.any fun r =>
        let db := @serveAll PythonRuntime.ascii .fiveEuros [(intoDollars, idleTape 1)]
        r.errors.isEmpty && ((@editExpense PythonRuntime.ascii 9 7 r.edit).exec postgres
          (idleTape 2) ⟨db, db⟩).result.toOption.any fun after =>
            (db.expenses.find 9).any fun before =>
              decide (after.money.currency ≠ before.money.currency)) = true := by decide +kernel
  cases hvalid : @validateEdit PythonRuntime.ascii Babel.digits twelveForm fiveEurosForm ()
      ["uncategorized"] (fun _ => .ok true) with
  | error e =>
    rw [hvalid] at hrun
    cases hrun
  | ok r =>
    rw [hvalid] at hrun
    obtain ⟨hnone, hne⟩ := (Bool.and_eq_true _ _).mp hrun
    cases hafter : ((@editExpense PythonRuntime.ascii 9 7 r.edit).exec postgres (idleTape 2)
        ⟨@serveAll PythonRuntime.ascii .fiveEuros [(intoDollars, idleTape 1)],
          @serveAll PythonRuntime.ascii .fiveEuros [(intoDollars, idleTape 1)]⟩).result with
    | error e =>
      rw [hafter] at hne
      cases hne
    | ok after =>
      obtain ⟨before, hbefore, happlied⟩ := hall fiveEurosExpense () fiveEuros_reads twelveForm
        ["uncategorized"] (fun _ => .ok true) r hvalid (List.isEmpty_iff.mp hnone) .fiveEuros
        (by decide +kernel) [(intoDollars, idleTape 1)] 7 (idleTape 2) after hafter
      have hbefore' : (@serveAll PythonRuntime.ascii .fiveEuros
          [(intoDollars, idleTape 1)]).expenses.find 9 = some before := hbefore
      simp only [hafter, hbefore', Except.toOption, Option.any_some] at hne
      exact of_decide_eq_true hne (@ExpenseForm.Applied.currency_kept PythonRuntime.ascii
        Babel.digits _ _ _ _ _ happlied rfl)

end MintFlow
