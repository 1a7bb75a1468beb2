import MintFlow.Application.EditExpense
import MintFlow.Web.Formatting

set_option relaxedAutoImplicit false
set_option autoImplicit false

/-!
# The expense edit form

Display values, validation, and the resulting edit. The form carries the values it was rendered
with, and only fields that were changed become part of the edit. Amounts are read in the user's
locale.

## Main definitions

* `MintFlow.ExpenseForm`, `MintFlow.formFromExpense` — the form, and the one an Expense is shown in.
* `MintFlow.ExpenseForm.money` — the money of an amount and a currency, or the field to blame.
* `MintFlow.validateEdit` — the edit of the changed fields, with one message per invalid field.
* `MintFlow.ReadsValue` — which numbers are read for what they are.
* `MintFlow.Answered`, `MintFlow.ExpenseForm.Answerable` — what a submission should be met with, and
  which submissions are.

## Main results

* `MintFlow.validateEdit_answers_iff` — the form answers exactly the answerable submissions.

## Implementation notes

An amount is an amount of a currency, so the two are one thing that changes, and an amount is only
judged once there is a currency. Surrounding whitespace is no part of a merchant or a note. A form is
decoded from UTF-8, which has no lone surrogates. The rule for dates is a parameter, and may raise.
-/

namespace MintFlow

open Transact Babel

/-- The fields of the form. -/
inductive FormField
  | amount
  | currency
  | transactionDate
  | merchant
  | categoryKey
  | note
deriving DecidableEq

/-- Every field as text, exactly as the form shows or submits it. -/
structure ExpenseForm where
  amount : String
  currency : String
  transactionDate : String
  merchant : String
  categoryKey : String
  note : String
deriving DecidableEq

/-- The text of a field. -/
def ExpenseForm.text (form : ExpenseForm) : FormField → String
  | .amount => form.amount
  | .currency => form.currency
  | .transactionDate => form.transactionDate
  | .merchant => form.merchant
  | .categoryKey => form.categoryKey
  | .note => form.note

/-- An edit, and the messages of invalid fields. -/
structure ValidatedEdit where
  edit : ExpenseEdit
  errors : List (FormField × String)

/-- What became of a changed field: a value, or a field to blame and its message. -/
abbrev FieldCheck (α : Type) := Except (FormField × String) α

/-- `MAX_NOTE_LENGTH`. -/
def maxNoteLength : ℕ := 2000

section Form

variable [PythonRuntime] [Babel]

/-! ## Showing an Expense -/

omit [PythonRuntime] in
/-- `_amount_text`. -/
def amountText (money : Money) (locale : Babel.Locale) : String :=
  let exponent := money.currency.minorUnitExponent
  let major := (Decimal.mk money.minorUnits.toNat 0).scaleb (-exponent)
  let pattern := "0" ++ if exponent = 0 then "" else "." ++ "".pushn '0' exponent
  formatDecimal false major (some pattern) locale

omit [PythonRuntime] in
/-- `form_from_expense`. -/
def formFromExpense (expense : Expense) (locale : Babel.Locale) : ExpenseForm where
  amount := amountText expense.money locale
  currency := expense.money.currency.value
  transactionDate := isoformat expense.transactionDate.value
  merchant := (expense.merchant.map MerchantName.value).getD ""
  categoryKey := expense.categoryKey
  note := expense.note.getD ""

/-! ## Reading a submission -/

omit [PythonRuntime] in
/-- The message for an amount outside of the range. -/
def outsideRange : FormField × String :=
  (.amount, translate "Enter an amount greater than zero and within the supported range.")

/-- `_money`: the money, or the field to blame and its message. -/
def ExpenseForm.money (amount currency : String) (locale : Babel.Locale) :
    Except Raised (FieldCheck Money) :=
  match CurrencyCode.new currency with
  | .error _ => .ok (.error (.currency, translate "Choose a currency."))
  | .ok code =>
    match parseDecimal (strip amount) locale with
    | none =>
      let example_ := formatDecimal false ⟨1250, -2⟩ (some "0.00") locale
      .ok (.error (.amount, fill (translate "Enter an amount like \x7bexample\x7d.")
        [("example", example_)]))
    | some value => do
      let minor ← value.scaleb code.minorUnitExponent
      if minor.isIntegral then do
        let positive ← minor.isPositive
        if positive then do
          let minorUnits ← minor.toInt
          return (Money.new minorUnits code).mapError fun _ => outsideRange
        else return .error outsideRange
      else
        return .error (.amount, fill (translate
          "\x7bcurrency\x7d amounts have at most \x7bdigits\x7d decimal places.")
          [("currency", code.value), ("digits", toString code.minorUnitExponent)])

omit [PythonRuntime] in
/-- The date of a changed text. -/
def checkTransactionDate (submitted : String)
    (dateIsAcceptable : TransactionDate → Except Raised Bool) :
    Except Raised (FieldCheck TransactionDate) :=
  match dateFromIsoformat submitted with
  | none => return .error (.transactionDate, translate "Enter a date.")
  | some value =>
    match TransactionDate.new value with
    | .error _ => return .error (.transactionDate, translate "Enter a date.")
    | .ok date => do
      if ← dateIsAcceptable date then return .ok date
      else return .error (.transactionDate,
        translate "The date can be at most one day in the future.")

omit [PythonRuntime] in
/-- The message for a text that is too long. -/
def tooLong (field : FormField) (limit : ℕ) : FormField × String :=
  (field, fill (translate "Use at most \x7blimit\x7d characters.") [("limit", toString limit)])

omit [PythonRuntime] in
/-- The merchant of a changed text; an empty one clears it. -/
def checkMerchant (submitted : String) : FieldCheck (Option MerchantName) :=
  if strip submitted = "" then .ok none
  else
    match MerchantName.new submitted with
    | .ok name => .ok (some name)
    | .error _ => .error (tooLong .merchant MerchantName.maxLength)

omit [PythonRuntime] in
/-- The category of a changed text. -/
def checkCategory (submitted : String) (categoryKeys : List String) : FieldCheck String :=
  if submitted ∈ categoryKeys then .ok submitted
  else .error (.categoryKey, translate "Choose a category.")

omit [PythonRuntime] in
/-- The note of a changed text; an empty one clears it. -/
def checkNote (submitted : String) : FieldCheck (Option String) :=
  let note := strip submitted
  if maxNoteLength < note.length then .error (tooLong .note maxNoteLength)
  else .ok (if note = "" then none else some note)

omit [PythonRuntime] [Babel] in
/-- The value of a changed field, if it has one. -/
def valueOf {α : Type} (check : Option (FieldCheck α)) : Option α := check.bind Except.toOption

omit [PythonRuntime] [Babel] in
/-- The message of a changed field, if it has one. -/
def errorOf {α : Type} : Option (FieldCheck α) → List (FormField × String)
  | some (.error e) => [e]
  | _ => []

omit [PythonRuntime] [Babel] in
/-- The amount or its currency was changed. -/
abbrev ExpenseForm.MoneyChanged (submitted original : ExpenseForm) : Prop :=
  (submitted.amount, submitted.currency) ≠ (original.amount, original.currency)

omit [PythonRuntime] [Babel] in
/-- A check that may raise, of a field that may have changed. -/
def whenChanged {α : Type} (changed : Prop) [Decidable changed]
    (check : Except Raised (FieldCheck α)) : Except Raised (Option (FieldCheck α)) :=
  if changed then check.map some else .ok none

/-- The edit of the changed fields and the messages, once the money and the date are read. -/
def editOf (submitted original : ExpenseForm) (categoryKeys : List String)
    (money : Option (FieldCheck Money)) (transactionDate : Option (FieldCheck TransactionDate)) :
    ValidatedEdit :=
  let merchant :=
    if strip submitted.merchant ≠ strip original.merchant then
      some (checkMerchant submitted.merchant)
    else none
  let categoryKey :=
    if submitted.categoryKey ≠ original.categoryKey then
      some (checkCategory submitted.categoryKey categoryKeys)
    else none
  let note :=
    if strip submitted.note ≠ strip original.note then some (checkNote submitted.note) else none
  { edit := {
      money := valueOf money
      transactionDate := valueOf transactionDate
      merchant := valueOf merchant
      categoryKey := valueOf categoryKey
      note := valueOf note }
    errors := errorOf money ++ errorOf transactionDate ++ errorOf merchant ++
      errorOf categoryKey ++ errorOf note }

/-- `validate_edit`: build the edit from changed fields only. -/
def validateEdit (submitted original : ExpenseForm) (locale : Babel.Locale)
    (categoryKeys : List String) (dateIsAcceptable : TransactionDate → Except Raised Bool) :
    Except Raised ValidatedEdit := do
  let money ← whenChanged (submitted.MoneyChanged original)
    (ExpenseForm.money submitted.amount submitted.currency locale)
  let transactionDate ← whenChanged (submitted.transactionDate ≠ original.transactionDate)
    (checkTransactionDate submitted.transactionDate dateIsAcceptable)
  return editOf submitted original categoryKeys money transactionDate

omit [PythonRuntime] [Babel] in
/-- What a check that may raise gives, if the field was changed and if it was not. -/
lemma whenChanged_eq_ok {α : Type} {changed : Prop} [Decidable changed]
    {check : Except Raised (FieldCheck α)} {c : Option (FieldCheck α)} :
    whenChanged changed check = .ok c ↔
      (changed ∧ ∃ a, check = .ok a ∧ c = some a) ∨ (¬ changed ∧ c = none) := by
  unfold whenChanged
  split_ifs with h
  · cases check with
    | error e => simp [h, Except.map]
    | ok a => simp [h, Except.map, eq_comm]
  · simp [h, eq_comm]

omit [PythonRuntime] [Babel] in
lemma whenChanged_of_changed {α : Type} {changed : Prop} [Decidable changed]
    {check : Except Raised (FieldCheck α)} {c : Option (FieldCheck α)} (h : changed) :
    whenChanged changed check = .ok c ↔ ∃ a, check = .ok a ∧ c = some a := by
  rw [whenChanged_eq_ok]
  exact ⟨fun hc => hc.elim And.right fun hn => absurd h hn.1, fun hc => .inl ⟨h, hc⟩⟩

/-- A submission is validated once its money and its date are read. -/
lemma validateEdit_eq_ok {submitted original : ExpenseForm} {locale : Babel.Locale}
    {categoryKeys : List String} {dateIsAcceptable : TransactionDate → Except Raised Bool}
    {r : ValidatedEdit} :
    validateEdit submitted original locale categoryKeys dateIsAcceptable = .ok r ↔
      ∃ money, whenChanged (submitted.MoneyChanged original)
        (ExpenseForm.money submitted.amount submitted.currency locale) = .ok money ∧
      ∃ transactionDate, whenChanged (submitted.transactionDate ≠ original.transactionDate)
        (checkTransactionDate submitted.transactionDate dateIsAcceptable) = .ok transactionDate ∧
      editOf submitted original categoryKeys money transactionDate = r := by
  unfold validateEdit
  simp only [Checked.bind_eq_ok, Checked.pure_eq_ok]

/-! ## Which numbers are read for what they are -/

omit [PythonRuntime] [Babel] in
/-- A number of major units, in minor units. -/
def minorUnitsOf (d : Decimal) (currency : CurrencyCode) : ℚ :=
  d.toRat * 10 ^ (currency.minorUnitExponent : ℤ)

omit [PythonRuntime] [Babel] in
/-- A number of minor units is near no amount but itself: none of at least `least` minor units is
within half of its last digit that fits. -/
def NearOnlyItself (least : ℕ) (w : ℚ) (currency : CurrencyCode) : Prop :=
  ∀ n : ℕ, least ≤ n → (n : ℤ) ≤ maxMinorUnits currency → |w - n| ≤ 10 ^ fittedExp w / 2 → w = n

omit [PythonRuntime] [Babel] in
/-- A value that can be scaled and read: it is not positive infinity nor a signaling NaN, and it is
small enough. -/
def Scalable (currency : CurrencyCode) : ExtendedDecimal → Prop
  | .nan signaling => signaling = false
  | .infinity negative => negative = true
  | .finite _ d => d.coeff = 0 ∨ minorUnitsOf d currency < overflowLimit

omit [PythonRuntime] [Babel] in
/-- A value is read for what it is, or as no amount. -/
def ReadsValue (currency : CurrencyCode) (v : ExtendedDecimal) : Prop :=
  Scalable currency v ∧
    ∀ d, v = .finite false d → NearOnlyItself 1 (minorUnitsOf d currency) currency

omit [PythonRuntime] [Babel] in
/-- The greatest amounts have few digits. -/
lemma lt_of_le_maxMinorUnits {n : ℕ} {currency : CurrencyCode}
    (h : (n : ℤ) ≤ maxMinorUnits currency) : n < 10 ^ 26 := by
  have hpow : 10 ^ currency.minorUnitExponent ≤ 10 ^ 3 :=
    Nat.pow_le_pow_right (by decide) currency.minorUnitExponent_le
  have hmax : maxMinorUnits currency ≤ 999999999 * 10 ^ 3 := by
    unfold maxMinorUnits maxMajorUnits
    exact mul_le_mul_of_nonneg_left (by exact_mod_cast hpow) (by decide)
  have hn : (n : ℤ) ≤ 999999999 * 10 ^ 3 := h.trans hmax
  omega

omit [PythonRuntime] [Babel] in
/-- A positive number is rounded to an amount exactly when it is near the amount. -/
lemma fitted_eq_iff_near {w : ℚ} (hw : 0 < w) {n : ℕ} {currency : CurrencyCode}
    (hn : (n : ℤ) ≤ maxMinorUnits currency) : fitted w = n ↔ |w - n| ≤ 10 ^ fittedExp w / 2 :=
  fitted_eq_natCast_iff hw (lt_of_le_maxMinorUnits hn)

omit [PythonRuntime] [Babel] in
/-- An amount is within the range of its currency. -/
lemma Money.new_natCast {n : ℕ} {currency : CurrencyCode} (h : (n : ℤ) ≤ maxMinorUnits currency) :
    Money.new n currency = .ok ⟨n, currency, Int.natCast_nonneg n, h⟩ := by
  rw [Money.new, dif_neg (by omega), dif_neg (by omega)]

omit [PythonRuntime] [Babel] in
lemma Money.new_natCast_error {n : ℕ} {currency : CurrencyCode}
    (h : ¬ (n : ℤ) ≤ maxMinorUnits currency) : ∃ message, Money.new n currency = .error message := by
  rw [Money.new, dif_neg (by omega), dif_pos (by omega)]
  exact ⟨_, rfl⟩

omit [PythonRuntime] [Babel] in
/-- An amount is near no amount but itself. -/
lemma nearOnlyItself_natCast {k : ℕ} {currency : CurrencyCode} (hpos : 0 < k)
    (hmax : (k : ℤ) ≤ maxMinorUnits currency) (least : ℕ) : NearOnlyItself least k currency := by
  intro n _ hn hnear
  have hw : (0 : ℚ) < k := by exact_mod_cast hpos
  rw [← (fitted_eq_iff_near hw hn).mpr hnear, fitted_natCast hpos (lt_of_le_maxMinorUnits hmax)]

omit [PythonRuntime] [Babel] in
/-- An amount can be scaled. -/
lemma lt_overflowLimit_natCast {k : ℕ} {currency : CurrencyCode}
    (hmax : (k : ℤ) ≤ maxMinorUnits currency) : (k : ℚ) < overflowLimit := by
  have hk : (k : ℚ) < 10 ^ 26 := by exact_mod_cast lt_of_le_maxMinorUnits hmax
  have hpow : (10 : ℚ) ^ (26 : ℤ) ≤ 10 ^ Decimal.maxAdjusted :=
    zpow_le_zpow_right₀ (by norm_num) (by decide)
  exact hk.trans_le ((by exact_mod_cast hpow : (10 : ℚ) ^ 26 ≤ _).trans le_overflowLimit)

omit [PythonRuntime] [Babel] in
/-- Zero is near no amount. -/
lemma fitted_zero {w : ℚ} (hw : w = 0) {n : ℕ} (hn : 0 < n) : fitted w ≠ n := by
  rw [hw, fitted, roundTo_zero]
  exact_mod_cast hn.ne

/-! ## What `_money` gives -/

section Amounts

variable {amount currency : String} {locale : Babel.Locale} {code : CurrencyCode}
  (hcode : CurrencyCode.new currency = .ok code)
include hcode

/-- A text that is no number is blamed. -/
lemma money_of_none (hparse : parseDecimal (strip amount) locale = none) :
    ∃ message, ExpenseForm.money amount currency locale = .ok (.error (.amount, message)) := by
  unfold ExpenseForm.money
  rw [hcode]
  dsimp only
  rw [hparse]
  exact ⟨_, rfl⟩

variable {d : Decimal}

/-- Scaling a number that is finite and not zero overflows or not.

**Proof sketch.** The scaled number overflows or is fitted to the context (`Decimal.fit_eq`), and
`_money` then looks at whether it is an integer and positive. -/
lemma money_scaled {negative : Bool}
    (hparse : parseDecimal (strip amount) locale = some (.finite negative d)) (hd : 0 < d.coeff) :
    (overflowLimit ≤ minorUnitsOf d code ∧
      ExpenseForm.money amount currency locale = .error .decimalOverflow) ∨
    (minorUnitsOf d code < overflowLimit ∧ ∃ d' : Decimal, d'.toRat = fitted (minorUnitsOf d code) ∧
      ExpenseForm.money amount currency locale =
        if d'.toNat?.isSome then
          if !negative && decide (0 < d'.coeff) then
            .ok ((Money.new d'.truncate code).mapError fun _ => outsideRange)
          else .ok (.error outsideRange)
        else .ok (.error (.amount, fill (translate
          "\x7bcurrency\x7d amounts have at most \x7bdigits\x7d decimal places.")
          [("currency", code.value), ("digits", toString code.minorUnitExponent)]))) := by
  have hfit := Decimal.fit_eq (d := ⟨d.coeff, d.exp + (code.minorUnitExponent : ℤ)⟩) hd
  rw [ExtendedDecimal.toRat_shift] at hfit
  unfold ExpenseForm.money
  rw [hcode]
  dsimp only
  rw [hparse]
  dsimp only
  rcases hfit with ⟨hover, hfit⟩ | ⟨hlt, d', hfit, hd'⟩
  · left
    refine ⟨hover, ?_⟩
    rw [ExtendedDecimal.scaleb, hfit]
    rfl
  · right
    refine ⟨hlt, d', hd', ?_⟩
    rw [ExtendedDecimal.scaleb, hfit]
    cases negative with
    | false =>
      show (if d'.toNat?.isSome then _ else _) = _
      split_ifs with hint hpos
      · have hpos' : 0 < d'.coeff := by simpa using hpos
        simp [ExtendedDecimal.isPositive, hpos', ExtendedDecimal.toInt, Checked.bind_ok]
      · have hpos' : ¬ 0 < d'.coeff := by simpa using hpos
        simp [ExtendedDecimal.isPositive, hpos', Checked.bind_ok]
      · rfl
    | true =>
      show (if d'.toNat?.isSome then _ else _) = _
      split_ifs with hint hpos
      · simp at hpos
      · rfl
      · rfl

/-- A positive number near an amount is read as the amount. -/
lemma money_near (hparse : parseDecimal (strip amount) locale = some (.finite false d))
    (hd : 0 < d.coeff) (hlt : minorUnitsOf d code < overflowLimit) {n : ℕ} (hpos : 0 < n)
    (hmax : (n : ℤ) ≤ maxMinorUnits code) (hn : fitted (minorUnitsOf d code) = n) :
    ExpenseForm.money amount currency locale =
      .ok (.ok ⟨n, code, Int.natCast_nonneg n, hmax⟩) := by
  rcases money_scaled hcode hparse hd with ⟨hle, -⟩ | ⟨-, d', hd', h⟩
  · exact absurd hle (not_le.mpr hlt)
  · have hnat : d'.toNat? = some n := Decimal.toNat?_eq_some.mpr (hd'.trans hn)
    have hcoeff : 0 < d'.coeff := by
      rw [← Decimal.toRat_pos, hd', hn]
      exact_mod_cast hpos
    rw [h, hnat, Option.isSome_some, if_pos rfl, if_pos (by simpa using hcoeff),
      Decimal.truncate_of_toNat? hnat, Money.new_natCast hmax]
    rfl

/-- A positive number near no amount is blamed.

**Proof sketch.** The fitted number is no integer, or an integer above the largest amount, since it
is no amount; each of these is blamed on the amount. -/
lemma money_far (hparse : parseDecimal (strip amount) locale = some (.finite false d))
    (hd : 0 < d.coeff) (hlt : minorUnitsOf d code < overflowLimit)
    (hfar : ∀ n : ℕ, 0 < n → (n : ℤ) ≤ maxMinorUnits code → fitted (minorUnitsOf d code) ≠ n) :
    ∃ message, ExpenseForm.money amount currency locale = .ok (.error (.amount, message)) := by
  rcases money_scaled hcode hparse hd with ⟨hle, -⟩ | ⟨-, d', hd', h⟩
  · exact absurd hle (not_le.mpr hlt)
  · rw [h]
    cases hnat : d'.toNat? with
    | none => exact ⟨_, rfl⟩
    | some n =>
      have hn : fitted (minorUnitsOf d code) = n := hd'.symm.trans (Decimal.toNat?_eq_some.mp hnat)
      rw [Option.isSome_some, if_pos rfl, Decimal.truncate_of_toNat? hnat]
      split_ifs with hpos
      · have hcoeff : 0 < d'.coeff := by simpa using hpos
        have hn' : 0 < n := by
          have hrat := Decimal.toRat_pos.mpr hcoeff
          rw [hd', hn] at hrat
          exact_mod_cast hrat
        obtain ⟨message, herror⟩ := Money.new_natCast_error fun hmax => hfar n hn' hmax hn
        rw [herror]
        exact ⟨_, rfl⟩
      · exact ⟨_, rfl⟩

/-- A negative number is blamed. -/
lemma money_negative (hparse : parseDecimal (strip amount) locale = some (.finite true d))
    (hd : 0 < d.coeff) (hlt : minorUnitsOf d code < overflowLimit) :
    ∃ message, ExpenseForm.money amount currency locale = .ok (.error (.amount, message)) := by
  rcases money_scaled hcode hparse hd with ⟨hle, -⟩ | ⟨-, d', hd', h⟩
  · exact absurd hle (not_le.mpr hlt)
  · rw [h, if_neg (c := (!true && decide (0 < d'.coeff)) = true) (by simp)]
    split_ifs
    · exact ⟨_, rfl⟩
    · exact ⟨_, rfl⟩

/-- Too large a number overflows, whatever its sign. -/
lemma money_overflow {negative : Bool}
    (hparse : parseDecimal (strip amount) locale = some (.finite negative d)) (hd : 0 < d.coeff)
    (hle : overflowLimit ≤ minorUnitsOf d code) :
    ExpenseForm.money amount currency locale = .error .decimalOverflow := by
  rcases money_scaled hcode hparse hd with ⟨-, h⟩ | ⟨hlt, -⟩
  · exact h
  · exact absurd hle (not_le.mpr hlt)

/-- Zero is blamed. -/
lemma money_zero {negative : Bool}
    (hparse : parseDecimal (strip amount) locale = some (.finite negative d)) (hd : d.coeff = 0) :
    ExpenseForm.money amount currency locale = .ok (.error outsideRange) := by
  obtain ⟨e, hfit⟩ : ∃ e, Decimal.fit ⟨d.coeff, d.exp + (code.minorUnitExponent : ℤ)⟩ =
      .ok ⟨0, e⟩ := ⟨_, if_pos hd⟩
  have hint : ∃ n, (Decimal.mk 0 e).toNat? = some n := ⟨0, by
    rw [Decimal.toNat?_eq_some, Decimal.toRat]
    simp⟩
  obtain ⟨n, hn⟩ := hint
  unfold ExpenseForm.money
  rw [hcode]
  dsimp only
  rw [hparse]
  dsimp only
  rw [ExtendedDecimal.scaleb, hfit]
  show (if (Decimal.mk 0 e).toNat?.isSome then _ else _) = _
  rw [hn, Option.isSome_some, if_pos rfl]
  cases negative <;> rfl

/-- A special value is blamed, unless it raises. -/
lemma money_special {v : ExtendedDecimal} (hparse : parseDecimal (strip amount) locale = some v)
    (hv : ∀ negative d, v ≠ .finite negative d) :
    (¬ Scalable code v ∧ ∃ e, ExpenseForm.money amount currency locale = .error e) ∨
      Scalable code v ∧
        ∃ message, ExpenseForm.money amount currency locale = .ok (.error (.amount, message)) := by
  unfold ExpenseForm.money
  rw [hcode]
  dsimp only
  rw [hparse]
  match v with
  | .finite negative d => exact absurd rfl (hv negative d)
  | .nan true => exact .inl ⟨by simp [Scalable], .invalidOperation, rfl⟩
  | .nan false => exact .inr ⟨rfl, _, rfl⟩
  | .infinity false => exact .inl ⟨by simp [Scalable], .overflowError, rfl⟩
  | .infinity true => exact .inr ⟨rfl, outsideRange.2, rfl⟩

/-- **The outcomes of `_money`**: it raises, it blames the amount, or it reads the amount that the
number is rounded to.

**Proof sketch.** Cases on the number: infinities and NaN (`money_special`), zero, and the
others, which overflow (`money_scaled`), are near an amount and read as it, or are near none
(`money_far`). -/
lemma money_outcome {v : ExtendedDecimal} (hparse : parseDecimal (strip amount) locale = some v) :
    (¬ Scalable code v ∧ ∃ e, ExpenseForm.money amount currency locale = .error e) ∨
    (Scalable code v ∧
      (∃ message, ExpenseForm.money amount currency locale = .ok (.error (.amount, message))) ∧
      ∀ d, v = .finite false d → ∀ n : ℕ, 0 < n → (n : ℤ) ≤ maxMinorUnits code →
        fitted (minorUnitsOf d code) ≠ n) ∨
    (Scalable code v ∧ ∃ (d : Decimal) (n : ℕ) (hmax : (n : ℤ) ≤ maxMinorUnits code),
      v = .finite false d ∧ 0 < d.coeff ∧ 0 < n ∧ fitted (minorUnitsOf d code) = n ∧
      ExpenseForm.money amount currency locale =
        .ok (.ok ⟨n, code, Int.natCast_nonneg n, hmax⟩)) := by
  by_cases hspecial : ∀ negative d, v ≠ .finite negative d
  · rcases money_special hcode hparse hspecial with h | ⟨hscalable, hblamed⟩
    · exact .inl h
    · exact .inr (.inl ⟨hscalable, hblamed, fun d hd => absurd hd (hspecial false d)⟩)
  push Not at hspecial
  obtain ⟨negative, d, rfl⟩ := hspecial
  rcases Nat.eq_zero_or_pos d.coeff with hd | hd
  · refine .inr (.inl ⟨.inl hd, ⟨_, money_zero hcode hparse hd⟩, ?_⟩)
    rintro d' ⟨⟩ n hn -
    exact fitted_zero (by rw [minorUnitsOf, Decimal.toRat, hd]; simp) hn
  rcases le_or_gt overflowLimit (minorUnitsOf d code) with hle | hlt
  · refine .inl ⟨?_, _, money_overflow hcode hparse hd hle⟩
    rintro (h | h)
    · omega
    · exact absurd hle (not_le.mpr h)
  cases negative with
  | true =>
    exact .inr (.inl ⟨.inr hlt, money_negative hcode hparse hd hlt, fun d' hd' => by cases hd'⟩)
  | false =>
    by_cases hnear : ∃ n : ℕ, 0 < n ∧ (n : ℤ) ≤ maxMinorUnits code ∧
        fitted (minorUnitsOf d code) = n
    · obtain ⟨n, hn, hmax, hfit⟩ := hnear
      exact .inr (.inr ⟨.inr hlt, d, n, hmax, rfl, hd, hn, hfit,
        money_near hcode hparse hd hlt hn hmax hfit⟩)
    · push Not at hnear
      refine .inr (.inl ⟨.inr hlt, money_far hcode hparse hd hlt hnear, ?_⟩)
      rintro d' ⟨⟩
      exact hnear

end Amounts

/-! ## Which submissions are answered -/

omit [PythonRuntime] in
/-- The money that a text denotes: it is so many minor units, exactly. -/
def DenotesMoney (text : String) (locale : Babel.Locale) (money : Money) : Prop :=
  ∃ d : Decimal, parseDecimal (strip text) locale = some (.finite false d) ∧
    minorUnitsOf d money.currency = money.minorUnits ∧ 0 < money.minorUnits

omit [PythonRuntime] [Babel] in
/-- A number that is an amount of money is rounded to that amount only. -/
lemma eq_of_fitted {w : ℚ} {m : Money} (hw : w = m.minorUnits) (hpos : 0 < m.minorUnits) {n : ℕ}
    (hn : fitted w = n) : m.minorUnits = n := by
  obtain ⟨k, hk⟩ := Int.eq_ofNat_of_zero_le m.nonneg
  have hmax : (k : ℤ) ≤ maxMinorUnits m.currency := hk ▸ m.le_max
  have hwk : w = k := by
    rw [hw, hk]
    rfl
  rw [hwk, fitted_natCast (by omega) (lt_of_le_maxMinorUnits hmax)] at hn
  rw [hk]
  exact_mod_cast hn

/-- **The amount.** A changed amount in a currency is answered, and with an error unless it denotes
money, exactly when its value is read for what it is.

**Proof sketch.** Without a number the amount is blamed. With one, the outcomes of `_money`
(`money_outcome`) are right exactly when it is read for what it is: where it raises, it should have
blamed; where it blames, no amount is denoted; and where it reads an amount, that is denoted only if
the number is that amount. -/
lemma money_answers_iff {amount currency : String} {locale : Babel.Locale} {code : CurrencyCode}
    (hcode : CurrencyCode.new currency = .ok code) :
    (∃ r, ExpenseForm.money amount currency locale = .ok r ∧
      ((∀ m : Money, m.currency = code → ¬ DenotesMoney amount locale m) →
        ∃ message, r = .error (.amount, message))) ↔
    ∀ v, parseDecimal (strip amount) locale = some v → ReadsValue code v := by
  cases hparse : parseDecimal (strip amount) locale with
  | none =>
    obtain ⟨message, h⟩ := money_of_none hcode hparse
    exact iff_of_true ⟨_, h, fun _ => ⟨message, rfl⟩⟩ fun v hv => nomatch hv
  | some v =>
    have hforall : (∀ v', some v = some v' → ReadsValue code v') ↔ ReadsValue code v :=
      ⟨fun h => h v rfl, fun h v' hv' => Option.some.inj hv' ▸ h⟩
    rw [hforall]
    rcases money_outcome hcode hparse with ⟨hraises, e, he⟩ | ⟨hscalable, ⟨message, h⟩, hfar⟩ |
      ⟨hscalable, d, n, hmax, rfl, hd, hn, hfit, hmoney⟩
    · refine iff_of_false ?_ fun h => hraises h.1
      rintro ⟨r, hr, -⟩
      rw [he] at hr
      cases hr
    · refine iff_of_true ⟨_, h, fun _ => ⟨message, rfl⟩⟩ ⟨hscalable, ?_⟩
      rintro d rfl n hn hmax hnear
      rcases Nat.eq_zero_or_pos d.coeff with hd | hd
      · -- Zero is not within half a digit of a positive number.
        have hw : minorUnitsOf d code = 0 := by
          rw [minorUnitsOf, Decimal.toRat, hd]
          simp
        have hexp : (10 : ℚ) ^ fittedExp 0 ≤ 1 := by
          refine zpow_le_one_of_nonpos₀ (by norm_num) ?_
          unfold fittedExp
          rw [Int.log_zero_right]
          decide
        have hone : (1 : ℚ) ≤ n := by exact_mod_cast hn
        rw [hw, zero_sub, abs_neg, Nat.abs_cast] at hnear
        linarith
      · exact absurd ((fitted_eq_iff_near (mul_pos (Decimal.toRat_pos.mpr hd) (zpow_ten_pos _))
          hmax).mpr hnear) (hfar d rfl n hn hmax)
    · have hw : 0 < minorUnitsOf d code := mul_pos (Decimal.toRat_pos.mpr hd) (zpow_ten_pos _)
      constructor
      · rintro ⟨r, hr, hdenotes⟩
        obtain rfl := Except.ok.inj (hmoney.symm.trans hr)
        refine ⟨hscalable, ?_⟩
        rintro d' ⟨⟩ n' hn' hmax' hnear'
        obtain rfl : n' = n := by
          exact_mod_cast ((fitted_eq_iff_near hw hmax').mpr hnear').symm.trans hfit
        by_contra hne
        obtain ⟨message, herror⟩ := hdenotes (by
          rintro m rfl ⟨d', hd', hunits, hpos⟩
          obtain ⟨⟩ := Option.some.inj (hparse.symm.trans hd')
          refine hne (hunits.trans ?_)
          rw [eq_of_fitted hunits hpos hfit, Int.cast_natCast])
        cases herror
      · rintro ⟨-, hexact⟩
        refine ⟨_, hmoney, fun hdenotes => absurd ?_ (hdenotes ⟨n, code, Int.natCast_nonneg n,
          hmax⟩ rfl)⟩
        exact ⟨d, hparse, hexact d rfl n hn hmax ((fitted_eq_iff_near hw hmax).mp hfit),
          Int.natCast_pos.mpr hn⟩

/-- Money that was read is the amount that its number is rounded to.

**Proof sketch.** Of the outcomes of `_money` only the last one gives money. -/
lemma money_eq_ok {amount currency : String} {locale : Babel.Locale} {m : Money}
    (h : ExpenseForm.money amount currency locale = .ok (.ok m)) :
    ∃ (code : CurrencyCode) (d : Decimal) (n : ℕ) (hmax : (n : ℤ) ≤ maxMinorUnits code),
      CurrencyCode.new currency = .ok code ∧
      parseDecimal (strip amount) locale = some (.finite false d) ∧ 0 < d.coeff ∧
      0 < n ∧ fitted (minorUnitsOf d code) = n ∧
      m = ⟨n, code, Int.natCast_nonneg n, hmax⟩ := by
  cases hcode : CurrencyCode.new currency with
  | error e => simp [ExpenseForm.money, hcode] at h
  | ok code =>
    cases hparse : parseDecimal (strip amount) locale with
    | none =>
      obtain ⟨message, h'⟩ := money_of_none hcode hparse
      rw [h'] at h
      cases h
    | some v =>
      rcases money_outcome hcode hparse with ⟨-, e, he⟩ | ⟨-, ⟨message, h'⟩, -⟩ |
        ⟨-, d, n, hmax, rfl, hd, hn, hfit, hmoney⟩
      · rw [he] at h
        cases h
      · rw [h'] at h
        cases h
      · rw [hmoney] at h
        cases h
        exact ⟨code, d, n, hmax, rfl, rfl, hd, hn, hfit, rfl⟩

/-- Money that was read is positive. -/
lemma money_pos {amount currency : String} {locale : Babel.Locale} {m : Money}
    (h : ExpenseForm.money amount currency locale = .ok (.ok m)) : 0 < m.minorUnits := by
  obtain ⟨code, d, n, hmax, -, -, -, hn, -, rfl⟩ := money_eq_ok h
  exact Int.natCast_pos.mpr hn

omit [PythonRuntime] [Babel] in
/-- A field is blamed. -/
def ValidatedEdit.Blames (r : ValidatedEdit) (field : FormField) : Prop :=
  ∃ message, (field, message) ∈ r.errors

omit [Babel] in
/-- The values of an edit that `EditExpense` accepts, whatever is stored: the date is judged
acceptable, the key is one of a category, no text has a zero character, and the Expense itself takes
each value at any time. -/
structure ExpenseEdit.Acceptable (edit : ExpenseEdit) (categoryKeys : List String)
    (dateIsAcceptable : TransactionDate → Except Raised Bool) : Prop where
  money : ∀ m ∈ edit.money, ∀ (e : Expense) (now : Instant),
    ∃ e', e.editMoney m (Instant.toDateTime now) = .ok e'
  transactionDate : ∀ date ∈ edit.transactionDate, dateIsAcceptable date = .ok true ∧
    ∀ (e : Expense) (now : Instant),
      ∃ e', e.editTransactionDate date (Instant.toDateTime now) = .ok e'
  merchant : ∀ merchant ∈ edit.merchant, (∀ name ∈ merchant, hasNoNul name.value = true) ∧
    ∀ (e : Expense) (now : Instant), ∃ e', e.editMerchant merchant (Instant.toDateTime now) = .ok e'
  categoryKey : ∀ key ∈ edit.categoryKey, key ∈ categoryKeys ∧
    ∀ (e : Expense) (now : Instant), ∃ e', e.editCategory key (Instant.toDateTime now) = .ok e'
  note : ∀ note ∈ edit.note, (∀ text ∈ note, hasNoNul text = true) ∧
    ∀ (e : Expense) (now : Instant), ∃ e', e.editNote note (Instant.toDateTime now) = .ok e'

/-- A submission is answered: every changed field whose text denotes no acceptable value is blamed,
and without errors the edit holds acceptable values. A changed amount denotes money of the currency
that was submitted with it, and of any currency if that is none. -/
structure Answered (submitted original : ExpenseForm) (locale : Babel.Locale)
    (categoryKeys : List String) (dateIsAcceptable : TransactionDate → Except Raised Bool)
    (r : ValidatedEdit) : Prop where
  currency : submitted.MoneyChanged original →
    (∀ code, CurrencyCode.new submitted.currency ≠ .ok code) → r.Blames .currency
  amount : submitted.MoneyChanged original →
    ∀ code, CurrencyCode.new submitted.currency = .ok code →
      (∀ m : Money, m.currency = code → ¬ DenotesMoney submitted.amount locale m) →
        r.Blames .amount
  amount_alone : submitted.amount ≠ original.amount →
    (∀ code, CurrencyCode.new submitted.currency ≠ .ok code) →
      (∀ m : Money, ¬ DenotesMoney submitted.amount locale m) → r.Blames .amount
  transactionDate : submitted.transactionDate ≠ original.transactionDate →
    (¬ ∃ value date, dateFromIsoformat submitted.transactionDate = some value ∧
      TransactionDate.new value = .ok date ∧ dateIsAcceptable date = .ok true) →
        r.Blames .transactionDate
  merchant : strip submitted.merchant ≠ strip original.merchant → strip submitted.merchant ≠ "" →
    (¬ ∃ name, MerchantName.new submitted.merchant = .ok name ∧ hasNoNul name.value = true) →
      r.Blames .merchant
  categoryKey : submitted.categoryKey ≠ original.categoryKey →
    submitted.categoryKey ∉ categoryKeys → r.Blames .categoryKey
  note : strip submitted.note ≠ strip original.note →
    ¬ ((strip submitted.note).length ≤ maxNoteLength ∧ hasNoNul (strip submitted.note) = true) →
      r.Blames .note
  accepted : r.errors = [] → r.edit.Acceptable categoryKeys dateIsAcceptable

/-- What the form can answer. A number for an amount is read for what it is; without a currency it
is an amount in some currency; today is known to judge a date by; and no merchant and no note that
could be saved has a zero character. -/
structure ExpenseForm.Answerable (submitted original : ExpenseForm) (locale : Babel.Locale)
    (dateIsAcceptable : TransactionDate → Except Raised Bool) : Prop where
  amount : submitted.MoneyChanged original →
    ∀ code, CurrencyCode.new submitted.currency = .ok code →
      ∀ v, parseDecimal (strip submitted.amount) locale = some v → ReadsValue code v
  amount_alone : submitted.amount ≠ original.amount →
    (∀ code, CurrencyCode.new submitted.currency ≠ .ok code) →
      ∃ m, DenotesMoney submitted.amount locale m
  transactionDate : submitted.transactionDate ≠ original.transactionDate →
    ∀ value date, dateFromIsoformat submitted.transactionDate = some value →
      TransactionDate.new value = .ok date → ∃ b, dateIsAcceptable date = .ok b
  merchant : strip submitted.merchant ≠ strip original.merchant → strip submitted.merchant ≠ "" →
    ∀ name, MerchantName.new submitted.merchant = .ok name → hasNoNul name.value = true
  note : strip submitted.note ≠ strip original.note →
    (strip submitted.note).length ≤ maxNoteLength → hasNoNul (strip submitted.note) = true

section Answers

variable {submitted original : ExpenseForm} {locale : Babel.Locale} {categoryKeys : List String}
  {dateIsAcceptable : TransactionDate → Except Raised Bool}

/-! ### The messages of a field -/

omit [PythonRuntime] [Babel] in
lemma mem_errorOf {α : Type} {check : Option (FieldCheck α)} {e : FormField × String} :
    e ∈ errorOf check ↔ check = some (.error e) := by
  match check with
  | none => simp [errorOf]
  | some (.ok a) => simp [errorOf]
  | some (.error e') => simp [errorOf, eq_comm]

omit [PythonRuntime] [Babel] in
/-- A message of a field that may have changed is one of its check. -/
lemma mem_errorOf_ite {α : Type} {changed : Prop} [Decidable changed] {check : FieldCheck α}
    {e : FormField × String} :
    e ∈ errorOf (if changed then some check else none) ↔ changed ∧ check = .error e := by
  rw [mem_errorOf]
  split_ifs with h
  · rw [Option.some.injEq]
    exact (and_iff_right h).symm
  · exact iff_of_false nofun fun h' => h h'.1

/-- An amount that cannot be read is blamed, or its currency is.

**Proof sketch.** Without a currency the currency is blamed; with one, the outcomes of `_money`
blame the amount only. -/
lemma money_error {amount currency : String} {e : FormField × String}
    (h : ExpenseForm.money amount currency locale = .ok (.error e)) :
    e.1 = .amount ∨ e.1 = .currency := by
  cases hcode : CurrencyCode.new currency with
  | error message =>
    unfold ExpenseForm.money at h
    rw [hcode] at h
    cases h
    exact .inr rfl
  | ok code =>
    refine .inl ?_
    cases hparse : parseDecimal (strip amount) locale with
    | none =>
      obtain ⟨message, hblamed⟩ := money_of_none hcode hparse
      cases hblamed.symm.trans h
      rfl
    | some v =>
      rcases money_outcome hcode hparse with ⟨-, e', he⟩ | ⟨-, ⟨message, hblamed⟩, -⟩ |
        ⟨-, d, n, hmax, -, -, -, -, hread⟩
      · cases he.symm.trans h
      · cases hblamed.symm.trans h
        rfl
      · cases hread.symm.trans h

omit [PythonRuntime] in
/-- A date is judged once a text is one. -/
lemma checkTransactionDate_of_date {text : String} {value : Date} {date : TransactionDate}
    (hvalue : dateFromIsoformat text = some value) (hdate : TransactionDate.new value = .ok date) :
    checkTransactionDate text dateIsAcceptable = (dateIsAcceptable date).map fun b =>
      if b then .ok date else .error (.transactionDate,
        translate "The date can be at most one day in the future.") := by
  unfold checkTransactionDate
  rw [hvalue]
  dsimp only
  rw [hdate]
  dsimp only
  cases dateIsAcceptable date with
  | error e => rfl
  | ok b => cases b <;> rfl

omit [PythonRuntime] in
/-- A text that is no date is blamed. -/
lemma checkTransactionDate_of_none {text : String} (hnone : ∀ value date,
      dateFromIsoformat text = some value → TransactionDate.new value ≠ .ok date) :
    checkTransactionDate text dateIsAcceptable =
      .ok (.error (.transactionDate, translate "Enter a date.")) := by
  unfold checkTransactionDate
  cases hvalue : dateFromIsoformat text with
  | none => rfl
  | some value =>
    dsimp only
    cases hdate : TransactionDate.new value with
    | error e => rfl
    | ok date => exact absurd hdate (hnone value date hvalue)

omit [PythonRuntime] in
/-- **The outcomes of a date**: it is no date, which is blamed, or it is judged. -/
lemma checkTransactionDate_cases (text : String) :
    ((∀ value date, dateFromIsoformat text = some value → TransactionDate.new value ≠ .ok date) ∧
      checkTransactionDate text dateIsAcceptable =
        .ok (.error (.transactionDate, translate "Enter a date."))) ∨
    ∃ value date, dateFromIsoformat text = some value ∧ TransactionDate.new value = .ok date ∧
      checkTransactionDate text dateIsAcceptable = (dateIsAcceptable date).map fun b =>
        if b then .ok date else .error (.transactionDate,
          translate "The date can be at most one day in the future.") := by
  by_cases hnone : ∀ value date, dateFromIsoformat text = some value →
      TransactionDate.new value ≠ .ok date
  · exact .inl ⟨hnone, checkTransactionDate_of_none hnone⟩
  · push Not at hnone
    obtain ⟨value, date, hvalue, hdate⟩ := hnone
    exact .inr ⟨value, date, hvalue, hdate, checkTransactionDate_of_date hvalue hdate⟩

omit [PythonRuntime] in
/-- An error of the date blames the date. -/
lemma checkTransactionDate_error {text : String} {e : FormField × String}
    (h : checkTransactionDate text dateIsAcceptable = .ok (.error e)) :
    e.1 = .transactionDate := by
  rcases checkTransactionDate_cases text with ⟨-, hcheck⟩ | ⟨value, date, -, -, hcheck⟩
  · cases hcheck.symm.trans h
    rfl
  · rw [hcheck] at h
    cases hjudged : dateIsAcceptable date with
    | error r =>
      rw [hjudged] at h
      cases h
    | ok b =>
      rw [hjudged] at h
      cases b with
      | false =>
        cases h
        rfl
      | true => cases h

omit [PythonRuntime] in
/-- A date that is read is judged acceptable. -/
lemma checkTransactionDate_ok {text : String} {date : TransactionDate}
    (h : checkTransactionDate text dateIsAcceptable = .ok (.ok date)) :
    ∃ value, dateFromIsoformat text = some value ∧ TransactionDate.new value = .ok date ∧
      dateIsAcceptable date = .ok true := by
  rcases checkTransactionDate_cases text with ⟨-, hcheck⟩ | ⟨value, date', hvalue, hdate, hcheck⟩
  · cases hcheck.symm.trans h
  · rw [hcheck] at h
    cases hjudged : dateIsAcceptable date' with
    | error r =>
      rw [hjudged] at h
      cases h
    | ok b =>
      rw [hjudged] at h
      cases b with
      | false => cases h
      | true =>
        cases h
        exact ⟨value, hvalue, hdate, hjudged⟩

omit [PythonRuntime] in
/-- An error of the merchant blames the merchant. -/
lemma checkMerchant_error {text : String} {e : FormField × String}
    (h : checkMerchant text = .error e) : e.1 = .merchant := by
  unfold checkMerchant at h
  split_ifs at h
  split at h
  · cases h
  · cases h
    rfl

omit [PythonRuntime] in
/-- A merchant that is read is a name, unless the text is blank. -/
lemma checkMerchant_ok {text : String} {merchant : Option MerchantName}
    (h : checkMerchant text = .ok merchant) :
    (strip text = "" ∧ merchant = none) ∨
      strip text ≠ "" ∧ ∃ name, MerchantName.new text = .ok name ∧ merchant = some name := by
  unfold checkMerchant at h
  split_ifs at h with hblank
  · exact .inl ⟨hblank, (Except.ok.inj h).symm⟩
  · split at h
    · rename_i name hname
      exact .inr ⟨hblank, name, hname, (Except.ok.inj h).symm⟩
    · cases h

omit [PythonRuntime] in
/-- An error of the category blames the category. -/
lemma checkCategory_error {text : String} {e : FormField × String}
    (h : checkCategory text categoryKeys = .error e) : e.1 = .categoryKey := by
  unfold checkCategory at h
  split_ifs at h
  cases h
  rfl

omit [PythonRuntime] in
/-- An error of the note blames the note. -/
lemma checkNote_error {text : String} {e : FormField × String}
    (h : checkNote text = .error e) : e.1 = .note ∧ maxNoteLength < (strip text).length := by
  unfold checkNote at h
  dsimp only at h
  split_ifs at h with hlong
  cases h
  exact ⟨rfl, hlong⟩

omit [PythonRuntime] in
/-- A note that is read is the text without surrounding whitespace, unless that is empty. -/
lemma checkNote_ok {text : String} {note : Option String} (h : checkNote text = .ok note) :
    (strip text).length ≤ maxNoteLength ∧ ∀ t ∈ note, t = strip text := by
  unfold checkNote at h
  dsimp only at h
  split_ifs at h with hlong hempty
  · obtain rfl := Except.ok.inj h
    exact ⟨not_lt.mp hlong, by simp⟩
  · obtain rfl := Except.ok.inj h
    refine ⟨not_lt.mp hlong, ?_⟩
    rintro _ ⟨⟩
    rfl

/-! ### The money and the date -/

/-- The money of a submission is answered. -/
structure MoneyAnswered (submitted original : ExpenseForm) (locale : Babel.Locale)
    (money : Option (FieldCheck Money)) : Prop where
  currency : submitted.MoneyChanged original →
    (∀ code, CurrencyCode.new submitted.currency ≠ .ok code) →
      ∃ message, money = some (.error (.currency, message))
  amount : submitted.MoneyChanged original →
    ∀ code, CurrencyCode.new submitted.currency = .ok code →
      (∀ m : Money, m.currency = code → ¬ DenotesMoney submitted.amount locale m) →
        ∃ message, money = some (.error (.amount, message))
  amount_alone : submitted.amount ≠ original.amount →
    (∀ code, CurrencyCode.new submitted.currency ≠ .ok code) →
      (∀ m : Money, ¬ DenotesMoney submitted.amount locale m) →
        ∃ message, money = some (.error (.amount, message))

/-- **The money** of a submission is answered exactly when a number in a currency is read for what it
is, and a changed amount without a currency is an amount in some currency.

**Proof sketch.** An unchanged pair is not looked at. With a supported currency the condition is
that of `money_answers_iff`. Without one the currency is blamed alone, which is an answer unless the
amount was changed to a text that is an amount in no currency. -/
lemma moneyAnswered_iff :
    (∃ money, whenChanged (submitted.MoneyChanged original)
        (ExpenseForm.money submitted.amount submitted.currency locale) = .ok money ∧
      MoneyAnswered submitted original locale money) ↔
    (submitted.MoneyChanged original → ∀ code, CurrencyCode.new submitted.currency = .ok code →
      ∀ v, parseDecimal (strip submitted.amount) locale = some v → ReadsValue code v) ∧
    (submitted.amount ≠ original.amount →
      (∀ code, CurrencyCode.new submitted.currency ≠ .ok code) →
        ∃ m, DenotesMoney submitted.amount locale m) := by
  by_cases hchanged : submitted.MoneyChanged original
  swap
  · have hamount : ¬ submitted.amount ≠ original.amount :=
      fun h => hchanged fun heq => h (Prod.mk.inj heq).1
    refine iff_of_true ⟨none, whenChanged_eq_ok.mpr (.inr ⟨hchanged, rfl⟩), ?_⟩
      ⟨fun h => absurd h hchanged, fun h => absurd h hamount⟩
    exact ⟨fun h => absurd h hchanged, fun h => absurd h hchanged, fun h => absurd h hamount⟩
  simp only [whenChanged_of_changed hchanged]
  cases hcode : CurrencyCode.new submitted.currency with
  | error e =>
    -- Only the currency is blamed, so the amount had better be one.
    have hmoney : ExpenseForm.money submitted.amount submitted.currency locale =
        .ok (.error (.currency, translate "Choose a currency.")) := by
      unfold ExpenseForm.money
      rw [hcode]
    have hnone : ∀ code, CurrencyCode.new submitted.currency ≠ .ok code := by
      intro code hok
      cases hcode.symm.trans hok
    constructor
    · rintro ⟨money, ⟨check, hcheck, rfl⟩, hanswered⟩
      refine ⟨fun _ => nofun, fun hne _ => ?_⟩
      by_contra hdenotes
      push Not at hdenotes
      obtain ⟨message, herror⟩ := hanswered.amount_alone hne hnone hdenotes
      cases (hcheck.symm.trans hmoney).symm.trans (congrArg _ (Option.some.inj herror))
    · rintro ⟨-, hdenotes⟩
      refine ⟨_, ⟨_, hmoney, rfl⟩, fun _ _ => ⟨_, rfl⟩, fun _ code hok => absurd hok (hnone code),
        fun hne _ hno => ?_⟩
      obtain ⟨m, hm⟩ := hdenotes hne nofun
      exact absurd hm (hno m)
  | ok code =>
    have hforall : (∀ code', (Except.ok code : Checked CurrencyCode) = .ok code' →
        ∀ v, parseDecimal (strip submitted.amount) locale = some v → ReadsValue code' v) ↔
        ∀ v, parseDecimal (strip submitted.amount) locale = some v → ReadsValue code v :=
      ⟨fun h => h code rfl, fun h code' hcode' => Except.ok.inj hcode' ▸ h⟩
    constructor
    · rintro ⟨money, ⟨check, hcheck, rfl⟩, hanswered⟩
      refine ⟨fun _ => hforall.mpr ((money_answers_iff hcode).mp ⟨check, hcheck, fun hnone => ?_⟩),
        fun _ hnone => absurd rfl (hnone code)⟩
      obtain ⟨message, herror⟩ := hanswered.amount hchanged code hcode hnone
      exact ⟨message, Option.some.inj herror⟩
    · rintro ⟨hreads, -⟩
      obtain ⟨check, hcheck, hdenotes⟩ :=
        (money_answers_iff hcode).mpr (hforall.mp (hreads hchanged))
      refine ⟨_, ⟨check, hcheck, rfl⟩, fun _ hnone => absurd hcode (hnone code), ?_,
        fun _ hnone => absurd hcode (hnone code)⟩
      intro _ code' hcode' hnone
      obtain rfl := Except.ok.inj (hcode.symm.trans hcode')
      obtain ⟨message, rfl⟩ := hdenotes hnone
      exact ⟨message, rfl⟩

/-- The date of a submission is answered. -/
def DateAnswered (submitted original : ExpenseForm)
    (dateIsAcceptable : TransactionDate → Except Raised Bool)
    (transactionDate : Option (FieldCheck TransactionDate)) : Prop :=
  submitted.transactionDate ≠ original.transactionDate →
    (¬ ∃ value date, dateFromIsoformat submitted.transactionDate = some value ∧
      TransactionDate.new value = .ok date ∧ dateIsAcceptable date = .ok true) →
        ∃ message, transactionDate = some (.error (.transactionDate, message))

omit [PythonRuntime] in
/-- **The date** of a submission is answered exactly when it can be judged.

**Proof sketch.** A text that is no date is blamed, whatever the rule; for one that is, the rule is
asked about it and may raise (`checkTransactionDate_cases`). -/
lemma dateAnswered_iff :
    (∃ transactionDate, whenChanged (submitted.transactionDate ≠ original.transactionDate)
        (checkTransactionDate submitted.transactionDate dateIsAcceptable) = .ok transactionDate ∧
      DateAnswered submitted original dateIsAcceptable transactionDate) ↔
    (submitted.transactionDate ≠ original.transactionDate →
      ∀ value date, dateFromIsoformat submitted.transactionDate = some value →
        TransactionDate.new value = .ok date → ∃ b, dateIsAcceptable date = .ok b) := by
  by_cases hchanged : submitted.transactionDate ≠ original.transactionDate
  swap
  · exact iff_of_true ⟨none, whenChanged_eq_ok.mpr (.inr ⟨hchanged, rfl⟩),
      fun h => absurd h hchanged⟩ fun h => absurd h hchanged
  simp only [whenChanged_of_changed hchanged]
  rcases checkTransactionDate_cases submitted.transactionDate with
    ⟨hnone, hcheck⟩ | ⟨value, date, hvalue, hdate, hcheck⟩
  · exact iff_of_true ⟨_, ⟨_, hcheck, rfl⟩, fun _ _ => ⟨_, rfl⟩⟩
      fun _ value date hvalue hdate => absurd hdate (hnone value date hvalue)
  have honly : ∀ value' date', dateFromIsoformat submitted.transactionDate = some value' →
      TransactionDate.new value' = .ok date' → date' = date := by
    intro value' date' hvalue' hdate'
    obtain rfl := Option.some.inj (hvalue'.symm.trans hvalue)
    exact Except.ok.inj (hdate'.symm.trans hdate)
  cases hjudged : dateIsAcceptable date with
  | error e =>
    rw [hjudged] at hcheck
    refine iff_of_false ?_ ?_
    · rintro ⟨_, ⟨check, hok, -⟩, -⟩
      cases hcheck.symm.trans hok
    · intro hall
      obtain ⟨b, hb⟩ := hall hchanged value date hvalue hdate
      cases hjudged.symm.trans hb
  | ok b =>
    rw [hjudged] at hcheck
    refine iff_of_true ⟨_, ⟨_, hcheck, rfl⟩, fun _ hno => ?_⟩
      fun _ value' date' hvalue' hdate' => ?_
    · cases b with
      | false => exact ⟨_, rfl⟩
      | true => exact absurd ⟨value, date, hvalue, hdate, hjudged⟩ hno
    · rw [honly value' date' hvalue' hdate']
      exact ⟨b, hjudged⟩

/-! ### The whole submission -/

section Edit

variable {money : Option (FieldCheck Money)} {transactionDate : Option (FieldCheck TransactionDate)}
  (hmoney : whenChanged (submitted.MoneyChanged original)
    (ExpenseForm.money submitted.amount submitted.currency locale) = .ok money)
  (hdate : whenChanged (submitted.transactionDate ≠ original.transactionDate)
    (checkTransactionDate submitted.transactionDate dateIsAcceptable) = .ok transactionDate)

omit [PythonRuntime] in
/-- The messages of an edit are those of its fields. -/
lemma mem_errors_iff {e : FormField × String} :
    e ∈ (editOf submitted original categoryKeys money transactionDate).errors ↔
      money = some (.error e) ∨ transactionDate = some (.error e) ∨
      (strip submitted.merchant ≠ strip original.merchant ∧
        checkMerchant submitted.merchant = .error e) ∨
      (submitted.categoryKey ≠ original.categoryKey ∧
        checkCategory submitted.categoryKey categoryKeys = .error e) ∨
      (strip submitted.note ≠ strip original.note ∧ checkNote submitted.note = .error e) := by
  simp only [editOf, List.mem_append, or_assoc]
  rw [mem_errorOf, mem_errorOf, mem_errorOf_ite, mem_errorOf_ite, mem_errorOf_ite]

include hmoney hdate in
/-- **A message** blames the field whose check it is of.

**Proof sketch.** The errors are those of the checks, one after another (`mem_errors_iff`), and each
check blames its own field. -/
lemma mem_errors_editOf {field : FormField} {message : String}
    (h : (field, message) ∈ (editOf submitted original categoryKeys money transactionDate).errors) :
    ((field = .amount ∨ field = .currency) ∧ money = some (.error (field, message))) ∨
    (field = .transactionDate ∧ transactionDate = some (.error (field, message))) ∨
    (field = .merchant ∧ checkMerchant submitted.merchant = .error (field, message)) ∨
    (field = .categoryKey ∧ submitted.categoryKey ∉ categoryKeys) ∨
    (field = .note ∧ maxNoteLength < (strip submitted.note).length) := by
  rcases mem_errors_iff.mp h with h | h | ⟨-, h⟩ | ⟨-, h⟩ | ⟨-, h⟩
  · rcases whenChanged_eq_ok.mp hmoney with ⟨-, check, hcheck, rfl⟩ | ⟨-, rfl⟩
    · obtain rfl := Option.some.inj h
      exact .inl ⟨money_error hcheck, rfl⟩
    · cases h
  · rcases whenChanged_eq_ok.mp hdate with ⟨-, check, hcheck, rfl⟩ | ⟨-, rfl⟩
    · obtain rfl := Option.some.inj h
      exact .inr (.inl ⟨checkTransactionDate_error hcheck, rfl⟩)
    · cases h
  · exact .inr (.inr (.inl ⟨checkMerchant_error h, h⟩))
  · refine .inr (.inr (.inr (.inl ⟨checkCategory_error h, fun hmem => ?_⟩)))
    cases (if_pos hmem : checkCategory submitted.categoryKey categoryKeys = .ok _).symm.trans h
  · exact .inr (.inr (.inr (.inr (checkNote_error h))))

include hmoney hdate in
/-- What a submission without errors that could not be saved comes to: the values that were read are
acceptable, if its texts are.

**Proof sketch.** Each value of the edit comes from a check that was made (`hvalue`, `hread`), and
what a check lets through is acceptable: money is positive, a date is accepted by the rule, a key is
one of the keys, and a name and a note are short enough and without a zero character. -/
lemma acceptable_editOf (hkeys : ∀ key ∈ categoryKeys, requireStableKey key = .ok ())
    (hmerchant : strip submitted.merchant ≠ strip original.merchant → strip submitted.merchant ≠ "" →
      ∀ name, MerchantName.new submitted.merchant = .ok name → hasNoNul name.value = true)
    (hnote : strip submitted.note ≠ strip original.note →
      (strip submitted.note).length ≤ maxNoteLength → hasNoNul (strip submitted.note) = true) :
    (editOf submitted original categoryKeys money transactionDate).edit.Acceptable categoryKeys
      dateIsAcceptable := by
  have hvalue : ∀ {α : Type} {changed : Prop} [Decidable changed] {check : FieldCheck α} {a : α},
      a ∈ valueOf (if changed then some check else none) → changed ∧ check = .ok a := by
    intro α changed _ check a ha
    obtain ⟨check', hcheck, hok⟩ := Option.bind_eq_some_iff.mp ha
    split_ifs at hcheck with h
    obtain rfl := Option.some.inj hcheck
    cases check with
    | error e => cases hok
    | ok a' => exact ⟨h, congrArg _ (Option.some.inj hok)⟩
  have hread : ∀ {α : Type} {changed : Prop} [Decidable changed]
      {check : Except Raised (FieldCheck α)} {c : Option (FieldCheck α)} {a : α},
      whenChanged changed check = .ok c → a ∈ valueOf c → check = .ok (.ok a) := by
    intro α changed _ check c a hc ha
    rcases whenChanged_eq_ok.mp hc with ⟨-, b, hb, rfl⟩ | ⟨-, rfl⟩
    · cases b with
      | error e => cases ha
      | ok a' =>
        obtain rfl := Option.some.inj ha
        exact hb
    · cases ha
  constructor
  · intro m hm e now
    exact ⟨_, Checked.bind_eq_ok.mpr ⟨(), requireAware_toDateTime now, Checked.bind_eq_ok.mpr
      ⟨(), require_eq_ok.mpr (money_pos (hread hmoney hm)), rfl⟩⟩⟩
  · intro date hd
    obtain ⟨-, -, -, hjudged⟩ := checkTransactionDate_ok (hread hdate hd)
    exact ⟨hjudged, fun e now => ⟨_, Checked.bind_eq_ok.mpr
      ⟨(), requireAware_toDateTime now, rfl⟩⟩⟩
  · intro merchant hm
    obtain ⟨hchanged, hcheck⟩ := hvalue hm
    refine ⟨fun name hname => ?_, fun e now => ⟨_, Checked.bind_eq_ok.mpr
      ⟨(), requireAware_toDateTime now, rfl⟩⟩⟩
    rcases checkMerchant_ok hcheck with ⟨-, rfl⟩ | ⟨hblank, name', hnew, rfl⟩
    · cases hname
    · obtain rfl := Option.some.inj hname
      exact hmerchant hchanged hblank _ hnew
  · intro key hkey
    obtain ⟨-, hcheck⟩ := hvalue hkey
    unfold checkCategory at hcheck
    split_ifs at hcheck with hmem
    obtain rfl := Except.ok.inj hcheck
    exact ⟨hmem, fun e now => ⟨_, Checked.bind_eq_ok.mpr ⟨(), requireAware_toDateTime now,
      Checked.bind_eq_ok.mpr ⟨(), hkeys _ hmem, rfl⟩⟩⟩⟩
  · intro note hn
    obtain ⟨hchanged, hcheck⟩ := hvalue hn
    obtain ⟨hshort, htext⟩ := checkNote_ok hcheck
    refine ⟨fun text ht => ?_, fun e now => ⟨_, Checked.bind_eq_ok.mpr
      ⟨(), requireAware_toDateTime now, rfl⟩⟩⟩
    rw [htext text ht]
    exact hnote hchanged hshort

include hmoney hdate in
/-- **A submission that is read is answered** exactly when its money and its date are, and neither a
name nor a note that is short enough has a zero character.

**Proof sketch.** An answer blames every changed field whose text denotes nothing, and gives
acceptable values otherwise. From an answer each part follows by looking at the errors of its field
(`mem_errors_editOf`). The other way round, the checks blame what they should, and the values are
acceptable (`acceptable_editOf`). -/
lemma answered_editOf_iff (hkeys : ∀ key ∈ categoryKeys, requireStableKey key = .ok ()) :
    Answered submitted original locale categoryKeys dateIsAcceptable
        (editOf submitted original categoryKeys money transactionDate) ↔
      MoneyAnswered submitted original locale money ∧
      DateAnswered submitted original dateIsAcceptable transactionDate ∧
      (strip submitted.merchant ≠ strip original.merchant → strip submitted.merchant ≠ "" →
        ∀ name, MerchantName.new submitted.merchant = .ok name → hasNoNul name.value = true) ∧
      (strip submitted.note ≠ strip original.note →
        (strip submitted.note).length ≤ maxNoteLength → hasNoNul (strip submitted.note) = true) := by
  have hmem := @mem_errors_editOf _ _ submitted original locale categoryKeys dateIsAcceptable money
    transactionDate hmoney hdate
  constructor
  · intro h
    have hamount : (editOf submitted original categoryKeys money transactionDate).Blames .amount →
        ∃ message, money = some (.error (.amount, message)) := by
      rintro ⟨message, herror⟩
      rcases hmem herror with ⟨-, hm⟩ | ⟨hf, -⟩ | ⟨hf, -⟩ | ⟨hf, -⟩ | ⟨hf, -⟩
      · exact ⟨message, hm⟩
      all_goals cases hf
    refine ⟨⟨fun hchanged hnone => ?_, fun hchanged code hcode hnone =>
      hamount (h.amount hchanged code hcode hnone), fun hne hcode hnone =>
        hamount (h.amount_alone hne hcode hnone)⟩, fun hchanged hnone => ?_,
      fun hchanged hblank name hname => ?_, fun hchanged hshort => ?_⟩
    · obtain ⟨message, herror⟩ := h.currency hchanged hnone
      rcases hmem herror with ⟨-, hm⟩ | ⟨hf, -⟩ | ⟨hf, -⟩ | ⟨hf, -⟩ | ⟨hf, -⟩
      · exact ⟨message, hm⟩
      all_goals cases hf
    · obtain ⟨message, herror⟩ := h.transactionDate hchanged hnone
      rcases hmem herror with ⟨hf | hf, -⟩ | ⟨-, hd⟩ | ⟨hf, -⟩ | ⟨hf, -⟩ | ⟨hf, -⟩
      rotate_left 2
      · exact ⟨message, hd⟩
      all_goals cases hf
    · -- A name is not blamed, so it must do.
      by_contra hnul
      obtain ⟨message, herror⟩ := h.merchant hchanged hblank (by
        rintro ⟨name', hname', hok⟩
        obtain rfl := Except.ok.inj (hname'.symm.trans hname)
        exact hnul hok)
      rcases hmem herror with ⟨hf | hf, -⟩ | ⟨hf, -⟩ | ⟨-, hcheck⟩ | ⟨hf, -⟩ | ⟨hf, -⟩
      rotate_left 3
      · unfold checkMerchant at hcheck
        rw [if_neg hblank, hname] at hcheck
        cases hcheck
      all_goals cases hf
    · by_contra hnul
      obtain ⟨message, herror⟩ := h.note hchanged fun hgood => hnul hgood.2
      rcases hmem herror with ⟨hf | hf, -⟩ | ⟨hf, -⟩ | ⟨hf, -⟩ | ⟨hf, -⟩ | ⟨-, hlong⟩
      rotate_left 5
      · omega
      all_goals cases hf
  · rintro ⟨hm, hd, hmerchant, hnote⟩
    refine ⟨?_, ?_, ?_, ?_, ?_, ?_, ?_,
      fun _ => acceptable_editOf hmoney hdate hkeys hmerchant hnote⟩
    · intro hchanged hnone
      obtain ⟨message, herror⟩ := hm.currency hchanged hnone
      exact ⟨message, mem_errors_iff.mpr (.inl herror)⟩
    · intro hchanged code hcode hnone
      obtain ⟨message, herror⟩ := hm.amount hchanged code hcode hnone
      exact ⟨message, mem_errors_iff.mpr (.inl herror)⟩
    · intro hne hcode hnone
      obtain ⟨message, herror⟩ := hm.amount_alone hne hcode hnone
      exact ⟨message, mem_errors_iff.mpr (.inl herror)⟩
    · intro hchanged hnone
      obtain ⟨message, herror⟩ := hd hchanged hnone
      exact ⟨message, mem_errors_iff.mpr (.inr (.inl herror))⟩
    · intro hchanged hblank hnone
      obtain ⟨message, hcheck⟩ : ∃ message, checkMerchant submitted.merchant =
          .error (.merchant, message) := by
        unfold checkMerchant
        rw [if_neg hblank]
        cases hname : MerchantName.new submitted.merchant with
        | ok name => exact absurd ⟨name, hname, hmerchant hchanged hblank name hname⟩ hnone
        | error e => exact ⟨_, rfl⟩
      exact ⟨message, mem_errors_iff.mpr (.inr (.inr (.inl ⟨hchanged, hcheck⟩)))⟩
    · intro hchanged hnone
      obtain ⟨message, hcheck⟩ : ∃ message, checkCategory submitted.categoryKey categoryKeys =
          .error (.categoryKey, message) := ⟨_, if_neg hnone⟩
      exact ⟨message, mem_errors_iff.mpr (.inr (.inr (.inr (.inl ⟨hchanged, hcheck⟩))))⟩
    · intro hchanged hbad
      obtain ⟨message, hcheck⟩ : ∃ message, checkNote submitted.note = .error (.note, message) := by
        refine ⟨_, if_pos ?_⟩
        by_contra hshort
        exact hbad ⟨not_lt.mp hshort, hnote hchanged (not_lt.mp hshort)⟩
      exact ⟨message, mem_errors_iff.mpr (.inr (.inr (.inr (.inr ⟨hchanged, hcheck⟩))))⟩

end Edit

/-- **The edit form answers** a submission, with the keys of categories, exactly when it is
answerable: when a number for an amount is read for what it is (not positive infinity nor a signaling
NaN, not too large to be scaled, and near no amount but itself), or is an amount of some currency if
it came with none; when today is known to judge a date by; and when no name and no short note has a
zero character.

**Proof sketch.** Each field is blamed by its own check alone, so the submission is answered field
by field. The money raises, blames the amount or reads what the number is rounded to, which is an
amount that the text denotes unless the number is near it only. The other fields are always
answered, but for zero characters, which no check looks for. -/
theorem validateEdit_answers_iff (submitted original : ExpenseForm) (locale : Babel.Locale)
    (categoryKeys : List String) (hkeys : ∀ key ∈ categoryKeys, requireStableKey key = .ok ())
    (dateIsAcceptable : TransactionDate → Except Raised Bool) :
    (∃ r, validateEdit submitted original locale categoryKeys dateIsAcceptable = .ok r ∧
      Answered submitted original locale categoryKeys dateIsAcceptable r) ↔
    submitted.Answerable original locale dateIsAcceptable := by
  constructor
  · rintro ⟨r, hr, hanswered⟩
    obtain ⟨money, hmoney, date, hdate, rfl⟩ := validateEdit_eq_ok.mp hr
    obtain ⟨hm, hd, hmerchant, hnote⟩ := (answered_editOf_iff hmoney hdate hkeys).mp hanswered
    obtain ⟨hamount, halone⟩ := moneyAnswered_iff.mp ⟨money, hmoney, hm⟩
    exact ⟨hamount, halone, dateAnswered_iff.mp ⟨date, hdate, hd⟩, hmerchant, hnote⟩
  · intro h
    obtain ⟨money, hmoney, hm⟩ := moneyAnswered_iff.mpr ⟨h.amount, h.amount_alone⟩
    obtain ⟨date, hdate, hd⟩ := dateAnswered_iff.mpr h.transactionDate
    exact ⟨_, validateEdit_eq_ok.mpr ⟨money, hmoney, date, hdate, rfl⟩,
      (answered_editOf_iff hmoney hdate hkeys).mpr ⟨hm, hd, h.merchant, h.note⟩⟩

end Answers

end Form

/-- The value of digits with a point or without. -/
def readPoint (text : String) : Option ExtendedDecimal :=
  match text.toList.splitOn '.' with
  | [whole] => (readNumber whole.length whole).map fun r => .finite false ⟨r.1, 0⟩
  | [whole, fraction] =>
    (readNumber (whole.length + fraction.length) (whole ++ fraction)).map fun r =>
      .finite false ⟨r.1, -fraction.length⟩
  | _ => none

/-- The digits of a number, with a point if it has decimal places. -/
def writePoint (d : Decimal) : String :=
  match d.exp with
  | .ofNat e => toString (d.coeff * 10 ^ e)
  | .negSucc e => toString (d.coeff / 10 ^ (e + 1)) ++ "." ++
      zeroPadded (d.coeff % 10 ^ (e + 1)) (e + 1)

/-- Formats of a locale that writes numbers as Python does, for concrete runs. -/
@[reducible] def Babel.digits : Babel where
  Locale := Unit
  formatDecimal negative d _ _ := (if negative then "-" else "") ++ writePoint d
  parseDecimal text _ :=
    if text = "Infinity" then some (.infinity false)
    else if text = "" then none else readPoint text
  formatPercent negative d _ _ := (if negative then "-" else "") ++ writePoint d
  formatDate d _ := isoformat d
  formatSkeleton _ d _ := isoformat d
  formatInterval start stop _ _ := isoformat start ++ " - " ++ isoformat stop
  translation _ := none
  pluralForm _ _ := none
  fill text _ := text

/-- The form of five euros spent on the 29th of July 2021. -/
def fiveEuros : ExpenseForm := ⟨"5", "EUR", "2021-07-29", "", "uncategorized", ""⟩

/-- The same form with another amount, date, merchant and note. -/
def twelveEuros : ExpenseForm :=
  ⟨"12", "EUR", "2021-07-28", "Corner Shop", "uncategorized", " lunch "⟩

/-- The rule of the page for dates, on the 29th of July 2021. -/
def acceptableOnJuly29 (date : TransactionDate) : Except Raised Bool :=
  @isWithinFutureTolerance PythonRuntime.ascii date 1627516800000000 "UTC"

/-- A change to twelve euros, an earlier day, a shop and a note is answered, and the same change with
a zero character in the note is not. -/
theorem validateEdit_answers_iff_twelve :
    letI := PythonRuntime.ascii
    letI := Babel.digits
    (∃ r, validateEdit twelveEuros fiveEuros () ["uncategorized"] acceptableOnJuly29 = .ok r ∧
      Answered twelveEuros fiveEuros () ["uncategorized"] acceptableOnJuly29 r) ∧
    ¬ ∃ r, validateEdit { twelveEuros with note := "lunch\x00" } fiveEuros () ["uncategorized"]
        acceptableOnJuly29 = .ok r ∧
      Answered { twelveEuros with note := "lunch\x00" } fiveEuros () ["uncategorized"]
        acceptableOnJuly29 r := by
  let _ := PythonRuntime.ascii
  let _ := Babel.digits
  constructor
  · refine (validateEdit_answers_iff twelveEuros fiveEuros () ["uncategorized"]
      (by decide +kernel) acceptableOnJuly29).mpr ⟨?_, ?_, ?_, ?_, ?_⟩
    · intro _ code hcode v hv
      have heuro : CurrencyCode.new "EUR" = .ok euro := by decide +kernel
      have htwelve : parseDecimal (strip "12") () = some (.finite false ⟨12, 0⟩) := by
        decide +kernel
      obtain rfl := Except.ok.inj (heuro.symm.trans hcode)
      obtain rfl := Option.some.inj (htwelve.symm.trans hv)
      have hunits : minorUnitsOf ⟨12, 0⟩ euro = (1200 : ℕ) := by decide +kernel
      refine ⟨.inr ?_, ?_⟩
      · rw [hunits]
        exact lt_overflowLimit_natCast (show ((1200 : ℕ) : ℤ) ≤ maxMinorUnits euro by decide)
      · rintro _ ⟨⟩
        rw [hunits]
        exact nearOnlyItself_natCast (by decide) (by decide) 1
    · intro _ hnone
      exact absurd (by decide +kernel) (hnone euro)
    · intro _ value date _ _
      obtain ⟨b, hb⟩ : ∃ b, acceptableOnJuly29 date = .ok b :=
        ⟨_, isWithinFutureTolerance_eq_ok.mpr ⟨july29.value, by decide +kernel, by decide, rfl⟩⟩
      exact ⟨b, hb⟩
    · intro _ _ name hname
      have hrun : ((MerchantName.new "Corner Shop").toOption.all fun name =>
          hasNoNul name.value) = true := by decide +kernel
      rw [show MerchantName.new "Corner Shop" = .ok name from hname] at hrun
      exact hrun
    · exact fun _ _ => by decide +kernel
  · rw [validateEdit_answers_iff _ _ _ _ (by decide +kernel)]
    intro h
    exact absurd (h.note (by decide +kernel) (by decide +kernel)) (by decide +kernel)

/-- A change to infinitely many euros is not answered: the amount is scaled, found to be integral
and positive, and then it is no integer. -/
theorem infinity_not_answered :
    letI := PythonRuntime.ascii
    letI := Babel.digits
    ¬ ∀ (submitted original : ExpenseForm) (locale : Babel.Locale) (categoryKeys : List String)
        (dateIsAcceptable : TransactionDate → Except Raised Bool),
      (∀ key ∈ categoryKeys, requireStableKey key = .ok ()) →
        ∃ r, validateEdit submitted original locale categoryKeys dateIsAcceptable = .ok r ∧
          Answered submitted original locale categoryKeys dateIsAcceptable r := by
  intro hall
  obtain ⟨r, hr, -⟩ := hall { fiveEuros with amount := "Infinity" } fiveEuros ()
    ["uncategorized"] (fun _ => .ok true) (by decide +kernel)
  have hrun : (@validateEdit PythonRuntime.ascii Babel.digits
      { fiveEuros with amount := "Infinity" } fiveEuros () ["uncategorized"]
      fun _ => .ok true).isOk = false := by decide +kernel
  rw [hr] at hrun
  cases hrun

end MintFlow
