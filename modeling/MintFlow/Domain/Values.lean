import MintFlow.Python
import Mathlib.Algebra.Order.Group.Int
import Mathlib.Tactic.Positivity

set_option relaxedAutoImplicit false
set_option autoImplicit false

/-!
# Value objects of the capture domain

Currency codes, money, transaction dates, merchant names and categories. A value object carries
what its constructor checks as a field, so a value that exists is valid and reading it back from
the database cannot fail.

## Main definitions

* `MintFlow.CurrencyCode`, `MintFlow.Money` — a catalogue currency, and an amount within its cap.
* `MintFlow.TransactionDate`, `MintFlow.MerchantName` — the other checked values.
* `MintFlow.requireStableKey` — the rule for category keys.
-/

namespace MintFlow

open Transact

/-! ## Enumerations -/

/-- The channel and method that originated a draft. -/
inductive CaptureSource
  | telegramManual
  | telegramReceipt
  | webManual
deriving DecidableEq, Repr

/-- The stored spelling of a source. -/
def CaptureSource.value : CaptureSource → String
  | telegramManual => "telegram_manual"
  | telegramReceipt => "telegram_receipt"
  | webManual => "web_manual"

/-- Lifecycle states of a draft. -/
inductive CaptureDraftState
  | collecting
  | awaitingRecognition
  | readyForReview
  | confirmed
  | cancelled
  | expired
deriving DecidableEq, Repr

/-- The stored spelling of a state. -/
def CaptureDraftState.value : CaptureDraftState → String
  | collecting => "collecting"
  | awaitingRecognition => "awaiting_recognition"
  | readyForReview => "ready_for_review"
  | confirmed => "confirmed"
  | cancelled => "cancelled"
  | expired => "expired"

/-- Provenance of a value set on a draft field. -/
inductive DraftFieldSource
  | recognition
  | user
  | default
deriving DecidableEq, Repr

/-- The stored spelling of a provenance. -/
def DraftFieldSource.value : DraftFieldSource → String
  | recognition => "recognition"
  | user => "user"
  | default => "default"

/-! ## Money -/

/-- The cap on amounts, in major units. -/
def maxMajorUnits : ℤ := 999999999

/-- The currency catalogue: codes and minor-unit exponents. -/
def currencyCatalogue : List (String × ℕ) :=
  [("USD", 2), ("EUR", 2), ("GBP", 2), ("PLN", 2), ("UAH", 2), ("JPY", 0), ("BHD", 3)]

/-- Every accepted currency, in catalogue order. -/
def supportedCurrencyCodes : List String := currencyCatalogue.map Prod.fst

/-- A currency of the catalogue. -/
structure CurrencyCode where
  /-- The normalized code. -/
  value : String
  /-- The code is in the catalogue. -/
  supported : value ∈ supportedCurrencyCodes
deriving DecidableEq

/-- `CurrencyCode(value)`: normalize and look up. -/
def CurrencyCode.new [PythonRuntime] (value : String) : Checked CurrencyCode :=
  let normalized := PythonRuntime.upper (strip value)
  if h : normalized ∈ supportedCurrencyCodes then .ok ⟨normalized, h⟩
  else .error ("unsupported currency code: " ++ PythonRuntime.repr value)

/-- The code of a currency is read as the currency. -/
lemma currencyCode_new_value [PythonRuntime] (hupper : UpperKeepsCapitals) (c : CurrencyCode) :
    CurrencyCode.new c.value = .ok c := by
  have hcode : ∀ code ∈ supportedCurrencyCodes,
      strip code = code ∧ code.toList.all Char.isUpper = true := by decide
  obtain ⟨hstrip, hcapitals⟩ := hcode c.value c.supported
  unfold CurrencyCode.new
  simp only [hstrip, hupper c.value hcapitals]
  exact dif_pos c.supported

/-- The decimal places of a currency. -/
def CurrencyCode.minorUnitExponent (c : CurrencyCode) : ℕ :=
  (currencyCatalogue.lookup c.value).getD 0

/-- No currency has more than three decimal places. -/
lemma CurrencyCode.minorUnitExponent_le (c : CurrencyCode) : c.minorUnitExponent ≤ 3 := by
  have hall : ∀ code ∈ supportedCurrencyCodes, (currencyCatalogue.lookup code).getD 0 ≤ 3 := by
    decide
  exact hall c.value c.supported

/-- `EURO`. -/
def euro : CurrencyCode := ⟨"EUR", by decide⟩

/-- The hryvnia. -/
def hryvnia : CurrencyCode := ⟨"UAH", by decide⟩

/-- The dollar. -/
def dollar : CurrencyCode := ⟨"USD", by decide⟩

/-- The yen. -/
def yen : CurrencyCode := ⟨"JPY", by decide⟩

/-- The greatest representable amount of a currency, in minor units. -/
def maxMinorUnits (c : CurrencyCode) : ℤ := maxMajorUnits * 10 ^ c.minorUnitExponent

/-- An amount of minor units in one currency. -/
structure Money where
  /-- The amount. -/
  minorUnits : ℤ
  /-- The currency. -/
  currency : CurrencyCode
  /-- Never negative. -/
  nonneg : 0 ≤ minorUnits
  /-- Within the cap. -/
  le_max : minorUnits ≤ maxMinorUnits currency
deriving DecidableEq

/-- `Money(minor_units, currency)`. -/
def Money.new (minorUnits : ℤ) (currency : CurrencyCode) : Checked Money :=
  if h₀ : minorUnits < 0 then .error "Money amount must not be negative"
  else if h₁ : maxMinorUnits currency < minorUnits then
    .error "Money amount exceeds the representable maximum"
  else .ok ⟨minorUnits, currency, not_lt.mp h₀, not_lt.mp h₁⟩

/-- So many minor units of a currency. -/
def Money.ofNat (n : ℕ) (currency : CurrencyCode) (h : (n : ℤ) ≤ maxMinorUnits currency) : Money :=
  ⟨n, currency, Int.natCast_nonneg n, h⟩

/-- Twelve euros fifty. -/
def twelveFifty : Money := ⟨1250, euro, by decide, by decide⟩

@[ext] lemma Money.ext' {m m' : Money} (h : m.minorUnits = m'.minorUnits)
    (hc : m.currency = m'.currency) : m = m' := by
  cases m; cases m'; cases h; cases hc; rfl

/-- What an accepted amount is. -/
lemma Money.new_eq_ok {n : ℤ} {c : CurrencyCode} {m : Money} (h : Money.new n c = .ok m) :
    m.minorUnits = n ∧ m.currency = c := by
  unfold Money.new at h
  split_ifs at h
  cases h
  exact ⟨rfl, rfl⟩

/-! ## Dates and names -/

/-- The local calendar date of an expense. -/
structure TransactionDate where
  /-- The date. -/
  value : Date
  /-- The sanity bound on its year. -/
  year_mem : 2000 ≤ value.year ∧ value.year ≤ 2100
deriving DecidableEq

lemma TransactionDate.value_injective : Function.Injective TransactionDate.value := by
  rintro ⟨d, h⟩ ⟨_, _⟩ rfl
  rfl

/-- `TransactionDate(value)`. -/
def TransactionDate.new (value : Date) : Checked TransactionDate :=
  if h : 2000 ≤ value.year ∧ value.year ≤ 2100 then .ok ⟨value, h⟩
  else .error "transaction date year must be between 2000 and 2100"

/-- The 29th of July 2021. -/
def july29 : TransactionDate := ⟨⟨738000, by decide⟩, by decide⟩

/-- The longest merchant name. -/
def MerchantName.maxLength : ℕ := 140

/-- A normalized merchant name. -/
structure MerchantName where
  /-- The name. -/
  value : String
  /-- Not empty. -/
  ne_empty : value ≠ ""
  /-- Not too long. -/
  length_le : value.length ≤ MerchantName.maxLength
  /-- Trimmed, with single spaces. -/
  normalized : collapseWhitespace value = value
deriving DecidableEq

/-- `MerchantName(value)`: collapse whitespace and check. -/
def MerchantName.new (value : String) : Checked MerchantName :=
  let normalized := collapseWhitespace value
  if h₀ : normalized = "" then .error "merchant name must not be empty"
  else if h₁ : normalized.length ≤ MerchantName.maxLength then
    .ok ⟨normalized, h₀, h₁, collapseWhitespace_idem value⟩
  else .error "merchant name must be at most 140 characters"

/-! ## Categories -/

/-- The category confirmation falls back to. -/
def uncategorizedKey : String := "uncategorized"

/-- A stable classification of Expenses. -/
structure Category where
  id : UUID
  key : String
  name : String
  isActive : Bool
deriving DecidableEq

/-- `_require_stable_key`. -/
def requireStableKey [PythonRuntime] (categoryKey : String) : Checked Unit :=
  let normalized := PythonRuntime.lower (strip categoryKey)
  require (normalized ≠ "" ∧ normalized = categoryKey)
    "category key must be a non-empty, stable lowercase identifier"

/-- The fallback category has a stable key. -/
lemma requireStableKey_uncategorized [PythonRuntime] :
    requireStableKey uncategorizedKey = .ok () := by
  have hs : strip uncategorizedKey = uncategorizedKey := by decide
  have hl : PythonRuntime.lower uncategorizedKey = uncategorizedKey := by
    rw [PythonRuntime.lower_of_all (by decide)]
    decide
  simp only [requireStableKey, hs, hl]
  decide

end MintFlow
