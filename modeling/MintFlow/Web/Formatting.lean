import MintFlow.Rates.Rates
import MintFlow.Isoformat
import MintFlow.Lib.DecimalContext
import MintFlow.Analytics.Aggregates

set_option relaxedAutoImplicit false
set_option autoImplicit false

/-!
# Display of money and dates

Amounts are shown with their currency's minor-unit digits and always with the ISO code. A converted
amount is marked "≈", and a page that shows one says which rates it used. The number and date
formats of a locale and the translations of the texts come from a library and its catalogues.

## Main definitions

* `MintFlow.Babel` — the formats and the translations.
* `MintFlow.formatAmount`, `MintFlow.formatAxisAmount`, `MintFlow.formatPeriod` — what they show.
* `MintFlow.ratesNote` — which rates converted the amounts.
-/

namespace MintFlow

open Transact

/-- The formats of a locale, and the texts in the language of a request. -/
class Babel where
  Locale : Type
  /-- `format_decimal`, of a sign and a size; without a pattern, the locale's own. -/
  formatDecimal : Bool → Decimal → Option String → Locale → String
  /-- `parse_decimal(strict=True)`; nothing for a `NumberFormatError`. -/
  parseDecimal : String → Locale → Option ExtendedDecimal
  /-- `format_percent`. -/
  formatPercent : Bool → Decimal → String → Locale → String
  /-- `format_date(format="medium")`. -/
  formatDate : Date → Locale → String
  /-- `format_skeleton`. -/
  formatSkeleton : String → Date → Locale → String
  /-- `format_interval`. -/
  formatInterval : Date → Date → String → Locale → String
  /-- The translation of a text, if the catalogue has one. -/
  translation : String → Option String
  /-- The form of a text for a count, if the catalogue has one. -/
  pluralForm : String → ℕ → Option String
  /-- `str.format` of a text with named values. -/
  fill : String → List (String × String) → String

/-! ## Texts -/

/-- The bytes that a query leaves as they are. -/
def isSafeByte (b : UInt8) : Bool :=
  let c := Char.ofNat b.toNat
  c.isAlphanum || c == '_' || c == '.' || c == '-' || c == '~'

/-- `urllib.parse.quote_plus`. -/
def quotePlus (s : String) : String :=
  let digit := fun n => (Nat.digitChar n).toUpper
  let quoted := s.toUTF8.toList.map fun b =>
    if isSafeByte b then [Char.ofNat b.toNat]
    else if b = 32 then ['+']
    else ['%', digit (b.toNat / 16), digit (b.toNat % 16)]
  String.ofList quoted.flatten

/-- `urllib.parse.urlencode`. -/
def urlencode (params : List (String × String)) : String :=
  "&".intercalate (params.map fun p => quotePlus p.1 ++ "=" ++ quotePlus p.2)

/-- `sentence`: drop the doubled full stop when a sentence ends with a value that has one. -/
def sentence (text : String) : String :=
  let cs := text.toList
  if ['.', '.'] <:+ cs ∧ ¬ ['.', '.', '.'] <:+ cs then String.ofList cs.dropLast else text

/-- A no-break space keeps an amount and its currency code on one line. -/
def noBreakSpace : String := "\u00a0"

/-- `approximately`: mark a converted amount as approximate. -/
def approximately (text : String) : String := "\u2248" ++ noBreakSpace ++ text

/-- `_CATEGORY_LABELS`. -/
def categoryLabels : List (String × String) :=
  [("groceries", "Groceries"), ("food_and_dining", "Food & Dining"), ("transport", "Transport"),
    ("shopping", "Shopping"), ("housing", "Housing"), ("utilities", "Utilities"),
    ("health", "Health"), ("entertainment", "Entertainment"), ("travel", "Travel"),
    ("education", "Education"), ("gifts", "Gifts"), ("other", "Other"),
    ("uncategorized", "Uncategorized")]

/-- `_RATE_SOURCES`. -/
def rateSources : List (String × String) :=
  [("ECB", "European Central Bank"), ("NBU", "National Bank of Ukraine")]

section Formats

variable [Babel]

open Babel

/-- `_`: translate a text into the language of the request. -/
def translate (text : String) : String := (translation text).getD text

/-- `ngettext`. -/
def ngettext (singular plural : String) (count : ℕ) : String :=
  (pluralForm singular count).getD (if count = 1 then singular else plural)

/-- The pattern of a number with so many decimals, each written as `digit`. -/
def decimalPattern (digit : Char) (exponent : ℕ) : String :=
  if exponent = 0 then "#,##0" else "#,##0." ++ "".pushn digit exponent

/-- An amount in major units, with its code. -/
def formatMajor (digit : Char) (minorUnits : ℤ) (currency : CurrencyCode) (locale : Babel.Locale) :
    String :=
  let exponent := currency.minorUnitExponent
  let major := (Decimal.mk minorUnits.natAbs 0).scaleb (-exponent)
  formatDecimal (decide (minorUnits < 0)) major (some (decimalPattern digit exponent)) locale ++
    noBreakSpace ++ currency.value

/-- `format_amount`. -/
def formatAmount (minorUnits : ℤ) (currency : CurrencyCode) (locale : Babel.Locale) : String :=
  formatMajor '0' minorUnits currency locale

/-- `format_axis_amount`: no trailing zero decimals. -/
def formatAxisAmount (minorUnits : ℤ) (currency : CurrencyCode) (locale : Babel.Locale) : String :=
  formatMajor '#' minorUnits currency locale

/-- `format_money`. -/
def formatMoney (money : Money) (locale : Babel.Locale) : String :=
  formatAmount money.minorUnits money.currency locale

/-- `format_short_date`. -/
def formatShortDate (value : Date) (locale : Babel.Locale) : String :=
  formatSkeleton "MMMd" value locale

/-- `format_month`. -/
def formatMonth (value : Date) (locale : Babel.Locale) : String :=
  formatSkeleton "yMMM" value locale

/-- `format_period`. -/
def formatPeriod (dateFrom dateTo : Date) (locale : Babel.Locale) : String :=
  if dateFrom = dateTo then formatDate dateFrom locale
  else formatInterval dateFrom dateTo "yMMMd" locale

/-- `format_share`: basis points as a percentage with one decimal. -/
def formatShare (basisPoints : ℤ) (locale : Babel.Locale) : String :=
  formatPercent (decide (basisPoints < 0)) ((Decimal.mk basisPoints.natAbs 0).div ⟨10000, 0⟩)
    "#,##0.#%" locale

/-- `format_count`. -/
def formatCount (count : ℕ) (locale : Babel.Locale) : String :=
  formatDecimal false ⟨count, 0⟩ none locale

/-- `category_label`. -/
def categoryLabel (key storedName : String) : String :=
  match categoryLabels.lookup key with
  | some label => translate label
  | none => storedName

/-- The earliest of some dates. -/
def earliest (first : Date) (dates : List Date) : Date := dates.foldl min first

/-- `rates_note`: the oldest rate date and every source. -/
def ratesNote (rates : List ExchangeRate) (currency : CurrencyCode) (locale : Babel.Locale) :
    Checked String :=
  match rates with
  | [] => .error "a note needs at least one rate"
  | rate :: rest =>
    let sources := orderBy (fun a b => decide (a ≤ b)) ((rate :: rest).map ExchangeRate.source).dedup
    .ok (sentence (fill
      (translate "≈ Converted into \x7bcurrency\x7d at the exchange rates of \x7bdate\x7d (\x7bsources\x7d).")
      [("currency", currency.value),
        ("date", formatDate (earliest rate.rateDate (rest.map ExchangeRate.rateDate)) locale),
        ("sources", ", ".intercalate (sources.map fun source =>
          ((rateSources.lookup source).map translate).getD source))]))

end Formats

end MintFlow
