import MintFlow.Isoformat
import MintFlow.Receipts.Selection

set_option relaxedAutoImplicit false
set_option autoImplicit false

/-!
# Azure AI Document Intelligence, prebuilt receipt model

The mapping of an analyze operation to candidates. Malformed fields are skipped. A currency candidate
is made only from what the total's own text shows: an ISO code, or a symbol that names exactly one
currency. Dates whose printed form reads both ways get both readings, and the selection drops them.

## Main definitions

* `MintFlow.JsonValue` — what `json` decodes a response to.
* `MintFlow.parseAnalyzeResult` — the candidates of a response, or nothing when it has no documents.
* `MintFlow.recognizeAnswer` — what one poll of the operation leads to.

## Main results

* `MintFlow.parseAnalyzeResult_printed` — the finite amounts of a response have few digits.
* `MintFlow.parseAnalyzeResult_nonneg` — no confidence of a response is below zero.

## Implementation notes

The text of a double and the properties of characters outside ASCII are tables of the runtime. The
text of a value that is neither a string nor an integer is no date.
-/

namespace MintFlow

open Transact

/-! ## Decoded responses -/

/-- A JSON number with a point or an exponent, or one of the names that `json` takes for numbers. -/
inductive JsonFloat
  | finite (x : Binary64)
  | infinity (negative : Bool)
  | nan

/-- The digits an integer may have to be read from a text and written to one. -/
def maxStrDigits : ℕ := 4300

/-- What `json` decodes a response to. -/
inductive JsonValue
  | null
  | bool (value : Bool)
  | int (value : ℤ) (digits : Decimal.numDigits value.natAbs ≤ maxStrDigits)
  | float (value : JsonFloat)
  | str (text : RawText)
  | list (items : List JsonValue)
  | dict (members : List (RawText × JsonValue))

namespace JsonValue

/-- `members.get(key)`. -/
def get (members : List (RawText × JsonValue)) (key : String) : JsonValue :=
  (members.lookup (RawText.ofString key)).getD .null

/-- Whether a value is true in a condition. -/
def truthy : JsonValue → Bool
  | .null => false
  | .bool value => value
  | .int value _ => value ≠ 0
  | .float (.finite x) => x.value ≠ 0
  | .float _ => true
  | .str text => !text.isEmpty
  | .list items => !items.isEmpty
  | .dict members => !members.isEmpty

/-- `a or b`. -/
def orElse (a b : JsonValue) : JsonValue := if a.truthy then a else b

end JsonValue

/-- The tables behind `repr` of a double and the classes `\d` and `\w` of a pattern. -/
class TextTables where
  /-- The sign and the digits that `str` writes for a double. -/
  floatDigits : Binary64 → Bool × Decimal
  /-- The digit that a character is to `\d` and to `int`. -/
  decimalDigit : Char → Option (Fin 10)
  /-- Whether a code point matches `\w`. -/
  isWord : CodePoint → Bool
  /-- A double is written with at most 17 digits, and none is as large as `1e309`. -/
  floatDigits_le : ∀ x, (floatDigits x).2.coeff < 10 ^ 17 ∧ (floatDigits x).2.exp ≤ 308
  /-- The last digit of the least double is far from the end of the exponents. -/
  le_floatDigits : ∀ x, -400 ≤ (floatDigits x).2.exp

/-- The digits of a double of at most two places; any other is read as zero. -/
def shortDigits (x : Binary64) : Bool × Decimal :=
  match ([1, 2] : List ℕ).find? fun k => decide ((x.value * 10 ^ k).den = 1 ∧
      (x.value * 10 ^ k).num.natAbs < 10 ^ 17) with
  | some k => (decide (x.value < 0), ⟨(x.value * 10 ^ k).num.natAbs, -k⟩)
  | none => (false, ⟨0, 0⟩)

/-- The digits that are printed are 17 at most, with an exponent within that of doubles. -/
lemma shortDigits_le (x : Binary64) :
    (shortDigits x).2.coeff < 10 ^ 17 ∧ (shortDigits x).2.exp ≤ 308 := by
  unfold shortDigits
  split
  · rename_i k hk
    have h := List.find?_some hk
    simp only [decide_eq_true_eq] at h
    exact ⟨h.2, by show -(k : ℤ) ≤ 308; omega⟩
  · exact ⟨by norm_num, by norm_num⟩

/-- The exponent of the digits that are printed is far above that of the context. -/
lemma le_shortDigits (x : Binary64) : -400 ≤ (shortDigits x).2.exp := by
  unfold shortDigits
  split
  · rename_i k hk
    have hmem := List.mem_of_find?_eq_some hk
    show -400 ≤ -(k : ℤ)
    simp only [List.mem_cons, List.not_mem_nil, or_false] at hmem
    omega
  · show (-400 : ℤ) ≤ 0
    norm_num

lemma mod_ten_lt (n : ℕ) : n % 10 < 10 := Nat.mod_lt n (by decide)

/-- Tables that agree with Python's on ASCII text and on doubles of at most two places, for concrete
runs. -/
@[reducible] def TextTables.ascii : TextTables where
  floatDigits := shortDigits
  decimalDigit c :=
    if '0' ≤ c ∧ c ≤ '9' then some ⟨(c.toNat - 48) % 10, mod_ten_lt _⟩ else none
  isWord
    | .inl c => c.isAlphanum || c == '_'
    | .inr _ => false
  floatDigits_le := shortDigits_le
  le_floatDigits := le_shortDigits

variable [TextTables]

open JsonValue

/-! ## Fields -/

omit [TextTables] in
/-- `_confidence`. -/
def confidenceOf (members : List (RawText × JsonValue)) : Option Binary64 :=
  match get members "confidence" with
  | .int value _ => if 0 ≤ value ∧ value ≤ 1 then some ⟨value⟩ else none
  | .float (.finite x) => if 0 ≤ x.value ∧ x.value ≤ 1 then some x else none
  | _ => none

omit [TextTables] in
/-- `_merchant`. -/
def merchantOf : JsonValue → Option (MerchantCandidate Binary64)
  | .dict members => do
    let confidence ← confidenceOf members
    match (get members "valueString").orElse (get members "content") with
    | .str text => some ⟨text, confidence⟩
    | _ => none
  | _ => none

/-- The digit of a code point. -/
def digitOf : CodePoint → Option (Fin 10)
  | .inl c => TextTables.decimalDigit c
  | .inr _ => none

/-- The number that the digits in front spell, if there are as many as the pattern wants. -/
def readDigits (widths : List ℕ) (text : RawText) : Option (ℕ × RawText) :=
  let digits := (text.takeWhile fun c => (digitOf c).isSome).filterMap digitOf
  if digits.length ∈ widths then
    some (digits.foldl (fun n digit => n * 10 + digit.val) 0,
      text.dropWhile fun c => (digitOf c).isSome)
  else none

omit [TextTables] in
/-- What follows a separator of a printed date. -/
def readSeparator : RawText → Option RawText
  | .inl c :: text => if c ∈ ['.', '/', '-'] then some text else none
  | _ => none

/-- The groups of `_NUMERIC_DATE`. -/
def numericDate (content : RawText) : Option (ℕ × ℕ × ℕ) := do
  let (first, text) ← readDigits [1, 2] (content.dropWhile CodePoint.isBlank)
  let text ← readSeparator text
  let (second, text) ← readDigits [1, 2] text
  let text ← readSeparator text
  let (year, text) ← readDigits [2, 4] text
  if text.head?.any TextTables.isWord then none else some (first, second, year)

/-- Both readings of a printed date whose day and month cannot be told apart. -/
def ambiguousReadings (content : JsonValue) : List Date :=
  match content with
  | .str content =>
    match numericDate content with
    | none => []
    | some (first, second, year) =>
      let year := if year < 100 then year + 2000 else year
      if first ≠ second ∧ first ≤ 12 ∧ second ≤ 12 then
        [(first, second), (second, first)].filterMap fun p => Date.ofYmd? year p.1 p.2
      else []
  | _ => []

omit [TextTables] in
/-- `date.fromisoformat(str(value))`. -/
def readDateValue : JsonValue → Option Date
  | .str text => text.toString?.bind dateFromIsoformat
  | .int value _ => dateFromIsoformat (toString value)
  | _ => none

/-- `_date`. -/
def dateOf : JsonValue → Option (DateCandidate Binary64)
  | .dict members => do
    let confidence ← confidenceOf members
    let value ← readDateValue (get members "valueDate")
    let readings := value :: ambiguousReadings (get members "content")
    some ⟨readings.dedup.insertionSort (· ≤ ·), confidence⟩
  | _ => none

/-- `Decimal(str(amount))`, of a number. -/
def amountValue : JsonValue → Option ExtendedDecimal
  | .int value _ => some (.finite (decide (value < 0)) ⟨value.natAbs, 0⟩)
  | .float (.finite x) =>
    some (.finite (TextTables.floatDigits x).1 (TextTables.floatDigits x).2)
  | .float (.infinity negative) => some (.infinity negative)
  | .float .nan => some (.nan false)
  | _ => none

/-- `_amount`. -/
def amountOf (label : AmountLabel) : JsonValue → Option (TotalCandidate Binary64)
  | .dict members => do
    let confidence ← confidenceOf members
    let amount :=
      match get members "valueCurrency" with
      | .dict currency => get currency "amount"
      | _ => get members "valueNumber"
    let value ← amountValue amount
    some ⟨value, label, confidence⟩
  | _ => none

/-! ## Currencies -/

omit [TextTables] in
/-- An ASCII letter. -/
def CodePoint.isAsciiLetter : CodePoint → Bool
  | .inl c => c.isAlpha
  | .inr _ => false

omit [TextTables] in
/-- An ASCII capital. -/
def CodePoint.isAsciiUpper : CodePoint → Bool
  | .inl c => c.isUpper
  | .inr _ => false

omit [TextTables] in
/-- `_ISO_CODE.findall`: the runs of letters that are three capitals. -/
def isoCodes (content : RawText) : List RawText :=
  (content.splitOnP fun c => !c.isAsciiLetter).filter fun run =>
    decide (run.length = 3) && run.all CodePoint.isAsciiUpper

/-- `_UNAMBIGUOUS_SYMBOLS`. -/
def unambiguousSymbols : List (String × String) :=
  [("€", "EUR"), ("£", "GBP"), ("₴", "UAH"), ("₽", "RUB"), ("zł", "PLN"), ("₹", "INR"),
    ("₺", "TRY"), ("₪", "ILS"), ("₸", "KZT"), ("₾", "GEL"), ("Kč", "CZK"), ("Ft", "HUF")]

/-- `_AMBIGUOUS_SYMBOLS`. -/
def ambiguousSymbols : List String := ["$", "¥", "kr"]

/-- `symbol in content`. -/
def RawText.contains (content : RawText) (symbol : String) : Bool :=
  decide (RawText.ofString symbol <:+: content)

/-- `_currency`. -/
def currencyOf [PythonRuntime] : JsonValue → Option (CurrencyCandidate Binary64)
  | .dict members => do
    let confidence ← confidenceOf members
    match get members "content" with
    | .str content =>
      let codes := (isoCodes content).filter fun code => (CurrencyCode.ofText code).isOk
      let symbols := unambiguousSymbols.filter fun symbol => content.contains symbol.1
      match codes, symbols with
      | code :: _, _ => some ⟨code, .explicitCode, confidence⟩
      | [], symbol :: _ => some ⟨RawText.ofString symbol.2, .unambiguousSymbol, confidence⟩
      | [], [] =>
        if ambiguousSymbols.any content.contains then
          let code :=
            match get members "valueCurrency" with
            | .dict value =>
              match get value "currencyCode" with
              | .str code => code
              | _ => []
            | _ => []
          some ⟨code, .ambiguousSymbol, confidence⟩
        else none
    | _ => none
  | _ => none

/-! ## Responses -/

omit [TextTables] in
/-- The fields of a document. -/
def fieldsOf : JsonValue → Option (List (RawText × JsonValue))
  | .dict document =>
    match get document "fields" with
    | .dict fields => some fields
    | _ => none
  | _ => none

/-- The candidates of the documents of a response. -/
def candidatesOf [PythonRuntime] (documents : List JsonValue) : RecognitionOutput Binary64 :=
  let fields := documents.filterMap fieldsOf
  { merchants := fields.filterMap fun f => merchantOf (get f "MerchantName")
    dates := fields.filterMap fun f => dateOf (get f "TransactionDate")
    totals := fields.flatMap fun f =>
      [("Total", AmountLabel.total), ("Subtotal", .subtotal)].filterMap fun p =>
        amountOf p.2 (get f p.1)
    currencies := fields.filterMap fun f => currencyOf (get f "Total") }

/-- `parse_analyze_result`; nothing for `RecognitionUnavailable`. -/
def parseAnalyzeResult [PythonRuntime] (body : List (RawText × JsonValue)) :
    Option (RecognitionOutput Binary64) :=
  match get body "analyzeResult" with
  | .dict result =>
    match get result "documents" with
    | .list documents => some (candidatesOf documents)
    | _ => none
  | _ => none

/-- What one poll of the operation leads to. -/
inductive PollAnswer
  | output (output : RecognitionOutput Binary64)
  | unavailable
  | running

/-- The part of `recognize` that looks at a polled body. -/
def recognizeAnswer [PythonRuntime] : JsonValue → PollAnswer
  | .dict body =>
    match get body "status" with
    | .str status =>
      if status = RawText.ofString "succeeded" then
        match parseAnalyzeResult body with
        | some output => .output output
        | none => .unavailable
      else if status = RawText.ofString "notStarted" ∨ status = RawText.ofString "running" then
        .running
      else .unavailable
    | _ => .unavailable
  | _ => .unavailable

/-! ## Amounts of a response -/

omit [TextTables] in
/-- A number as it can be printed in a response. -/
def Printed : ExtendedDecimal → Prop
  | .finite _ d => d.toRat < 10 ^ 4300 ∧ -400 ≤ d.exp
  | _ => True

/-- A number of a response is one that can be printed.

**Proof sketch.** An integer that is read has at most as many digits as the language prints; a
double has at most 17 digits and an exponent of at most 308. -/
lemma printed_amountValue {amount : JsonValue} {value : ExtendedDecimal}
    (h : amountValue amount = some value) : Printed value := by
  unfold amountValue at h
  split at h
  · rename_i n hdigits
    obtain rfl := Option.some.inj h
    refine ⟨?_, by norm_num⟩
    show ((n.natAbs : ℚ) * 10 ^ (0 : ℤ)) < 10 ^ 4300
    rw [zpow_zero, mul_one]
    have hlt : n.natAbs < 10 ^ maxStrDigits :=
      (Nat.lt_base_pow_length_digits (by decide)).trans_le
        (Nat.pow_le_pow_right (by decide) hdigits)
    unfold maxStrDigits at hlt
    exact_mod_cast hlt
  · rename_i x
    obtain rfl := Option.some.inj h
    obtain ⟨hcoeff, hexp⟩ := TextTables.floatDigits_le x
    have hpow : (10 : ℚ) ^ (TextTables.floatDigits x).2.exp ≤ 10 ^ (308 : ℤ) :=
      zpow_le_zpow_right₀ (by norm_num) hexp
    have hcoeff' : ((TextTables.floatDigits x).2.coeff : ℚ) < 10 ^ 17 := by exact_mod_cast hcoeff
    refine ⟨?_, TextTables.le_floatDigits x⟩
    calc ((TextTables.floatDigits x).2.coeff : ℚ) * 10 ^ (TextTables.floatDigits x).2.exp
        ≤ (TextTables.floatDigits x).2.coeff * 10 ^ (308 : ℤ) :=
          mul_le_mul_of_nonneg_left hpow (Nat.cast_nonneg _)
      _ < 10 ^ 17 * 10 ^ (308 : ℤ) := mul_lt_mul_of_pos_right hcoeff' (zpow_ten_pos _)
      _ ≤ 10 ^ 4300 := by
          rw [show (308 : ℤ) = ((308 : ℕ) : ℤ) from rfl, zpow_natCast, ← pow_add]
          exact pow_le_pow_right₀ (by norm_num) (by norm_num)
  · obtain rfl := Option.some.inj h
    trivial
  · obtain rfl := Option.some.inj h
    trivial
  · cases h

/-- The output of a response is the candidates of its documents. -/
lemma parseAnalyzeResult_eq_some [PythonRuntime] {body : List (RawText × JsonValue)}
    {output : RecognitionOutput Binary64} (h : parseAnalyzeResult body = some output) :
    ∃ documents, output = candidatesOf documents := by
  unfold parseAnalyzeResult at h
  split at h
  · split at h
    · exact ⟨_, (Option.some.inj h).symm⟩
    · cases h
  · cases h

/-- An amount is read with its confidence and its value. -/
lemma amountOf_eq_some {label : AmountLabel} {value : JsonValue}
    {t : TotalCandidate Binary64} (h : amountOf label value = some t) :
    ∃ members amount, confidenceOf members = some t.confidence ∧
      amountValue amount = some t.value := by
  unfold amountOf at h
  split at h
  · simp only [Option.bind_eq_bind, Option.bind_eq_some_iff, Option.some.injEq] at h
    obtain ⟨confidence, hconfidence, value, hvalue, rfl⟩ := h
    exact ⟨_, _, hconfidence, hvalue⟩
  · cases h

/-- **Amounts.** The finite amounts of a response have few digits. -/
lemma parseAnalyzeResult_printed [PythonRuntime] {body : List (RawText × JsonValue)}
    {output : RecognitionOutput Binary64} (h : parseAnalyzeResult body = some output) :
    ∀ t ∈ output.totals, Printed t.value := by
  obtain ⟨documents, rfl⟩ := parseAnalyzeResult_eq_some h
  intro t ht
  simp only [candidatesOf, List.mem_flatMap, List.mem_filterMap] at ht
  obtain ⟨f, -, p, -, hp⟩ := ht
  obtain ⟨-, amount, -, hvalue⟩ := amountOf_eq_some hp
  exact printed_amountValue hvalue

/-! ## Confidences of a response -/

omit [TextTables] in
/-- A confidence that is read is not below zero. -/
lemma confidenceOf_nonneg {members : List (RawText × JsonValue)} {confidence : Binary64}
    (h : confidenceOf members = some confidence) : 0.0 ≤ confidence := by
  have hzero : (0.0 : Binary64).value = 0 := by decide +kernel
  show (0.0 : Binary64).value ≤ confidence.value
  rw [hzero]
  unfold confidenceOf at h
  split at h
  · split_ifs at h with hunit
    obtain rfl := Option.some.inj h
    exact Int.cast_nonneg hunit.1
  · split_ifs at h with hunit
    obtain rfl := Option.some.inj h
    exact hunit.1
  · cases h

omit [TextTables] in
/-- No merchant candidate is less than not confident at all. -/
lemma merchantOf_nonneg {value : JsonValue} {c : MerchantCandidate Binary64}
    (h : merchantOf value = some c) : 0.0 ≤ c.confidence := by
  unfold merchantOf at h
  split at h
  · simp only [Option.bind_eq_bind, Option.bind_eq_some_iff] at h
    obtain ⟨confidence, hconfidence, h⟩ := h
    split at h
    · obtain rfl := Option.some.inj h
      exact confidenceOf_nonneg hconfidence
    · cases h
  · cases h

/-- No date candidate is less than not confident at all. -/
lemma dateOf_nonneg {value : JsonValue} {c : DateCandidate Binary64} (h : dateOf value = some c) :
    0.0 ≤ c.confidence := by
  unfold dateOf at h
  split at h
  · simp only [Option.bind_eq_bind, Option.bind_eq_some_iff, Option.some.injEq] at h
    obtain ⟨confidence, hconfidence, day, -, rfl⟩ := h
    exact confidenceOf_nonneg hconfidence
  · cases h

omit [TextTables] in
/-- No currency candidate is less than not confident at all. -/
lemma currencyOf_nonneg [PythonRuntime] {value : JsonValue} {c : CurrencyCandidate Binary64}
    (h : currencyOf value = some c) : 0.0 ≤ c.confidence := by
  unfold currencyOf at h
  split at h
  · simp only [Option.bind_eq_bind, Option.bind_eq_some_iff] at h
    obtain ⟨confidence, hconfidence, h⟩ := h
    have hcode : ∀ {code evidence}, c = ⟨code, evidence, confidence⟩ → 0.0 ≤ c.confidence := by
      rintro code evidence rfl
      exact confidenceOf_nonneg hconfidence
    split at h
    · split at h
      · exact hcode (Option.some.inj h).symm
      · exact hcode (Option.some.inj h).symm
      · split_ifs at h
        exact hcode (Option.some.inj h).symm
    · cases h
  · cases h

/-- **Confidences.** No confidence of a response is below zero. -/
lemma parseAnalyzeResult_nonneg [PythonRuntime] {body : List (RawText × JsonValue)}
    {output : RecognitionOutput Binary64} (h : parseAnalyzeResult body = some output) :
    ConfidencesNonneg output := by
  obtain ⟨documents, rfl⟩ := parseAnalyzeResult_eq_some h
  refine ⟨fun c hc => ?_, fun c hc => ?_, fun c hc => ?_, fun c hc => ?_⟩
  · obtain ⟨f, -, hf⟩ := List.mem_filterMap.mp hc
    exact merchantOf_nonneg hf
  · obtain ⟨f, -, hf⟩ := List.mem_filterMap.mp hc
    exact dateOf_nonneg hf
  · simp only [candidatesOf, List.mem_flatMap, List.mem_filterMap] at hc
    obtain ⟨f, -, p, -, hp⟩ := hc
    obtain ⟨members, -, hconfidence, -⟩ := amountOf_eq_some hp
    exact confidenceOf_nonneg hconfidence
  · obtain ⟨f, -, hf⟩ := List.mem_filterMap.mp hc
    exact currencyOf_nonneg hf

end MintFlow
