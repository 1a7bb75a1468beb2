import MintFlow.Lib.Numeral
import MintFlow.Rates.Refresh
import MintFlow.Receipts.Azure

set_option relaxedAutoImplicit false
set_option autoImplicit false

/-!
# The daily feeds of the ECB and the NBU

Parsing is strict: anything unexpected is a failed source, never a guessed rate. The ECB lists units
per euro; the NBU lists hryvnias per unit, and the units per euro are derived through its euro rate.

A numeral is checked to be positive and finite when it is read. What is derived from it is not: a
quotient of extreme numerals overflows, or is rounded to zero, which no rate may be, and neither is
the failure of a source. A rate that was read may also be too large or too small for its column.

## Main definitions

* `MintFlow.XmlElement` — a parsed XML document; `MintFlow.JsonValue` is a parsed JSON one.
* `MintFlow.parseEcb`, `MintFlow.parseNbu` — the rates of a feed.
* `MintFlow.refreshFeeds` — a refresh from the bodies of both responses.
* `MintFlow.ecbListed`, `MintFlow.nbuListed` — the numbers that a feed lists.
* `MintFlow.Derivable` — no quotient of a feed leaves the range of the arithmetic.

## Main results

* `MintFlow.feeds_fail_closed_iff` — **Rate feeds**: two feeds fail closed and alone exactly when the
  quotients are derivable and the numbers listed first fit the column.

## Implementation notes

The two parsers of the standard library are parameters: each returns the parsed document, or nothing
where it raises its parse error. The text of a code that is no string is the code of no currency, so
such an entry is checked and then dropped.
-/

namespace MintFlow

open Transact

/-! ## Reading a field -/

/-- What fetching a source raises: `ExchangeRateSourceFailed`, or something else. -/
inductive FeedError
  | sourceFailed (message : String)
  | raised (error : Raised)
deriving DecidableEq

/-- A positive finite decimal. -/
abbrev PositiveDecimal := { d : Decimal // 0 < d.coeff }

/-- `_decimal`, given the decimal that the text of the value spells. -/
def positiveDecimal : Option ExtendedDecimal → Except FeedError PositiveDecimal
  | none => .error (.sourceFailed "not a number")
  | some (.finite false d) =>
    if h : 0 < d.coeff then .ok ⟨d, h⟩ else .error (.sourceFailed "not a positive rate")
  | some _ => .error (.sourceFailed "not a positive rate")

section Text

variable [TextTables]

/-- The ASCII character that a code point is to `Decimal`. -/
def numeralChar : CodePoint → Option Char
  | .inl c =>
    if c.val < 128 then some c
    else (TextTables.decimalDigit c).map fun digit => Nat.digitChar digit
  | .inr _ => none

/-- `Decimal(text)`. -/
def readDecimal (text : RawText) : Option ExtendedDecimal :=
  ((text.strip.filter fun c => decide (c ≠ .inl '_')).mapM numeralChar).bind Numeral.read

/-- `Decimal(str(value))`. -/
def decimalOfJson : JsonValue → Option ExtendedDecimal
  | .str text => readDecimal text
  | value => amountValue value

/-- A digit that is not zero. -/
def nonzeroDigit (c : Char) : Option ℕ := if '1' ≤ c ∧ c ≤ '9' then some (c.toNat - 48) else none

/-- `%d`. -/
def readDayOfMonth : RawText → Option ℕ
  | [.inl c] => nonzeroDigit c
  | [.inl ' ', .inl c] => nonzeroDigit c
  | [.inl '0', .inl c] => nonzeroDigit c
  | [.inl '1', c] => (digitOf c).map fun digit => 10 + digit
  | [.inl '2', c] => (digitOf c).map fun digit => 20 + digit
  | [.inl '3', .inl '0'] => some 30
  | [.inl '3', .inl '1'] => some 31
  | _ => none

omit [TextTables] in
/-- `%m`. -/
def readMonthOfYear : RawText → Option ℕ
  | [.inl c] => nonzeroDigit c
  | [.inl '0', .inl c] => nonzeroDigit c
  | [.inl '1', .inl '0'] => some 10
  | [.inl '1', .inl '1'] => some 11
  | [.inl '1', .inl '2'] => some 12
  | _ => none

/-- `datetime.strptime(text, "%d.%m.%Y").date()`. -/
def readDottedDate (text : RawText) : Option Date := do
  match text.splitOn (.inl '.') with
  | [day, month, year] =>
    let day ← readDayOfMonth day
    let month ← readMonthOfYear month
    let (year, rest) ← readDigits [4] year
    if rest = [] then Date.ofYmd? year month day else none
  | _ => none

end Text

/-! ## The ECB -/

/-- An element of a parsed XML document, without its text. -/
inductive XmlElement
  | mk (tag : String) (attrib : List (String × String)) (children : List XmlElement)

namespace XmlElement

/-- The name of an element. -/
def tag : XmlElement → String
  | mk tag _ _ => tag

/-- An attribute of an element. -/
def attrib : XmlElement → String → Option String
  | mk _ attrib _, name => attrib.lookup name

/-- The elements in an element. -/
def children : XmlElement → List XmlElement
  | mk _ _ children => children

/-- `findall` of the children that have a name. -/
def findall (element : XmlElement) (name : String) : List XmlElement :=
  element.children.filter fun child => decide (child.tag = name)

end XmlElement

/-- `Cube` in `_ECB_NAMESPACE`. -/
def cube : String := "\x7bhttp://www.ecb.int/vocabulary/2002-08-01/eurofxref\x7dCube"

/-- The first dated `Cube` in a `Cube` of the root. -/
def datedCube (root : XmlElement) : Option XmlElement :=
  ((root.findall cube).flatMap fun outer => outer.findall cube).find? fun day =>
    (day.attrib "time").isSome

/-- The date of a dated `Cube`. -/
def ecbDate (day : XmlElement) : Option Date := (day.attrib "time").bind dateFromIsoformat

section Ecb

variable [PythonRuntime] [TextTables]

/-- The entries of catalogue currencies, with the decimals that they give as their rates. -/
def ecbEntries (day : XmlElement) : List (CurrencyCode × Option ExtendedDecimal) :=
  (day.findall cube).filterMap fun entry =>
    ((entry.attrib "currency").bind fun code => (CurrencyCode.new code).toOption).map fun currency =>
      (currency, (entry.attrib "rate").bind fun text => readDecimal (RawText.ofString text))

omit [PythonRuntime] [TextTables] in
/-- The rate of an entry. -/
def ecbRate (rateDate : Date) (entry : CurrencyCode × Option ExtendedDecimal) :
    Except FeedError ExchangeRate := do
  let units ← positiveDecimal entry.2
  return ⟨entry.1, units.val, rateDate, "ECB", units.property⟩

/-- `parse_ecb`, of the parsed body. -/
def parseEcb (document : Option XmlElement) : Except FeedError (List ExchangeRate) :=
  match document with
  | none => .error (.sourceFailed "ECB: not XML")
  | some root =>
    match datedCube root with
    | none => .error (.sourceFailed "ECB: no dated rates")
    | some day =>
      match ecbDate day with
      | none => .error (.sourceFailed "ECB: bad date")
      | some rateDate => do
        let rates ← (ecbEntries day).mapM (ecbRate rateDate)
        if rates = [] then .error (.sourceFailed "ECB: no rates") else .ok rates

end Ecb

/-! ## The NBU -/

/-- An entry of `hryvnias`. -/
structure HryvniaRate where
  code : RawText
  uahPerUnit : PositiveDecimal
  day : Date

/-- The place of a code point in the order of texts. -/
def CodePoint.number : CodePoint → ℕ
  | .inl c => c.toNat
  | .inr i => 0xD800 + i

/-- `sorted`, by the code. -/
def sortedRates (hryvnias : Table HryvniaRate.code) : List HryvniaRate :=
  hryvnias.rows.insertionSort fun a b => a.code.map CodePoint.number ≤ b.code.map CodePoint.number

section Nbu

variable [PythonRuntime] [TextTables]

omit [PythonRuntime] in
/-- One entry of the file put into `hryvnias`. -/
def addEntry (hryvnias : Table HryvniaRate.code) :
    JsonValue → Except FeedError (Table HryvniaRate.code)
  | .dict members =>
    match members.lookup (RawText.ofString "exchangedate") with
    | some (.str date) =>
      match readDottedDate date, members.lookup (RawText.ofString "rate"),
          members.lookup (RawText.ofString "cc") with
      | some day, some rate, code => do
        let uahPerUnit ← positiveDecimal (decimalOfJson rate)
        match code with
        | none => .error (.sourceFailed "NBU: unexpected entry")
        | some (.str code) => return hryvnias.upsert ⟨code, uahPerUnit, day⟩
        | some _ => return hryvnias
      | _, _, _ => .error (.sourceFailed "NBU: unexpected entry")
    | _ => .error (.sourceFailed "NBU: unexpected entry")
  | _ => .error (.sourceFailed "NBU: unexpected entry")

omit [PythonRuntime] in
/-- The loop of `parse_nbu` over the entries. -/
def hryvniasOf (document : Option JsonValue) : Except FeedError (Table HryvniaRate.code) :=
  match document with
  | none => .error (.sourceFailed "NBU: not JSON")
  | some (.list entries) => entries.foldlM addEntry .empty
  | some _ => .error (.sourceFailed "NBU: unexpected shape")

/-- The currencies that get a derived rate, in the order in which they get it. -/
def derivedCurrencies (hryvnias : Table HryvniaRate.code) : List (CurrencyCode × HryvniaRate) :=
  (sortedRates hryvnias).filterMap fun rate =>
    if rate.code = RawText.ofString "EUR" ∨ rate.code = RawText.ofString "UAH" then none
    else (CurrencyCode.ofText rate.code).toOption.map fun currency => (currency, rate)

omit [PythonRuntime] [TextTables] in
/-- The rate of a currency, through the rate of the euro. -/
def deriveRate (euroRate : HryvniaRate) (currency : CurrencyCode) (rate : HryvniaRate) :
    Except FeedError ExchangeRate :=
  match Decimal.divide euroRate.uahPerUnit rate.uahPerUnit with
  | .error e => .error (.raised e)
  | .ok units =>
    if h : 0 < units.coeff then .ok ⟨currency, units, rate.day, "NBU", h⟩
    else .error (.raised (.valueError "a rate must be a positive number"))

/-- `parse_nbu`, of the parsed body. -/
def parseNbu (document : Option JsonValue) : Except FeedError (List ExchangeRate) := do
  let hryvnias ← hryvniasOf document
  match hryvnias.find (RawText.ofString "EUR") with
  | none => .error (.sourceFailed "NBU: no euro rate")
  | some euroRate =>
    let rates ← (derivedCurrencies hryvnias).mapM fun p => deriveRate euroRate p.1 p.2
    return ⟨hryvnia, euroRate.uahPerUnit, euroRate.day, "NBU", euroRate.uahPerUnit.property⟩ :: rates

end Nbu

/-! ## A refresh from two responses -/

/-- The parsers of the standard library, of the bytes of a body. -/
structure FeedParsers where
  /-- `ElementTree.fromstring`, or nothing where it raises `ParseError`. -/
  fromstring : List UInt8 → Option XmlElement
  /-- `json.loads`, or nothing where it raises `ValueError`. -/
  loads : List UInt8 → Option JsonValue

/-- What a refresh raises. -/
inductive RefreshError
  | fetching (error : Raised)
  | saving (error : RateError)
deriving DecidableEq

/-- A source as the loop of `execute` sees it. -/
def fetchSource (name : String) : Except FeedError (List ExchangeRate) →
    Except RefreshError ExchangeRateSource
  | .ok rates => .ok ⟨name, some rates⟩
  | .error (.sourceFailed _) => .ok ⟨name, none⟩
  | .error (.raised error) => .error (.fetching error)

/-- `execute`, on the two feeds in their order. -/
def refreshParsed (ecb nbu : Except FeedError (List ExchangeRate)) (table : RateTable)
    (now : Instant) : Except RefreshError (RefreshResult × RateTable) := do
  let ecb ← fetchSource "ECB" ecb
  let nbu ← fetchSource "NBU" nbu
  match RefreshExchangeRates.execute ⟨[ecb, nbu], now⟩ table with
  | .ok p => .ok p
  | .error error => .error (.saving error)

/-- `execute`, on the bodies of both responses. -/
def refreshFeeds [PythonRuntime] [TextTables] (parsers : FeedParsers) (ecb nbu : List UInt8)
    (table : RateTable) (now : Instant) : Except RefreshError (RefreshResult × RateTable) :=
  refreshParsed (parseEcb (parsers.fromstring ecb)) (parseNbu (parsers.loads nbu)) table now

/-! ## What is promised of the feeds -/

/-- A feed fails closed: it is a failed source, or gives positive rates of catalogue currencies. -/
def FailsClosed (parsed : Except FeedError (List ExchangeRate)) : Prop :=
  (∃ message, parsed = .error (.sourceFailed message)) ∨
    ∃ rates, parsed = .ok rates ∧ ∀ rate ∈ rates,
      0 < rate.unitsPerEur.toRat ∧ rate.currency.value ∈ supportedCurrencyCodes

/-- The rates of both feeds, those of the ECB first. -/
def publishedRates (ecb nbu : Except FeedError (List ExchangeRate)) : List ExchangeRate :=
  ecb.toOption.getD [] ++ nbu.toOption.getD []

/-- The first rate of a currency. -/
def firstRate (rates : List ExchangeRate) (code : String) : Option ExchangeRate :=
  rates.find? fun rate => decide (rate.code = code)

/-- What a refresh that ends with `result` and `after` promises of its sources. -/
structure FailsAlone (ecb nbu : Except FeedError (List ExchangeRate)) (before : RateTable)
    (result : RefreshResult) (after : RateTable) : Prop where
  /-- The result names exactly the sources that failed. -/
  failed : ∀ name, name ∈ result.failedSources ↔
    name = "ECB" ∧ ecb.isOk = false ∨ name = "NBU" ∧ nbu.isOk = false
  /-- The first rate that a source gave for a wanted currency is stored. -/
  stored : ∀ code ∈ wantedCurrencies, ∀ rate, firstRate (publishedRates ecb nbu) code = some rate →
    (after.find code).map ExchangeRateRecord.quote = some rate.quote
  /-- The other rates are as they were. -/
  kept : ∀ code, code ∉ wantedCurrencies ∨ firstRate (publishedRates ecb nbu) code = none →
    after.find code = before.find code

/-- Two feeds fail closed and alone: each is a failed source or gives rates, and from any stored
rates a refresh goes through and does what it promises. -/
def FeedsHold [PythonRuntime] [TextTables] (parsers : FeedParsers) (ecb nbu : List UInt8) : Prop :=
  FailsClosed (parseEcb (parsers.fromstring ecb)) ∧ FailsClosed (parseNbu (parsers.loads nbu)) ∧
    ∀ before now, ∃ result after, refreshFeeds parsers ecb nbu before now = .ok (result, after) ∧
      FailsAlone (parseEcb (parsers.fromstring ecb)) (parseNbu (parsers.loads nbu)) before result
        after

/-! ## What the feeds list -/

/-- The currency and the number of a rate. -/
def ExchangeRate.listing (rate : ExchangeRate) : CurrencyCode × ℚ :=
  (rate.currency, rate.unitsPerEur.toRat)

section Listed

variable [PythonRuntime] [TextTables]

omit [PythonRuntime] [TextTables] in
/-- The currency and the number of an entry. -/
def entryListing (entry : CurrencyCode × Option ExtendedDecimal) : Option (CurrencyCode × ℚ) :=
  (positiveDecimal entry.2).toOption.map fun units => (entry.1, units.val.toRat)

/-- The numbers that the file of the ECB lists; none, when a part of it is not understood. -/
def ecbListed (document : Option XmlElement) : List (CurrencyCode × ℚ) :=
  match document.bind datedCube with
  | none => []
  | some day =>
    if (ecbDate day).isSome ∧ ∀ entry ∈ ecbEntries day, (positiveDecimal entry.2).isOk then
      (ecbEntries day).filterMap entryListing
    else []

/-- The numbers that the file of the NBU gives the currencies: the quotients, rounded. -/
def nbuListed (document : Option JsonValue) : List (CurrencyCode × ℚ) :=
  match hryvniasOf document with
  | .error _ => []
  | .ok hryvnias =>
    match hryvnias.find (RawText.ofString "EUR") with
    | none => []
    | some euroRate =>
      (hryvnia, euroRate.uahPerUnit.val.toRat) :: (derivedCurrencies hryvnias).map fun p =>
        (p.1, fitted (euroRate.uahPerUnit.val.toRat / p.2.uahPerUnit.val.toRat))

/-- No quotient of the file of the NBU is as large as to overflow or as small as to be rounded to
zero. -/
def Derivable (document : Option JsonValue) : Prop :=
  ∀ hryvnias, hryvniasOf document = .ok hryvnias →
    ∀ euroRate, hryvnias.find (RawText.ofString "EUR") = some euroRate →
      ∀ p ∈ derivedCurrencies hryvnias,
        (10 : ℚ) ^ Decimal.leastExp / 2 <
            euroRate.uahPerUnit.val.toRat / p.2.uahPerUnit.val.toRat ∧
          euroRate.uahPerUnit.val.toRat / p.2.uahPerUnit.val.toRat < overflowLimit

/-- A number fits the column: rounded to its digits it is positive and not too large. That it may not
have more than 16383 fractional digits either is left out here as in `ExchangeRate.toRecord`. -/
def FitsColumn (x : ℚ) : Prop :=
  1 / 2 ≤ x * 10 ^ rateScale ∧ x * 10 ^ rateScale + 1 / 2 < 10 ^ ratePrecision

/-- The number that is listed first for each wanted currency fits the column. -/
def ListedFit (listed : List (CurrencyCode × ℚ)) : Prop :=
  ∀ code ∈ wantedCurrencies, ∀ p, (listed.find? fun p => decide (p.1.value = code)) = some p →
    FitsColumn p.2

end Listed

/-! ## Which rates the column takes -/

/-- A rate of a feed can be stored exactly when its number fits the column. -/
lemma storable_iff {rate : ExchangeRate} (h : rate.source ∈ knownRateSources) :
    rate.Storable ↔ FitsColumn rate.unitsPerEur.toRat := by
  have hscale := Decimal.toScale_eq rate.unitsPerEur rateScale
  have hpos : 0 < rate.unitsPerEur.toScale rateScale ↔
      1 / 2 ≤ rate.unitsPerEur.toRat * 10 ^ rateScale := by
    rw [← Int.natCast_pos, hscale, Int.floor_pos]
    constructor
    all_goals
      intro h
      linarith
  have hlt : rate.unitsPerEur.toScale rateScale < 10 ^ ratePrecision ↔
      rate.unitsPerEur.toRat * 10 ^ rateScale + 1 / 2 < 10 ^ ratePrecision := by
    rw [← Int.ofNat_lt, hscale, Int.floor_lt]
    push_cast
    exact Iff.rfl
  unfold ExchangeRate.Storable FitsColumn
  rw [hpos, hlt]
  exact ⟨fun h => ⟨h.1, h.2.1⟩, fun h' => ⟨h'.1, h'.2, h⟩⟩

/-! ## What parsing gives -/

/-- A feed that was understood gives the rates that it lists, each under its name. -/
structure Gives (name : String) (rates : List ExchangeRate) (listed : List (CurrencyCode × ℚ)) :
    Prop where
  listing : rates.map ExchangeRate.listing = listed
  source : ∀ rate ∈ rates, rate.source = name

/-- A feed was not understood, or it gives what it lists. -/
def Parses (name : String) (parsed : Except FeedError (List ExchangeRate))
    (listed : List (CurrencyCode × ℚ)) : Prop :=
  (∃ message, parsed = .error (.sourceFailed message)) ∧ listed = [] ∨
    ∃ rates, parsed = .ok rates ∧ Gives name rates listed

/-- Reading a rate fails as a failed source or not at all. -/
lemma positiveDecimal_cases (value : Option ExtendedDecimal) :
    (∃ units, positiveDecimal value = .ok units) ∨
      ∃ message, positiveDecimal value = .error (.sourceFailed message) := by
  unfold positiveDecimal
  split
  · exact .inr ⟨_, rfl⟩
  · split_ifs with h
    · exact .inl ⟨_, rfl⟩
    · exact .inr ⟨_, rfl⟩
  · exact .inr ⟨_, rfl⟩

/-- The rate of an entry has its number. -/
lemma ecbRate_eq_ok {rateDate : Date} {entry : CurrencyCode × Option ExtendedDecimal}
    {rate : ExchangeRate} (h : ecbRate rateDate entry = .ok rate) :
    entryListing entry = some rate.listing ∧ rate.source = "ECB" := by
  obtain ⟨units, hunits, hrate⟩ := Checked.bind_eq_ok.mp h
  obtain rfl := Checked.pure_eq_ok.mp hrate
  rw [entryListing, hunits]
  exact ⟨rfl, rfl⟩

/-- An entry has no rate only where the source fails. -/
lemma ecbRate_eq_error {rateDate : Date} {entry : CurrencyCode × Option ExtendedDecimal}
    {e : FeedError} (h : ecbRate rateDate entry = .error e) :
    (positiveDecimal entry.2).isOk = false ∧ ∃ message, e = .sourceFailed message := by
  unfold ecbRate at h
  rcases positiveDecimal_cases entry.2 with ⟨units, hunits⟩ | ⟨message, hmessage⟩
  · rw [hunits, Checked.bind_ok] at h
    cases h
  · rw [hmessage, Checked.bind_error] at h
    cases h
    exact ⟨by rw [hmessage]; rfl, message, rfl⟩

/-- The entries of a file give what it lists. -/
lemma gives_ecbRates {rateDate : Date} {entries : List (CurrencyCode × Option ExtendedDecimal)}
    {rates : List ExchangeRate} (h : entries.mapM (ecbRate rateDate) = .ok rates) :
    (∀ entry ∈ entries, (positiveDecimal entry.2).isOk) ∧
      Gives "ECB" rates (entries.filterMap entryListing) := by
  have hall := Checked.mapM_eq_ok.mp h
  clear h
  induction hall with
  | nil => exact ⟨fun entry h => absurd h List.not_mem_nil, ⟨rfl, fun rate h => absurd h List.not_mem_nil⟩⟩
  | @cons entry rate entries rates hrate hrest ih =>
    obtain ⟨hok, hlisting, hsource⟩ := ih
    obtain ⟨hentry, hname⟩ := ecbRate_eq_ok hrate
    refine ⟨List.forall_mem_cons.mpr ⟨?_, hok⟩, ?_, List.forall_mem_cons.mpr ⟨hname, hsource⟩⟩
    · obtain ⟨units, hunits, -⟩ := Checked.bind_eq_ok.mp hrate
      rw [hunits]
      rfl
    · rw [List.map_cons, hlisting, List.filterMap_cons_some hentry]

/-- **The ECB** fails as a source or gives what it lists.

**Proof sketch.** Cases along the parser: without a dated cube or a date it fails as a source, and
so does the first rate that is not understood; otherwise it gives the rates that are listed. -/
lemma parseEcb_parses [PythonRuntime] [TextTables] (document : Option XmlElement) :
    Parses "ECB" (parseEcb document) (ecbListed document) := by
  unfold parseEcb ecbListed
  cases document with
  | none => exact .inl ⟨⟨_, rfl⟩, rfl⟩
  | some root =>
    rw [Option.bind_some]
    cases hday : datedCube root with
    | none =>
      simp only [hday]
      exact .inl ⟨⟨_, rfl⟩, rfl⟩
    | some day =>
      cases hdate : ecbDate day with
      | none =>
        simp only [hday, hdate]
        exact .inl ⟨⟨_, rfl⟩, if_neg fun h => nomatch h.1⟩
      | some rateDate =>
        simp only [hday, hdate, Option.isSome_some, true_and]
        cases hrates : (ecbEntries day).mapM (ecbRate rateDate) with
        | error e =>
          obtain ⟨entry, hentry, he⟩ := Checked.mapM_eq_error hrates
          obtain ⟨hfail, message, rfl⟩ := ecbRate_eq_error he
          refine .inl ⟨⟨message, rfl⟩, if_neg fun h => ?_⟩
          rw [h entry hentry] at hfail
          cases hfail
        | ok rates =>
          obtain ⟨hok, hgives⟩ := gives_ecbRates hrates
          rw [if_pos hok, Checked.bind_ok]
          split_ifs with hnil
          · refine .inl ⟨⟨_, rfl⟩, ?_⟩
            rw [← hgives.listing, hnil, List.map_nil]
          · exact .inr ⟨rates, rfl, hgives⟩

/-- An entry of the NBU's file that is not understood fails the source.

**Proof sketch.** Cases on the entry: each way to raise names the source. -/
lemma addEntry_eq_error [TextTables] {hryvnias : Table HryvniaRate.code} {entry : JsonValue}
    {e : FeedError} (h : addEntry hryvnias entry = .error e) :
    ∃ message, e = .sourceFailed message := by
  unfold addEntry at h
  split at h
  · split at h
    · split at h
      · rename_i rate _ _
        rcases positiveDecimal_cases (decimalOfJson rate) with ⟨units, hunits⟩ | ⟨message, hmessage⟩
        · rw [hunits, Checked.bind_ok] at h
          split at h <;> cases h
          exact ⟨_, rfl⟩
        · rw [hmessage, Checked.bind_error] at h
          cases h
          exact ⟨message, rfl⟩
      · cases h
        exact ⟨_, rfl⟩
    · cases h
      exact ⟨_, rfl⟩
  · cases h
    exact ⟨_, rfl⟩

/-- So does a file that is not.

**Proof sketch.** Induction on the entries; the first that raises does so as one entry does
(`addEntry_eq_error`). -/
lemma hryvniasOf_eq_error [TextTables] {document : Option JsonValue} {e : FeedError}
    (h : hryvniasOf document = .error e) : ∃ message, e = .sourceFailed message := by
  unfold hryvniasOf at h
  split at h
  · cases h
    exact ⟨_, rfl⟩
  · rename_i entries
    generalize (Table.empty : Table HryvniaRate.code) = hryvnias at h
    induction entries generalizing hryvnias with
    | nil => cases h
    | cons entry entries ih =>
      rw [List.foldlM_cons] at h
      cases hentry : addEntry hryvnias entry with
      | error e' =>
        rw [hentry, Checked.bind_error] at h
        cases h
        exact addEntry_eq_error hentry
      | ok hryvnias' =>
        rw [hentry, Checked.bind_ok] at h
        exact ih _ h
  · cases h
    exact ⟨_, rfl⟩

section Derived

variable {euroRate rate : HryvniaRate} {currency : CurrencyCode}

/-- The quotient that a currency's rate is rounded from. -/
def exactRate (euroRate rate : HryvniaRate) : ℚ :=
  euroRate.uahPerUnit.val.toRat / rate.uahPerUnit.val.toRat

lemma exactRate_pos : 0 < exactRate euroRate rate :=
  div_pos (Decimal.toRat_pos.mpr euroRate.uahPerUnit.property)
    (Decimal.toRat_pos.mpr rate.uahPerUnit.property)

/-- A quotient in the range of the arithmetic gives a rate, its own rounding. -/
lemma deriveRate_isOk (hlow : (10 : ℚ) ^ Decimal.leastExp / 2 < exactRate euroRate rate)
    (hhigh : exactRate euroRate rate < overflowLimit) :
    ∃ r, deriveRate euroRate currency rate = .ok r ∧
      r.listing = (currency, fitted (exactRate euroRate rate)) ∧ r.source = "NBU" := by
  rcases Decimal.divide_eq euroRate.uahPerUnit.property rate.uahPerUnit.property with
    ⟨hover, -⟩ | ⟨-, units, hunits, hvalue⟩
  · exact absurd hover (not_le.mpr hhigh)
  · have hpos : 0 < units.coeff := by
      rw [← Decimal.toRat_pos, hvalue]
      exact (fitted_pos_iff exactRate_pos).mpr hlow
    unfold deriveRate
    simp only [hunits, hpos, dite_true]
    exact ⟨_, rfl, by rw [ExchangeRate.listing, hvalue]; rfl, rfl⟩

/-- Any other quotient raises something that is no failure of the source. -/
lemma deriveRate_eq_error (h : ¬ ((10 : ℚ) ^ Decimal.leastExp / 2 < exactRate euroRate rate ∧
    exactRate euroRate rate < overflowLimit)) :
    ∃ e, deriveRate euroRate currency rate = .error (.raised e) := by
  unfold deriveRate
  rcases Decimal.divide_eq euroRate.uahPerUnit.property rate.uahPerUnit.property with
    ⟨-, hraise⟩ | ⟨hhigh, units, hunits, hvalue⟩
  · simp only [hraise]
    exact ⟨_, rfl⟩
  · have hzero : ¬ 0 < units.coeff := by
      rw [← Decimal.toRat_pos, hvalue]
      exact fun hpos => h ⟨(fitted_pos_iff exactRate_pos).mp hpos, hhigh⟩
    simp only [hunits, hzero, dite_false]
    exact ⟨_, rfl⟩

/-- Deriving a rate fails only with something that is no failure of the source. -/
lemma raised_of_deriveRate {e : FeedError} (h : deriveRate euroRate currency rate = .error e) :
    ∃ error, e = .raised error := by
  unfold deriveRate at h
  split at h
  · cases h
    exact ⟨_, rfl⟩
  · split_ifs at h
    cases h
    exact ⟨_, rfl⟩

end Derived

section Nbu

variable [PythonRuntime] [TextTables]

omit [PythonRuntime] [TextTables] in
/-- The quotients of a file give what it lists. -/
lemma gives_deriveRates {euroRate : HryvniaRate} {pairs : List (CurrencyCode × HryvniaRate)}
    (h : ∀ p ∈ pairs, (10 : ℚ) ^ Decimal.leastExp / 2 < exactRate euroRate p.2 ∧
      exactRate euroRate p.2 < overflowLimit) :
    ∃ rates, pairs.mapM (fun p => deriveRate euroRate p.1 p.2) = .ok rates ∧
      Gives "NBU" rates (pairs.map fun p => (p.1, fitted (exactRate euroRate p.2))) := by
  induction pairs with
  | nil => exact ⟨[], rfl, rfl, fun rate h => absurd h List.not_mem_nil⟩
  | cons p pairs ih =>
    obtain ⟨hp, hpairs⟩ := List.forall_mem_cons.mp h
    obtain ⟨rates, hrates, hlisting, hsource⟩ := ih hpairs
    obtain ⟨rate, hrate, hrlisting, hrsource⟩ := @deriveRate_isOk _ _ p.1 hp.1 hp.2
    refine ⟨rate :: rates, ?_, ?_, List.forall_mem_cons.mpr ⟨hrsource, hsource⟩⟩
    · rw [List.mapM_cons, hrate, Checked.bind_ok, hrates]
      rfl
    · rw [List.map_cons, List.map_cons, hlisting, hrlisting]

/-- **The NBU** fails as a source or gives what it lists, when its quotients are in range. -/
lemma parseNbu_parses {document : Option JsonValue} (h : Derivable document) :
    Parses "NBU" (parseNbu document) (nbuListed document) := by
  unfold parseNbu nbuListed
  cases hread : hryvniasOf document with
  | error e =>
    obtain ⟨message, rfl⟩ := hryvniasOf_eq_error hread
    exact .inl ⟨⟨message, rfl⟩, rfl⟩
  | ok hryvnias =>
    rw [Checked.bind_ok]
    cases heuro : hryvnias.find (RawText.ofString "EUR") with
    | none =>
      simp only [heuro]
      exact .inl ⟨⟨_, rfl⟩, rfl⟩
    | some euroRate =>
      obtain ⟨rates, hrates, hlisting, hsource⟩ := gives_deriveRates (h hryvnias hread euroRate heuro)
      simp only [heuro, hrates, Checked.bind_ok]
      refine .inr ⟨_, rfl, ?_, List.forall_mem_cons.mpr ⟨rfl, hsource⟩⟩
      rw [List.map_cons, hlisting]
      rfl

/-- With a quotient out of range it raises something else.

**Proof sketch.** The entries were read, so what can raise is a quotient: one that is out of range
does (`raised_of_deriveRate`), whatever the others are. -/
lemma parseNbu_raises {document : Option JsonValue} (h : ¬ Derivable document) :
    ∃ e, parseNbu document = .error (.raised e) := by
  unfold Derivable at h
  push Not at h
  obtain ⟨hryvnias, hread, euroRate, heuro, p, hp, hrange⟩ := h
  unfold parseNbu
  rw [hread, Checked.bind_ok]
  simp only [heuro]
  cases hrates : (derivedCurrencies hryvnias).mapM fun p => deriveRate euroRate p.1 p.2 with
  | error e =>
    obtain ⟨p', -, he⟩ := Checked.mapM_eq_error hrates
    obtain ⟨error, rfl⟩ := raised_of_deriveRate he
    exact ⟨error, rfl⟩
  | ok rates =>
    have hok : ∀ p ∈ derivedCurrencies hryvnias, ∃ r, deriveRate euroRate p.1 p.2 = .ok r :=
      Checked.mapM_isOk_iff.mp ⟨rates, hrates⟩
    obtain ⟨r, hr⟩ := hok p hp
    have hout : ¬ ((10 : ℚ) ^ Decimal.leastExp / 2 < exactRate euroRate p.2 ∧
        exactRate euroRate p.2 < overflowLimit) := fun hin => not_lt.mpr (hrange hin.1) hin.2
    obtain ⟨e, he⟩ := @deriveRate_eq_error _ _ p.1 hout
    rw [hr] at he
    cases he

end Nbu

/-! ## The refresh -/

section Refresh

variable {ecb nbu : Except FeedError (List ExchangeRate)} {listed listed' : List (CurrencyCode × ℚ)}

/-- The refresh of two feeds. -/
def feedRefresh (ecb nbu : Except FeedError (List ExchangeRate)) (now : Instant) :
    RefreshExchangeRates :=
  ⟨[⟨"ECB", ecb.toOption⟩, ⟨"NBU", nbu.toOption⟩], now⟩

/-- A feed that parses fails closed. -/
lemma Parses.failsClosed {name : String} (h : Parses name ecb listed) : FailsClosed ecb := by
  rcases h with ⟨hfail, -⟩ | ⟨rates, hok, -⟩
  · exact .inl hfail
  · exact .inr ⟨rates, hok, fun rate _ =>
      ⟨Decimal.toRat_pos.mpr rate.positive, rate.currency.supported⟩⟩

/-- What a refresh sees of a feed that fails closed. -/
lemma fetchSource_eq {name : String} (h : FailsClosed ecb) :
    fetchSource name ecb = .ok ⟨name, ecb.toOption⟩ := by
  rcases h with ⟨message, rfl⟩ | ⟨rates, rfl, -⟩
  · rfl
  · rfl

/-- A refresh of feeds that fail closed goes on with what they gave. -/
lemma refreshParsed_eq (hecb : FailsClosed ecb) (hnbu : FailsClosed nbu) {before : RateTable}
    {now : Instant} {p : RefreshResult × RateTable} :
    refreshParsed ecb nbu before now = .ok p ↔ (feedRefresh ecb nbu now).execute before = .ok p := by
  unfold refreshParsed
  rw [fetchSource_eq hecb, Checked.bind_ok, fetchSource_eq hnbu, Checked.bind_ok]
  show (match (feedRefresh ecb nbu now).execute before with
    | .ok p => Except.ok p
    | .error error => Except.error (RefreshError.saving error)) = _ ↔ _
  cases (feedRefresh ecb nbu now).execute before with
  | ok p' => rw [Except.ok.injEq, Except.ok.injEq]
  | error error => exact ⟨fun h => (nomatch h), fun h => (nomatch h)⟩

lemma published_feedRefresh (now : Instant) :
    (feedRefresh ecb nbu now).published = publishedRates ecb nbu := by
  unfold RefreshExchangeRates.published publishedRates feedRefresh
  cases ecb.toOption <;> cases nbu.toOption <;> simp

lemma mem_failedSources_feedRefresh (now : Instant) (name : String) :
    name ∈ (feedRefresh ecb nbu now).failedSources ↔
      name = "ECB" ∧ ecb.isOk = false ∨ name = "NBU" ∧ nbu.isOk = false := by
  unfold RefreshExchangeRates.failedSources feedRefresh
  cases ecb <;> cases nbu <;> simp [Except.toOption, Except.isOk, Except.toBool]

/-- Feeds that parse publish what they list. -/
lemma Parses.gives {name : String} (h : Parses name ecb listed) :
    Gives name (ecb.toOption.getD []) listed := by
  rcases h with ⟨⟨message, rfl⟩, rfl⟩ | ⟨rates, rfl, hgives⟩
  · exact ⟨rfl, fun rate h => absurd h List.not_mem_nil⟩
  · exact hgives

/-- All that a refresh chooses can be stored exactly when what is listed first fits the column.

**Proof sketch.** The rate that is chosen for a currency is the first that is listed for it
(`hfirst`, `hfind`), and its source is always one that is known. -/
lemma allStorable_feedRefresh (hecb : Parses "ECB" ecb listed) (hnbu : Parses "NBU" nbu listed')
    (now : Instant) : (feedRefresh ecb nbu now).AllStorable ↔ ListedFit (listed ++ listed') := by
  have hsource : ∀ rate ∈ publishedRates ecb nbu, rate.source ∈ knownRateSources := by
    intro rate hrate
    rcases List.mem_append.mp hrate with h | h
    · rw [hecb.gives.source rate h]
      decide
    · rw [hnbu.gives.source rate h]
      decide
  have hfind : ∀ code, ((listed ++ listed').find? fun p => decide (p.1.value = code)) =
      (firstRate (publishedRates ecb nbu) code).map ExchangeRate.listing := by
    intro code
    rw [← hecb.gives.listing, ← hnbu.gives.listing, ← List.map_append, List.find?_map]
    rfl
  have hfirst : ∀ code, (feedRefresh ecb nbu now).firstPublished code =
      firstRate (publishedRates ecb nbu) code := by
    intro code
    rw [RefreshExchangeRates.firstPublished, published_feedRefresh, firstRate]
  unfold RefreshExchangeRates.AllStorable ListedFit
  simp only [hfirst, hfind]
  constructor
  · intro h code hw p hp
    obtain ⟨rate, hrate, rfl⟩ := Option.map_eq_some_iff.mp hp
    exact (storable_iff (hsource rate (List.mem_of_find?_eq_some hrate))).mp (h code hw rate hrate)
  · intro h code hw rate hrate
    refine (storable_iff (hsource rate (List.mem_of_find?_eq_some hrate))).mpr ?_
    exact h code hw rate.listing (by rw [hrate, Option.map_some])

/-- **A refresh** of feeds that parse goes through and does what it promises exactly when what they
list first fits the column.

**Proof sketch.** A refresh goes through exactly when all that it chooses can be stored
(`allStorable_feedRefresh`). What it then leaves in the table is, currency by currency, the rate
chosen or the one that was there. -/
lemma refreshes_iff (hecb : Parses "ECB" ecb listed) (hnbu : Parses "NBU" nbu listed') :
    (∀ before now, ∃ result after, refreshParsed ecb nbu before now = .ok (result, after) ∧
      FailsAlone ecb nbu before result after) ↔ ListedFit (listed ++ listed') := by
  have hc := hecb.failsClosed
  have hc' := hnbu.failsClosed
  constructor
  · intro hruns
    obtain ⟨result, after, hrun, -⟩ := hruns .empty 0
    rw [← allStorable_feedRefresh hecb hnbu 0]
    exact (RefreshExchangeRates.execute_isOk_iff _).mp ⟨_, (refreshParsed_eq hc hc').mp hrun⟩
  · intro hfit before now
    set refresh := feedRefresh ecb nbu now with hrefresh
    have hgoes : ∃ p, refresh.execute before = .ok p :=
      refresh.execute_isOk_iff.mpr ((allStorable_feedRefresh hecb hnbu now).mpr hfit)
    obtain ⟨⟨result, after⟩, hexec⟩ := hgoes
    have hafter := refresh.find_execute hexec
    have hfirst : ∀ code, refresh.firstPublished code =
        firstRate (publishedRates ecb nbu) code := by
      intro code
      rw [RefreshExchangeRates.firstPublished, hrefresh, published_feedRefresh, firstRate]
    refine ⟨result, after, (refreshParsed_eq hc hc').mpr hexec, ?_⟩
    constructor
    case failed =>
      rw [refresh.result_execute hexec]
      exact mem_failedSources_feedRefresh now
    case stored =>
      intro code hw rate hrate
      have h := hafter code
      rw [if_pos hw, hfirst, hrate] at h
      obtain ⟨row, hrow, hfound⟩ := h
      rw [hfound, Option.map_some, (RefreshExchangeRates.toRecord_eq_ok hrow).2.1]
    case kept =>
      intro code hcode
      have h := hafter code
      rcases hcode with hw | hnone
      · rwa [if_neg hw] at h
      · rwa [hfirst, hnone, ite_self] at h

end Refresh

/-- **Rate feeds.** For any two response bodies, the feeds fail closed and alone exactly when no
quotient of the NBU's file leaves the range of the arithmetic, and the number that the two files list
first for each wanted currency fits the column. -/
theorem feeds_fail_closed_iff [PythonRuntime] [TextTables] (parsers : FeedParsers)
    (ecb nbu : List UInt8) :
    FeedsHold parsers ecb nbu ↔
      Derivable (parsers.loads nbu) ∧
        ListedFit (ecbListed (parsers.fromstring ecb) ++ nbuListed (parsers.loads nbu)) := by
  have hecb := parseEcb_parses (parsers.fromstring ecb)
  by_cases hderivable : Derivable (parsers.loads nbu)
  · have hnbu := parseNbu_parses hderivable
    have hiff := refreshes_iff hecb hnbu
    exact ⟨fun h => ⟨hderivable, hiff.mp h.2.2⟩,
      fun h => ⟨hecb.failsClosed, hnbu.failsClosed, hiff.mpr h.2⟩⟩
  · refine ⟨fun h => absurd h.2.1 ?_, fun h => absurd h.1 hderivable⟩
    obtain ⟨e, he⟩ := parseNbu_raises hderivable
    rw [he]
    rintro (⟨message, hmessage⟩ | ⟨rates, hrates, -⟩)
    · cases hmessage
    · cases hrates

/-- A file of the ECB with one rate, too large for its column. -/
def wideRateBody : List UInt8 :=
  ("<r xmlns='http://www.ecb.int/vocabulary/2002-08-01/eurofxref'><Cube><Cube time='2024-01-02'>" ++
    "<Cube currency='USD' rate='100000000000000'/></Cube></Cube></r>").toUTF8.toList

/-- A file of the NBU whose dollar rate overflows. -/
def overflowingBody : List UInt8 :=
  ("[\x7b\"cc\":\"EUR\",\"rate\":\"1e999999\",\"exchangedate\":\"02.01.2024\"\x7d," ++
    "\x7b\"cc\":\"USD\",\"rate\":\"0.1\",\"exchangedate\":\"02.01.2024\"\x7d]").toUTF8.toList

/-- An entry of a file of the NBU. -/
def nbuEntry (code rate : String) : JsonValue :=
  .dict [(RawText.ofString "cc", .str (RawText.ofString code)),
    (RawText.ofString "rate", .str (RawText.ofString rate)),
    (RawText.ofString "exchangedate", .str (RawText.ofString "02.01.2024"))]

/-- Parsers that know these two bodies. -/
def sampleParsers : FeedParsers where
  fromstring body :=
    if body = wideRateBody then
      some (.mk "{http://www.ecb.int/vocabulary/2002-08-01/eurofxref}r" []
        [.mk cube [] [.mk cube [("time", "2024-01-02")]
          [.mk cube [("currency", "USD"), ("rate", "100000000000000")] []]]])
    else none
  loads body :=
    if body = overflowingBody then some (.list [nbuEntry "EUR" "1e999999", nbuEntry "USD" "0.1"])
    else none

/-- A rate of fifteen digits reaches the database, and an overflow is no failure of its source. -/
theorem wideRate_not_stored :
    ¬ @FeedsHold .ascii .ascii sampleParsers wideRateBody [] ∧
      ¬ @FeedsHold .ascii .ascii sampleParsers [] overflowingBody := by
  have hwide : (@refreshFeeds .ascii .ascii sampleParsers wideRateBody [] .empty 0).isOk = false := by
    decide +kernel
  have hover : @parseNbu .ascii .ascii (sampleParsers.loads overflowingBody) =
      .error (.raised .decimalOverflow) := by
    decide +kernel
  constructor
  · rintro ⟨-, -, hruns⟩
    obtain ⟨result, after, hrun, -⟩ := hruns .empty 0
    rw [hrun] at hwide
    cases hwide
  · rintro ⟨-, hclosed, -⟩
    rw [hover] at hclosed
    rcases hclosed with ⟨message, h⟩ | ⟨rates, h, -⟩
    · cases h
    · cases h

end MintFlow
