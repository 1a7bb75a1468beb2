import MintFlow.Domain.Values
import MintFlow.Lib.DecimalContext

set_option relaxedAutoImplicit false
set_option autoImplicit false

/-!
# Typed Telegram input

Amounts, currencies and dates as users type them, and the data of a draft's buttons. Every failure
is a `ValueError`.

## Main definitions

* `MintFlow.parseAmount`, `MintFlow.toMoney` — a typed amount, and its exact minor units.
* `MintFlow.parseDate` — `YYYY-MM-DD` or `DD.MM.YYYY`.
* `MintFlow.parseDraftAction` — `d:<hex>:<action>`.

## Main results

* `MintFlow.toMoney_pos` — a positive amount converts to positive money.
-/

namespace MintFlow

open Transact

/-! ## Characters -/

/-- An ASCII digit. -/
def isDigit (c : Char) : Bool := '0' ≤ c && c ≤ '9'

/-- An ASCII letter. -/
def isLetter (c : Char) : Bool := ('A' ≤ c && c ≤ 'Z') || ('a' ≤ c && c ≤ 'z')

/-- The number that digits spell. -/
def digitsValue (cs : List Char) : ℕ :=
  cs.foldl (fun n c => n * 10 + (c.toNat - '0'.toNat)) 0

/-! ## Amounts -/

/-- An amount as typed, with the currency only when the user typed one. -/
structure TypedAmount where
  value : Decimal
  currency : Option CurrencyCode

/-- The currency at the end of an amount: nothing, or whitespace and three letters. -/
def amountSuffix (cs : List Char) : Option (Option String) :=
  match cs with
  | [] => some none
  | _ =>
    let letters := cs.dropWhile isSpace
    if letters.length = 3 && letters.all isLetter then some (some (String.ofList letters))
    else none

/-- The groups of the amount pattern on a full match: number and currency. -/
def matchAmount (cs : List Char) : Option (Decimal × Option String) :=
  let whole := cs.takeWhile isDigit
  let rest := cs.dropWhile isDigit
  if whole = [] then none
  else
    match rest with
    | c :: more =>
      let fraction := more.takeWhile isDigit
      if (c = '.' || c = ',') && !fraction.isEmpty then
        (amountSuffix (more.dropWhile isDigit)).map fun currency =>
          (⟨digitsValue (whole ++ fraction), -fraction.length⟩, currency)
      else (amountSuffix rest).map fun currency => (⟨digitsValue whole, 0⟩, currency)
    | [] => some (⟨digitsValue whole, 0⟩, none)

variable [PythonRuntime]

/-- `parse_amount`. -/
def parseAmount (text : String) : Checked TypedAmount :=
  match matchAmount (stripChars text.toList) with
  | none => .error "not an amount"
  | some (value, currency) => do
    require (0 < value.coeff) "amount must be greater than zero"
    match currency with
    | none => return ⟨value, none⟩
    | some code =>
      let currency ← CurrencyCode.new code
      return ⟨value, some currency⟩

omit [PythonRuntime] in
/-- `to_money`. -/
def toMoney (value : ExtendedDecimal) (currency : CurrencyCode) : Except Raised Money :=
  value.withScaled currency.minorUnitExponent
    (fun minorUnits => (Money.new minorUnits currency).mapError Raised.valueError)
    (.error (.valueError (currency.value ++ " allows at most " ++
      toString currency.minorUnitExponent ++ " decimal places")))

/-- `parse_currency`. -/
def parseCurrency (text : String) : Checked CurrencyCode := CurrencyCode.new (strip text)

omit [PythonRuntime] in
/-- A typed amount that was accepted is positive. -/
lemma parseAmount_pos [PythonRuntime] {text : String} {t : TypedAmount}
    (h : parseAmount text = .ok t) : 0 < t.value.coeff := by
  unfold parseAmount at h
  split at h
  · cases h
  · obtain ⟨_, hpos, h⟩ := Checked.bind_eq_ok.mp h
    have hpos := require_eq_ok.mp hpos
    split at h
    · rw [← Checked.pure_eq_ok.mp h]
      exact hpos
    · obtain ⟨_, -, h⟩ := Checked.bind_eq_ok.mp h
      rw [← Checked.pure_eq_ok.mp h]
      exact hpos

omit [PythonRuntime] in
/-- The end of an amount has no digits of the number.

**Proof sketch.** The exponent is minus the number of decimals, which are characters of the text
behind the point. -/
lemma matchAmount_exp {cs : List Char} {value : Decimal} {currency : Option String}
    (h : matchAmount cs = some (value, currency)) : -(cs.length : ℤ) ≤ value.exp := by
  unfold matchAmount at h
  simp only at h
  split_ifs at h with hwhole
  split at h
  · rename_i c more hrest
    have hlength : more.length < cs.length := by
      have := congrArg List.length hrest
      have hle := (List.dropWhile_sublist isDigit (l := cs)).length_le
      simp only [List.length_cons] at this
      omega
    split_ifs at h with hpoint
    · obtain ⟨suffix, -, hv⟩ := Option.map_eq_some_iff.mp h
      obtain ⟨rfl, -⟩ := Prod.mk.inj hv
      have hle := (List.takeWhile_sublist isDigit (l := more)).length_le
      show -(cs.length : ℤ) ≤ -((more.takeWhile isDigit).length : ℤ)
      omega
    · obtain ⟨suffix, -, hv⟩ := Option.map_eq_some_iff.mp h
      obtain ⟨rfl, -⟩ := Prod.mk.inj hv
      show -(cs.length : ℤ) ≤ 0
      omega
  · obtain ⟨rfl, -⟩ := Prod.mk.inj (Option.some.inj h)
    show -(cs.length : ℤ) ≤ 0
    omega

omit [PythonRuntime] in
/-- A typed amount has no more decimal places than its text has characters.

**Proof sketch.** The text that is matched is a part of the text typed (`matchAmount_exp`). -/
lemma parseAmount_exp [PythonRuntime] {text : String} {t : TypedAmount}
    (h : parseAmount text = .ok t) : -(text.length : ℤ) ≤ t.value.exp := by
  have hstrip : (stripChars text.toList).length ≤ text.length := by
    unfold stripChars
    rw [List.length_reverse]
    have h₁ := (List.dropWhile_sublist isSpace
      (l := (text.toList.dropWhile isSpace).reverse)).length_le
    have h₂ := (List.dropWhile_sublist isSpace (l := text.toList)).length_le
    rw [List.length_reverse] at h₁
    exact h₁.trans h₂
  unfold parseAmount at h
  split at h
  · cases h
  · rename_i value currency hmatch
    have hexp := matchAmount_exp hmatch
    have hvalue : t.value = value := by
      obtain ⟨_, -, h⟩ := Checked.bind_eq_ok.mp h
      split at h
      · rw [← Checked.pure_eq_ok.mp h]
      · obtain ⟨_, -, h⟩ := Checked.bind_eq_ok.mp h
        rw [← Checked.pure_eq_ok.mp h]
    rw [hvalue]
    omega

omit [PythonRuntime] in
/-- A positive amount converts to positive money, unless its digits are too far behind the point.

**Proof sketch.** The scaled amount is at least the least positive number of the context, so it does
not round to zero. -/
lemma toMoney_pos {value : Decimal} {currency : CurrencyCode} {m : Money} (hpos : 0 < value.coeff)
    (hexp : Decimal.leastExp ≤ value.exp) (h : toMoney (.finite false value) currency = .ok m) :
    0 < m.minorUnits := by
  set e : ℤ := (currency.minorUnitExponent : ℤ) with he
  have hw : (10 : ℚ) ^ Decimal.leastExp ≤ value.toRat * 10 ^ e := by
    have hone : (1 : ℚ) ≤ value.coeff := by exact_mod_cast hpos
    have hstep : (10 : ℚ) ^ Decimal.leastExp ≤ 10 ^ (value.exp + e) :=
      zpow_le_zpow_right₀ (by norm_num) (by omega)
    rw [Decimal.toRat, mul_assoc, ← zpow_ten_add]
    exact hstep.trans (le_mul_of_one_le_left (zpow_ten_pos _).le hone)
  unfold toMoney at h
  rcases le_or_gt overflowLimit (value.toRat * 10 ^ e) with hover | hlt
  · rw [ExtendedDecimal.withScaled_overflow _ _ hpos hover] at h
    cases h
  by_cases hint : ∃ n : ℕ, fitted (value.toRat * 10 ^ e) = n
  · obtain ⟨n, hn⟩ := hint
    rw [ExtendedDecimal.withScaled_integer _ _ hpos hlt hn] at h
    have hn' : 0 < n := by exact_mod_cast hn ▸ fitted_pos hw
    cases hm : Money.new n currency with
    | error message =>
      rw [hm] at h
      cases h
    | ok m' =>
      rw [hm] at h
      cases h
      rw [(Money.new_eq_ok hm).1]
      exact_mod_cast hn'
  · push Not at hint
    rw [ExtendedDecimal.withScaled_fraction _ _ hpos hlt hint] at h
    cases h

/-! ## Dates -/

/-- The date that year, month and day name. -/
def dateOfYmd (year month day : List Char) : Checked TransactionDate :=
  match Date.ofYmd? (digitsValue year) (digitsValue month) (digitsValue day) with
  | some date =>
    match TransactionDate.new date with
    | .ok date => .ok date
    | .error _ => .error "not a valid date"
  | none => .error "not a valid date"

/-- Whether a group has between `least` and `most` digits and nothing else. -/
def isDigits (least most : ℕ) (cs : List Char) : Bool :=
  cs.all isDigit && decide (least ≤ cs.length) && decide (cs.length ≤ most)

/-- `parse_date`. -/
def parseDate (text : String) : Checked TransactionDate :=
  let candidate := stripChars text.toList
  match candidate.splitOn '-' with
  | [year, month, day] =>
    if isDigits 4 4 year && isDigits 2 2 month && isDigits 2 2 day then dateOfYmd year month day
    else .error "not a date"
  | _ =>
    match candidate.splitOn '.' with
    | [day, month, year] =>
      if isDigits 1 2 day && isDigits 1 2 month && isDigits 4 4 year then dateOfYmd year month day
      else .error "not a date"
    | _ => .error "not a date"

/-! ## Button data -/

/-- `str.partition(separator)` for one character: before it, and after it. -/
def partition (separator : Char) (cs : List Char) : List Char × List Char :=
  (cs.takeWhile (· ≠ separator), (cs.dropWhile (· ≠ separator)).tail)

/-- The value of a hexadecimal digit. -/
def hexValue (c : Char) : Option ℕ :=
  if isDigit c then some (c.toNat - '0'.toNat)
  else if 'a' ≤ c ∧ c ≤ 'f' then some (c.toNat - 'a'.toNat + 10)
  else if 'A' ≤ c ∧ c ≤ 'F' then some (c.toNat - 'A'.toNat + 10)
  else none

/-- A character as `int` takes it: whitespace beyond ASCII is a space, and a digit of any script an
ASCII digit. -/
def asciiOf (c : Char) : Char :=
  if c.toNat < 127 then c
  else if isSpace c then ' '
  else match PythonRuntime.decimal c with
    | some d => Char.ofNat ('0'.toNat + d)
    | none => '?'

/-- Leave out characters at both ends. -/
def trim (p : Char → Bool) (cs : List Char) : List Char :=
  ((cs.dropWhile p).reverse.dropWhile p).reverse

/-- The number that is read on from `n` by hexadecimal digits, each with at most one underscore
before it. -/
def readHexDigits (n : ℕ) : List Char → Option ℕ
  | [] => some n
  | '_' :: c :: cs => (hexValue c).bind fun d => readHexDigits (n * 16 + d) cs
  | c :: cs => (hexValue c).bind fun d => readHexDigits (n * 16 + d) cs

/-- `int(text, 16)` of a text without a minus sign: a plus sign and a prefix may come before the
digits, and ASCII whitespace on both sides. -/
def intOfHex (cs : List Char) : Option ℕ :=
  let unsigned := match trim (fun c => c = ' ' || (9 ≤ c.toNat && c.toNat ≤ 13)) cs with
    | '+' :: cs => cs
    | cs => cs
  let digits := match unsigned with
    | '0' :: 'x' :: '_' :: cs | '0' :: 'X' :: '_' :: cs => cs
    | '0' :: 'x' :: cs | '0' :: 'X' :: cs => cs
    | cs => cs
  match digits with
  | [] => none
  | c :: cs => (hexValue c).bind fun d => readHexDigits d cs

/-- `UUID(hex=…)` of a text without colons: braces around it and hyphens in it are ignored, and the 32
characters that are left are read by `int`. -/
def uuidOfHex (cs : List Char) : Option UUID :=
  let bare := (trim (fun c => c = '{' || c = '}') cs).filter (· ≠ '-')
  if bare.length = 32 then (intOfHex (bare.map asciiOf)).map (BitVec.ofNat 128) else none

example : intOfHex " 0x_1_F ".toList = some 31 := by decide
example : intOfHex "1__F".toList = none := by decide

/-- `_parse_draft_action`. -/
def parseDraftAction (data : String) : Option (UUID × String) :=
  let (kind, rest) := partition ':' data.toList
  let (draftHex, action) := partition ':' rest
  if kind = ['d'] ∧ action ≠ [] then
    (uuidOfHex draftHex).map fun id => (id, String.ofList action)
  else none

end MintFlow
