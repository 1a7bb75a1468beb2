import MintFlow.Domain.Receipt
import MintFlow.Domain.User
import MintFlow.Lib.Binary64
import MintFlow.Lib.DecimalContext
import Mathlib.Data.List.Sort

set_option relaxedAutoImplicit false
set_option autoImplicit false

/-!
# Selecting recognized values

A recognizer turns an image into candidates with confidences. Only values safe to prefill are kept:
every rule drops a field rather than guess.

## Main definitions

* `MintFlow.RawText` — a Python string, which may hold lone surrogates.
* `MintFlow.RecognitionOutput` — the candidates.
* `MintFlow.leader` — the value that leads every different one.
* `MintFlow.selectValues` — the values kept.

## Implementation notes

Confidences are of any type that compares and subtracts; the program's are doubles. A name, a date
or a currency that leads is already the value object, whose constructor gives it again. Decimals
that are numerically equal are one key of a dictionary, which keeps the first of them.
-/

namespace MintFlow

open Transact

/-! ## Texts -/

/-- A code point of a Python string: a character or a lone surrogate. -/
abbrev CodePoint := Char ⊕ Fin 2048

/-- A Python string. -/
abbrev RawText := List CodePoint

/-- The text of a string. -/
def RawText.ofString (s : String) : RawText := s.toList.map .inl

/-- The string that a text is, unless it holds a surrogate: then no encoding has it. -/
def RawText.toString? (text : RawText) : Option String :=
  if text.all Sum.isLeft then some (String.ofList (text.filterMap Sum.getLeft?)) else none

/-- The string of a text is as long as the text. -/
lemma RawText.length_toString? {text : RawText} {s : String} (h : text.toString? = some s) :
    s.length = text.length := by
  unfold RawText.toString? at h
  split_ifs at h with hall
  obtain rfl := Option.some.inj h
  rw [String.length_ofList]
  clear h
  induction text with
  | nil => rfl
  | cons c cs ih =>
    rw [List.all_cons, Bool.and_eq_true] at hall
    cases c with
    | inl c => simp [ih hall.2]
    | inr c => exact absurd hall.1 (by simp)

/-- A text that is a string's is that string's text. -/
lemma RawText.eq_ofString {text : RawText} {s : String} (h : text.toString? = some s) :
    text = ofString s := by
  unfold RawText.toString? at h
  split_ifs at h with hall
  obtain rfl := Option.some.inj h
  rw [ofString, String.toList_ofList]
  clear h
  induction text with
  | nil => rfl
  | cons c cs ih =>
    rw [List.all_cons, Bool.and_eq_true] at hall
    obtain ⟨ch, rfl⟩ := Sum.isLeft_iff.mp hall.1
    show Sum.inl ch :: cs = Sum.inl ch :: (cs.filterMap Sum.getLeft?).map Sum.inl
    rw [← ih hall.2]

/-- Different strings have different texts. -/
lemma RawText.ofString_injective : Function.Injective ofString := fun _ _ h =>
  String.toList_injective (List.map_injective_iff.mpr Sum.inl_injective h)

/-- `str.isspace` for one code point. -/
def CodePoint.isBlank : CodePoint → Bool
  | .inl c => isSpace c
  | .inr _ => false

/-- Replace every run of whitespace by one space; `inRun` tells whether one was just written. -/
def RawText.collapse (inRun : Bool) : RawText → RawText
  | [] => []
  | c :: cs =>
    if c.isBlank then
      if inRun then RawText.collapse true cs else .inl ' ' :: RawText.collapse true cs
    else c :: RawText.collapse false cs

/-- `str.strip()`. -/
def RawText.strip (text : RawText) : RawText :=
  ((text.dropWhile CodePoint.isBlank).reverse.dropWhile CodePoint.isBlank).reverse

lemma RawText.strip_eq (text : RawText) : text.strip = Whitespace.trim CodePoint.isBlank text := rfl

lemma RawText.collapse_eq (inRun : Bool) (text : RawText) :
    text.collapse inRun = Whitespace.collapse CodePoint.isBlank (.inl ' ') inRun text := by
  induction text generalizing inRun with
  | nil => rfl
  | cons c cs ih => rw [RawText.collapse, Whitespace.collapse, ih, ih]

/-- Collapsing whitespace twice is collapsing it once. -/
lemma RawText.normal_idem (text : RawText) :
    (text.strip.collapse false).strip.collapse false = text.strip.collapse false := by
  simp only [RawText.strip_eq, RawText.collapse_eq]
  exact Whitespace.normal_idem (by decide) text

/-- On the text of a string, collapsing whitespace is collapsing the string's. -/
lemma RawText.normal_ofString (s : String) :
    (ofString s).strip.collapse false = ofString (collapseWhitespace s) := by
  have hblank : ∀ c, CodePoint.isBlank (.inl c) = isSpace c := fun _ => rfl
  simp only [RawText.strip_eq, RawText.collapse_eq, ofString, collapseWhitespace,
    String.toList_ofList, stripChars_eq, collapseChars_eq]
  rw [Whitespace.trim_map hblank, Whitespace.collapse_map hblank]

/-! ## Candidates -/

/-- What a printed amount is labelled as. -/
inductive AmountLabel
  | total
  | subtotal
  | unlabeled
deriving DecidableEq

/-- What a currency was read from. -/
inductive CurrencyEvidence
  | explicitCode
  | unambiguousSymbol
  | ambiguousSymbol
deriving DecidableEq

/-- The evidence that is trusted. -/
def CurrencyEvidence.isTrusted : CurrencyEvidence → Bool
  | explicitCode | unambiguousSymbol => true
  | ambiguousSymbol => false

/-- A printed merchant. -/
structure MerchantCandidate (C : Type) where
  text : RawText
  confidence : C

/-- Every calendar reading of one printed date. -/
structure DateCandidate (C : Type) where
  readings : List Date
  confidence : C

/-- A printed amount. -/
structure TotalCandidate (C : Type) where
  value : ExtendedDecimal
  label : AmountLabel
  confidence : C

/-- The currency that some evidence points to. -/
structure CurrencyCandidate (C : Type) where
  code : RawText
  evidence : CurrencyEvidence
  confidence : C

/-- The candidates of one image. -/
structure RecognitionOutput (C : Type) where
  merchants : List (MerchantCandidate C)
  dates : List (DateCandidate C)
  totals : List (TotalCandidate C)
  currencies : List (CurrencyCandidate C)

/-! ## Names -/

/-- A merchant name of any text. -/
structure RecognizedMerchant where
  /-- The name. -/
  value : RawText
  /-- Not empty. -/
  ne_nil : value ≠ []
  /-- Not too long. -/
  length_le : value.length ≤ MerchantName.maxLength
  /-- Trimmed, with single spaces. -/
  normalized : value.strip.collapse false = value
deriving DecidableEq

/-- `MerchantName(value)`: collapse whitespace and check. -/
def RecognizedMerchant.new (text : RawText) : Checked RecognizedMerchant :=
  let normalized := RawText.collapse false text.strip
  if h₀ : normalized = [] then .error "merchant name must not be empty"
  else if h₁ : normalized.length ≤ MerchantName.maxLength then
    .ok ⟨normalized, h₀, h₁, RawText.normal_idem text⟩
  else .error "merchant name must be at most 140 characters"

/-- A string that a name is, is a name too. -/
lemma RecognizedMerchant.collapseWhitespace_toString? (name : RecognizedMerchant) {s : String}
    (h : name.value.toString? = some s) : collapseWhitespace s = s := by
  have hnormal := name.normalized
  rw [RawText.eq_ofString h, RawText.normal_ofString] at hnormal
  exact RawText.ofString_injective hnormal

/-- The name as a string, if its text has one. -/
def RecognizedMerchant.encode (name : RecognizedMerchant) : Option MerchantName :=
  match h : name.value.toString? with
  | none => none
  | some s => some ⟨s, fun hs => name.ne_nil (by
      rw [← List.length_eq_zero_iff, ← RawText.length_toString? h, hs]
      rfl), (RawText.length_toString? h).trans_le name.length_le,
      name.collapseWhitespace_toString? h⟩

/-- `CurrencyCode(value)`; no code of the catalogue holds a surrogate. -/
def CurrencyCode.ofText [PythonRuntime] (text : RawText) : Checked CurrencyCode :=
  match text.toString? with
  | some s => CurrencyCode.new s
  | none => .error "unsupported currency code"

/-- The values kept. -/
structure SelectedValues where
  merchant : Option RecognizedMerchant
  transactionDate : Option TransactionDate
  total : Option Money
deriving DecidableEq

/-! ## The leader -/

section Leader

variable {α κ C : Type} [DecidableEq κ] [Sub C] [LT C] [DecidableLT C] [OfScientific C]

/-- Take one more scored value into the best confidences so far. -/
def betterConfidence (key : α → κ) (best : List (α × C)) (s : α × C) : List (α × C) :=
  let previous := ((best.find? fun b => key b.1 = key s.1).map Prod.snd).getD 0.0
  let confidence := if s.2 < previous then previous else s.2
  if best.any fun b => key b.1 = key s.1 then
    best.map fun b => if key b.1 = key s.1 then (b.1, confidence) else b
  else best ++ [(s.1, confidence)]

/-- The best confidence of each value, in order of first appearance. -/
def bestConfidences (key : α → κ) (scored : List (α × C)) : List (α × C) :=
  scored.foldl (betterConfidence key) []

/-- `_leader`: the best value, if it clears `minimum` and leads every different value. -/
def leader (key : α → κ) (scored : List (α × C)) (minimum : C) : Option α :=
  match (bestConfidences key scored).insertionSort fun a b => ¬ a.2 < b.2 with
  | [] => none
  | [(value, confidence)] => if confidence < minimum then none else some value
  | (value, confidence) :: (_, second) :: _ =>
    if confidence < minimum then none
    else if confidence - second < 0.15 then none
    else some value

end Leader

/-! ## The rules -/

section Selection

variable {C : Type} [Sub C] [LT C] [DecidableLT C] [OfScientific C]

/-- The value a checked computation gives, if it does. -/
def Checked.toOption {α : Type} : Checked α → Option α
  | .ok a => some a
  | .error _ => none

/-- The names that a merchant may be prefilled from. -/
def usableMerchants (candidates : List (MerchantCandidate C)) : List (RecognizedMerchant × C) :=
  candidates.filterMap fun c =>
    (Checked.toOption (RecognizedMerchant.new c.text)).map fun name => (name, c.confidence)

/-- `_select_merchant`. -/
def selectMerchant (candidates : List (MerchantCandidate C)) : Option RecognizedMerchant :=
  leader id (usableMerchants candidates) 0.6

variable [PythonRuntime]

/-- The date of a plausible reading: not too old, valid, and not too far ahead. -/
def plausibleDate (today : Date) (now : Instant) (timezone : String) (reading : Date) :
    Except Raised (Option TransactionDate) := do
  let oldest ← inCalendar (today.addDays? (-366))
  if reading < oldest then return none
  else
    match TransactionDate.new reading with
    | .error _ => return none
    | .ok date => do
      let acceptable ← isWithinFutureTolerance date now timezone
      return if acceptable then some date else none

/-- A candidate with its only plausible reading. -/
def trustedReading (today : Date) (now : Instant) (timezone : String)
    (candidate : DateCandidate C) : Except Raised (Option (TransactionDate × C)) := do
  let readings ← candidate.readings.dedup.mapM (plausibleDate today now timezone)
  match readings.reduceOption with
  | [date] => return some (date, candidate.confidence)
  | _ => return none

/-- `_select_date`. -/
def selectDate (candidates : List (DateCandidate C)) (now : Instant) (timezone : String) :
    Except Raised (Option TransactionDate) := do
  let today ← localToday now timezone
  let scored ← candidates.mapM (trustedReading today now timezone)
  return leader id scored.reduceOption 0.7

/-- The currencies that trusted evidence points to. -/
def usableCurrencies (candidates : List (CurrencyCandidate C)) : List (CurrencyCode × C) :=
  candidates.filterMap fun c =>
    if c.evidence.isTrusted then
      (Checked.toOption (CurrencyCode.ofText c.code)).map fun code => (code, c.confidence)
    else none

/-- `_select_currency`. -/
def selectCurrency (candidates : List (CurrencyCandidate C)) : Option CurrencyCode :=
  leader id (usableCurrencies candidates) 0.8

omit [PythonRuntime] [Sub C] [LT C] [DecidableLT C] [OfScientific C] in
/-- A candidate that is a total and positive. -/
def usableTotal (candidate : TotalCandidate C) : Except Raised (Option (ExtendedDecimal × C)) :=
  if candidate.label = .total then do
    let positive ← candidate.value.isPositive
    return if positive then some (candidate.value, candidate.confidence) else none
  else .ok none

omit [PythonRuntime] in
/-- The minor units of a recognized amount, if they are integral and an amount of money. -/
def recognizedMoney (chosen : ExtendedDecimal) (currency : CurrencyCode) :
    Except Raised (Option Money) :=
  chosen.withScaled currency.minorUnitExponent
    (fun minorUnits => .ok (Checked.toOption (Money.new minorUnits currency))) (.ok none)

omit [PythonRuntime] in
/-- `_select_total`; without a currency nothing is looked at. -/
def selectTotal (candidates : List (TotalCandidate C)) (currency : Option CurrencyCode) :
    Except Raised (Option Money) :=
  match currency with
  | none => .ok none
  | some currency => do
    let scored ← candidates.mapM usableTotal
    match leader ExtendedDecimal.key scored.reduceOption 0.8 with
    | none => return none
    | some chosen => recognizedMoney chosen currency

/-- `select_values`. -/
def selectValues (output : RecognitionOutput C) (now : Instant) (timezone : String) :
    Except Raised SelectedValues := do
  let transactionDate ← selectDate output.dates now timezone
  let total ← selectTotal output.totals (selectCurrency output.currencies)
  return ⟨selectMerchant output.merchants, transactionDate, total⟩

end Selection

/-! ## A leader is one of the scored values -/

section LeaderMem

variable {α κ C : Type} [DecidableEq κ] [Sub C] [LT C] [DecidableLT C] [OfScientific C]
variable {key : α → κ}

omit [Sub C] in
/-- The values that have a best confidence are those seen so far. -/
lemma fst_mem_betterConfidence {best : List (α × C)} {s b : α × C}
    (h : b ∈ betterConfidence key best s) : b.1 ∈ best.map Prod.fst ∨ b.1 = s.1 := by
  unfold betterConfidence at h
  simp only at h
  split at h
  · obtain ⟨b', hb', rfl⟩ := List.mem_map.mp h
    refine .inl (List.mem_map.mpr ⟨b', hb', ?_⟩)
    split <;> rfl
  · rcases List.mem_append.mp h with h | h
    · exact .inl (List.mem_map_of_mem h)
    · rw [List.mem_singleton.mp h]
      exact .inr rfl

omit [Sub C] in
/-- A value with a best confidence was scored. -/
lemma fst_mem_of_mem_bestConfidences (scored : List (α × C)) :
    ∀ b ∈ bestConfidences key scored, b.1 ∈ scored.map Prod.fst := by
  have hfold : ∀ (ss best : List (α × C)), ∀ b ∈ ss.foldl (betterConfidence key) best,
      b.1 ∈ best.map Prod.fst ∨ b.1 ∈ ss.map Prod.fst := by
    intro ss
    induction ss with
    | nil => exact fun best b hb => .inl (List.mem_map_of_mem hb)
    | cons s ss ih =>
      intro best b hb
      rcases ih _ b hb with h | h
      · obtain ⟨b', hb', hbb'⟩ := List.mem_map.mp h
        rcases fst_mem_betterConfidence hb' with h | h
        · exact .inl (hbb' ▸ h)
        · exact .inr (by simp [← hbb', h])
      · exact .inr (List.mem_cons_of_mem _ h)
  intro b hb
  simpa using hfold scored [] b hb

/-- The leader is one of the scored values. -/
lemma leader_mem {scored : List (α × C)} {minimum : C} {v : α}
    (h : leader key scored minimum = some v) : v ∈ scored.map Prod.fst := by
  have hmem : ∀ b ∈ (bestConfidences key scored).insertionSort fun a b => ¬ a.2 < b.2,
      b.1 ∈ scored.map Prod.fst := fun b hb =>
    fst_mem_of_mem_bestConfidences scored b ((List.perm_insertionSort _ _).mem_iff.mp hb)
  unfold leader at h
  split at h
  · cases h
  · rename_i value confidence heq
    split_ifs at h
    cases h
    exact hmem (v, confidence) (by simp [heq])
  · rename_i value confidence _ _ _ heq
    split_ifs at h
    cases h
    exact hmem (v, _) (by rw [heq]; exact List.mem_cons_self)

end LeaderMem

/-! ## The candidate that is chosen -/

section Unrivalled

variable {C : Type} [Sub C] [LT C] [DecidableLT C] [OfScientific C]

/-- A value is trusted and unrivalled among the candidates: it is their leader. -/
def Unrivalled (candidates : List (TotalCandidate C)) (value : ExtendedDecimal) : Prop :=
  ∃ scored, candidates.mapM usableTotal = .ok scored ∧
    leader ExtendedDecimal.key scored.reduceOption 0.8 = some value

/-- A positive total that reaches the threshold is unrivalled when it is the only candidate.

**Proof sketch.** The only candidate is usable and its best confidence is its own, which is not
below the threshold. -/
lemma unrivalled_singleton {d : Decimal} (hd : 0 < d.coeff) {confidence : C}
    (hconfidence : ¬ confidence < 0.8) (hzero : ¬ confidence < 0.0) :
    Unrivalled [⟨.finite false d, .total, confidence⟩] (.finite false d) := by
  refine ⟨[some (.finite false d, confidence)], ?_, ?_⟩
  · have hpositive : usableTotal (⟨.finite false d, .total, confidence⟩ : TotalCandidate C) =
        .ok (some (.finite false d, confidence)) := by
      rw [usableTotal, if_pos rfl, ExtendedDecimal.isPositive, Checked.bind_ok]
      simp only [Bool.not_false, Bool.true_and, decide_eq_true_eq, if_pos hd]
      rfl
    rw [List.mapM_cons, hpositive]
    rfl
  · show (match [(ExtendedDecimal.finite false d,
      if confidence < 0.0 then 0.0 else confidence)] with
      | [] => none
      | [(value, confidence)] => if confidence < 0.8 then none else some value
      | (value, confidence) :: (_, second) :: _ =>
        if confidence < 0.8 then none
        else if confidence - second < 0.15 then none else some value) = _
    rw [if_neg hzero]
    exact if_neg hconfidence

end Unrivalled

end MintFlow
