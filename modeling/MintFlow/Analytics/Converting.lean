import MintFlow.Analytics.Reconciliation

set_option relaxedAutoImplicit false
set_option autoImplicit false

/-!
# Code that converts

A converted dashboard is made of many conversions into one currency. Code that converts gives a
value, and the codes of the rates it used, unless one of its conversions has a result with too many
digits. The rules say so of a part from what they say of its parts.

## Main definitions

* `MintFlow.ConvertTo.Settles` — code gives a value by some conversions.
* `MintFlow.Yields` — a program that reads and converts gives a value.

## Main results

* `MintFlow.settles_convertedTotal`, `MintFlow.settles_convertedBuckets`,
  `MintFlow.settles_convertedCategories`, `MintFlow.settles_convertedMerchants` — what the converted
  parts are, and what they convert.
* `MintFlow.categoriesOf_groups`, `MintFlow.merchantsOf_groups` — the converted rows are groups.
-/

namespace MintFlow

open Transact Transact.Prog

/-! ## Code that converts -/

namespace ConvertTo

variable (converter : ConvertTo)

/-- The value of a conversion, where it has one. -/
def value (minorUnits : ℤ) (currency : CurrencyCode) : ℤ :=
  match converter.rates.convert minorUnits currency converter.currency with
  | .ok (some v) => v
  | _ => 0

/-- A conversion has its value. -/
def Defined (minorUnits : ℤ) (currency : CurrencyCode) : Prop :=
  converter.rates.convert minorUnits currency converter.currency =
    .ok (some (converter.value minorUnits currency))

/-- One of some conversions has a result with too many digits. -/
def Overflows (P : ℤ → CurrencyCode → Prop) : Prop :=
  ∃ minorUnits currency, P minorUnits currency ∧
    converter.rates.convert minorUnits currency converter.currency = .error .invalidOperation

lemma Overflows.mono {converter : ConvertTo} {P Q : ℤ → CurrencyCode → Prop}
    (h : ∀ n c, P n c → Q n c) (hover : converter.Overflows P) : converter.Overflows Q := by
  obtain ⟨n, c, hc, herror⟩ := hover
  exact ⟨n, c, h n c hc, herror⟩

/-- The codes of the rates that a conversion uses. -/
def codes (currency : CurrencyCode) : UsedCodes :=
  if currency = converter.currency then [] else [currency.value, converter.currency.value]

/-- The codes of the rates that some conversions use. -/
def codesOf (conversions : List (ℤ × CurrencyCode)) : UsedCodes :=
  conversions.flatMap fun r => converter.codes r.2

variable {converter}

lemma codesOf_append (xs ys : List (ℤ × CurrencyCode)) :
    converter.codesOf (xs ++ ys) = converter.codesOf xs ++ converter.codesOf ys :=
  List.flatMap_append

/-- The codes that are used. -/
lemma mem_codesOf {conversions : List (ℤ × CurrencyCode)} {code : String} :
    code ∈ converter.codesOf conversions ↔ ∃ r ∈ conversions, r.2 ≠ converter.currency ∧
      (code = r.2.value ∨ code = converter.currency.value) := by
  rw [codesOf, List.mem_flatMap]
  refine exists_congr fun r => and_congr_right fun _ => ?_
  unfold codes
  split_ifs with h <;> simp [h]

/-- What can be converted is converted, or has too many digits. -/
lemma defined_or_overflows {currency : CurrencyCode} (h : converter.canConvert currency = true)
    (minorUnits : ℤ) : converter.Defined minorUnits currency ∨
      converter.rates.convert minorUnits currency converter.currency = .error .invalidOperation := by
  rcases ExchangeRates.convert_of_canConvert h minorUnits with ⟨v, hv⟩ | herror
  · left
    unfold Defined value
    rw [hv]
  · exact .inr herror

/-- Nothing converts to nothing. -/
lemma value_zero (currency : CurrencyCode) : converter.value 0 currency = 0 := by
  unfold value
  by_cases h : converter.canConvert currency = true
  · rw [ExchangeRates.convert_zero h]
  · rw [ExchangeRates.convert_of_not_canConvert h]

lemma defined_zero {currency : CurrencyCode} (h : converter.canConvert currency = true) :
    converter.Defined 0 currency := by
  unfold Defined
  rw [value_zero]
  exact ExchangeRates.convert_zero h

/-- The target is shown as it is. -/
lemma value_target (minorUnits : ℤ) :
    converter.value minorUnits converter.currency = minorUnits := by
  unfold value ExchangeRates.convert
  rw [if_pos rfl]

/-- Code gives `a` by some conversions, unless one of them overflows. -/
def Settles {α : Type} (converter : ConvertTo) (x : Converting α) (a : α)
    (conversions : List (ℤ × CurrencyCode)) : Prop :=
  ∀ used, (x used = .ok (a, used ++ converter.codesOf conversions) ∧
      ∀ r ∈ conversions, converter.Defined r.1 r.2) ∨
    (x used = .error .invalidOperation ∧ converter.Overflows fun n c => (n, c) ∈ conversions)

namespace Settles

variable {α β ρ : Type} {x : Converting α} {a : α} {conversions : List (ℤ × CurrencyCode)}

lemma pure (a : α) : converter.Settles (Pure.pure a) a [] :=
  fun used => .inl ⟨by rw [codesOf, List.flatMap_nil, List.append_nil]; rfl,
    fun _ h => absurd h List.not_mem_nil⟩

/-- Code that does not convert and does not raise. -/
lemma lift {y : Checked α} (h : y = .ok a) :
    converter.Settles (StateT.lift (y.mapError Error.valueError)) a [] := by
  rw [h]
  exact pure a

/-- One conversion. -/
lemma convert {currency : CurrencyCode} (h : converter.canConvert currency = true)
    (minorUnits : ℤ) : converter.Settles (converter.convert minorUnits currency)
      (converter.value minorUnits currency) [(minorUnits, currency)] := by
  intro used
  unfold ConvertTo.convert
  rcases defined_or_overflows h minorUnits with hdefined | herror
  · left
    refine ⟨?_, List.forall_mem_singleton.mpr hdefined⟩
    rw [show converter.rates.convert minorUnits currency converter.currency = _ from hdefined]
    simp only [codesOf, codes, List.flatMap_cons, List.flatMap_nil, List.append_nil]
    split_ifs
    · rw [List.append_nil]
    · rfl
  · right
    exact ⟨by rw [herror], minorUnits, currency, List.mem_singleton_self _, herror⟩

/-- One part after another. -/
lemma bind {f : α → Converting β} {b : β} {conversions' : List (ℤ × CurrencyCode)}
    (hx : converter.Settles x a conversions) (hf : converter.Settles (f a) b conversions') :
    converter.Settles (x >>= f) b (conversions ++ conversions') := by
  intro used
  have hbind : (x >>= f) used = (x used >>= fun r => f r.1 r.2) := rfl
  rcases hx used with ⟨hx, hdefined⟩ | ⟨hx, hover⟩
  · rcases hf (used ++ converter.codesOf conversions) with ⟨hf, hdefined'⟩ | ⟨hf, hover⟩
    · left
      refine ⟨?_, List.forall_mem_append.mpr ⟨hdefined, hdefined'⟩⟩
      rw [hbind, hx, Checked.bind_ok, hf, codesOf_append, List.append_assoc]
    · exact .inr ⟨by rw [hbind, hx, Checked.bind_ok, hf],
        hover.mono fun _ _ => List.mem_append_right _⟩
  · exact .inr ⟨by rw [hbind, hx]; rfl, hover.mono fun _ _ => List.mem_append_left _⟩

/-- A part followed by a value made of its own. -/
lemma map {f : α → Converting β} {b : β} (hx : converter.Settles x a conversions)
    (hf : f a = Pure.pure b) : converter.Settles (x >>= f) b conversions := by
  have h : converter.Settles (x >>= f) b (conversions ++ []) := hx.bind (by rw [hf]; exact pure b)
  rwa [List.append_nil] at h

/-- A loop that converts in each round, while its state keeps an invariant. -/
lemma foldlM_of {step : β → ρ → Converting β} {next : β → ρ → β} {round : ρ → List (ℤ × CurrencyCode)}
    {I : β → Prop} {rows : List ρ} {b : β} (hb : I b)
    (hnext : ∀ b, I b → ∀ row ∈ rows, I (next b row))
    (hstep : ∀ b, I b → ∀ row ∈ rows, converter.Settles (step b row) (next b row) (round row)) :
    converter.Settles (rows.foldlM step b) (rows.foldl next b) (rows.flatMap round) := by
  induction rows generalizing b with
  | nil => exact pure b
  | cons row rows ih =>
    rw [List.foldlM_cons, List.foldl_cons, List.flatMap_cons]
    exact (hstep b hb row List.mem_cons_self).bind
      (ih (hnext b hb row List.mem_cons_self)
        (fun b hb row' hrow' => hnext b hb row' (List.mem_cons_of_mem _ hrow'))
        fun b hb row' hrow' => hstep b hb row' (List.mem_cons_of_mem _ hrow'))

/-- A loop that converts once in each round. -/
lemma foldlM {step : β → ρ → Converting β} {next : β → ρ → β} {round : ρ → ℤ × CurrencyCode}
    {rows : List ρ} (b : β)
    (hstep : ∀ b, ∀ row ∈ rows, converter.Settles (step b row) (next b row) [round row]) :
    converter.Settles (rows.foldlM step b) (rows.foldl next b) (rows.map round) := by
  rw [List.map_eq_flatMap]
  exact foldlM_of (I := fun _ => True) trivial (fun _ _ _ _ => trivial) fun b _ => hstep b

/-- A loop that converts in each round and collects what each gives. -/
lemma mapM {f : ρ → Converting β} {g : ρ → β} {round : ρ → List (ℤ × CurrencyCode)} {rows : List ρ}
    (hf : ∀ row ∈ rows, converter.Settles (f row) (g row) (round row)) :
    converter.Settles (rows.mapM f) (rows.map g) (rows.flatMap round) := by
  induction rows with
  | nil => exact pure []
  | cons row rows ih =>
    rw [List.mapM_cons, List.map_cons, List.flatMap_cons]
    exact (hf row List.mem_cons_self).bind (f := fun y => do
        let ys ← rows.mapM f
        Pure.pure (y :: ys))
      ((ih fun row' hrow' => hf row' (List.mem_cons_of_mem _ hrow')).map
        (f := fun ys => Pure.pure (g row :: ys)) rfl)

end Settles

end ConvertTo

/-- A program that reads and converts gives `a`, and `H` holds, unless one of the conversions `P`
overflows. -/
def Yields {α : Type} (converter : ConvertTo) (P : ℤ → CurrencyCode → Prop) (s : Alone Database)
    (p : Program α) (a : α) (H : Prop) : Prop :=
  (ReadsAs postgres s p (.ok a) ∧ H) ∨
    (ReadsAs postgres s p (.error .invalidOperation) ∧ converter.Overflows P)

namespace Yields

variable {α β : Type} {converter : ConvertTo} {P : ℤ → CurrencyCode → Prop} {s : Alone Database}
  {p : Program α} {a : α} {H : Prop}

/-- A program that only reads. -/
lemma of_reads (h : ReadsAs postgres s p (.ok a)) : Yields converter P s p a True :=
  .inl ⟨h, trivial⟩

/-- Code that converts. -/
lemma of_settles {x : Converting α} {conversions : List (ℤ × CurrencyCode)}
    (h : converter.Settles x a conversions) (hP : ∀ r ∈ conversions, P r.1 r.2)
    (used : UsedCodes) :
    Yields converter P s (converting x used) (a, used ++ converter.codesOf conversions)
      (∀ r ∈ conversions, converter.Defined r.1 r.2) := by
  rcases h used with ⟨hx, hH⟩ | ⟨hx, hover⟩
  · refine .inl ⟨?_, hH⟩
    unfold converting
    rw [show x.run used = x used from rfl, hx]
    exact ReadsAs.pure _
  · refine .inr ⟨?_, hover.mono fun n c hmem => hP (n, c) hmem⟩
    unfold converting
    rw [show x.run used = x used from rfl, hx]
    exact ReadsAs.fail _

/-- One program after another. -/
lemma bind {f : α → Program β} {b : β} {H' : Prop} (hp : Yields converter P s p a H)
    (hf : H → Yields converter P s (f a) b H') : Yields converter P s (p.bind f) b (H ∧ H') := by
  rcases hp with ⟨hp, hH⟩ | ⟨hp, hover⟩
  · rcases hf hH with ⟨hf, hH'⟩ | ⟨hf, hover⟩
    · exact .inl ⟨hp.andThen hf, hH, hH'⟩
    · exact .inr ⟨hp.andThen hf, hover⟩
  · have hraise : ReadsAs postgres s (p.bind f) (.error .invalidOperation) :=
      ReadsAs.bind (g := fun _ => Except.error Error.invalidOperation) hp fun a ha => nomatch ha
    exact .inr ⟨hraise, hover⟩

/-- What holds is weakened. -/
lemma imp {H' : Prop} (h : Yields converter P s p a H) (hH : H → H') : Yields converter P s p a H' :=
  h.imp_left fun h => ⟨h.1, hH h.2⟩

/-- One program after another: what holds after the first is known in the second. -/
lemma andThen {f : α → Program β} {b : β} {H' : Prop} (hp : Yields converter P s p a H)
    (hf : H → Yields converter P s (f a) b H') : Yields converter P s (p.bind f) b H' :=
  (hp.bind hf).imp And.right

/-- A read, and then the rest. -/
lemma read {f : α → Program β} {b : β} {H' : Prop} (hp : ReadsAs postgres s p (.ok a))
    (hf : Yields converter P s (f a) b H') : Yields converter P s (p.bind f) b H' :=
  (of_reads hp).andThen fun _ => hf

/-- A value, with what is known by then. -/
lemma pure (a : α) (h : H) : Yields converter P s (Prog.pure a) a H := .inl ⟨ReadsAs.pure a, h⟩

/-- A loop of a program that reads and converts in each round. -/
lemma foldlM {ρ : Type} {step : β → ρ → Program β} {next : β → ρ → β} {H : ρ → Prop}
    {rows : List ρ} (b : β)
    (hstep : ∀ b, ∀ row ∈ rows, Yields converter P s (step b row) (next b row) (H row)) :
    Yields converter P s (rows.foldlM step b) (rows.foldl next b) (∀ row ∈ rows, H row) := by
  induction rows generalizing b with
  | nil =>
    exact (of_reads (ReadsAs.pure b)).imp fun _ row hrow => absurd hrow List.not_mem_nil
  | cons row rows ih =>
    have h := (hstep b row List.mem_cons_self).bind (f := fun b => rows.foldlM step b) fun _ =>
      ih (next b row) fun b row' hrow' => hstep b row' (List.mem_cons_of_mem _ hrow')
    exact h.imp List.forall_mem_cons.mpr

end Yields

/-! ## The converted parts -/

section Parts

variable {converter : ConvertTo}

open ConvertTo

/-- What a converted row adds to a total: its converted amount, and its count. -/
def ConvertTo.converted {ρ : Type} (converter : ConvertTo) (currency : ρ → CurrencyCode)
    (figures : ρ → ℤ × ℕ) (row : ρ) : ℤ × ℕ :=
  (converter.value (figures row).1 (currency row), (figures row).2)

/-- Adding up from a start is adding the sum to it. -/
lemma foldl_add_eq {α : Type} (f : α → ℤ) (xs : List α) (b : ℤ) :
    xs.foldl (fun sum x => sum + f x) b = b + (xs.map f).sum := by
  induction xs generalizing b with
  | nil => exact (add_zero b).symm
  | cons x xs ih => rw [List.foldl_cons, ih, List.map_cons, List.sum_cons, add_assoc]

/-- The total of some currencies. -/
lemma settles_convertedTotal {totals : List CurrencyTotal}
    (h : ∀ t ∈ totals, converter.canConvert t.currency = true) :
    converter.Settles (converter.convertedTotal totals)
      (totals.map (converter.converted CurrencyTotal.currency CurrencyTotal.figures)).sum
      (totals.map fun t => (t.totalMinorUnits, t.currency)) := by
  have hloop : converter.Settles (totals.foldlM converter.addConverted 0)
      (totals.foldl (fun sum t => sum + converter.value t.totalMinorUnits t.currency) 0)
      (totals.map fun t => (t.totalMinorUnits, t.currency)) :=
    Settles.foldlM 0 fun sum t ht => (Settles.convert (h t ht) t.totalMinorUnits).map rfl
  refine hloop.map ?_
  rw [foldl_add_eq, zero_add]
  exact congrArg Pure.pure (sum_pairs _ _ _).symm

/-- The row of a converted category with one more total. -/
def ConvertTo.mergeCategory (converter : ConvertTo) (previous : Option CategoryTotal)
    (total : CategoryTotal) : CategoryTotal where
  currency := converter.currency
  categoryKey := total.categoryKey
  categoryName := total.categoryName
  totalMinorUnits := converter.value total.totalMinorUnits total.currency +
    (previous.map CategoryTotal.totalMinorUnits).getD 0
  count := total.count + (previous.map CategoryTotal.count).getD 0

/-- The converted categories. -/
def ConvertTo.categoriesOf (converter : ConvertTo) (totals : List CategoryTotal) :
    List CategoryTotal :=
  (totals.foldl (fun (t : Table CategoryTotal.categoryKey) total =>
    t.upsert (converter.mergeCategory (t.find total.categoryKey) total)) .empty).rows

/-- The loop over the totals of categories converts each of them once, and adds up by category. -/
lemma settles_convertedCategories {totals : List CategoryTotal}
    (h : ∀ t ∈ totals, converter.canConvert t.currency = true) :
    converter.Settles (convertedCategories totals converter) (converter.categoriesOf totals)
      (totals.map fun t => (t.totalMinorUnits, t.currency)) := by
  have hloop : converter.Settles (totals.foldlM (addCategory converter) .empty)
      (totals.foldl (fun (t : Table CategoryTotal.categoryKey) total =>
        t.upsert (converter.mergeCategory (t.find total.categoryKey) total)) .empty)
      (totals.map fun t => (t.totalMinorUnits, t.currency)) :=
    Settles.foldlM _ fun _ t ht => (Settles.convert (h t ht) t.totalMinorUnits).map rfl
  exact hloop.map rfl

/-- **Categories.** The converted categories are the converted rows, added up by category. -/
lemma categoriesOf_groups (totals : List CategoryTotal) :
    Groups (converter.converted CategoryTotal.currency CategoryTotal.figures)
      CategoryTotal.categoryKey totals CategoryTotal.categoryKey CategoryTotal.figures
      (converter.categoriesOf totals) := by
  refine groups_foldl_upsert _ _ converter.mergeCategory (fun _ _ => rfl) (fun previous t => ?_) _
  cases previous <;> rfl

/-- The row of a converted merchant with one more total. -/
def ConvertTo.mergeMerchant (converter : ConvertTo) (previous : Option MerchantTotal)
    (total : MerchantTotal) : MerchantTotal where
  currency := converter.currency
  merchant := total.merchant
  totalMinorUnits := converter.value total.totalMinorUnits total.currency +
    (previous.map MerchantTotal.totalMinorUnits).getD 0
  count := total.count + (previous.map MerchantTotal.count).getD 0

/-- The converted merchants. -/
def ConvertTo.merchantsOf (converter : ConvertTo) (totals : List MerchantTotal) :
    List MerchantTotal :=
  (totals.foldl (fun (t : Table MerchantTotal.merchant) total =>
    t.upsert (converter.mergeMerchant (t.find total.merchant) total)) .empty).rows

/-- The loop over the totals of merchants converts each of them once, and adds up by merchant. -/
lemma settles_convertedMerchants {totals : List MerchantTotal}
    (h : ∀ t ∈ totals, converter.canConvert t.currency = true) :
    converter.Settles (convertedMerchants totals converter) (converter.merchantsOf totals)
      (totals.map fun t => (t.totalMinorUnits, t.currency)) := by
  have hloop : converter.Settles (totals.foldlM (addMerchant converter) .empty)
      (totals.foldl (fun (t : Table MerchantTotal.merchant) total =>
        t.upsert (converter.mergeMerchant (t.find total.merchant) total)) .empty)
      (totals.map fun t => (t.totalMinorUnits, t.currency)) :=
    Settles.foldlM _ fun _ t ht => (Settles.convert (h t ht) t.totalMinorUnits).map rfl
  exact hloop.map rfl

/-- **Merchants.** The converted merchants are the converted rows, added up by merchant. -/
lemma merchantsOf_groups (totals : List MerchantTotal) :
    Groups (converter.converted MerchantTotal.currency MerchantTotal.figures)
      MerchantTotal.merchant totals MerchantTotal.merchant MerchantTotal.figures
      (converter.merchantsOf totals) := by
  refine groups_foldl_upsert _ _ converter.mergeMerchant (fun _ _ => rfl) (fun previous t => ?_) _
  cases previous <;> rfl

/-! ### Buckets -/

/-- One bucket of some daily rows. -/
def bucketOf (daily : List DailyTotal) (bucket : DashboardPeriod) : TimeBucket :=
  let inside := daily.filter fun day => bucket.contains day.transactionDate
  ⟨bucket, sumTotals DailyTotal.totalMinorUnits inside, sumCounts DailyTotal.count inside⟩

/-- The buckets of a period, from its layout. -/
lemma bucketTotals_of_layout {period : DashboardPeriod} {layout : ChartBuckets}
    (h : chartBuckets period = .ok layout) (daily : List DailyTotal) :
    bucketTotals period daily =
      .ok ⟨layout.granularity, layout.buckets.map (bucketOf daily)⟩ := by
  rw [bucketTotals, h]
  rfl

/-- A bucket with what another has, converted. -/
def ConvertTo.mergeBucket (converter : ConvertTo) (currency : CurrencyCode)
    (there has : TimeBucket) : TimeBucket :=
  if has.count = 0 then there
  else ⟨has.period, there.totalMinorUnits + converter.value has.totalMinorUnits currency,
    there.count + has.count⟩

/-- The rows of one currency. -/
def daysOf (daily : List DailyTotal) (currency : CurrencyCode) : List DailyTotal :=
  daily.filter fun day => decide (day.currency = currency)

/-- A converted bucket, from the buckets of some currencies. -/
def ConvertTo.bucketIn (converter : ConvertTo) (daily : List DailyTotal)
    (currencies : List CurrencyCode) (bucket : DashboardPeriod) : TimeBucket where
  period := bucket
  totalMinorUnits := (currencies.map fun c =>
    converter.value (bucketOf (daysOf daily c) bucket).totalMinorUnits c).sum
  count := (currencies.map fun c => (bucketOf (daysOf daily c) bucket).count).sum

/-- The buckets of one more currency.

**Proof sketch.** Without Expenses of the currency in the bucket nothing is added, and its figures
are zero; otherwise they are converted and added. -/
lemma bucketIn_append (daily : List DailyTotal) (currencies : List CurrencyCode) (c : CurrencyCode)
    (bucket : DashboardPeriod) (hpos : ∀ day ∈ daily, 0 < day.count) :
    converter.mergeBucket c (converter.bucketIn daily currencies bucket)
      (bucketOf (daysOf daily c) bucket) = converter.bucketIn daily (currencies ++ [c]) bucket := by
  unfold ConvertTo.mergeBucket
  split_ifs with hcount
  · -- No Expense in the bucket: it adds nothing.
    have hnil : (daysOf daily c).filter (fun day => bucket.contains day.transactionDate) = [] := by
      by_contra hne
      obtain ⟨day, hday⟩ := List.exists_mem_of_ne_nil _ hne
      have hmem : day ∈ daily := List.mem_of_mem_filter (List.mem_of_mem_filter hday)
      have hle : day.count ≤ (bucketOf (daysOf daily c) bucket).count :=
        List.le_sum_of_mem (List.mem_map_of_mem hday)
      have := hpos day hmem
      omega
    have htotal : (bucketOf (daysOf daily c) bucket).totalMinorUnits = 0 := by
      unfold bucketOf
      rw [hnil]
      rfl
    simp [ConvertTo.bucketIn, htotal, hcount, value_zero]
  · simp [ConvertTo.bucketIn, bucketOf]

/-- What the bucket of one currency has to convert: nothing, if it has no Expenses. -/
def bucketRound (daily : List DailyTotal) (c : CurrencyCode) (bucket : DashboardPeriod) :
    List (ℤ × CurrencyCode) :=
  let has := bucketOf (daysOf daily c) bucket
  if has.count = 0 then [] else [(has.totalMinorUnits, c)]

/-- Adding the buckets of one currency.

**Proof sketch.** The loop goes through the buckets and adds to each what the currency has in it,
which is one conversion or none. -/
lemma settles_addCurrency {period : DashboardPeriod} {layout : ChartBuckets}
    (hlayout : chartBuckets period = .ok layout) {daily : List DailyTotal} {c : CurrencyCode}
    (hc : converter.canConvert c = true) {buckets : List TimeBucket}
    (hlength : buckets.length = layout.buckets.length) :
    converter.Settles (addCurrency period daily converter buckets c)
      ((buckets.zip (layout.buckets.map (bucketOf (daysOf daily c)))).map fun b =>
        converter.mergeBucket c b.1 b.2)
      (layout.buckets.flatMap (bucketRound daily c)) := by
  let has := layout.buckets.map (bucketOf (daysOf daily c))
  let round : TimeBucket → List (ℤ × CurrencyCode) := fun b =>
    if b.count = 0 then [] else [(b.totalMinorUnits, c)]
  have hsnd : (buckets.zip has).map Prod.snd = has :=
    List.map_snd_zip (by rw [List.length_map, hlength])
  have hround : ∀ b ∈ buckets.zip has, converter.Settles (addBucket converter c b.1 b.2)
      (converter.mergeBucket c b.1 b.2) (round b.2) := by
    intro b _
    unfold addBucket ConvertTo.mergeBucket
    show converter.Settles _ _ (if b.2.count = 0 then [] else _)
    by_cases hcount : b.2.count = 0
    · rw [if_pos hcount, if_pos hcount, if_pos hcount]
      exact Settles.pure b.1
    · rw [if_neg hcount, if_neg hcount, if_neg hcount]
      exact (Settles.convert hc b.2.totalMinorUnits).map (f := fun converted => Pure.pure
        (⟨b.2.period, b.1.totalMinorUnits + converted, b.1.count + b.2.count⟩ : TimeBucket)) rfl
  have h := (Settles.lift (bucketTotals_of_layout hlayout (daysOf daily c))).bind
    (f := fun spending => (buckets.zip spending.buckets).mapM fun b =>
      addBucket converter c b.1 b.2) (Settles.mapM hround)
  have hrounds : ((buckets.zip has).flatMap fun b => round b.2) =
      layout.buckets.flatMap (bucketRound daily c) := by
    rw [← List.flatMap_map (f := Prod.snd) (g := round), hsnd, List.flatMap_map]
    rfl
  rwa [List.nil_append, hrounds] at h

/-- The loop over the currencies adds their buckets up. -/
lemma foldl_mergeBucket {layout : ChartBuckets} {daily : List DailyTotal}
    (hpos : ∀ day ∈ daily, 0 < day.count) (done currencies : List CurrencyCode) :
    currencies.foldl (fun buckets c =>
        (buckets.zip (layout.buckets.map (bucketOf (daysOf daily c)))).map fun b =>
          converter.mergeBucket c b.1 b.2) (layout.buckets.map (converter.bucketIn daily done)) =
      layout.buckets.map (converter.bucketIn daily (done ++ currencies)) := by
  induction currencies generalizing done with
  | nil => rw [List.append_nil, List.foldl_nil]
  | cons c currencies ih =>
    rw [List.foldl_cons, List.zip_map', List.map_map]
    rw [show (fun b => converter.mergeBucket c b.1 b.2) ∘ (fun bucket =>
        (converter.bucketIn daily done bucket, bucketOf (daysOf daily c) bucket)) =
          converter.bucketIn daily (done ++ [c]) from
      funext fun bucket => bucketIn_append daily done c bucket hpos]
    rw [ih, List.append_assoc, List.singleton_append]

/-- The currencies of daily rows, each where it first appears. -/
def currenciesOf (daily : List DailyTotal) : List CurrencyCode :=
  firstAppearances (daily.map DailyTotal.currency)

/-- The currencies are those of the totals. -/
lemma mem_currenciesOf {daily : List DailyTotal} {c : CurrencyCode} :
    c ∈ currenciesOf daily ↔ ∃ day ∈ daily, day.currency = c := by
  rw [currenciesOf, firstAppearances, List.mem_reverse, List.mem_dedup, List.mem_reverse,
    List.mem_map]

lemma nodup_currenciesOf (daily : List DailyTotal) : (currenciesOf daily).Nodup :=
  List.nodup_reverse.mpr (List.nodup_dedup _)

/-- What the buckets have to convert. -/
def bucketRounds (layout : ChartBuckets) (daily : List DailyTotal) : List (ℤ × CurrencyCode) :=
  (currenciesOf daily).flatMap fun c => layout.buckets.flatMap (bucketRound daily c)

/-- **Buckets.** A converted bucket adds up what its currencies have, each converted.

**Proof sketch.** Induction on the currencies: after each the buckets are those of the currencies so
far (`settles_addCurrency`, `bucketIn_append`). -/
lemma settles_convertedBuckets {period : DashboardPeriod} {layout : ChartBuckets}
    (hlayout : chartBuckets period = .ok layout) {daily : List DailyTotal}
    (hconvert : ∀ day ∈ daily, converter.canConvert day.currency = true)
    (hpos : ∀ day ∈ daily, 0 < day.count) :
    converter.Settles (convertedBuckets period daily converter)
      ⟨layout.granularity, layout.buckets.map (converter.bucketIn daily (currenciesOf daily))⟩
      (bucketRounds layout daily) := by
  have hempty : layout.buckets.map (bucketOf []) = layout.buckets.map (converter.bucketIn daily []) :=
    rfl
  have hloop : converter.Settles
      ((currenciesOf daily).foldlM (addCurrency period daily converter)
        (layout.buckets.map (bucketOf [])))
      ((currenciesOf daily).foldl (fun buckets c =>
        (buckets.zip (layout.buckets.map (bucketOf (daysOf daily c)))).map fun b =>
          converter.mergeBucket c b.1 b.2) (layout.buckets.map (bucketOf [])))
      (bucketRounds layout daily) :=
    Settles.foldlM_of (I := fun buckets => buckets.length = layout.buckets.length)
      (by rw [List.length_map])
      (fun buckets hlength c _ => by
        rw [List.length_map, List.length_zip, List.length_map, hlength, Nat.min_self])
      fun buckets hlength c hc => by
        obtain ⟨day, hday, rfl⟩ := mem_currenciesOf.mp hc
        exact settles_addCurrency hlayout (hconvert day hday) hlength
  have hbuckets := @foldl_mergeBucket converter layout daily hpos [] (currenciesOf daily)
  rw [← hempty, List.nil_append] at hbuckets
  rw [hbuckets] at hloop
  have h := (Settles.lift (bucketTotals_of_layout hlayout [])).bind
    (f := fun combined => do
      let buckets ← (currenciesOf daily).foldlM (addCurrency period daily converter)
        combined.buckets
      Pure.pure (⟨combined.granularity, buckets⟩ : SpendingOverTime))
    (hloop.map (f := fun buckets => Pure.pure (⟨layout.granularity, buckets⟩ : SpendingOverTime))
      rfl)
  rwa [List.nil_append] at h

end Parts

end MintFlow
