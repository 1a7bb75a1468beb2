import MintFlow.Python

set_option relaxedAutoImplicit false
set_option autoImplicit false

/-!
# Dates, times and identifiers as texts

What `isoformat` and `str` write, and readers of the forms they write. `datetime.fromisoformat`
and `UUID` read further forms of the same values; the program reads these texts where it accepts
the written form only. A date is read in every form where it is typed.

## Main definitions

* `MintFlow.isoformat`, `MintFlow.fromIsoformat` — a date as a text, and back.
* `MintFlow.dateFromIsoformat` — a date from any form of text that has one.
* `MintFlow.DateTime.isoformat`, `MintFlow.DateTime.fromIsoformat` — a datetime as a text, and back.
* `MintFlow.uuidText`, `MintFlow.uuidOfText` — an identifier as a text, and back.

## Main results

* `MintFlow.fromIsoformat_isoformat`, `MintFlow.DateTime.fromIsoformat_isoformat`,
  `MintFlow.uuidOfText_uuidText` — what was written reads back.
-/

namespace MintFlow

open Transact

/-! ## Writing -/

/-- `date.isoformat`. -/
def isoformat (d : Date) : String :=
  let pad := fun (n width : ℕ) => "".pushn '0' (width - (toString n).length) ++ toString n
  pad d.year 4 ++ "-" ++ pad d.month 2 ++ "-" ++ pad d.day 2

/-- The 32 hexadecimal digits of an identifier. -/
def hexDigits (id : UUID) : List Char :=
  let digits := Nat.toDigits 16 id.toNat
  List.replicate (32 - digits.length) '0' ++ digits

/-- `str(uuid)`: 32 hexadecimal digits in five groups. -/
def uuidText (id : UUID) : String :=
  let digits := hexDigits id
  let group := fun start length => String.ofList ((digits.drop start).take length)
  group 0 8 ++ "-" ++ group 8 4 ++ "-" ++ group 12 4 ++ "-" ++ group 16 4 ++ "-" ++ group 20 12

/-- A number with zeros in front. -/
def zeroPadded (n width : ℕ) : String := "".pushn '0' (width - (toString n).length) ++ toString n

/-- Microseconds as hours, minutes and seconds, and a fraction if there is one. -/
def timeText (microseconds : ℕ) : String :=
  let seconds := microseconds / 1000000
  zeroPadded (seconds / 3600) 2 ++ ":" ++ zeroPadded (seconds / 60 % 60) 2 ++ ":" ++
    zeroPadded (seconds % 60) 2 ++
    if microseconds % 1000000 = 0 then "" else "." ++ zeroPadded (microseconds % 1000000) 6

/-- An offset from UTC: hours and minutes, and seconds and a fraction if there are some. -/
def offsetText (offset : ℤ) : String :=
  let size := offset.natAbs
  (if offset < 0 then "-" else "+") ++
    if size % 60000000 = 0 then
      zeroPadded (size / 3600000000) 2 ++ ":" ++ zeroPadded (size / 60000000 % 60) 2
    else timeText size

/-- The microseconds of a day. -/
def dayLength : ℤ := 86400000000

namespace DateTime

/-- The calendar date of a clock reading, if Python has it. -/
def date? (t : DateTime) : Option Date := Date.ofOrdinal? (t.wall / dayLength + 719163)

/-- The microseconds since midnight. -/
def sinceMidnight (t : DateTime) : ℕ := (t.wall % dayLength).toNat

/-- A datetime of Python: its year has four digits, and its offset is less than a day. -/
def Representable (t : DateTime) : Prop :=
  t.date?.isSome ∧ ∀ offset ∈ t.utcoffset, offset.natAbs < 86400000000

instance (t : DateTime) : Decidable t.Representable :=
  inferInstanceAs (Decidable (_ ∧ ∀ offset ∈ t.utcoffset, _))

/-- `datetime.isoformat`. -/
def isoformat (t : DateTime) : String :=
  MintFlow.isoformat (t.date?.getD default) ++ "T" ++ timeText t.sinceMidnight ++
    (t.utcoffset.map offsetText).getD ""

end DateTime

/-! ## Reading -/

/-- A number of so many decimal digits, and what follows. -/
def readNumber (width : ℕ) (cs : List Char) : Option (ℕ × List Char) :=
  let digits := cs.take width
  if digits.length = width ∧ digits.all Char.isDigit then
    some (Nat.ofDigitChars 10 digits 0, cs.drop width)
  else none

/-- What follows one given character. -/
def readChar (c : Char) : List Char → Option (List Char)
  | c' :: cs => if c' = c then some cs else none
  | [] => none

/-- A date, and what follows. -/
def readDate (cs : List Char) : Option (Date × List Char) := do
  let (year, cs) ← readNumber 4 cs
  let cs ← readChar '-' cs
  let (month, cs) ← readNumber 2 cs
  let cs ← readChar '-' cs
  let (day, cs) ← readNumber 2 cs
  let date ← Date.ofYmd? year month day
  some (date, cs)

/-- The microseconds of a fraction of a second, if there is one. -/
def readFraction : List Char → Option (ℕ × List Char)
  | '.' :: cs => readNumber 6 cs
  | cs => some (0, cs)

/-- The microseconds of seconds and a fraction, if there are some after a colon. -/
def readSeconds : List Char → Option (ℕ × List Char)
  | ':' :: cs => do
    let (second, cs) ← readNumber 2 cs
    let (fraction, cs) ← readFraction cs
    if second < 60 then some (second * 1000000 + fraction, cs) else none
  | cs => some (0, cs)

/-- The microseconds of hours and minutes and what may follow these. -/
def readTime (cs : List Char) : Option (ℕ × List Char) := do
  let (hour, cs) ← readNumber 2 cs
  let cs ← readChar ':' cs
  let (minute, cs) ← readNumber 2 cs
  let (rest, cs) ← readSeconds cs
  if hour < 24 ∧ minute < 60 then some ((hour * 60 + minute) * 60000000 + rest, cs) else none

/-- An offset from UTC, if there is one. -/
def readOffset : List Char → Option (Option ℤ)
  | [] => some none
  | sign :: cs => do
    let (size, rest) ← readTime cs
    if rest ≠ [] then none
    else if sign = '+' then some (some (size : ℤ))
    else if sign = '-' then some (some (-size : ℤ))
    else none

/-- `date.fromisoformat`, of the written form. -/
def fromIsoformat (s : String) : Option Date := do
  let (date, rest) ← readDate s.toList
  if rest = [] then some date else none

/-- `datetime.fromisoformat`. -/
def DateTime.fromIsoformat (s : String) : Option DateTime := do
  let (date, rest) ← readDate s.toList
  let rest ← readChar 'T' rest
  let (time, rest) ← readTime rest
  let offset ← readOffset rest
  some ⟨(date.ordinal - 719163) * dayLength + time, offset⟩

/-- The date of a day of an ISO week. -/
def ofIsoWeek? (year week day : ℕ) : Option Date :=
  let first := Date.ymdToOrdinal year 1 1
  -- Monday is 0; the first week has the first Thursday.
  let weekday := (first + 6) % 7
  let monday : ℤ := first - weekday + if 3 < weekday then 7 else 0
  let isLong := weekday = 3 ∨ weekday = 2 ∧ Date.isLeap year
  if 1 ≤ year ∧ 1 ≤ week ∧ (week ≤ 52 ∨ week = 53 ∧ isLong) ∧ 1 ≤ day ∧ day ≤ 7 then
    Date.ofOrdinal? (monday + ((week - 1) * 7 + (day - 1) : ℕ))
  else none

/-- `date.fromisoformat`: year, month and day or year, week and day, with hyphens between them or
without any; the day of a week may be left out. -/
def dateFromIsoformat (s : String) : Option Date := do
  let (year, cs) ← readNumber 4 s.toList
  let separated := cs.head? = some '-'
  let cs := if separated then cs.tail else cs
  match cs with
  | 'W' :: cs => do
    let (week, cs) ← readNumber 2 cs
    if cs = [] then ofIsoWeek? year week 1
    else
      let cs ← if separated then readChar '-' cs else some cs
      let (day, cs) ← readNumber 1 cs
      if cs = [] then ofIsoWeek? year week day else none
  | _ => do
    let (month, cs) ← readNumber 2 cs
    let cs ← if separated then readChar '-' cs else some cs
    let (day, cs) ← readNumber 2 cs
    if cs = [] then Date.ofYmd? year month day else none

example : dateFromIsoformat "2026-W29-5" = Date.ofYmd? 2026 7 17 := by decide +kernel

/-- The value of a hexadecimal digit. -/
def hexDigit (c : Char) : Option ℕ :=
  if c.isDigit then some (c.toNat - 48)
  else if 'a' ≤ c ∧ c ≤ 'f' then some (c.toNat - 87)
  else if 'A' ≤ c ∧ c ≤ 'F' then some (c.toNat - 55)
  else none

/-- The number of hexadecimal digits, after a number already read. -/
def ofHexDigits : ℕ → List Char → Option ℕ
  | n, [] => some n
  | n, c :: cs => (hexDigit c).bind fun digit => ofHexDigits (n * 16 + digit) cs

/-- `UUID`: 32 hexadecimal digits, hyphens apart. -/
def uuidOfText (s : String) : Option UUID :=
  let digits := s.toList.filter (· ≠ '-')
  if digits.length = 32 then (ofHexDigits 0 digits).map (BitVec.ofNat 128) else none

/-! ## Numbers read back -/

/-- A number's digits with zeros in front. -/
lemma toList_zeroPadded (n width : ℕ) : (zeroPadded n width).toList =
    List.replicate (width - (Nat.toDigits 10 n).length) '0' ++ Nat.toDigits 10 n := by
  have hzeros : ∀ k, ("".pushn '0' k).toList = List.replicate k '0' := by
    intro k
    induction k with
    | zero => rfl
    | succ k ih =>
      have hpush : "".pushn '0' (k + 1) = ("".pushn '0' k).push '0' := rfl
      rw [hpush, String.toList_push, ih, List.replicate_succ']
  unfold zeroPadded
  rw [Nat.toString_eq_ofList_toDigits, String.toList_append, hzeros]
  simp

/-- A number that fits its width is written in exactly that many digits. -/
lemma length_zeroPadded {n width : ℕ} (h : n < 10 ^ width) (hpos : 0 < width) :
    (zeroPadded n width).toList.length = width := by
  have hlength := (Nat.length_toDigits_le_iff (by decide) hpos).mpr h
  rw [toList_zeroPadded, List.length_append, List.length_replicate]
  omega

/-- A number is written in digits. -/
lemma isDigit_of_mem_zeroPadded {n width : ℕ} {c : Char} (h : c ∈ (zeroPadded n width).toList) :
    c.isDigit := by
  rw [toList_zeroPadded, List.mem_append, List.mem_replicate] at h
  rcases h with ⟨-, rfl⟩ | h
  · rfl
  · exact Nat.isDigit_of_mem_toDigits (by decide) (by decide) h

/-- A number that fits its width reads back. -/
lemma readNumber_zeroPadded {n width : ℕ} (h : n < 10 ^ width) (hpos : 0 < width)
    (rest : List Char) :
    readNumber width ((zeroPadded n width).toList ++ rest) = some (n, rest) := by
  have hlength := length_zeroPadded h hpos
  have hvalue : Nat.ofDigitChars 10 (zeroPadded n width).toList 0 = n := by
    rw [toList_zeroPadded, Nat.ofDigitChars_append, Nat.ofDigitChars_replicate_zero,
      Nat.mul_zero, Nat.ofDigitChars_ten_toDigits]
  unfold readNumber
  rw [List.take_left' hlength, List.drop_left' hlength]
  simp only [hvalue]
  exact if_pos ⟨hlength, List.all_eq_true.mpr fun c hc => isDigit_of_mem_zeroPadded hc⟩

/-! ## Dates read back -/

/-- A given character is read. -/
@[simp] lemma readChar_cons (c : Char) (cs : List Char) : readChar c (c :: cs) = some cs :=
  if_pos rfl

/-- A written date is ten characters. -/
lemma toList_isoformat (d : Date) : (isoformat d).toList =
    (zeroPadded d.year 4).toList ++ '-' :: ((zeroPadded d.month 2).toList ++
      '-' :: (zeroPadded d.day 2).toList) := by
  have htext : isoformat d =
      zeroPadded d.year 4 ++ "-" ++ zeroPadded d.month 2 ++ "-" ++ zeroPadded d.day 2 := rfl
  rw [htext]
  simp

/-- A written date reads back, whatever follows. -/
lemma readDate_isoformat (d : Date) (rest : List Char) :
    readDate ((isoformat d).toList ++ rest) = some (d, rest) := by
  obtain ⟨hvalid, hordinal⟩ := Date.ymdToOrdinal_toYmd d
  obtain ⟨hmonth, hday⟩ := Date.month_day_lt d
  have hyear := d.year_le
  obtain ⟨d', hd', hordinal', -⟩ := Date.ofYmd?_eq_some hvalid hyear
  have hsame : d' = d := Date.ext' (hordinal'.trans hordinal)
  rw [toList_isoformat]
  simp only [List.append_assoc, List.cons_append]
  unfold readDate
  rw [readNumber_zeroPadded (by omega) (by decide)]
  simp only [Option.bind_eq_bind, Option.bind_some, readChar_cons]
  rw [readNumber_zeroPadded (by omega) (by decide)]
  simp only [Option.bind_some, readChar_cons]
  rw [readNumber_zeroPadded (by omega) (by decide)]
  simp only [Option.bind_some, hd', hsame]

/-- **Dates.** A written date reads back. -/
theorem fromIsoformat_isoformat (d : Date) : fromIsoformat (isoformat d) = some d := by
  have hread := readDate_isoformat d []
  rw [List.append_nil] at hread
  unfold fromIsoformat
  rw [hread]
  rfl

/-- **Dates.** A written date is one of the forms that are read.

**Proof sketch.** The four digits of the year, and the two of the month and the day, read back one
after another. The month begins with a digit, so the text is not taken for a week, and the hyphens
are where the reader expects them. -/
theorem dateFromIsoformat_isoformat (d : Date) : dateFromIsoformat (isoformat d) = some d := by
  obtain ⟨hvalid, hordinal⟩ := Date.ymdToOrdinal_toYmd d
  obtain ⟨hmonth, hday⟩ := Date.month_day_lt d
  have hyear := d.year_le
  obtain ⟨d', hd', hordinal', -⟩ := Date.ofYmd?_eq_some hvalid hyear
  have hsame : d' = d := Date.ext' (hordinal'.trans hordinal)
  -- The month starts with a digit, so the text is no week.
  obtain ⟨c, cs, hcs, hc⟩ : ∃ c cs, (zeroPadded d.month 2).toList = c :: cs ∧ c ≠ 'W' := by
    have hlength : (zeroPadded d.month 2).toList.length = 2 :=
      length_zeroPadded (by omega) (by decide)
    cases hcs : (zeroPadded d.month 2).toList with
    | nil => simp [hcs] at hlength
    | cons c cs =>
      have hmem : c ∈ (zeroPadded d.month 2).toList := hcs ▸ List.mem_cons_self
      have hdigit := isDigit_of_mem_zeroPadded hmem
      exact ⟨c, cs, rfl, by rintro rfl; exact absurd hdigit (by decide)⟩
  have hmonthDay : readNumber 2 ((zeroPadded d.month 2).toList ++ '-' ::
      (zeroPadded d.day 2).toList) = some (d.month, '-' :: (zeroPadded d.day 2).toList) :=
    readNumber_zeroPadded (by omega) (by decide) _
  have hdayEnd : readNumber 2 ((zeroPadded d.day 2).toList ++ []) = some (d.day, []) :=
    readNumber_zeroPadded (by omega) (by decide) []
  rw [List.append_nil] at hdayEnd
  rw [hcs, List.cons_append] at hmonthDay
  unfold dateFromIsoformat
  rw [toList_isoformat, readNumber_zeroPadded (by omega) (by decide), hcs]
  simp only [Option.bind_eq_bind, Option.bind_some, List.head?_cons, if_true,
    List.tail_cons, List.cons_append]
  split
  · rename_i heq
    exact absurd (List.cons.inj heq).1 hc
  · rw [hmonthDay]
    simp only [Option.bind_some, readChar_cons, hdayEnd, if_true, hd', hsame]

/-! ## Datetimes read back -/

/-- What ends the reading of a time: the text ends, or an offset follows. -/
def EndsTime (rest : List Char) : Prop := ∀ c ∈ rest.head?, c ≠ ':' ∧ c ≠ '.'

/-- A fraction that is not there is zero. -/
lemma readFraction_of_ends {rest : List Char} (h : EndsTime rest) :
    readFraction rest = some (0, rest) := by
  cases rest with
  | nil => rfl
  | cons c rest =>
    rw [readFraction]
    rintro _ ⟨⟩
    exact (h '.' rfl).2 rfl

/-- The fraction of a written time reads back. -/
lemma readFraction_written {t : ℕ} {rest : List Char} (hrest : EndsTime rest) :
    readFraction ((if t % 1000000 = 0 then "" else "." ++ zeroPadded (t % 1000000) 6).toList ++
      rest) = some (t % 1000000, rest) := by
  by_cases hzero : t % 1000000 = 0
  · rw [if_pos hzero, hzero]
    exact readFraction_of_ends hrest
  · have htext : ("." ++ zeroPadded (t % 1000000) 6).toList ++ rest =
        '.' :: ((zeroPadded (t % 1000000) 6).toList ++ rest) := by simp
    have hbound : t % 1000000 < 10 ^ 6 := Nat.mod_lt t (by decide)
    rw [if_neg hzero, htext, readFraction, readNumber_zeroPadded hbound (by decide)]

/-- A written time reads back.

**Proof sketch.** Hours, minutes and seconds are two digits each and in range, and the microseconds
are read back if there are any; their sum is the time. -/
lemma readTime_timeText {t : ℕ} (h : t < 86400000000) {rest : List Char} (hrest : EndsTime rest) :
    readTime ((timeText t).toList ++ rest) = some (t, rest) := by
  have htext : (timeText t).toList ++ rest =
      (zeroPadded (t / 1000000 / 3600) 2).toList ++ ':' ::
        ((zeroPadded (t / 1000000 / 60 % 60) 2).toList ++ ':' ::
          ((zeroPadded (t / 1000000 % 60) 2).toList ++
            ((if t % 1000000 = 0 then "" else "." ++ zeroPadded (t % 1000000) 6).toList ++
              rest))) := by
    simp [timeText]
  have hvalue : (t / 1000000 / 3600 * 60 + t / 1000000 / 60 % 60) * 60000000 +
      (t / 1000000 % 60 * 1000000 + t % 1000000) = t := by omega
  have hhour : t / 1000000 / 3600 < 24 := by omega
  have hminute : t / 1000000 / 60 % 60 < 60 := by omega
  have hsecond : t / 1000000 % 60 < 60 := by omega
  rw [htext]
  unfold readTime
  rw [readNumber_zeroPadded (by omega) (by decide)]
  simp only [Option.bind_eq_bind, Option.bind_some, readChar_cons]
  rw [readNumber_zeroPadded (by omega) (by decide)]
  simp only [Option.bind_some, readSeconds]
  rw [readNumber_zeroPadded (by omega) (by decide)]
  simp only [Option.bind_eq_bind, Option.bind_some, readFraction_written hrest, if_pos hsecond]
  rw [if_pos ⟨hhour, hminute⟩, hvalue]

/-- A time without seconds reads back. -/
lemma readTime_minutes {n : ℕ} (h : n < 1440) :
    readTime (zeroPadded (n / 60) 2 ++ ":" ++ zeroPadded (n % 60) 2).toList =
      some (n * 60000000, []) := by
  have htext : (zeroPadded (n / 60) 2 ++ ":" ++ zeroPadded (n % 60) 2).toList =
      (zeroPadded (n / 60) 2).toList ++ ':' :: ((zeroPadded (n % 60) 2).toList ++ []) := by
    simp
  have hhour : n / 60 < 24 := by omega
  have hminute : n % 60 < 60 := by omega
  have hvalue : (n / 60 * 60 + n % 60) * 60000000 + 0 = n * 60000000 := by omega
  rw [htext]
  unfold readTime
  rw [readNumber_zeroPadded (by omega) (by decide)]
  simp only [Option.bind_eq_bind, Option.bind_some, readChar_cons]
  rw [readNumber_zeroPadded (by omega) (by decide)]
  simp only [Option.bind_some, readSeconds, if_pos (And.intro hhour hminute), hvalue]

/-- A written offset reads back.

**Proof sketch.** The size reads back as a time, with or without its seconds (`readTime_minutes`,
`readTime_timeText`), and the sign is put back. -/
lemma readOffset_offsetText {offset : ℤ} (h : offset.natAbs < 86400000000) :
    readOffset (offsetText offset).toList = some (some offset) := by
  have hread : readTime (if offset.natAbs % 60000000 = 0 then
      zeroPadded (offset.natAbs / 3600000000) 2 ++ ":" ++
        zeroPadded (offset.natAbs / 60000000 % 60) 2
      else timeText offset.natAbs).toList = some (offset.natAbs, []) := by
    by_cases hwhole : offset.natAbs % 60000000 = 0
    · have hbound : offset.natAbs / 60000000 < 1440 := by omega
      have hminutes := readTime_minutes hbound
      have hhour : offset.natAbs / 60000000 / 60 = offset.natAbs / 3600000000 := by omega
      have hvalue : offset.natAbs / 60000000 * 60000000 = offset.natAbs := by omega
      rw [hhour, hvalue] at hminutes
      rw [if_pos hwhole, hminutes]
    · have hends : EndsTime [] := fun _ hc => (by cases hc)
      have htime := readTime_timeText h hends
      rw [List.append_nil] at htime
      rw [if_neg hwhole, htime]
  by_cases hneg : offset < 0
  · have htext : ∀ s : String, ("-" ++ s).toList = '-' :: s.toList := fun s => by simp
    have hsize : -(offset.natAbs : ℤ) = offset := by omega
    unfold offsetText
    simp only [if_pos hneg, htext, readOffset, hread, Option.bind_eq_bind, Option.bind_some]
    exact congrArg (fun n => some (some n)) hsize
  · have htext : ∀ s : String, ("+" ++ s).toList = '+' :: s.toList := fun s => by simp
    have hsize : (offset.natAbs : ℤ) = offset := by omega
    unfold offsetText
    simp only [if_neg hneg, htext, readOffset, hread, Option.bind_eq_bind, Option.bind_some]
    exact congrArg (fun n => some (some n)) hsize

/-- What an offset begins with ends a time. -/
lemma endsTime_offset (offset : Option ℤ) : EndsTime ((offset.map offsetText).getD "").toList := by
  cases offset with
  | none => exact fun _ h => (by cases h)
  | some offset =>
    intro c hc
    by_cases hneg : offset < 0
    · simp [offsetText, hneg] at hc
      subst hc
      decide
    · simp [offsetText, hneg] at hc
      subst hc
      decide

/-- A time of day is less than a day. -/
lemma DateTime.sinceMidnight_lt (t : DateTime) : t.sinceMidnight < 86400000000 := by
  have hlt := Int.emod_lt_of_pos t.wall (show 0 < dayLength by decide)
  unfold DateTime.sinceMidnight
  unfold dayLength at hlt ⊢
  omega

/-- **Datetimes.** A written datetime reads back.

**Proof sketch.** The text is a date, a `T`, a time and an offset. Each reader stops where the next
begins, and day and time of day give the wall clock back. -/
theorem DateTime.fromIsoformat_isoformat {t : DateTime} (h : t.Representable) :
    DateTime.fromIsoformat t.isoformat = some t := by
  obtain ⟨hdate, hoffset⟩ := h
  obtain ⟨date, hdate⟩ := Option.isSome_iff_exists.mp hdate
  have htext : t.isoformat.toList = (MintFlow.isoformat date).toList ++ 'T' ::
      ((timeText t.sinceMidnight).toList ++ ((t.utcoffset.map offsetText).getD "").toList) := by
    unfold DateTime.isoformat
    rw [hdate]
    simp
  have hordinal : (date.ordinal : ℤ) = t.wall / dayLength + 719163 := by
    unfold DateTime.date? Date.ofOrdinal? at hdate
    split at hdate
    · rename_i hvalid
      obtain rfl := Option.some.inj hdate
      simp only
      omega
    · cases hdate
  have hmidnight : (t.sinceMidnight : ℤ) = t.wall % dayLength := by
    unfold DateTime.sinceMidnight
    exact Int.toNat_of_nonneg (Int.emod_nonneg _ (by decide))
  have hday := t.sinceMidnight_lt
  have hread : readOffset ((t.utcoffset.map offsetText).getD "").toList = some t.utcoffset := by
    cases hcase : t.utcoffset with
    | none => rfl
    | some offset => exact readOffset_offsetText (hoffset offset hcase)
  have hwall : ((date.ordinal : ℤ) - 719163) * dayLength + t.sinceMidnight = t.wall := by
    rw [hordinal, hmidnight, Int.add_sub_cancel]
    exact Int.ediv_mul_add_emod t.wall dayLength
  unfold DateTime.fromIsoformat
  rw [htext, readDate_isoformat]
  simp only [Option.bind_eq_bind, Option.bind_some, readChar_cons,
    readTime_timeText hday (endsTime_offset _), hread, hwall]

/-- A number of so many digits. -/
lemma ofDigitChars_lt {cs : List Char} (h : cs.all Char.isDigit) (init : ℕ) :
    Nat.ofDigitChars 10 cs init < (init + 1) * 10 ^ cs.length := by
  induction cs generalizing init with
  | nil => simp
  | cons c cs ih =>
    rw [List.all_cons, Bool.and_eq_true] at h
    have hdigit : c.toNat - '0'.toNat < 10 := by
      have hc := h.1
      simp only [Char.isDigit, Bool.and_eq_true, decide_eq_true_eq] at hc
      have hhigh : c.toNat ≤ 57 := hc.2
      have hzero : '0'.toNat = 48 := rfl
      omega
    have hrest := ih h.2 (10 * init + (c.toNat - '0'.toNat))
    have hstep : 10 * init + (c.toNat - '0'.toNat) + 1 ≤ (init + 1) * 10 := by omega
    rw [Nat.ofDigitChars_cons, List.length_cons, Nat.pow_succ', ← Nat.mul_assoc]
    exact hrest.trans_le (Nat.mul_le_mul_right _ hstep)

/-- A number that was read has no more digits. -/
lemma readNumber_lt {width n : ℕ} {cs rest : List Char} (h : readNumber width cs = some (n, rest)) :
    n < 10 ^ width := by
  unfold readNumber at h
  simp only at h
  split_ifs at h with hdigits
  obtain ⟨hn, -⟩ := Prod.mk.inj (Option.some.inj h)
  have hlt := ofDigitChars_lt hdigits.2 0
  rw [hdigits.1, hn] at hlt
  omega

/-- A fraction is less than a second. -/
lemma readFraction_lt {n : ℕ} {cs rest : List Char} (h : readFraction cs = some (n, rest)) :
    n < 1000000 := by
  unfold readFraction at h
  split at h
  · exact readNumber_lt h
  · obtain ⟨rfl, -⟩ := Prod.mk.inj (Option.some.inj h)
    decide

/-- Seconds are less than a minute. -/
lemma readSeconds_lt {n : ℕ} {cs rest : List Char} (h : readSeconds cs = some (n, rest)) :
    n < 60000000 := by
  unfold readSeconds at h
  split at h
  · obtain ⟨⟨second, _⟩, -, h⟩ := Option.bind_eq_some_iff.mp h
    obtain ⟨⟨fraction, _⟩, hfraction, h⟩ := Option.bind_eq_some_iff.mp h
    have hlt := readFraction_lt hfraction
    simp only at h
    split_ifs at h with hsecond
    obtain ⟨rfl, -⟩ := Prod.mk.inj (Option.some.inj h)
    omega
  · obtain ⟨rfl, -⟩ := Prod.mk.inj (Option.some.inj h)
    decide

/-- A time of day that was read is less than a day. -/
lemma readTime_lt {n : ℕ} {cs rest : List Char} (h : readTime cs = some (n, rest)) :
    n < 86400000000 := by
  unfold readTime at h
  obtain ⟨⟨hour, _⟩, -, h⟩ := Option.bind_eq_some_iff.mp h
  obtain ⟨_, -, h⟩ := Option.bind_eq_some_iff.mp h
  obtain ⟨⟨minute, _⟩, -, h⟩ := Option.bind_eq_some_iff.mp h
  obtain ⟨⟨seconds, _⟩, hseconds, h⟩ := Option.bind_eq_some_iff.mp h
  have hlt := readSeconds_lt hseconds
  simp only at h
  split_ifs at h with hclock
  obtain ⟨rfl, -⟩ := Prod.mk.inj (Option.some.inj h)
  omega

/-- An offset that was read is less than a day. -/
lemma readOffset_lt {offset : ℤ} {cs : List Char} (h : readOffset cs = some (some offset)) :
    offset.natAbs < 86400000000 := by
  cases cs with
  | nil => cases h
  | cons sign cs =>
    obtain ⟨⟨size, _⟩, hsize, h⟩ := Option.bind_eq_some_iff.mp h
    have hlt := readTime_lt hsize
    simp only at h
    split_ifs at h
    · obtain rfl := Option.some.inj (Option.some.inj h)
      omega
    · obtain rfl := Option.some.inj (Option.some.inj h)
      omega

/-- A datetime that was read is one of Python.

**Proof sketch.** The day of the datetime is the date that was read, since its time is less than a
day, and an offset is read only when it is less than a day, too. -/
lemma DateTime.representable_of_fromIsoformat {t : DateTime} {s : String}
    (h : DateTime.fromIsoformat s = some t) : t.Representable := by
  unfold DateTime.fromIsoformat at h
  obtain ⟨⟨date, _⟩, -, h⟩ := Option.bind_eq_some_iff.mp h
  obtain ⟨_, -, h⟩ := Option.bind_eq_some_iff.mp h
  obtain ⟨⟨time, _⟩, htime, h⟩ := Option.bind_eq_some_iff.mp h
  obtain ⟨offset, hoffset, h⟩ := Option.bind_eq_some_iff.mp h
  have hlt := readTime_lt htime
  obtain rfl := Option.some.inj h
  refine ⟨?_, fun offset' hoffset' => ?_⟩
  · have hday : (((date.ordinal : ℤ) - 719163) * dayLength + time) / dayLength =
        date.ordinal - 719163 := by
      unfold dayLength
      omega
    have hvalid : 1 ≤ (date.ordinal : ℤ).toNat ∧ (date.ordinal : ℤ).toNat ≤ maxOrdinal := date.valid
    unfold DateTime.date? Date.ofOrdinal?
    rw [hday, Int.sub_add_cancel, dif_pos hvalid]
    rfl
  · obtain rfl : offset = some offset' := hoffset'
    exact readOffset_lt hoffset

/-! ## Identifiers read back -/

/-- A hexadecimal digit reads back. -/
lemma hexDigit_digitChar {n : ℕ} (h : n < 16) : hexDigit (Nat.digitChar n) = some n := by
  have hall : ∀ n < 16, hexDigit (Nat.digitChar n) = some n := by decide
  exact hall n h

/-- Digits are read one after the other. -/
lemma ofHexDigits_append (n : ℕ) (cs cs' : List Char) :
    ofHexDigits n (cs ++ cs') = (ofHexDigits n cs).bind fun m => ofHexDigits m cs' := by
  induction cs generalizing n with
  | nil => rfl
  | cons c cs ih =>
    rw [List.cons_append, ofHexDigits, ofHexDigits, Option.bind_assoc]
    exact congrArg _ (funext fun digit => ih _)

/-- The hexadecimal digits of a number read back. -/
lemma ofHexDigits_toDigits (n : ℕ) : ofHexDigits 0 (Nat.toDigits 16 n) = some n := by
  induction n using Nat.strong_induction_on with
  | _ n ih =>
    by_cases hsmall : n < 16
    · rw [Nat.toDigits_of_lt_base hsmall, ofHexDigits, hexDigit_digitChar hsmall]
      simp [ofHexDigits]
    · rw [Nat.toDigits_of_base_le (by decide) (by omega), ofHexDigits_append, ih _ (by omega)]
      have hlast : n % 16 < 16 := Nat.mod_lt n (by decide)
      simp only [Option.bind_some, ofHexDigits, hexDigit_digitChar hlast]
      exact congrArg some (by omega)

/-- Zeros in front do not count. -/
lemma ofHexDigits_zeros (k : ℕ) : ofHexDigits 0 (List.replicate k '0') = some 0 := by
  induction k with
  | zero => rfl
  | succ k ih =>
    rw [List.replicate_succ, ofHexDigits]
    exact ih

/-- An identifier has 32 hexadecimal digits. -/
lemma length_hexDigits (id : UUID) : (hexDigits id).length = 32 := by
  have hlength : (Nat.toDigits 16 id.toNat).length ≤ 32 :=
    (Nat.length_toDigits_le_iff (by decide) (by decide)).mpr (lt_of_lt_of_eq id.isLt (by decide))
  unfold hexDigits
  rw [List.length_append, List.length_replicate]
  omega

/-- The digits of a number are hexadecimal. -/
lemma isHex_of_mem_toDigits {c : Char} {n : ℕ} (h : c ∈ Nat.toDigits 16 n) :
    ∃ k < 16, c = Nat.digitChar k := by
  induction n using Nat.strong_induction_on with
  | _ n ih =>
    by_cases hsmall : n < 16
    · rw [Nat.toDigits_of_lt_base hsmall, List.mem_singleton] at h
      exact ⟨n, hsmall, h⟩
    · rw [Nat.toDigits_of_base_le (by decide) (by omega), List.mem_append,
        List.mem_singleton] at h
      rcases h with h | rfl
      · exact ih _ (by omega) h
      · exact ⟨n % 16, by omega, rfl⟩

/-- The digits of an identifier are hexadecimal. -/
lemma isHex_of_mem_hexDigits {c : Char} {id : UUID} (h : c ∈ hexDigits id) :
    ∃ k < 16, c = Nat.digitChar k := by
  rcases List.mem_append.mp h with h | h
  · exact ⟨0, by decide, (List.mem_replicate.mp h).2⟩
  · exact isHex_of_mem_toDigits h

/-- A written identifier has its digits in five groups. -/
lemma toList_uuidText (id : UUID) : (uuidText id).toList =
    (hexDigits id).take 8 ++ '-' :: (((hexDigits id).drop 8).take 4 ++ '-' ::
      (((hexDigits id).drop 12).take 4 ++ '-' :: (((hexDigits id).drop 16).take 4 ++ '-' ::
        ((hexDigits id).drop 20).take 12))) := by
  simp [uuidText]

/-- **Identifiers.** A written identifier reads back.

**Proof sketch.** Without its hyphens the text is the digits (`hdigits`), of which there are 32, and
the digits of a number read back as the number. -/
theorem uuidOfText_uuidText (id : UUID) : uuidOfText (uuidText id) = some id := by
  have hlength := length_hexDigits id
  have hhyphen : ∀ cs : List Char, (∀ c ∈ cs, c ∈ hexDigits id) → cs.filter (· ≠ '-') = cs := by
    intro cs hcs
    refine List.filter_eq_self.mpr fun c hc => ?_
    obtain ⟨k, hk, rfl⟩ := isHex_of_mem_hexDigits (hcs c hc)
    have hall : ∀ k < 16, decide (Nat.digitChar k ≠ '-') = true := by decide
    exact hall k hk
  have hgroups : hexDigits id = (hexDigits id).take 8 ++ (((hexDigits id).drop 8).take 4 ++
      (((hexDigits id).drop 12).take 4 ++ (((hexDigits id).drop 16).take 4 ++
        ((hexDigits id).drop 20).take 12))) := by
    have hlast : ((hexDigits id).drop 20).take 12 = (hexDigits id).drop 20 :=
      List.take_of_length_le (by rw [List.length_drop]; omega)
    have hgroup : ∀ n, (hexDigits id).drop n =
        ((hexDigits id).drop n).take 4 ++ (hexDigits id).drop (n + 4) := by
      intro n
      rw [← List.drop_drop, List.take_append_drop]
    rw [hlast, ← hgroup 16, ← hgroup 12, ← hgroup 8, List.take_append_drop]
  have hdigits : (uuidText id).toList.filter (· ≠ '-') = hexDigits id := by
    conv_rhs => rw [hgroups]
    rw [toList_uuidText]
    simp only [List.filter_append, List.filter_cons_of_neg, ne_eq, not_true_eq_false,
      decide_false, Bool.false_eq_true, not_false_eq_true]
    rw [hhyphen _ fun c hc => List.mem_of_mem_take hc,
      hhyphen _ fun c hc => List.mem_of_mem_drop (List.mem_of_mem_take hc),
      hhyphen _ fun c hc => List.mem_of_mem_drop (List.mem_of_mem_take hc),
      hhyphen _ fun c hc => List.mem_of_mem_drop (List.mem_of_mem_take hc),
      hhyphen _ fun c hc => List.mem_of_mem_drop (List.mem_of_mem_take hc)]
  have hvalue : ofHexDigits 0 (hexDigits id) = some id.toNat := by
    unfold hexDigits
    rw [ofHexDigits_append, ofHexDigits_zeros]
    exact ofHexDigits_toDigits _
  unfold uuidOfText
  rw [hdigits]
  simp [hlength, hvalue]

end MintFlow
