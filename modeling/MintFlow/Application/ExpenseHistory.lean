import MintFlow.Lib.Base64
import MintFlow.Lib.Json
import MintFlow.Isoformat
import MintFlow.Domain.Expense

set_option relaxedAutoImplicit false
set_option autoImplicit false

/-!
# The history of Expenses: filters, positions and cursors

The history shows the newest Expense first. A position is the sort key of the last Expense of a
page, and a cursor is a position as the text that a client sends back: unsigned base64url JSON.

## Main definitions

* `MintFlow.ExpenseHistoryPosition`, `MintFlow.ExpenseHistoryFilter`, `MintFlow.ExpenseHistoryPage`
  — where a page starts, what it shows, and the page.
* `MintFlow.encodeHistoryCursor`, `MintFlow.decodeHistoryCursor` — the codec of cursors.

## Main results

* `MintFlow.decodeHistoryCursor_encodeHistoryCursor` — a position comes back from its cursor.
* `MintFlow.decodeHistoryCursor_eq_ok_iff` — the cursors accepted are those that are issued.
-/

namespace MintFlow

open Transact

/-- `MAX_HISTORY_PAGE_SIZE`. -/
def maxHistoryPageSize : ℕ := 100

/-- `_MAX_CURSOR_LENGTH`. -/
def maxCursorLength : ℕ := 256

/-- `ExpenseHistoryPosition`: the sort key of an Expense, whose time is aware. -/
structure ExpenseHistoryPosition where
  transactionDate : Date
  createdAt : DateTime
  expenseId : UUID
  /-- `__post_init__`: created_at must be timezone-aware. -/
  aware : createdAt.utcoffset ≠ none
deriving DecidableEq

/-- `ExpenseHistoryPosition.after`. Times are read from the store in UTC. -/
def ExpenseHistoryPosition.after (e : Expense) : ExpenseHistoryPosition :=
  ⟨e.transactionDate.value, Instant.toDateTime e.createdAt, e.id, by simp [Instant.toDateTime]⟩

/-- `ExpenseHistoryFilter`: all of its parts must match, bounds are inclusive, and an empty set
means "any". -/
structure ExpenseHistoryFilter where
  dateFrom : Option Date
  dateTo : Option Date
  categoryKeys : List String
  currencies : List CurrencyCode
  /-- `__post_init__`: date_from must not be after date_to. -/
  ordered : ∀ start ∈ dateFrom, ∀ stop ∈ dateTo, start ≤ stop

/-- `ExpenseHistoryPage`. -/
structure ExpenseHistoryPage where
  items : List Expense
  nextPosition : Option ExpenseHistoryPosition

/-- The presented cursor is not one this service could have issued. -/
inductive InvalidExpenseHistoryCursor
  | invalid
deriving DecidableEq

/-! ## The codec -/

/-- The JSON object of a position. -/
def historyPayload (position : ExpenseHistoryPosition) : List (List Char × List Char) :=
  [(['c'], position.createdAt.isoformat.toList),
    (['d'], (isoformat position.transactionDate).toList),
    (['i'], (uuidText position.expenseId).toList)]

/-- `encode_history_cursor`. -/
def encodeHistoryCursor (position : ExpenseHistoryPosition) : String :=
  let payload := String.ofList (Json.writeObject (historyPayload position))
  String.ofList (Base64.unpad (Base64.encode payload.toByteArray.data.toList))

/-- `json.loads` of bytes. The other encodings that it detects are those of no payload written
here. -/
def jsonLoads (raw : List UInt8) : Option Json :=
  (String.fromUTF8? ⟨raw.toArray⟩).bind fun text => Json.parse text.toList

/-- The string an object has under a name. -/
def stringMember (members : List (List Char × Json)) (name : Char) : Option String :=
  match Json.member members [name] with
  | some (.string text) => some (String.ofList text)
  | _ => none

/-- The position a payload denotes: exactly the three members, all of them strings. -/
def positionOfPayload (payload : Json) : Option ExpenseHistoryPosition :=
  match payload with
  | .object members =>
    if ∀ m ∈ members, m.1 = ['d'] ∨ m.1 = ['c'] ∨ m.1 = ['i'] then do
      let d ← stringMember members 'd'
      let c ← stringMember members 'c'
      let i ← stringMember members 'i'
      let transactionDate ← fromIsoformat d
      let createdAt ← DateTime.fromIsoformat c
      let expenseId ← uuidOfText i
      if aware : createdAt.utcoffset ≠ none then some ⟨transactionDate, createdAt, expenseId, aware⟩
      else none
    else none
  | _ => none

/-- What a cursor denotes, in the form issued or another. -/
def positionOfCursor (cursor : String) : Option ExpenseHistoryPosition := do
  let raw ← Base64.decode (Base64.pad cursor.toList)
  let payload ← jsonLoads raw
  positionOfPayload payload

/-- `decode_history_cursor`: accept only the canonical form this service issues. -/
def decodeHistoryCursor (cursor : String) :
    Except InvalidExpenseHistoryCursor ExpenseHistoryPosition :=
  if cursor = "" ∨ maxCursorLength < cursor.length then .error .invalid
  else
    match positionOfCursor cursor with
    | some position =>
      if encodeHistoryCursor position ≠ cursor then .error .invalid else .ok position
    | none => .error .invalid

/-! ## The characters of a payload -/

/-- A character that JSON and UTF-8 write as itself, in one byte. -/
def IsPrintable (c : Char) : Prop := Json.Plain c ∧ c.val ≤ 127

/-- A digit is printable. -/
lemma isPrintable_of_isDigit {c : Char} (h : c.isDigit) : IsPrintable c := by
  simp only [Char.isDigit, Bool.and_eq_true, decide_eq_true_eq] at h
  have hlow : 48 ≤ c.toNat := h.1
  have hhigh : c.toNat ≤ 57 := h.2
  refine ⟨⟨?_, ?_, by omega⟩, ?_⟩
  · rintro rfl
    exact absurd hlow (by decide)
  · rintro rfl
    exact absurd hhigh (by decide)
  · exact UInt32.le_iff_toNat_le.mpr (hhigh.trans (by decide))

/-- A number is written in printable characters. -/
lemma isPrintable_zeroPadded {n width : ℕ} {c : Char} (h : c ∈ (zeroPadded n width).toList) :
    IsPrintable c :=
  isPrintable_of_isDigit (isDigit_of_mem_zeroPadded h)

/-- A date is written in printable characters. -/
lemma isPrintable_isoformat {d : Date} {c : Char} (h : c ∈ (isoformat d).toList) :
    IsPrintable c := by
  have hhyphen : IsPrintable '-' := by unfold IsPrintable Json.Plain; decide
  simp only [toList_isoformat, List.mem_append, List.mem_cons] at h
  rcases h with h | rfl | h | rfl | h
  · exact isPrintable_zeroPadded h
  · exact hhyphen
  · exact isPrintable_zeroPadded h
  · exact hhyphen
  · exact isPrintable_zeroPadded h

/-- A time is written in printable characters. -/
lemma isPrintable_timeText {t : ℕ} {c : Char} (h : c ∈ (timeText t).toList) : IsPrintable c := by
  have hcolon : IsPrintable ':' := by unfold IsPrintable Json.Plain; decide
  have hpoint : IsPrintable '.' := by unfold IsPrintable Json.Plain; decide
  unfold timeText at h
  split at h <;> simp at h
  · rcases h with h | rfl | h | rfl | h
    · exact isPrintable_zeroPadded h
    · exact hcolon
    · exact isPrintable_zeroPadded h
    · exact hcolon
    · exact isPrintable_zeroPadded h
  · rcases h with h | rfl | h | rfl | h | rfl | h
    · exact isPrintable_zeroPadded h
    · exact hcolon
    · exact isPrintable_zeroPadded h
    · exact hcolon
    · exact isPrintable_zeroPadded h
    · exact hpoint
    · exact isPrintable_zeroPadded h

/-- An offset is written in printable characters. -/
lemma isPrintable_offsetText {offset : ℤ} {c : Char} (h : c ∈ (offsetText offset).toList) :
    IsPrintable c := by
  have hsign : ∀ c ∈ ['-', '+', ':'], IsPrintable c := by
    simp only [List.forall_mem_cons]
    unfold IsPrintable Json.Plain
    exact ⟨by decide, by decide, by decide, List.forall_mem_nil _⟩
  simp only [offsetText, String.toList_append, List.mem_append] at h
  rcases h with h | h
  · split at h
    · exact hsign c (by simp at h; simp [h])
    · exact hsign c (by simp at h; simp [h])
  · split at h
    · simp at h
      rcases h with h | rfl | h
      · exact isPrintable_zeroPadded h
      · exact hsign ':' (by simp)
      · exact isPrintable_zeroPadded h
    · exact isPrintable_timeText h

/-- A datetime is written in printable characters. -/
lemma isPrintable_datetime {t : DateTime} {c : Char} (h : c ∈ t.isoformat.toList) :
    IsPrintable c := by
  have hseparator : IsPrintable 'T' := by unfold IsPrintable Json.Plain; decide
  simp only [DateTime.isoformat, String.toList_append, List.mem_append] at h
  rcases h with ((h | h) | h) | h
  · exact isPrintable_isoformat h
  · obtain rfl : c = 'T' := by simpa using h
    exact hseparator
  · exact isPrintable_timeText h
  · cases hoffset : t.utcoffset with
    | none => simp [hoffset] at h
    | some offset =>
      rw [hoffset] at h
      exact isPrintable_offsetText h

/-- An identifier is written in printable characters.

**Proof sketch.** The text is five groups of hexadecimal digits with hyphens in between. -/
lemma isPrintable_uuidText {id : UUID} {c : Char} (h : c ∈ (uuidText id).toList) :
    IsPrintable c := by
  have hhyphen : IsPrintable '-' := by unfold IsPrintable Json.Plain; decide
  have hdigit : ∀ {cs : List Char}, (∀ c ∈ cs, c ∈ hexDigits id) → c ∈ cs → IsPrintable c := by
    intro cs hcs hc
    obtain ⟨k, hk, rfl⟩ := isHex_of_mem_hexDigits (hcs c hc)
    have hall : ∀ k < 16, IsPrintable (Nat.digitChar k) := by
      unfold IsPrintable Json.Plain
      decide
    exact hall k hk
  simp only [toList_uuidText, List.mem_append, List.mem_cons] at h
  rcases h with h | rfl | h | rfl | h | rfl | h | rfl | h
  · exact hdigit (fun c hc => List.mem_of_mem_take hc) h
  · exact hhyphen
  · exact hdigit (fun c hc => List.mem_of_mem_drop (List.mem_of_mem_take hc)) h
  · exact hhyphen
  · exact hdigit (fun c hc => List.mem_of_mem_drop (List.mem_of_mem_take hc)) h
  · exact hhyphen
  · exact hdigit (fun c hc => List.mem_of_mem_drop (List.mem_of_mem_take hc)) h
  · exact hhyphen
  · exact hdigit (fun c hc => List.mem_of_mem_drop (List.mem_of_mem_take hc)) h

/-- A payload is written in printable characters. -/
lemma isPrintable_payload (position : ExpenseHistoryPosition) :
    ∀ m ∈ historyPayload position, (∀ c ∈ m.1, IsPrintable c) ∧ ∀ c ∈ m.2, IsPrintable c := by
  have hname : ∀ c ∈ ['c', 'd', 'i'], IsPrintable c := by
    simp only [List.forall_mem_cons]
    unfold IsPrintable Json.Plain
    exact ⟨by decide, by decide, by decide, List.forall_mem_nil _⟩
  simp only [historyPayload, List.forall_mem_cons]
  refine ⟨⟨?_, fun c hc => isPrintable_datetime hc⟩, ⟨?_, fun c hc => isPrintable_isoformat hc⟩,
    ⟨?_, fun c hc => isPrintable_uuidText hc⟩, by simp⟩
  · exact ⟨hname 'c' (by decide), by simp⟩
  · exact ⟨hname 'd' (by decide), by simp⟩
  · exact ⟨hname 'i' (by decide), by simp⟩

/-! ## The length of a cursor -/

/-- A date is written in ten characters. -/
lemma length_isoformat (d : Date) : (isoformat d).toList.length = 10 := by
  obtain ⟨hmonth, hday⟩ := Date.month_day_lt d
  have hyear := d.year_le
  rw [toList_isoformat]
  simp only [List.length_append, List.length_cons]
  rw [length_zeroPadded (by omega) (by decide), length_zeroPadded (by omega) (by decide),
    length_zeroPadded (by omega) (by decide)]

/-- A time is written in at most fifteen characters. -/
lemma length_timeText {t : ℕ} (h : t < 86400000000) : (timeText t).toList.length ≤ 15 := by
  have hhour := length_zeroPadded (show t / 1000000 / 3600 < 10 ^ 2 by omega) (by decide)
  have hminute := length_zeroPadded (show t / 1000000 / 60 % 60 < 10 ^ 2 by omega) (by decide)
  have hsecond := length_zeroPadded (show t / 1000000 % 60 < 10 ^ 2 by omega) (by decide)
  have hfraction := length_zeroPadded (show t % 1000000 < 10 ^ 6 by omega) (by decide)
  unfold timeText
  split
  · simp only [String.toList_append, List.length_append, hhour, hminute, hsecond]
    decide
  · simp only [String.toList_append, List.length_append, hhour, hminute, hsecond, hfraction]
    decide

/-- An offset is written in at most sixteen characters. -/
lemma length_offsetText {offset : ℤ} (h : offset.natAbs < 86400000000) :
    (offsetText offset).toList.length ≤ 16 := by
  have hsign : (if offset < 0 then "-" else "+").toList.length = 1 := by
    split <;> rfl
  have htime := length_timeText h
  have hhour := length_zeroPadded (show offset.natAbs / 3600000000 < 10 ^ 2 by omega) (by decide)
  have hminute :=
    length_zeroPadded (show offset.natAbs / 60000000 % 60 < 10 ^ 2 by omega) (by decide)
  unfold offsetText
  simp only [String.toList_append, List.length_append, hsign]
  split
  · simp only [String.toList_append, List.length_append, hhour, hminute]
    decide
  · omega

/-- A datetime is written in at most forty-two characters. -/
lemma length_datetime {t : DateTime} (h : t.Representable) : t.isoformat.toList.length ≤ 42 := by
  have hdate := length_isoformat (t.date?.getD default)
  have htime := length_timeText t.sinceMidnight_lt
  have hoffset : ((t.utcoffset.map offsetText).getD "").toList.length ≤ 16 := by
    cases hcase : t.utcoffset with
    | none => simp
    | some offset => exact length_offsetText (h.2 offset hcase)
  have hseparator : "T".toList.length = 1 := rfl
  simp only [DateTime.isoformat, String.toList_append, List.length_append]
  omega

/-- An identifier is written in thirty-six characters. -/
lemma length_uuidText (id : UUID) : (uuidText id).toList.length = 36 := by
  rw [toList_uuidText]
  simp [length_hexDigits]

/-- Characters of one byte each are as many bytes. -/
lemma size_utf8Encode {cs : List Char} (h : ∀ c ∈ cs, c.val ≤ 127) :
    cs.utf8Encode.size = cs.length := by
  induction cs with
  | nil => rfl
  | cons c cs ih =>
    have hc := Char.utf8Size_eq_one_iff.mpr (h c List.mem_cons_self)
    have hcs := ih fun c hc => h c (List.mem_cons_of_mem _ hc)
    rw [List.utf8Encode_cons, ByteArray.size_append, hcs, List.utf8Encode_singleton]
    simp [hc, Nat.add_comm]

/-- The bytes of an array as a list. -/
lemma length_bytes (b : ByteArray) : b.data.toList.length = b.size := Array.length_toList

/-- A list of bytes as an array. -/
lemma toArray_bytes (b : ByteArray) : (⟨b.data.toList.toArray⟩ : ByteArray) = b := by
  rw [Array.toArray_toList]

/-- The bytes of a payload. -/
def payloadBytes (position : ExpenseHistoryPosition) : List UInt8 :=
  (String.ofList (Json.writeObject (historyPayload position))).toByteArray.data.toList

/-- A payload is at most 110 bytes long. -/
lemma length_payloadBytes {position : ExpenseHistoryPosition} (h : position.createdAt.Representable) :
    (payloadBytes position).length ≤ 110 := by
  have hcreated := length_datetime h
  have hdate := length_isoformat position.transactionDate
  have hid := length_uuidText position.expenseId
  have hlength : (Json.writeObject (historyPayload position)).length ≤ 110 := by
    simp only [historyPayload, Json.writeObject, Json.writeMembers, Json.quote, List.length_append,
      List.length_cons, List.length_nil]
    omega
  have hmarks : ∀ c ∈ ['{', '}', '"', ':', ','], c.val ≤ 127 := by
    simp only [List.forall_mem_cons]
    exact ⟨by decide, by decide, by decide, by decide, by decide, List.forall_mem_nil _⟩
  have hascii : ∀ c ∈ Json.writeObject (historyPayload position), c.val ≤ 127 :=
    Json.forall_mem_writeObject hmarks fun m hm =>
      ⟨fun c hc => ((isPrintable_payload position m hm).1 c hc).2,
        fun c hc => ((isPrintable_payload position m hm).2 c hc).2⟩
  unfold payloadBytes
  rw [String.toByteArray_ofList, length_bytes, size_utf8Encode hascii]
  exact hlength

/-! ## The round trip -/

/-- The payload that was written is read. -/
lemma jsonLoads_payloadBytes (position : ExpenseHistoryPosition) :
    jsonLoads (payloadBytes position) =
      some (.object ((historyPayload position).map fun m => (m.1, .string m.2))) := by
  have hplain : ∀ m ∈ historyPayload position,
      (∀ c ∈ m.1, Json.Plain c) ∧ ∀ c ∈ m.2, Json.Plain c := fun m hm =>
    ⟨fun c hc => ((isPrintable_payload position m hm).1 c hc).1,
      fun c hc => ((isPrintable_payload position m hm).2 c hc).1⟩
  have hne : historyPayload position ≠ [] := List.cons_ne_nil _ _
  have hparse := Json.parse_writeObject hne hplain
  have htext : ∀ s : String, String.fromUTF8? s.toByteArray = some s :=
    fun s => dif_pos s.isValidUTF8
  unfold jsonLoads payloadBytes
  rw [toArray_bytes, htext, Option.bind_some, String.toList_ofList, hparse]

/-- The position of a payload that was written.

**Proof sketch.** Each member is found under its name (`hmember`), and date, time and identifier
read back. -/
lemma positionOfPayload_historyPayload {position : ExpenseHistoryPosition}
    (h : position.createdAt.Representable) :
    positionOfPayload (.object ((historyPayload position).map fun m => (m.1, .string m.2))) =
      some position := by
  have hmember : ∀ name text, (name, text) ∈ [('c', position.createdAt.isoformat),
      ('d', isoformat position.transactionDate), ('i', uuidText position.expenseId)] →
      stringMember ((historyPayload position).map fun m => (m.1, .string m.2)) name =
        some text := by
    intro name text hmem
    simp only [List.mem_cons, Prod.mk.injEq, List.not_mem_nil, or_false] at hmem
    rcases hmem with ⟨rfl, rfl⟩ | ⟨rfl, rfl⟩ | ⟨rfl, rfl⟩ <;>
      simp [stringMember, Json.member, historyPayload]
  have hnames : ∀ m ∈ (historyPayload position).map fun m => (m.1, Json.string m.2),
      m.1 = ['d'] ∨ m.1 = ['c'] ∨ m.1 = ['i'] := by
    simp [historyPayload]
  unfold positionOfPayload
  simp only
  rw [if_pos hnames, hmember 'd' (isoformat position.transactionDate) (by simp),
    hmember 'c' position.createdAt.isoformat (by simp),
    hmember 'i' (uuidText position.expenseId) (by simp)]
  simp only [Option.bind_eq_bind, Option.bind_some, fromIsoformat_isoformat,
    DateTime.fromIsoformat_isoformat h, uuidOfText_uuidText]
  exact dif_pos position.aware

/-- The position that a cursor was issued for. -/
lemma positionOfCursor_encodeHistoryCursor {position : ExpenseHistoryPosition}
    (h : position.createdAt.Representable) :
    positionOfCursor (encodeHistoryCursor position) = some position := by
  have hcursor : encodeHistoryCursor position =
      String.ofList (Base64.unpad (Base64.encode (payloadBytes position))) := rfl
  unfold positionOfCursor
  rw [hcursor, String.toList_ofList, Base64.decode_pad_unpad]
  simp only [Option.bind_eq_bind, Option.bind_some, jsonLoads_payloadBytes,
    positionOfPayload_historyPayload h]

/-- A cursor is not longer than is accepted. -/
lemma length_encodeHistoryCursor {position : ExpenseHistoryPosition}
    (h : position.createdAt.Representable) :
    (encodeHistoryCursor position).length ≤ maxCursorLength := by
  have hcursor : encodeHistoryCursor position =
      String.ofList (Base64.unpad (Base64.encode (payloadBytes position))) := rfl
  have hbytes := length_payloadBytes h
  have hunpad := Base64.length_unpad_le (Base64.encode (payloadBytes position))
  rw [Base64.length_encode] at hunpad
  rw [hcursor, String.length_ofList]
  unfold maxCursorLength
  omega

/-- A cursor is not empty. -/
lemma encodeHistoryCursor_ne_empty {position : ExpenseHistoryPosition}
    (h : position.createdAt.Representable) : encodeHistoryCursor position ≠ "" := by
  intro hempty
  have hread := positionOfCursor_encodeHistoryCursor h
  rw [hempty] at hread
  cases hread

/-- **The cursor codec.** A position whose time Python has comes back from its cursor.

**Proof sketch.** Base64 and the JSON reader give back the three texts, and each text gives back its
value. The cursor is neither empty nor too long, and it is the one issued for what was read. -/
theorem decodeHistoryCursor_encodeHistoryCursor {position : ExpenseHistoryPosition}
    (h : position.createdAt.Representable) :
    decodeHistoryCursor (encodeHistoryCursor position) = .ok position := by
  have hfits : ¬ (encodeHistoryCursor position = "" ∨
      maxCursorLength < (encodeHistoryCursor position).length) := by
    rintro (hempty | hlong)
    · exact encodeHistoryCursor_ne_empty h hempty
    · exact absurd (length_encodeHistoryCursor h) (Nat.not_le.mpr hlong)
  unfold decodeHistoryCursor
  rw [if_neg hfits, positionOfCursor_encodeHistoryCursor h]
  simp

/-- A time that a cursor denotes is one of Python. -/
lemma representable_of_positionOfCursor {cursor : String} {position : ExpenseHistoryPosition}
    (h : positionOfCursor cursor = some position) : position.createdAt.Representable := by
  unfold positionOfCursor at h
  obtain ⟨raw, -, h⟩ := Option.bind_eq_some_iff.mp h
  obtain ⟨payload, -, h⟩ := Option.bind_eq_some_iff.mp h
  cases payload with
  | object members =>
    simp only [positionOfPayload] at h
    split_ifs at h
    obtain ⟨d, -, h⟩ := Option.bind_eq_some_iff.mp h
    obtain ⟨c, -, h⟩ := Option.bind_eq_some_iff.mp h
    obtain ⟨i, -, h⟩ := Option.bind_eq_some_iff.mp h
    obtain ⟨transactionDate, -, h⟩ := Option.bind_eq_some_iff.mp h
    obtain ⟨createdAt, hcreated, h⟩ := Option.bind_eq_some_iff.mp h
    obtain ⟨expenseId, -, h⟩ := Option.bind_eq_some_iff.mp h
    split_ifs at h
    obtain rfl := Option.some.inj h
    exact DateTime.representable_of_fromIsoformat hcreated
  | _ => cases h

/-- The cursors that are accepted are those that are issued. -/
theorem decodeHistoryCursor_eq_ok_iff {cursor : String} {position : ExpenseHistoryPosition} :
    decodeHistoryCursor cursor = .ok position ↔
      position.createdAt.Representable ∧ encodeHistoryCursor position = cursor := by
  constructor
  · intro h
    unfold decodeHistoryCursor at h
    split_ifs at h
    cases hread : positionOfCursor cursor with
    | none =>
      rw [hread] at h
      cases h
    | some read =>
      rw [hread] at h
      dsimp only at h
      split_ifs at h with hcanonical
      obtain rfl := Except.ok.inj h
      exact ⟨representable_of_positionOfCursor hread, not_not.mp hcanonical⟩
  · rintro ⟨h, rfl⟩
    exact decodeHistoryCursor_encodeHistoryCursor h

end MintFlow
