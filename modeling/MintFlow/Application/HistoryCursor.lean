import MintFlow.Application.ExpenseHistory
import MintFlow.Receipts.Azure

set_option relaxedAutoImplicit false
set_option autoImplicit false

/-!
# Which texts are cursors

A cursor passes through routines of the standard library, and each of them reads more spellings than
it writes. Whatever they read, the codec accepts a text only if it is the one it issues for what was
read, and it raises nothing but its own exception otherwise. The routines are any that behave as they
are documented.

## Main definitions

* `MintFlow.PythonException` — what the routines and the codec raise.
* `MintFlow.CursorRoutines`, `MintFlow.DocumentedRoutines` — the routines, and what is known of them.
* `MintFlow.decodeCursor` — `decode_history_cursor`, with every exception.

## Main results

* `MintFlow.decodeCursor_eq_ok_iff` — the texts that are accepted are the cursors that are issued.
* `MintFlow.history_cursor_codec` — **The cursor codec**, in both directions.
-/

namespace MintFlow

open Transact

/-! ## The routines -/

/-- What is raised on the way. -/
inductive PythonException
  | binasciiError
  | unicodeDecodeError
  | jsonDecodeError
  | valueError
  | invalidExpenseHistoryCursor
  /-- Any exception that is no `ValueError`, by its class. -/
  | other (name : String)
deriving DecidableEq

/-- `isinstance(error, (binascii.Error, UnicodeDecodeError, ValueError))`: the named classes are all
subclasses of `ValueError`. -/
def PythonException.isValueError : PythonException → Bool
  | other _ => false
  | _ => true

/-- The routines that a cursor passes through, for texts of any code points. -/
class CursorRoutines where
  /-- `base64.b64decode(text, altchars=b"-_", validate=True)`. -/
  b64decode : RawText → Except PythonException (List UInt8)
  /-- `json.loads`. -/
  jsonLoads : List UInt8 → Except PythonException JsonValue
  /-- `date.fromisoformat`. -/
  dateFromIsoformat : RawText → Except PythonException Date
  /-- `datetime.fromisoformat`. -/
  datetimeFromIsoformat : RawText → Except PythonException DateTime
  /-- `UUID(text)`. -/
  uuid : RawText → Except PythonException UUID

/-- An object of strings, as `json.dumps` takes and `json.loads` gives it. -/
def dictOf (members : List (List Char × List Char)) : JsonValue :=
  .dict (members.map fun m => (m.1.map .inl, .str (m.2.map .inl)))

/-- The bytes that `json.dumps` and `str.encode` make of an object of strings. -/
def dumpedBytes (members : List (List Char × List Char)) : List UInt8 :=
  (String.ofList (Json.writeObject members)).toByteArray.data.toList

/-- What is documented of the routines: they read back what their counterparts write, and they
raise nothing but kinds of `ValueError`. -/
class DocumentedRoutines extends CursorRoutines where
  b64decode_encode : ∀ bytes, b64decode ((Base64.encode bytes).map .inl) = .ok bytes
  b64decode_raises : ∀ text e, b64decode text = .error e → e.isValueError
  /-- Decoding makes no text longer. -/
  b64decode_length : ∀ text bytes, b64decode text = .ok bytes → bytes.length ≤ text.length
  jsonLoads_dumps : ∀ members, members ≠ [] → (members.map Prod.fst).Nodup →
    (∀ m ∈ members, (∀ c ∈ m.1, IsPrintable c) ∧ ∀ c ∈ m.2, IsPrintable c) →
    jsonLoads (dumpedBytes members) = .ok (dictOf members)
  /-- A short document is not nested as deeply as the limit of the interpreter. -/
  jsonLoads_raises : ∀ bytes e, bytes.length ≤ 300 → jsonLoads bytes = .error e → e.isValueError
  dateFromIsoformat_isoformat : ∀ d,
    dateFromIsoformat (RawText.ofString (isoformat d)) = .ok d
  dateFromIsoformat_raises : ∀ text e, dateFromIsoformat text = .error e → e.isValueError
  datetimeFromIsoformat_isoformat : ∀ t : DateTime, t.Representable →
    datetimeFromIsoformat (RawText.ofString t.isoformat) = .ok t
  datetimeFromIsoformat_raises : ∀ text e,
    datetimeFromIsoformat text = .error e → e.isValueError
  /-- A datetime that exists is one of Python. -/
  datetimeFromIsoformat_range : ∀ text t, datetimeFromIsoformat text = .ok t → t.Representable
  uuid_text : ∀ id, uuid (RawText.ofString (uuidText id)) = .ok id
  uuid_raises : ∀ text e, uuid text = .error e → e.isValueError

/-! ## The codec -/

/-- `encode_history_cursor`, as a text. -/
def encodeCursor (position : ExpenseHistoryPosition) : RawText :=
  RawText.ofString (encodeHistoryCursor position)

/-- `_CURSOR_KEYS`. -/
def cursorKeys : List RawText := [[.inl 'd'], [.inl 'c'], [.inl 'i']]

/-- `cursor + "=" * (-len(cursor) % 4)`. -/
def padCursor (cursor : RawText) : RawText :=
  cursor ++ List.replicate ((4 - cursor.length % 4) % 4) (.inl '=')

section Codec

variable [CursorRoutines]

/-- The position of three strings. -/
def positionOfTexts (d c i : RawText) : Except PythonException ExpenseHistoryPosition := do
  let transactionDate ← CursorRoutines.dateFromIsoformat d
  let createdAt ← CursorRoutines.datetimeFromIsoformat c
  let expenseId ← CursorRoutines.uuid i
  -- `__post_init__`
  if aware : createdAt.utcoffset ≠ none then .ok ⟨transactionDate, createdAt, expenseId, aware⟩
  else .error .valueError

/-- The position of the three values of a payload. -/
def readPosition : JsonValue → JsonValue → JsonValue →
    Except PythonException ExpenseHistoryPosition
  | .str d, .str c, .str i => positionOfTexts d c i
  | _, _, _ => .error .invalidExpenseHistoryCursor

/-- The position of a payload: an object with the three keys and no others. -/
def readPayload : JsonValue → Except PythonException ExpenseHistoryPosition
  | .dict members =>
    if members.all (fun m => cursorKeys.any fun key => decide (m.1 = key)) ∧
        cursorKeys.all (fun key => (members.lookup key).isSome) then
      readPosition (JsonValue.get members "d") (JsonValue.get members "c")
        (JsonValue.get members "i")
    else .error .invalidExpenseHistoryCursor
  | _ => .error .invalidExpenseHistoryCursor

/-- The `try` block of `decode_history_cursor`. -/
def readCursor (cursor : RawText) : Except PythonException ExpenseHistoryPosition := do
  let raw ← CursorRoutines.b64decode (padCursor cursor)
  let payload ← CursorRoutines.jsonLoads raw
  readPayload payload

/-- `decode_history_cursor`: accept only the canonical form this service issues. -/
def decodeCursor (cursor : RawText) : Except PythonException ExpenseHistoryPosition :=
  if cursor = [] ∨ maxCursorLength < cursor.length then .error .invalidExpenseHistoryCursor
  else
    match readCursor cursor with
    | .error e => .error (if e.isValueError then .invalidExpenseHistoryCursor else e)
    | .ok position =>
      if encodeCursor position ≠ cursor then .error .invalidExpenseHistoryCursor
      else .ok position

end Codec

/-! ## What the codec accepts -/

section Documented

variable [DocumentedRoutines] {position : ExpenseHistoryPosition} {cursor : RawText}

omit [DocumentedRoutines] in
/-- A cursor is the encoded payload without filler. -/
lemma encodeCursor_eq (position : ExpenseHistoryPosition) :
    encodeCursor position =
      (Base64.unpad (Base64.encode (dumpedBytes (historyPayload position)))).map .inl := by
  unfold encodeCursor RawText.ofString encodeHistoryCursor
  rw [String.toList_ofList]
  rfl

omit [DocumentedRoutines] in
/-- The filler completes what was issued. -/
lemma padCursor_encodeCursor (position : ExpenseHistoryPosition) :
    padCursor (encodeCursor position) =
      (Base64.encode (dumpedBytes (historyPayload position))).map .inl := by
  rw [encodeCursor_eq, padCursor, List.length_map]
  conv_rhs => rw [← Base64.pad_unpad, Base64.pad, List.map_append, List.map_replicate]

omit [DocumentedRoutines] in
/-- An object with the three keys has the position of its values. -/
lemma readPayload_dict [CursorRoutines] (c d i : JsonValue) :
    readPayload (.dict [([.inl 'c'], c), ([.inl 'd'], d), ([.inl 'i'], i)]) =
      readPosition d c i := by
  unfold readPayload
  exact if_pos ⟨rfl, rfl⟩

omit [DocumentedRoutines] in
/-- Three strings are read as texts. -/
lemma readPosition_str [CursorRoutines] (d c i : RawText) :
    readPosition (.str d) (.str c) (.str i) = positionOfTexts d c i := rfl

omit [DocumentedRoutines] in
/-- An object of three strings. -/
lemma dictOf_three (a b c : Char) (x y z : List Char) :
    dictOf [([a], x), ([b], y), ([c], z)] =
      .dict [([.inl a], .str (x.map .inl)), ([.inl b], .str (y.map .inl)),
        ([.inl c], .str (z.map .inl))] := rfl

/-- The texts that were written are read. -/
lemma positionOfTexts_isoformat (h : position.createdAt.Representable) :
    positionOfTexts (RawText.ofString (isoformat position.transactionDate))
      (RawText.ofString position.createdAt.isoformat)
      (RawText.ofString (uuidText position.expenseId)) = .ok position := by
  unfold positionOfTexts
  rw [DocumentedRoutines.dateFromIsoformat_isoformat,
    DocumentedRoutines.datetimeFromIsoformat_isoformat _ h, DocumentedRoutines.uuid_text]
  exact dif_pos position.aware

/-- The position that was written is read. -/
lemma readCursor_encodeCursor (h : position.createdAt.Representable) :
    readCursor (encodeCursor position) = .ok position := by
  have hkeys : ((historyPayload position).map Prod.fst).Nodup := by
    unfold historyPayload
    simp only [List.map_cons, List.map_nil]
    decide
  have hload := DocumentedRoutines.jsonLoads_dumps (historyPayload position) (List.cons_ne_nil _ _)
    hkeys (isPrintable_payload position)
  unfold readCursor
  rw [padCursor_encodeCursor, DocumentedRoutines.b64decode_encode]
  simp only [Checked.bind_ok]
  rw [hload]
  have htexts := positionOfTexts_isoformat h
  unfold RawText.ofString at htexts
  simp only [Checked.bind_ok]
  unfold historyPayload
  rw [dictOf_three, readPayload_dict, readPosition_str, htexts]

/-- A time that was read from texts is one of Python. -/
lemma representable_of_positionOfTexts {d c i : RawText}
    (h : positionOfTexts d c i = .ok position) : position.createdAt.Representable := by
  unfold positionOfTexts at h
  obtain ⟨_, -, h⟩ := Checked.bind_eq_ok.mp h
  obtain ⟨createdAt, hcreated, h⟩ := Checked.bind_eq_ok.mp h
  obtain ⟨_, -, h⟩ := Checked.bind_eq_ok.mp h
  split_ifs at h
  obtain rfl := Except.ok.inj h
  exact DocumentedRoutines.datetimeFromIsoformat_range _ _ hcreated

/-- A time that was read is one of Python. -/
lemma representable_of_readCursor (h : readCursor cursor = .ok position) :
    position.createdAt.Representable := by
  unfold readCursor at h
  obtain ⟨raw, -, h⟩ := Checked.bind_eq_ok.mp h
  obtain ⟨payload, -, h⟩ := Checked.bind_eq_ok.mp h
  cases payload with
  | dict members =>
    simp only [readPayload] at h
    split_ifs at h with hkeys
    generalize JsonValue.get members "d" = d at h
    generalize JsonValue.get members "c" = c at h
    generalize JsonValue.get members "i" = i at h
    cases d <;> cases c <;> cases i <;> first | exact representable_of_positionOfTexts h | cases h
  | _ => cases h

/-- Texts that are no position raise kinds of `ValueError`. -/
lemma isValueError_of_positionOfTexts {d c i : RawText} {e : PythonException}
    (h : positionOfTexts d c i = .error e) : e.isValueError := by
  unfold positionOfTexts at h
  rcases Checked.bind_eq_error.mp h with h | ⟨_, -, h⟩
  · exact DocumentedRoutines.dateFromIsoformat_raises _ _ h
  rcases Checked.bind_eq_error.mp h with h | ⟨_, -, h⟩
  · exact DocumentedRoutines.datetimeFromIsoformat_raises _ _ h
  rcases Checked.bind_eq_error.mp h with h | ⟨_, -, h⟩
  · exact DocumentedRoutines.uuid_raises _ _ h
  split_ifs at h
  obtain rfl := Except.error.inj h
  rfl

/-- A payload that is no position raises kinds of `ValueError`. -/
lemma isValueError_of_readPayload {payload : JsonValue} {e : PythonException}
    (h : readPayload payload = .error e) : e.isValueError := by
  have hrefused : ∀ {e : PythonException},
      (.error .invalidExpenseHistoryCursor : Except PythonException ExpenseHistoryPosition) =
        .error e → e.isValueError := by
    intro e h
    obtain rfl := Except.error.inj h
    rfl
  cases payload with
  | dict members =>
    simp only [readPayload] at h
    split_ifs at h with hkeys
    · generalize JsonValue.get members "d" = d at h
      generalize JsonValue.get members "c" = c at h
      generalize JsonValue.get members "i" = i at h
      cases d <;> cases c <;> cases i <;>
        first | exact isValueError_of_positionOfTexts h | exact hrefused h
    · exact hrefused h
  | _ => exact hrefused h

omit [DocumentedRoutines] in
/-- Filler makes a short cursor no longer than three characters more. -/
lemma length_padCursor (cursor : RawText) : (padCursor cursor).length ≤ cursor.length + 3 := by
  unfold padCursor
  rw [List.length_append, List.length_replicate]
  omega

/-- A short cursor that cannot be read raises kinds of `ValueError`. -/
lemma isValueError_of_readCursor {e : PythonException} (hlength : cursor.length ≤ maxCursorLength)
    (h : readCursor cursor = .error e) : e.isValueError := by
  unfold readCursor at h
  rcases Checked.bind_eq_error.mp h with h | ⟨raw, hraw, h⟩
  · exact DocumentedRoutines.b64decode_raises _ _ h
  rcases Checked.bind_eq_error.mp h with h | ⟨payload, -, h⟩
  · have hshort : raw.length ≤ 300 := by
      have hdecoded := DocumentedRoutines.b64decode_length _ _ hraw
      have hpadded := length_padCursor cursor
      unfold maxCursorLength at hlength
      omega
    exact DocumentedRoutines.jsonLoads_raises raw e hshort h
  · exact isValueError_of_readPayload h

omit [DocumentedRoutines] in
/-- A cursor that is issued is within the limit. -/
lemma encodeCursor_fits (h : position.createdAt.Representable) :
    ¬ (encodeCursor position = [] ∨ maxCursorLength < (encodeCursor position).length) := by
  unfold encodeCursor RawText.ofString
  rintro (hempty | hlong)
  · have hnil := List.map_eq_nil_iff.mp hempty
    exact encodeHistoryCursor_ne_empty h (String.toList_eq_nil_iff.mp hnil)
  · rw [List.length_map, String.length_toList] at hlong
    exact absurd (length_encodeHistoryCursor h) (Nat.not_le.mpr hlong)

/-- **The texts that are accepted** are the cursors that are issued, each as its position.

**Proof sketch.** What is read is compared with the cursor that is issued for it. The other way
round, an issued cursor is within the limit and reads back as its position. -/
theorem decodeCursor_eq_ok_iff :
    decodeCursor cursor = .ok position ↔
      position.createdAt.Representable ∧ encodeCursor position = cursor := by
  constructor
  · intro h
    unfold decodeCursor at h
    split_ifs at h with hlimit
    cases hread : readCursor cursor with
    | error e =>
      rw [hread] at h
      cases h
    | ok read =>
      rw [hread] at h
      dsimp only at h
      split_ifs at h with hcanonical
      obtain rfl := Except.ok.inj h
      exact ⟨representable_of_readCursor hread, not_not.mp hcanonical⟩
  · rintro ⟨h, rfl⟩
    unfold decodeCursor
    rw [if_neg (encodeCursor_fits h), readCursor_encodeCursor h]
    exact if_neg (not_not.mpr rfl)

/-- **Nothing else escapes**: a text that is not accepted is refused as a cursor. -/
theorem decodeCursor_eq_error {e : PythonException} (h : decodeCursor cursor = .error e) :
    e = .invalidExpenseHistoryCursor := by
  unfold decodeCursor at h
  split_ifs at h with hlimit
  · exact (Except.error.inj h).symm
  · push Not at hlimit
    cases hread : readCursor cursor with
    | error raised =>
      rw [hread] at h
      dsimp only at h
      rw [if_pos (isValueError_of_readCursor hlimit.2 hread)] at h
      exact (Except.error.inj h).symm
    | ok read =>
      rw [hread] at h
      dsimp only at h
      split_ifs at h with hcanonical
      exact (Except.error.inj h).symm

/-- **The cursor codec.** A position comes back from its cursor; any text is refused as a cursor or
is the cursor of the position it denotes; two texts never denote one position, and the texts that
denote one are those that are issued.

**Proof sketch.** Each routine reads back what its counterpart wrote, so a cursor that was issued is
read. The last check of the decoder compares a text with the cursor of what was read, whichever of
their spellings the routines took. All that they raise is caught; a text that is within the limit is
too short to nest deeply. -/
theorem history_cursor_codec :
    (∀ position : ExpenseHistoryPosition, position.createdAt.Representable →
      decodeCursor (encodeCursor position) = .ok position) ∧
    (∀ cursor : RawText, decodeCursor cursor = .error .invalidExpenseHistoryCursor ∨
      ∃ position, position.createdAt.Representable ∧ decodeCursor cursor = .ok position ∧
        encodeCursor position = cursor) ∧
    (∀ (cursor cursor' : RawText) (position : ExpenseHistoryPosition),
      decodeCursor cursor = .ok position → decodeCursor cursor' = .ok position →
        cursor = cursor') ∧
    ∀ cursor : RawText, (∃ position, decodeCursor cursor = .ok position) ↔
      ∃ position : ExpenseHistoryPosition, position.createdAt.Representable ∧
        encodeCursor position = cursor := by
  refine ⟨fun position h => decodeCursor_eq_ok_iff.mpr ⟨h, rfl⟩, fun cursor => ?_,
    fun cursor cursor' position h h' => ?_, fun cursor => ?_⟩
  · cases hdecoded : decodeCursor cursor with
    | error e =>
      obtain rfl := decodeCursor_eq_error hdecoded
      exact .inl rfl
    | ok position =>
      obtain ⟨hrange, hcanonical⟩ := decodeCursor_eq_ok_iff.mp hdecoded
      exact .inr ⟨position, hrange, rfl, hcanonical⟩
  · exact (decodeCursor_eq_ok_iff.mp h).2.symm.trans (decodeCursor_eq_ok_iff.mp h').2
  · exact exists_congr fun position => decodeCursor_eq_ok_iff

/-- The codec of strings accepts the same cursors. -/
theorem decodeCursor_ofString (cursor : String) (position : ExpenseHistoryPosition) :
    decodeCursor (RawText.ofString cursor) = .ok position ↔
      decodeHistoryCursor cursor = .ok position := by
  have hinjective : RawText.ofString (encodeHistoryCursor position) = RawText.ofString cursor ↔
      encodeHistoryCursor position = cursor := by
    unfold RawText.ofString
    rw [List.map_inj_right (fun _ _ => Sum.inl.inj), String.toList_inj]
  rw [decodeCursor_eq_ok_iff, decodeHistoryCursor_eq_ok_iff, ← hinjective]
  rfl

end Documented

/-! ## Routines that read what is written -/

/-- The members of an object of strings. -/
def stringMembers : List (List Char × Json) → Option (List (List Char × List Char))
  | [] => some []
  | (name, .string text) :: members => do
    let texts ← stringMembers members
    some ((name, text) :: texts)
  | _ => none

/-- An object of strings has its strings. -/
lemma stringMembers_map (texts : List (List Char × List Char)) :
    stringMembers (texts.map fun m => (m.1, Json.string m.2)) = some texts := by
  induction texts with
  | nil => rfl
  | cons m texts ih =>
    rw [List.map_cons, stringMembers, ih]
    rfl

/-- The object of strings that was read. -/
def loadedDict : Option Json → Except PythonException JsonValue
  | some (.object members) =>
    (stringMembers members).elim (.error .jsonDecodeError) fun texts => .ok (dictOf texts)
  | _ => .error .jsonDecodeError

/-- A string is the string of its text. -/
lemma toString?_ofString (s : String) : (RawText.ofString s).toString? = some s := by
  have hleft : (RawText.ofString s).all Sum.isLeft := by
    unfold RawText.ofString
    rw [List.all_map]
    exact List.all_eq_true.mpr fun _ _ => rfl
  have hchars : (RawText.ofString s).filterMap Sum.getLeft? = s.toList := by
    unfold RawText.ofString
    rw [List.filterMap_map]
    exact List.filterMap_some
  unfold RawText.toString?
  rw [if_pos hleft, hchars, String.ofList_toList]

/-- What is raised for want of a value. -/
lemma isValueError_of_elim {α : Type} {x : Option α} {raised e : PythonException}
    (hraised : raised.isValueError) (h : x.elim (.error raised) Except.ok = .error e) :
    e.isValueError := by
  cases x with
  | none =>
    obtain rfl := Except.error.inj h
    exact hraised
  | some a => cases h

/-- What is returned is the value. -/
lemma eq_some_of_elim {α : Type} {x : Option α} {raised : PythonException} {a : α}
    (h : x.elim (.error raised) Except.ok = .ok a) : x = some a := by
  cases x with
  | none => cases h
  | some b => exact congrArg some (Except.ok.inj h)

/-- Routines of strings that read the written forms and refuse others. -/
@[reducible] def stringRoutines : CursorRoutines where
  b64decode text :=
    (text.toString?.bind fun s => Base64.decode s.toList).elim (.error .binasciiError) .ok
  jsonLoads bytes := loadedDict (jsonLoads bytes)
  dateFromIsoformat text := (text.toString?.bind fromIsoformat).elim (.error .valueError) .ok
  datetimeFromIsoformat text :=
    (text.toString?.bind DateTime.fromIsoformat).elim (.error .valueError) .ok
  uuid text := (text.toString?.bind uuidOfText).elim (.error .valueError) .ok

/-- An object of strings that was written is read. -/
lemma stringRoutines_dumps {members : List (List Char × List Char)} (hne : members ≠ [])
    (h : ∀ m ∈ members, (∀ c ∈ m.1, IsPrintable c) ∧ ∀ c ∈ m.2, IsPrintable c) :
    stringRoutines.jsonLoads (dumpedBytes members) = .ok (dictOf members) := by
  have hparse := Json.parse_writeObject hne fun m hm =>
    ⟨fun c hc => ((h m hm).1 c hc).1, fun c hc => ((h m hm).2 c hc).1⟩
  have htext : ∀ s : String, String.fromUTF8? s.toByteArray = some s :=
    fun s => dif_pos s.isValidUTF8
  have hread : jsonLoads (dumpedBytes members) =
      some (.object (members.map fun m => (m.1, .string m.2))) := by
    unfold jsonLoads dumpedBytes
    rw [toArray_bytes, htext, Option.bind_some, String.toList_ofList, hparse]
  unfold stringRoutines
  dsimp only
  rw [hread, loadedDict, stringMembers_map]
  rfl

/-- A document that is refused raises a kind of `ValueError`.

**Proof sketch.** The routine refuses what is no object of strings, with the error of the
decoder. -/
lemma stringRoutines_raises {bytes : List UInt8} {e : PythonException}
    (h : stringRoutines.jsonLoads bytes = .error e) : e.isValueError := by
  have hrefused : ∀ {e : PythonException},
      (.error .jsonDecodeError : Except PythonException JsonValue) = .error e →
        e.isValueError := by
    intro e h
    obtain rfl := Except.error.inj h
    rfl
  unfold stringRoutines loadedDict at h
  dsimp only at h
  split at h
  · rename_i members _
    cases hmembers : stringMembers members with
    | none =>
      rw [hmembers] at h
      exact hrefused h
    | some texts =>
      rw [hmembers] at h
      cases h
  · exact hrefused h

/-- Those routines behave as documented. -/
@[reducible] def documentedRoutines : DocumentedRoutines where
  toCursorRoutines := stringRoutines
  b64decode_encode bytes := by
    have htext : (Base64.encode bytes).map Sum.inl =
        RawText.ofString (String.ofList (Base64.encode bytes)) := by
      rw [RawText.ofString, String.toList_ofList]
    unfold stringRoutines
    dsimp only
    rw [htext, toString?_ofString, Option.bind_some, String.toList_ofList, Base64.decode_encode]
    rfl
  b64decode_raises _ _ := isValueError_of_elim rfl
  b64decode_length text bytes h := by
    obtain ⟨s, hs, hbytes⟩ := Option.bind_eq_some_iff.mp (eq_some_of_elim h)
    have hlength := Base64.length_decode_le hbytes
    rwa [String.length_toList, RawText.length_toString? hs] at hlength
  jsonLoads_dumps _ hne _ h := stringRoutines_dumps hne h
  jsonLoads_raises _ _ _ h := stringRoutines_raises h
  dateFromIsoformat_isoformat d := by
    unfold stringRoutines
    dsimp only
    rw [toString?_ofString, Option.bind_some, fromIsoformat_isoformat]
    rfl
  dateFromIsoformat_raises _ _ := isValueError_of_elim rfl
  datetimeFromIsoformat_isoformat t h := by
    unfold stringRoutines
    dsimp only
    rw [toString?_ofString, Option.bind_some, DateTime.fromIsoformat_isoformat h]
    rfl
  datetimeFromIsoformat_raises _ _ := isValueError_of_elim rfl
  datetimeFromIsoformat_range text t h := by
    obtain ⟨s, -, ht⟩ := Option.bind_eq_some_iff.mp (eq_some_of_elim h)
    exact DateTime.representable_of_fromIsoformat ht
  uuid_text id := by
    unfold stringRoutines
    dsimp only
    rw [toString?_ofString, Option.bind_some, uuidOfText_uuidText]
    rfl
  uuid_raises _ _ := isValueError_of_elim rfl

/-- An Expense of a summer evening in Kyiv. -/
def kyivEvening : ExpenseHistoryPosition :=
  ⟨july29.value, ⟨1785344400000001, some 10800000000⟩, BitVec.ofNat 128 7, by simp⟩

/-- The position of that evening comes back through those routines. -/
theorem history_cursor_codec_kyiv :
    @decodeCursor stringRoutines (encodeCursor kyivEvening) = .ok kyivEvening :=
  (@history_cursor_codec documentedRoutines).1 kyivEvening (by decide +kernel)

end MintFlow
