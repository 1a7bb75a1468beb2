import MintFlow.Web.Formatting

set_option relaxedAutoImplicit false
set_option autoImplicit false

/-!
# Queries read back

A link carries its values in a query, and the server takes the query apart again: at each `&`, at the
first `=`, and then every name and value by its escapes. Bytes that are no text are read with
replacement characters; no link has such bytes.

## Main definitions

* `MintFlow.TextDecoder` — the reader of bytes as a text.
* `MintFlow.parseQsl` — the names and values of a query.
* `MintFlow.linkParams` — the names and values that a link asks for.

## Main results

* `MintFlow.parseQsl_urlencode` — what was written into a query is read from it.
-/

namespace MintFlow

open Transact

/-- `bytes.decode("utf-8", errors="replace")`. -/
class TextDecoder where
  decode : List UInt8 → String
  /-- The bytes of a text are that text. -/
  decode_utf8 : ∀ s : String, decode s.toUTF8.toList = s

section Reading

variable [TextDecoder]

/-- The byte of two hexadecimal digits. -/
def hexByte (a b : Char) : Option UInt8 := do
  let high ← hexDigit a
  let low ← hexDigit b
  some (UInt8.ofNat (high * 16 + low))

/-- `urllib.parse.unquote`, after the bytes `run` of the current run of ASCII characters. A `%`
without two hexadecimal digits stays. -/
def unquoteFrom (run : List UInt8) : List Char → List Char
  | [] => (TextDecoder.decode run).toList
  | '%' :: a :: b :: cs =>
    match hexByte a b with
    | some byte => unquoteFrom (run ++ [byte]) cs
    | none => unquoteFrom (run ++ [37]) (a :: b :: cs)
  | c :: cs =>
    if c.toNat < 128 then unquoteFrom (run ++ [UInt8.ofNat c.toNat]) cs
    else (TextDecoder.decode run).toList ++ c :: unquoteFrom [] cs

/-- `unquote(text.replace("+", " "))`. -/
def unquotePlus (cs : List Char) : String :=
  String.ofList (unquoteFrom [] (cs.map fun c => if c = '+' then ' ' else c))

/-- The name and the value of one part of a query; a part without `=` has an empty value. -/
def readPair (cs : List Char) : String × String :=
  (unquotePlus (cs.takeWhile (· ≠ '=')), unquotePlus ((cs.dropWhile (· ≠ '=')).drop 1))

/-- `parse_qsl(query, keep_blank_values=True)`. -/
def parseQsl (query : List Char) : List (String × String) :=
  ((query.splitOn '&').filter fun part => decide (part ≠ [])).map readPair

/-- The query of a link. -/
def linkParams (href : String) : List (String × String) :=
  parseQsl ((href.toList.dropWhile (· ≠ '?')).drop 1)

end Reading

/-! ## What is written -/

/-- How a byte is written. -/
def quotedByte (b : UInt8) : List Char :=
  if isSafeByte b then [Char.ofNat b.toNat]
  else if b = 32 then ['+']
  else ['%', (Nat.digitChar (b.toNat / 16)).toUpper, (Nat.digitChar (b.toNat % 16)).toUpper]

/-- A text is written byte by byte. -/
lemma toList_quotePlus (s : String) :
    (quotePlus s).toList = (s.toUTF8.toList.map quotedByte).flatten := String.toList_ofList

/-- A part of a query. -/
def quotedPair (p : String × String) : List Char :=
  (quotePlus p.1).toList ++ '=' :: (quotePlus p.2).toList

/-- A query is its parts, with `&` between them. -/
lemma toList_urlencode (params : List (String × String)) :
    (urlencode params).toList = ['&'].intercalate (params.map quotedPair) := by
  unfold urlencode
  rw [String.toList_intercalate, List.map_map]
  refine congrArg _ (List.map_congr_left fun p _ => ?_)
  show (quotePlus p.1 ++ "=" ++ quotePlus p.2).toList = quotedPair p
  rw [String.toList_append, String.toList_append, List.append_assoc]
  rfl

/-- Whether the characters of a byte neither separate nor start a query. -/
def plainlyQuoted (b : UInt8) : Bool :=
  (quotedByte b).all fun c => c != '&' && c != '=' && c != '?'

/-- No byte is written with a separator. -/
lemma plainlyQuoted_eq (b : UInt8) : plainlyQuoted b = true := by
  have hall : (List.range 256).all fun n => plainlyQuoted (UInt8.ofNat n) := by decide +kernel
  have hb := List.all_eq_true.mp hall b.toNat (List.mem_range.mpr b.toNat_lt)
  rwa [UInt8.ofNat_toNat] at hb

/-- No text is written with a separator. -/
lemma ne_separator_of_mem_quotePlus {s : String} {c : Char} (h : c ∈ (quotePlus s).toList) :
    c ≠ '&' ∧ c ≠ '=' ∧ c ≠ '?' := by
  rw [toList_quotePlus] at h
  obtain ⟨cs, hcs, hc⟩ := List.mem_flatten.mp h
  obtain ⟨b, -, rfl⟩ := List.mem_map.mp hcs
  have hplain := List.all_eq_true.mp (plainlyQuoted_eq b) c hc
  simp only [Bool.and_eq_true, bne_iff_ne] at hplain
  exact ⟨hplain.1.1, hplain.1.2, hplain.2⟩

/-! ## Reading back -/

section RoundTrip

variable [TextDecoder]

/-- Whether a byte reads back from the characters it was written in. -/
def readsBack (b : UInt8) : Bool :=
  match (quotedByte b).map fun c => if c = '+' then ' ' else c with
  | [c] => c != '%' && decide (c.toNat < 128) && UInt8.ofNat c.toNat == b
  | ['%', high, low] => hexByte high low == some b
  | _ => false

omit [TextDecoder] in
/-- Every byte reads back. -/
lemma readsBack_eq (b : UInt8) : readsBack b = true := by
  have hall : (List.range 256).all fun n => readsBack (UInt8.ofNat n) := by decide +kernel
  have hb := List.all_eq_true.mp hall b.toNat (List.mem_range.mpr b.toNat_lt)
  rwa [UInt8.ofNat_toNat] at hb

/-- A byte that was written is read. -/
lemma unquoteFrom_quotedByte (run : List UInt8) (b : UInt8) (cs : List Char) :
    unquoteFrom run (((quotedByte b).map fun c => if c = '+' then ' ' else c) ++ cs) =
      unquoteFrom (run ++ [b]) cs := by
  have hb := readsBack_eq b
  unfold readsBack at hb
  split at hb
  · rename_i c hwritten
    simp only [Bool.and_eq_true, bne_iff_ne, decide_eq_true_eq, beq_iff_eq] at hb
    obtain ⟨⟨hpercent, hascii⟩, hbyte⟩ := hb
    rw [hwritten, List.singleton_append, unquoteFrom, if_pos hascii, hbyte]
    rintro _ _ _ rfl -
    exact hpercent rfl
  · rename_i high low hwritten
    rw [hwritten, List.cons_append, List.cons_append, List.singleton_append, unquoteFrom,
      beq_iff_eq.mp hb]
  · cases hb

/-- Bytes that were written are read. -/
lemma unquoteFrom_quoted (bytes run : List UInt8) :
    unquoteFrom run ((bytes.map quotedByte).flatten.map fun c => if c = '+' then ' ' else c) =
      (TextDecoder.decode (run ++ bytes)).toList := by
  induction bytes generalizing run with
  | nil =>
    rw [List.append_nil]
    exact unquoteFrom.eq_1 run
  | cons b bytes ih =>
    rw [List.map_cons, List.flatten_cons, List.map_append, unquoteFrom_quotedByte, ih,
      List.append_assoc, List.singleton_append]

/-- A text that was written is read. -/
lemma unquotePlus_quotePlus (s : String) : unquotePlus (quotePlus s).toList = s := by
  unfold unquotePlus
  rw [toList_quotePlus, unquoteFrom_quoted, List.nil_append, TextDecoder.decode_utf8,
    String.ofList_toList]

/-- A name and a value that were written are read. -/
lemma readPair_quotedPair (p : String × String) : readPair (quotedPair p) = p := by
  have hname : ∀ c ∈ (quotePlus p.1).toList, decide (c ≠ '=') = true := fun c hc =>
    decide_eq_true (ne_separator_of_mem_quotePlus hc).2.1
  have hstop : decide ('=' ≠ '=') = false := by decide
  have htake : (quotedPair p).takeWhile (· ≠ '=') = (quotePlus p.1).toList := by
    rw [quotedPair, List.takeWhile_append_of_pos hname,
      List.takeWhile_cons_of_neg (by rw [hstop]; exact Bool.false_ne_true), List.append_nil]
  have hdrop : (quotedPair p).dropWhile (· ≠ '=') = '=' :: (quotePlus p.2).toList := by
    rw [quotedPair, List.dropWhile_append_of_pos hname,
      List.dropWhile_cons_of_neg (by rw [hstop]; exact Bool.false_ne_true)]
  unfold readPair
  rw [htake, hdrop, List.drop_one, List.tail_cons, unquotePlus_quotePlus, unquotePlus_quotePlus]

/-- **Queries.** The names and values that were written into a query are read from it.

**Proof sketch.** No quoted name or value holds a separator, so splitting the query gives back its
parts, none of them empty, and each part reads back as its pair (`readPair_quotedPair`). -/
theorem parseQsl_urlencode (params : List (String × String)) :
    parseQsl (urlencode params).toList = params := by
  have hseparator : ∀ part ∈ params.map quotedPair, '&' ∉ part := by
    intro part hpart hmem
    obtain ⟨p, -, rfl⟩ := List.mem_map.mp hpart
    rcases List.mem_append.mp hmem with h | h
    · exact (ne_separator_of_mem_quotePlus h).1 rfl
    · rcases List.mem_cons.mp h with h | h
      · exact absurd h (by decide)
      · exact (ne_separator_of_mem_quotePlus h).1 rfl
  have hne : ∀ part ∈ params.map quotedPair, decide (part ≠ []) = true := by
    intro part hpart
    obtain ⟨p, -, rfl⟩ := List.mem_map.mp hpart
    exact decide_eq_true (List.append_ne_nil_of_right_ne_nil _ (List.cons_ne_nil _ _))
  have hread : (params.map quotedPair).map readPair = params := by
    rw [List.map_map]
    exact (List.map_congr_left fun p _ => readPair_quotedPair p).trans (List.map_id params)
  unfold parseQsl
  rw [toList_urlencode]
  by_cases hparams : params.map quotedPair = []
  · obtain rfl := List.map_eq_nil_iff.mp hparams
    rfl
  · rw [List.splitOn_intercalate '&' hseparator hparams, List.filter_eq_self.mpr hne, hread]

/-- A link to a page asks for the values that were written behind it. -/
lemma linkParams_urlencode {path : String} (hpath : path.toList.all (· != '?') = true)
    (params : List (String × String)) :
    linkParams (path ++ "?" ++ urlencode params) = params := by
  have hchars : ∀ c ∈ path.toList, decide (c ≠ '?') = true := fun c hc =>
    decide_eq_true (bne_iff_ne.mp (List.all_eq_true.mp hpath c hc))
  have hstop : decide ('?' ≠ '?') = false := by decide
  have htext : (path ++ "?" ++ urlencode params).toList =
      path.toList ++ '?' :: (urlencode params).toList := by
    rw [String.toList_append, String.toList_append, List.append_assoc]
    rfl
  unfold linkParams
  rw [htext, List.dropWhile_append_of_pos hchars,
    List.dropWhile_cons_of_neg (by rw [hstop]; exact Bool.false_ne_true), List.drop_one,
    List.tail_cons, parseQsl_urlencode]

end RoundTrip

/-! ## A reader -/

/-- The rest of an array as a list. -/
lemma toList_loop (bytes : ByteArray) (i : ℕ) (read : List UInt8) :
    ByteArray.toList.loop bytes i read = read.reverse ++ bytes.data.toList.drop i := by
  induction i, read using ByteArray.toList.loop.induct bytes with
  | case1 i read h ih =>
    have hsize : bytes.data.toList.length = bytes.size := Array.length_toList
    have hlt : i < bytes.data.toList.length := by omega
    have hget : bytes.get! i = bytes.data.toList[i] := by
      have hdata : bytes.get! i = bytes.data[i]! := rfl
      rw [hdata, getElem!_pos bytes.data i h, Array.getElem_toList]
    rw [ByteArray.toList.loop, if_pos h, ih, List.reverse_cons, List.append_assoc,
      List.singleton_append, hget, List.getElem_cons_drop]
  | case2 i read h =>
    have hsize : bytes.data.toList.length = bytes.size := Array.length_toList
    rw [ByteArray.toList.loop, if_neg h, List.drop_of_length_le (by omega), List.append_nil]

/-- The bytes of an array as a list. -/
lemma toList_eq_data (bytes : ByteArray) : bytes.toList = bytes.data.toList :=
  toList_loop bytes 0 []

/-- A reader that replaces what is no text as a whole, for concrete runs. -/
@[reducible] def TextDecoder.whole : TextDecoder where
  decode bytes := (String.fromUTF8? ⟨bytes.toArray⟩).getD "\uFFFD"
  decode_utf8 s := by
    have hbytes : (⟨s.toUTF8.toList.toArray⟩ : ByteArray) = s.toByteArray := by
      rw [toList_eq_data, Array.toArray_toList]
      rfl
    have htext : String.fromUTF8? s.toByteArray = some s := dif_pos s.isValidUTF8
    rw [hbytes, htext, Option.getD_some]

end MintFlow
