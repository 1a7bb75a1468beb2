import Mathlib.Data.Nat.Basic
import Mathlib.Data.List.Basic

set_option relaxedAutoImplicit false
set_option autoImplicit false

/-!
# JSON texts

A reader of JSON texts and a writer of objects of strings. The reader takes what a lenient reader
takes: the numbers `NaN` and `Infinity` and a name that stands twice, but no control character in a
string. A string with half of a surrogate pair alone is no text here and is refused.

## Main definitions

* `Transact.Json` — the values.
* `Transact.Json.parse` — the value of a text.
* `Transact.Json.writeObject` — an object of strings, without blanks.

## Main results

* `Transact.Json.parse_writeObject` — an object of plain strings reads back.
-/

namespace Transact

/-- A JSON value. A number is kept as its text, an object as its members in the order written. -/
inductive Json
  | null
  | bool (value : Bool)
  | number (text : List Char)
  | string (text : List Char)
  | array (items : List Json)
  | object (members : List (List Char × Json))

namespace Json

/-! ## Reading -/

/-- Without the blanks in front. -/
def skipBlanks (cs : List Char) : List Char :=
  cs.dropWhile fun c => c == ' ' || c == '\t' || c == '\n' || c == '\r'

/-- The value of a hexadecimal digit. -/
def hexValue (c : Char) : Option ℕ :=
  if '0' ≤ c ∧ c ≤ '9' then some (c.toNat - 48)
  else if 'a' ≤ c ∧ c ≤ 'f' then some (c.toNat - 87)
  else if 'A' ≤ c ∧ c ≤ 'F' then some (c.toNat - 55)
  else none

/-- The number of four hexadecimal digits. -/
def hexUnit (a b c d : Char) : Option ℕ := do
  let a ← hexValue a
  let b ← hexValue b
  let c ← hexValue c
  let d ← hexValue d
  some (((a * 16 + b) * 16 + c) * 16 + d)

/-- The character an escape of one letter stands for. -/
def unescape (c : Char) : Option Char :=
  match c with
  | '"' => some '"'
  | '\\' => some '\\'
  | '/' => some '/'
  | 'b' => some '\x08'
  | 'f' => some '\x0c'
  | 'n' => some '\n'
  | 'r' => some '\r'
  | 't' => some '\t'
  | _ => none

/-- The characters of one or two units: a unit outside the surrogates, or a pair of these. -/
def surrogatePair (high low : ℕ) : Option Char :=
  if 0xD800 ≤ high ∧ high < 0xDC00 ∧ 0xDC00 ≤ low ∧ low < 0xE000 then
    some (Char.ofNat (0x10000 + (high - 0xD800) * 0x400 + (low - 0xDC00)))
  else none

/-- A string up to its closing quote, and what follows. -/
def readString : List Char → Option (List Char × List Char)
  | [] => none
  | '"' :: cs => some ([], cs)
  | '\\' :: 'u' :: a :: b :: c :: d :: '\\' :: 'u' :: a' :: b' :: c' :: d' :: cs => do
    let unit ← hexUnit a b c d
    if 0xD800 ≤ unit ∧ unit < 0xE000 then
      let character ← surrogatePair unit (← hexUnit a' b' c' d')
      let (text, rest) ← readString cs
      some (character :: text, rest)
    else
      let (text, rest) ← readString ('\\' :: 'u' :: a' :: b' :: c' :: d' :: cs)
      some (Char.ofNat unit :: text, rest)
  | '\\' :: 'u' :: a :: b :: c :: d :: cs => do
    let unit ← hexUnit a b c d
    if 0xD800 ≤ unit ∧ unit < 0xE000 then none
    else
      let (text, rest) ← readString cs
      some (Char.ofNat unit :: text, rest)
  | '\\' :: c :: cs => do
    let character ← unescape c
    let (text, rest) ← readString cs
    some (character :: text, rest)
  | c :: cs =>
    if c.toNat < 32 then none
    else do
      let (text, rest) ← readString cs
      some (c :: text, rest)

/-- The digits in front, of which there is one at least. -/
def readDigits (cs : List Char) : Option (List Char × List Char) :=
  let digits := cs.takeWhile Char.isDigit
  if digits = [] then none else some (digits, cs.drop digits.length)

/-- A whole number: `0`, or digits of which the first is not `0`. -/
def readWhole : List Char → Option (List Char × List Char)
  | '0' :: cs => some (['0'], cs)
  | cs => readDigits cs

/-- A fraction, if there is one. -/
def readFraction (cs : List Char) : List Char × List Char :=
  match cs with
  | '.' :: rest =>
    match readDigits rest with
    | some (digits, rest) => ('.' :: digits, rest)
    | none => ([], cs)
  | _ => ([], cs)

/-- An exponent, if there is one. -/
def readExponent (cs : List Char) : List Char × List Char :=
  match cs with
  | e :: rest =>
    if e = 'e' ∨ e = 'E' then
      let sign := rest.take (if rest.head? = some '+' ∨ rest.head? = some '-' then 1 else 0)
      match readDigits (rest.drop sign.length) with
      | some (digits, rest) => (e :: sign ++ digits, rest)
      | none => ([], cs)
    else ([], cs)
  | [] => ([], cs)

/-- A number. -/
def readNumber (cs : List Char) : Option (List Char × List Char) := do
  let sign := cs.take (if cs.head? = some '-' then 1 else 0)
  let (whole, rest) ← readWhole (cs.drop sign.length)
  let (fraction, rest) := readFraction rest
  let (exponent, rest) := readExponent rest
  some (sign ++ whole ++ fraction ++ exponent, rest)

/-- The values with a name, and the names of numbers that are not finite. -/
def names : List (List Char × Json) :=
  [("null".toList, null), ("true".toList, bool true), ("false".toList, bool false),
    ("NaN".toList, number "NaN".toList), ("Infinity".toList, number "Infinity".toList),
    ("-Infinity".toList, number "-Infinity".toList)]

/-- A value with a name or a number. -/
def readAtom (cs : List Char) : Option (Json × List Char) :=
  match names.find? fun name => name.1.isPrefixOf cs with
  | some (name, value) => some (value, cs.drop name.length)
  | none => (readNumber cs).map fun p => (number p.1, p.2)

mutual

/-- A value, and what follows. -/
def readValue : ℕ → List Char → Option (Json × List Char)
  | 0, _ => none
  | _ + 1, '"' :: cs => (readString cs).map fun p => (string p.1, p.2)
  | fuel + 1, '{' :: cs =>
    match skipBlanks cs with
    | '}' :: rest => some (object [], rest)
    | rest => (readMembers fuel rest).map fun p => (object p.1, p.2)
  | fuel + 1, '[' :: cs =>
    match skipBlanks cs with
    | ']' :: rest => some (array [], rest)
    | rest => (readItems fuel rest).map fun p => (array p.1, p.2)
  | _ + 1, cs => readAtom cs

/-- The members of an object up to its closing brace. -/
def readMembers : ℕ → List Char → Option (List (List Char × Json) × List Char)
  | 0, _ => none
  | fuel + 1, cs =>
    match cs with
    | '"' :: cs =>
      match readString cs with
      | none => none
      | some (name, rest) =>
        match skipBlanks rest with
        | ':' :: rest =>
          match readValue fuel (skipBlanks rest) with
          | none => none
          | some (value, rest) =>
            match skipBlanks rest with
            | '}' :: rest => some ([(name, value)], rest)
            | ',' :: rest =>
              (readMembers fuel (skipBlanks rest)).map fun p => ((name, value) :: p.1, p.2)
            | _ => none
        | _ => none
    | _ => none

/-- The items of an array up to its closing bracket. -/
def readItems : ℕ → List Char → Option (List Json × List Char)
  | 0, _ => none
  | fuel + 1, cs =>
    match readValue fuel cs with
    | none => none
    | some (value, rest) =>
      match skipBlanks rest with
      | ']' :: rest => some ([value], rest)
      | ',' :: rest => (readItems fuel (skipBlanks rest)).map fun p => (value :: p.1, p.2)
      | _ => none

end

/-- The value of a text: it is the whole text, blanks apart. -/
def parse (cs : List Char) : Option Json := do
  let (value, rest) ← readValue (2 * cs.length + 2) (skipBlanks cs)
  if skipBlanks rest = [] then some value else none

/-- What an object has under a name: the last member of that name. -/
def member (members : List (List Char × Json)) (name : List Char) : Option Json :=
  (members.reverse.find? fun m => m.1 = name).map Prod.snd

/-! ## Writing -/

/-- A string in quotes, of characters that need no escape. -/
def quote (text : List Char) : List Char := '"' :: text ++ ['"']

/-- The members of an object. -/
def writeMembers : List (List Char × List Char) → List Char
  | [] => []
  | [(name, text)] => quote name ++ ':' :: quote text
  | (name, text) :: members => quote name ++ ':' :: quote text ++ ',' :: writeMembers members

/-- An object of strings without blanks. -/
def writeObject (members : List (List Char × List Char)) : List Char :=
  '{' :: writeMembers members ++ ['}']

/-- The characters of an object are its marks and those of its members.

**Proof sketch.** Induction on the members: each writes its name and its text in quotes, with a
colon in between and a comma before the next. -/
lemma forall_mem_writeObject {p : Char → Prop} (hmarks : ∀ c ∈ ['{', '}', '"', ':', ','], p c)
    {members : List (List Char × List Char)}
    (h : ∀ m ∈ members, (∀ c ∈ m.1, p c) ∧ ∀ c ∈ m.2, p c) : ∀ c ∈ writeObject members, p c := by
  have hmark : p '{' ∧ p '}' ∧ p '"' ∧ p ':' ∧ p ',' := by simpa using hmarks
  obtain ⟨hopen, hclose, hquoted, hcolon, hcomma⟩ := hmark
  have hquote : ∀ text : List Char, (∀ c ∈ text, p c) → ∀ c ∈ quote text, p c := by
    intro text htext c hc
    simp only [quote, List.mem_append, List.mem_cons, List.not_mem_nil, or_false] at hc
    rcases hc with (rfl | hc) | rfl
    · exact hquoted
    · exact htext c hc
    · exact hquoted
  have hwrite : ∀ c ∈ writeMembers members, p c := by
    induction members with
    | nil => exact fun c hc => absurd hc List.not_mem_nil
    | cons m members ih =>
      obtain ⟨name, text⟩ := m
      obtain ⟨hname, htext⟩ := h (name, text) List.mem_cons_self
      have hrest := ih fun m hm => h m (List.mem_cons_of_mem _ hm)
      intro c hc
      cases members with
      | nil =>
        simp only [writeMembers, List.mem_append, List.mem_cons] at hc
        rcases hc with hc | rfl | hc
        · exact hquote name hname c hc
        · exact hcolon
        · exact hquote text htext c hc
      | cons m' members =>
        simp only [writeMembers, List.mem_append, List.mem_cons] at hc hrest
        rcases hc with (hc | rfl | hc) | rfl | hc
        · exact hquote name hname c hc
        · exact hcolon
        · exact hquote text htext c hc
        · exact hcomma
        · exact hrest c hc
  intro c hc
  simp only [writeObject, List.mem_append, List.mem_cons, List.not_mem_nil, or_false] at hc
  rcases hc with (rfl | hc) | rfl
  · exact hopen
  · exact hwrite c hc
  · exact hclose

/-! ## Reading what was written -/

/-- A character that stands for itself in a string. -/
def Plain (c : Char) : Prop := c ≠ '"' ∧ c ≠ '\\' ∧ 32 ≤ c.toNat

/-- A plain string reads back. -/
lemma readString_append {text : List Char} (h : ∀ c ∈ text, Plain c) (rest : List Char) :
    readString (text ++ '"' :: rest) = some (text, rest) := by
  induction text with
  | nil => rfl
  | cons c text ih =>
    obtain ⟨hquote, hescape, hcontrol⟩ := h c List.mem_cons_self
    have htext := ih fun c' hc' => h c' (List.mem_cons_of_mem _ hc')
    rw [List.cons_append, readString, if_neg (by omega), htext]
    · rfl
    · exact hquote
    all_goals
      intros
      exact hescape ‹_›

/-- A string value reads back. -/
lemma readValue_quote {text : List Char} (h : ∀ c ∈ text, Plain c) (fuel : ℕ) (rest : List Char) :
    readValue (fuel + 1) (quote text ++ rest) = some (string text, rest) := by
  have hquote : quote text ++ rest = '"' :: (text ++ '"' :: rest) := by
    simp [quote]
  rw [hquote, readValue, readString_append h]
  rfl

/-- Members of strings read back.

**Proof sketch.** Induction on the members. A member is read up to the mark after it (`hmember`): a
brace ends the object, and a comma goes on with the members that are left. -/
lemma readMembers_write {members : List (List Char × List Char)} (hne : members ≠ [])
    (h : ∀ m ∈ members, (∀ c ∈ m.1, Plain c) ∧ ∀ c ∈ m.2, Plain c) {fuel : ℕ}
    (hfuel : members.length < fuel) (rest : List Char) :
    readMembers fuel (writeMembers members ++ '}' :: rest) =
      some (members.map fun m => (m.1, string m.2), rest) := by
  induction members generalizing fuel with
  | nil => exact absurd rfl hne
  | cons m members ih =>
    obtain ⟨name, text⟩ := m
    obtain ⟨hname, htext⟩ := h (name, text) List.mem_cons_self
    obtain ⟨fuel, rfl⟩ : ∃ n, fuel = n + 2 := ⟨fuel - 2, by simp at hfuel; omega⟩
    -- the member's name, its colon and its value, whatever follows
    have hmember : ∀ tail, readMembers (fuel + 2) (quote name ++ ':' :: (quote text ++ tail)) =
        match skipBlanks tail with
        | '}' :: rest => some ([(name, string text)], rest)
        | ',' :: rest =>
          (readMembers (fuel + 1) (skipBlanks rest)).map fun p =>
            ((name, string text) :: p.1, p.2)
        | _ => none := by
      intro tail
      have hquote : quote name ++ ':' :: (quote text ++ tail) =
          '"' :: (name ++ '"' :: ':' :: (quote text ++ tail)) := by simp [quote]
      have hcolon : skipBlanks (':' :: (quote text ++ tail)) = ':' :: (quote text ++ tail) := rfl
      have hvalue : skipBlanks (quote text ++ tail) = quote text ++ tail := rfl
      rw [hquote, readMembers, readString_append hname]
      simp only [hcolon, hvalue, readValue_quote htext]
    cases members with
    | nil =>
      have hwrite : writeMembers [(name, text)] ++ '}' :: rest =
          quote name ++ ':' :: (quote text ++ '}' :: rest) := by simp [writeMembers]
      rw [hwrite, hmember]
      rfl
    | cons m' members =>
      have hwrite : writeMembers ((name, text) :: m' :: members) ++ '}' :: rest =
          quote name ++ ':' :: (quote text ++ ',' :: (writeMembers (m' :: members) ++ '}' :: rest)) := by
        simp [writeMembers]
      have hblank : skipBlanks (writeMembers (m' :: members) ++ '}' :: rest) =
          writeMembers (m' :: members) ++ '}' :: rest := by
        cases members with
        | nil => rfl
        | cons _ _ => rfl
      have hshorter : (m' :: members).length < fuel + 1 := by
        simp only [List.length_cons] at hfuel ⊢
        omega
      have hrest := ih (List.cons_ne_nil _ _) (fun m hm => h m (List.mem_cons_of_mem _ hm)) hshorter
      have hcomma : skipBlanks (',' :: (writeMembers (m' :: members) ++ '}' :: rest)) =
          ',' :: (writeMembers (m' :: members) ++ '}' :: rest) := rfl
      rw [hwrite, hmember]
      simp only [hcomma, hblank, hrest, Option.map_some, List.map_cons]

/-- Members are at least as long as they are many. -/
lemma length_le_writeMembers (members : List (List Char × List Char)) :
    members.length ≤ (writeMembers members).length := by
  induction members with
  | nil => exact Nat.zero_le _
  | cons m members ih =>
    cases members with
    | nil => simp [writeMembers, quote]
    | cons m' members =>
      simp only [writeMembers, List.length_append, List.length_cons] at ih ⊢
      omega

/-- **Round trip.** An object of plain strings reads back.

**Proof sketch.** The text starts with a brace, after which the members are read back
(`readMembers_write`); the text is longer than they are many, so the fuel suffices. -/
theorem parse_writeObject {members : List (List Char × List Char)} (hne : members ≠ [])
    (h : ∀ m ∈ members, (∀ c ∈ m.1, Plain c) ∧ ∀ c ∈ m.2, Plain c) :
    parse (writeObject members) = some (object (members.map fun m => (m.1, string m.2))) := by
  have hlength := length_le_writeMembers members
  have hstart : skipBlanks (writeObject members) = '{' :: (writeMembers members ++ ['}']) := rfl
  have hmembers : skipBlanks (writeMembers members ++ ['}']) = writeMembers members ++ ['}'] := by
    match members, hne with
    | [_], _ => rfl
    | _ :: _ :: _, _ => rfl
  have hbrace : ∃ cs, writeMembers members ++ ['}'] = '"' :: cs := by
    match members, hne with
    | [_], _ => exact ⟨_, rfl⟩
    | _ :: _ :: _, _ => exact ⟨_, rfl⟩
  obtain ⟨cs, hcs⟩ := hbrace
  have hfuel : members.length < 2 * (writeObject members).length + 1 := by
    simp only [writeObject, List.length_cons, List.length_append]
    omega
  have hread := readMembers_write hne h hfuel []
  have hvalue : readValue (2 * (writeObject members).length + 2)
      ('{' :: (writeMembers members ++ ['}'])) =
        some (object (members.map fun m => (m.1, string m.2)), []) := by
    rw [readValue, hmembers]
    rw [hcs] at hread ⊢
    show Option.map _ (readMembers (2 * (writeObject members).length + 1) ('"' :: cs)) = _
    rw [hread, Option.map_some]
  unfold parse
  rw [hstart, hvalue]
  rfl

end Json

end Transact
