import MintFlow.Lib.Calendar
import MintFlow.Lib.Whitespace
import Mathlib.Data.List.Forall2

set_option relaxedAutoImplicit false
set_option autoImplicit false

/-!
# The parts of Python the program relies on

Strings, datetimes and raised values. Whitespace is the set `str.isspace` and the pattern `\s`
share. What depends on tables outside the language's definition (Unicode case mapping, `repr`, the
time zone database, hashing) is a parameter of the development.

## Main definitions

* `MintFlow.PythonRuntime` — the tables the program reads.
* `MintFlow.strip`, `MintFlow.collapseWhitespace` — string normalization.
* `MintFlow.DateTime` — a datetime, aware or naive, in microseconds.
-/

namespace MintFlow

open Transact

/-- A `UUID`. -/
abbrev UUID := BitVec 128

/-- An instant: microseconds since the epoch, in UTC. -/
abbrev Instant := ℤ

/-- The result of code that may raise `ValueError`, with the message of the error. -/
abbrev Checked (α : Type) := Except String α

/-- The tables and functions outside the program. -/
class PythonRuntime where
  /-- `str.lower`. -/
  lower : String → String
  /-- `str.upper`. -/
  upper : String → String
  /-- `repr` of a string. -/
  repr : String → String
  /-- `unicodedata.decimal`: the digit that a character is in some script, if it is one. -/
  decimal : Char → Option (Fin 10)
  /-- The calendar date of an instant in a time zone, by its IANA name, if the calendar has it. -/
  localDate : String → Instant → Option Date
  /-- The SHA-256 digest of a token, as the link challenge stores it. -/
  tokenHash : String → String
  /-- On ASCII text `str.lower` is the ASCII mapping. -/
  lower_ascii : ∀ s : String, (∀ c ∈ s.toList, c.val < 128) →
    lower s = String.ofList (s.toList.map Char.toLower)

/-- Tables that agree with Python's on ASCII text and know only UTC, for concrete runs. -/
@[reducible] def PythonRuntime.ascii : PythonRuntime where
  lower s := String.ofList (s.toList.map Char.toLower)
  upper s := String.ofList (s.toList.map Char.toUpper)
  repr s := "'" ++ s ++ "'"
  decimal c := if c.isDigit then some (Fin.ofNat 10 (c.toNat - 48)) else none
  localDate _ t := Date.ofOrdinal? (t / 86400000000 + 719163)
  tokenHash s := s
  lower_ascii _ _ := rfl

/-- Comparing optional texts decides their equality. -/
instance lawfulBEqOptionString : LawfulBEq (Option String) := inferInstance

/-! ## Strings -/

/-- `str.lower` on a text that is seen to be ASCII. -/
lemma PythonRuntime.lower_of_all [PythonRuntime] {s : String}
    (h : s.toList.all (fun c => decide (c.val < 128)) = true) :
    PythonRuntime.lower s = String.ofList (s.toList.map Char.toLower) :=
  PythonRuntime.lower_ascii s fun c hc => of_decide_eq_true (List.all_eq_true.mp h c hc)

/-- `str.upper` leaves capital letters as they are. -/
def UpperKeepsCapitals [PythonRuntime] : Prop :=
  ∀ s : String, s.toList.all Char.isUpper = true → PythonRuntime.upper s = s

/-- The tables of ASCII leave capital letters as they are. -/
lemma upperKeepsCapitals_ascii : @UpperKeepsCapitals PythonRuntime.ascii := by
  intro s hs
  have hkept : s.toList.map Char.toUpper = s.toList := by
    refine (List.map_congr_left fun c hc => ?_).trans (List.map_id _)
    have hupper : c.val ≥ 'A'.val ∧ c.val ≤ 'Z'.val :=
      of_decide_eq_true (List.all_eq_true.mp hs c hc)
    have hlower : ¬ (c.val ≥ 'a'.val ∧ c.val ≤ 'z'.val) := by
      rintro ⟨ha, -⟩
      have hle : 'a'.val ≤ 'Z'.val := UInt32.le_trans ha hupper.2
      exact absurd hle (by decide)
    exact dif_neg hlower
  show String.ofList (s.toList.map Char.toUpper) = s
  rw [hkept, String.ofList_toList]

/-- `str.isspace` for one character. -/
def isSpace (c : Char) : Bool :=
  let n := c.toNat
  (9 ≤ n && n ≤ 13) || (28 ≤ n && n ≤ 32) || n == 0x85 || n == 0xA0 || n == 0x1680 ||
    (0x2000 ≤ n && n ≤ 0x200A) || n == 0x2028 || n == 0x2029 || n == 0x202F || n == 0x205F ||
    n == 0x3000

/-- `str.strip()` on characters. -/
def stripChars (cs : List Char) : List Char :=
  ((cs.dropWhile isSpace).reverse.dropWhile isSpace).reverse

/-- `str.strip()`. -/
def strip (s : String) : String := String.ofList (stripChars s.toList)

/-- Replace every run of whitespace by one space; `inRun` tells whether one was just written. -/
def collapseChars (inRun : Bool) : List Char → List Char
  | [] => []
  | c :: cs =>
    if isSpace c then
      if inRun then collapseChars true cs else ' ' :: collapseChars true cs
    else c :: collapseChars false cs

/-- `re.sub(r"\s+", " ", value.strip())`. -/
def collapseWhitespace (s : String) : String :=
  String.ofList (collapseChars false (stripChars s.toList))

lemma stripChars_eq (cs : List Char) : stripChars cs = Whitespace.trim isSpace cs := rfl

lemma collapseChars_eq (inRun : Bool) (cs : List Char) :
    collapseChars inRun cs = Whitespace.collapse isSpace ' ' inRun cs := by
  induction cs generalizing inRun with
  | nil => rfl
  | cons c cs ih => rw [collapseChars, Whitespace.collapse, ih, ih]

/-- Collapsing whitespace twice is collapsing it once. -/
lemma collapseWhitespace_idem (s : String) :
    collapseWhitespace (collapseWhitespace s) = collapseWhitespace s := by
  simp only [collapseWhitespace, String.toList_ofList, stripChars_eq, collapseChars_eq]
  rw [Whitespace.normal_idem (by decide)]

/-! ## Raised values -/

/-- Code that continues after a step returns what it returns after the step's value. -/
lemma Checked.bind_eq_ok {ε α β : Type} {x : Except ε α} {f : α → Except ε β} {b : β} :
    (x >>= f) = .ok b ↔ ∃ a, x = .ok a ∧ f a = .ok b := by
  cases x with
  | ok a => exact ⟨fun h => ⟨a, rfl, h⟩, by rintro ⟨_, ⟨⟩, h⟩; exact h⟩
  | error e => exact ⟨by rintro ⟨⟩, by rintro ⟨_, ⟨⟩, _⟩⟩

/-- Code that raises raised in its first step, or after it. -/
lemma Checked.bind_eq_error {ε α β : Type} {x : Except ε α} {f : α → Except ε β} {e : ε} :
    (x >>= f) = .error e ↔ x = .error e ∨ ∃ a, x = .ok a ∧ f a = .error e := by
  cases x with
  | ok a => exact ⟨fun h => .inr ⟨a, rfl, h⟩, by rintro (⟨⟨⟩⟩ | ⟨_, ⟨⟩, h⟩); exact h⟩
  | error raised =>
    constructor
    · intro h
      exact .inl (congrArg _ (Except.error.inj h))
    · rintro (h | ⟨_, ⟨⟩, _⟩)
      exact congrArg _ (Except.error.inj h)

/-- After a step that returned, the code goes on with its value. -/
lemma Checked.bind_ok {ε α β : Type} (a : α) (f : α → Except ε β) :
    (Except.ok a >>= f) = f a := rfl

/-- After a step that raised, nothing goes on. -/
lemma Checked.bind_error {ε α β : Type} (e : ε) (f : α → Except ε β) :
    (Except.error e >>= f) = .error e := rfl

/-- A value that is there was returned. -/
lemma Checked.of_toOption {ε α : Type} {x : Except ε α} {a : α} (h : x.toOption = some a) :
    x = .ok a := by
  cases x with
  | error e => cases h
  | ok b => exact congrArg _ (Option.some.inj h)

@[simp] lemma Checked.pure_eq_ok {ε α : Type} {a b : α} : (pure a : Except ε α) = .ok b ↔ a = b :=
  Except.ok.injEq a b ▸ Iff.rfl

/-- A loop that may raise returns the list of what its rounds return. -/
lemma Checked.mapM_eq_ok {ε α β : Type} {f : α → Except ε β} {xs : List α} {ys : List β} :
    xs.mapM f = .ok ys ↔ List.Forall₂ (fun x y => f x = .ok y) xs ys := by
  induction xs generalizing ys with
  | nil =>
    rw [List.mapM_nil, Checked.pure_eq_ok, List.forall₂_nil_left_iff]
    exact eq_comm
  | cons x xs ih =>
    rw [List.mapM_cons, List.forall₂_cons_left_iff, Checked.bind_eq_ok]
    constructor
    · rintro ⟨y, hy, h⟩
      obtain ⟨ys', hys', h⟩ := Checked.bind_eq_ok.mp h
      exact ⟨y, ys', hy, ih.mp hys', (Checked.pure_eq_ok.mp h).symm⟩
    · rintro ⟨y, ys', hy, hys', rfl⟩
      exact ⟨y, hy, Checked.bind_eq_ok.mpr ⟨ys', ih.mpr hys', rfl⟩⟩

/-- A loop that may raise goes through exactly when each of its rounds does. -/
lemma Checked.mapM_isOk_iff {ε α β : Type} {f : α → Except ε β} {xs : List α} :
    (∃ ys, xs.mapM f = .ok ys) ↔ ∀ x ∈ xs, ∃ y, f x = .ok y := by
  simp only [Checked.mapM_eq_ok]
  induction xs with
  | nil => exact ⟨fun _ x hx => absurd hx List.not_mem_nil, fun _ => ⟨[], .nil⟩⟩
  | cons x xs ih =>
    rw [List.forall_mem_cons, ← ih]
    constructor
    · rintro ⟨ys, h⟩
      obtain ⟨y, ys', hy, hys', -⟩ := List.forall₂_cons_left_iff.mp h
      exact ⟨⟨y, hy⟩, ys', hys'⟩
    · rintro ⟨⟨y, hy⟩, ys, hys⟩
      exact ⟨y :: ys, .cons hy hys⟩

/-- A loop that raises raises what one of its rounds did.

**Proof sketch.** Induction on the list: the first element raises, or the loop over the others
does. -/
lemma Checked.mapM_eq_error {ε α β : Type} {f : α → Except ε β} {xs : List α} {e : ε}
    (h : xs.mapM f = .error e) : ∃ x ∈ xs, f x = .error e := by
  induction xs with
  | nil => cases h
  | cons x xs ih =>
    rw [List.mapM_cons] at h
    cases hx : f x with
    | error e' =>
      rw [hx] at h
      cases h
      exact ⟨x, List.mem_cons_self, hx⟩
    | ok y =>
      rw [hx, Checked.bind_ok] at h
      cases hxs : xs.mapM f with
      | error e' =>
        rw [hxs] at h
        cases h
        obtain ⟨x', hx', he⟩ := ih hxs
        exact ⟨x', List.mem_cons_of_mem _ hx', he⟩
      | ok ys =>
        rw [hxs] at h
        cases h

/-- `if not c: raise ValueError(message)`. -/
def require (c : Prop) [Decidable c] (message : String) : Checked Unit :=
  if c then .ok () else .error message

@[simp] lemma require_eq_ok {c : Prop} [Decidable c] {message : String} {u : Unit} :
    require c message = .ok u ↔ c := by
  unfold require
  split_ifs with h <;> simp [h]

/-! ## Datetimes -/

/-- A `datetime`: the reading of a wall clock, and its offset from UTC when it is aware. -/
structure DateTime where
  /-- The clock reading, in microseconds. -/
  wall : ℤ
  /-- The offset from UTC, in microseconds. -/
  utcoffset : Option ℤ
deriving DecidableEq

/-- An instant as an aware datetime in UTC, as `datetime.now(UTC)` gives it. -/
def Instant.toDateTime (t : Instant) : DateTime := ⟨t, some 0⟩

/-- `astimezone(UTC)`; the program converts aware datetimes only. -/
def DateTime.astimezoneUtc (now : DateTime) : Instant := now.wall - now.utcoffset.getD 0

/-- `_require_aware`. -/
def requireAware (now : DateTime) : Checked Unit :=
  require (now.utcoffset ≠ none) "now must be timezone-aware"

@[simp] lemma requireAware_eq_ok {now : DateTime} {u : Unit} :
    requireAware now = .ok u ↔ now.utcoffset ≠ none := by
  simp [requireAware]

@[simp] lemma astimezoneUtc_toDateTime (t : Instant) : (Instant.toDateTime t).astimezoneUtc = t := by
  simp [Instant.toDateTime, DateTime.astimezoneUtc]

@[simp] lemma requireAware_toDateTime (t : Instant) :
    requireAware (Instant.toDateTime t) = .ok () := rfl

end MintFlow
