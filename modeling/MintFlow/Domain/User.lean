import MintFlow.Domain.Values
import MintFlow.Lib.DecimalContext

set_option relaxedAutoImplicit false
set_option autoImplicit false

/-!
# Users and Telegram link records

What the capture paths read of a user, and the two records of the Telegram linking ceremony. Times
of creation, languages and locales play no part in them.

## Main definitions

* `MintFlow.User` — a user's status and preferences.
* `MintFlow.localToday`, `MintFlow.isWithinFutureTolerance` — today where a user lives, and the
  dates that are not too far ahead of it.
* `MintFlow.TelegramConnection`, `MintFlow.TelegramLinkChallenge` — a link, and a claim to one.
-/

namespace MintFlow

open Transact

/-- Whether a user may act. -/
inductive UserStatus
  | active
  | deactivated
deriving DecidableEq, Repr

/-- A user. -/
structure User where
  id : UUID
  status : UserStatus
  timezone : String
  defaultCurrency : Option CurrencyCode
deriving DecidableEq

/-! ## Today -/

/-- A date that the calendar may not have; to ask for one outside of it is an overflow. -/
def inCalendar {α : Type} : Option α → Except Raised α
  | some x => .ok x
  | none => .error .overflowError

lemma inCalendar_eq_ok {α : Type} {x : Option α} {y : α} : inCalendar x = .ok y ↔ x = some y := by
  cases x with
  | none => exact iff_of_false nofun nofun
  | some z => exact ⟨fun h => congrArg some (Except.ok.inj h), fun h => congrArg _ (Option.some.inj h)⟩

lemma inCalendar_eq_error {α : Type} {x : Option α} {e : Raised} (h : inCalendar x = .error e) :
    e = .overflowError := by
  cases x <;> cases h
  rfl

section Today

variable [PythonRuntime]

/-- `local_today`: the calendar date of an instant in a time zone. -/
def localToday (now : Instant) (timezone : String) : Except Raised Date :=
  inCalendar (PythonRuntime.localDate timezone now)

/-- The calendar date of an instant where the user lives. -/
def User.localToday (u : User) (now : Instant) : Except Raised Date :=
  MintFlow.localToday now u.timezone

/-- `is_within_future_tolerance`: at most one day past the owner's local today. -/
def isWithinFutureTolerance (date : TransactionDate) (now : Instant) (timezone : String) :
    Except Raised Bool := do
  let localToday ← MintFlow.localToday now timezone
  let last ← inCalendar (localToday.addDays? 1)
  return decide (date.value ≤ last)

/-- **The tolerance** is judged while the calendar has today and tomorrow, and it reaches to
tomorrow.

**Proof sketch.** Cases on the local date and on whether the day after it is in the calendar; where
both are there, dates compare as their ordinals do. -/
lemma isWithinFutureTolerance_eq_ok {date : TransactionDate} {now : Instant} {timezone : String}
    {b : Bool} :
    isWithinFutureTolerance date now timezone = .ok b ↔
      ∃ today, PythonRuntime.localDate timezone now = some today ∧ today.ordinal < maxOrdinal ∧
        b = decide (date.value.ordinal ≤ today.ordinal + 1) := by
  unfold isWithinFutureTolerance localToday
  cases PythonRuntime.localDate timezone now with
  | none => exact iff_of_false nofun (by rintro ⟨today, htoday, -⟩; cases htoday)
  | some today =>
    by_cases hlast : today.ordinal < maxOrdinal
    · obtain ⟨last, hadd, hordinal⟩ := Date.addDays?_eq_some (d := today) (n := 1) (by omega)
        (by omega)
      have heq : decide (date.value ≤ last) = decide (date.value.ordinal ≤ today.ordinal + 1) := by
        refine decide_eq_decide.mpr ?_
        show date.value.ordinal ≤ last.ordinal ↔ _
        omega
      simp only [inCalendar, hadd, bind, Except.bind, pure, Except.pure, heq]
      constructor
      · intro h
        exact ⟨today, rfl, hlast, (Except.ok.inj h).symm⟩
      · rintro ⟨today', htoday', -, rfl⟩
        rw [Option.some.inj htoday']
    · have hnone : today.addDays? 1 = none := Date.addDays?_eq_none.mpr (by omega)
      simp only [inCalendar, hnone, bind, Except.bind]
      refine iff_of_false nofun ?_
      rintro ⟨today', htoday', hlast', -⟩
      cases htoday'
      exact hlast hlast'

end Today

/-- A link between a user and a Telegram account. -/
structure TelegramConnection where
  id : UUID
  userId : UUID
  telegramUserId : ℤ
  unlinkedAt : Option Instant
deriving DecidableEq

/-- A link challenge. -/
structure TelegramLinkChallenge where
  id : UUID
  tokenHash : String
  initiatingUserId : UUID
  expiresAt : Instant
  claimedAt : Option Instant
  claimedTelegramUserId : Option ℤ
  claimedTelegramDisplayName : Option String
  confirmedAt : Option Instant
deriving DecidableEq

end MintFlow
