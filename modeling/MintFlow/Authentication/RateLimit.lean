import MintFlow.Lib.Program
import MintFlow.Lib.Table
import MintFlow.Python
import Mathlib.Data.Prod.Lex
import Mathlib.Data.List.Sort
import Mathlib.Data.String.Basic

set_option relaxedAutoImplicit false
set_option autoImplicit false

/-!
# Rate limits of sign-in

Requests are counted in buckets, one for each dimension, key and window of fifteen minutes. A key is
stored as a keyed digest. A bucket expires a day after its window starts.

## Main definitions

* `MintFlow.fixedWindowStart` — the start of the window of an instant.
* `MintFlow.RateLimitReservation`, `MintFlow.makeReservation` — a place in a bucket.
* `MintFlow.BucketRecord` — a stored bucket.

## Main results

* `MintFlow.windowStart_unique` — every instant is in exactly one window, and that is the one whose
  start is computed.
-/

namespace MintFlow

open Transact

/-- `RATE_LIMIT_WINDOW`, in microseconds. -/
def rateLimitWindow : ℤ := 15 * 60000000

/-- `RATE_LIMIT_RETENTION` and `MAX_RATE_LIMIT_RETENTION`, in microseconds. -/
def rateLimitRetention : ℤ := 24 * 60 * 60000000

/-- `EMAIL_DELIVERY_LIMIT`. -/
def emailDeliveryLimit : ℕ := 3

/-- `NETWORK_REQUEST_LIMIT`. -/
def networkRequestLimit : ℕ := 30

/-- What is limited. -/
inductive RateLimitDimension
  | emailDelivery
  | networkRequest
deriving DecidableEq, Repr

/-- The stored name of a dimension. -/
def RateLimitDimension.value : RateLimitDimension → String
  | .emailDelivery => "email_delivery"
  | .networkRequest => "network_request"

/-- The limit of a dimension. -/
def RateLimitDimension.limit : RateLimitDimension → ℕ
  | .emailDelivery => emailDeliveryLimit
  | .networkRequest => networkRequestLimit

/-- The digest of a key. -/
abbrev KeyDigest := BitVec 256

/-! ## Windows -/

/-- The start of the window of an instant: its hour and a quarter of it. -/
def windowStart (utcNow : ℤ) : ℤ :=
  let minute := utcNow / 60000000 % 60
  utcNow - utcNow % 3600000000 + (minute - minute % 15) * 60000000

/-- `fixed_window_start`. -/
def fixedWindowStart (now : DateTime) : Checked Instant := do
  requireAware now
  return windowStart now.astimezoneUtc

/-- An instant at which a window starts: a multiple of fifteen minutes. -/
def IsWindow (w : ℤ) : Prop := rateLimitWindow ∣ w

/-- An instant is in the window that starts at `w`. -/
def InWindow (w t : ℤ) : Prop := w ≤ t ∧ t < w + rateLimitWindow

lemma windowStart_eq (t : ℤ) : windowStart t = t - t % rateLimitWindow := by
  unfold windowStart rateLimitWindow
  simp only
  omega

/-- **Windows.** Every instant is in exactly one window, and its start is the one computed. -/
theorem windowStart_unique (t w : ℤ) : IsWindow w ∧ InWindow w t ↔ w = windowStart t := by
  rw [windowStart_eq]
  unfold IsWindow InWindow rateLimitWindow
  constructor
  · rintro ⟨⟨k, rfl⟩, hle, hlt⟩
    omega
  · rintro rfl
    refine ⟨⟨t / (15 * 60000000), ?_⟩, ?_, ?_⟩
    all_goals omega

@[simp] lemma fixedWindowStart_toDateTime (t : Instant) :
    fixedWindowStart t.toDateTime = .ok (windowStart t) := by
  rw [fixedWindowStart, requireAware_toDateTime, astimezoneUtc_toDateTime]
  rfl

/-! ## Reservations and buckets -/

/-- The key of a bucket. -/
structure BucketKey where
  dimension : RateLimitDimension
  keyDigest : KeyDigest
  windowStartedAt : ℤ
deriving DecidableEq

/-- When the bucket of a key expires. -/
def BucketKey.expiry (key : BucketKey) : ℤ := key.windowStartedAt + rateLimitRetention

/-- A place in a bucket. -/
structure RateLimitReservation where
  key : BucketKey
  expiresAt : ℤ
  limit : ℕ
  expires : expiresAt = key.expiry
deriving DecidableEq

/-- `make_reservation`. -/
def makeReservation (dimension : RateLimitDimension) (keyDigest : KeyDigest) (now : DateTime)
    (limit : ℕ) : Checked RateLimitReservation := do
  let windowStartedAt ← fixedWindowStart now
  return ⟨⟨dimension, keyDigest, windowStartedAt⟩, windowStartedAt + rateLimitRetention, limit, rfl⟩

/-- A row of `authentication_rate_limit_buckets`; it keeps the expiry of the reservation that made
it. -/
structure BucketRecord where
  key : BucketKey
  count : ℕ
  expiresAt : ℤ
  /-- `ck_auth_rate_limit_buckets_count_positive`. -/
  positive : 0 < count
  expires : expiresAt = key.expiry

/-- The table of buckets. -/
abbrev Buckets := Table BucketRecord.key

/-- The reservations a bucket counts. -/
def Buckets.count (buckets : Buckets) (key : BucketKey) : ℕ :=
  ((buckets.find key).map BucketRecord.count).getD 0

/-- The upsert of `reserve`: the row to put, if the bucket has a place left. -/
def Buckets.reserve (buckets : Buckets) (reservation : RateLimitReservation) : Option BucketRecord :=
  match buckets.find reservation.key with
  | none => some ⟨reservation.key, 1, reservation.expiresAt, one_pos, reservation.expires⟩
  | some row =>
    if row.count < reservation.limit then
      some { row with count := row.count + 1, positive := Nat.succ_pos _ }
    else none

/-- `LEAST(expires_at, window_started_at + INTERVAL '24 hours'), dimension, key_digest,
window_started_at`. -/
def BucketRecord.deletionOrder (row : BucketRecord) : ℤ ×ₗ String ×ₗ ℕ ×ₗ ℤ :=
  toLex (min row.expiresAt (row.key.windowStartedAt + rateLimitRetention),
    toLex (row.key.dimension.value, toLex (row.key.keyDigest.toNat, row.key.windowStartedAt)))

/-- The rows that `delete_rate_limit_buckets` deletes: in order, those that nobody holds. -/
def Buckets.expired (buckets : Buckets) (expiredAt maximumAgeAt : ℤ)
    (locked : BucketKey → Bool) (batchSize : ℕ) : List BucketRecord :=
  let candidates := buckets.rows.filter fun row =>
    decide (row.expiresAt ≤ expiredAt ∨ row.key.windowStartedAt ≤ maximumAgeAt) && !locked row.key
  (candidates.insertionSort fun a b => a.deletionOrder ≤ b.deletionOrder).take batchSize

variable {buckets : Buckets} {reservation : RateLimitReservation} {row : BucketRecord}

/-- A place that is given has the bucket's key and counts one more. -/
lemma Buckets.reserve_eq_some (h : buckets.reserve reservation = some row) :
    row.key = reservation.key ∧ row.count = buckets.count reservation.key + 1 ∧
      (0 < reservation.limit → row.count ≤ reservation.limit) := by
  unfold reserve at h
  unfold count
  cases hfind : buckets.find reservation.key with
  | none =>
    rw [hfind] at h
    obtain rfl := Option.some.inj h
    exact ⟨rfl, rfl, fun hpos => hpos⟩
  | some row' =>
    rw [hfind] at h
    simp only [Option.ite_none_right_eq_some, Option.some.injEq] at h
    obtain ⟨hlt, rfl⟩ := h
    exact ⟨show row'.key = _ from Table.key_of_find hfind, rfl, fun _ => hlt⟩

/-- What is deleted had expired by the later of the two cutoffs. -/
lemma Buckets.expiry_of_mem_expired {expiredAt : ℤ} {locked : BucketKey → Bool}
    {batchSize : ℕ} (h : row ∈ buckets.expired expiredAt (expiredAt - rateLimitRetention) locked
      batchSize) : row.key.expiry ≤ expiredAt := by
  unfold expired at h
  have hmem := List.mem_of_mem_take h
  rw [List.mem_insertionSort, List.mem_filter, Bool.and_eq_true, decide_eq_true_eq] at hmem
  rcases hmem.2.1 with hexpired | hold
  · rw [← row.expires]
    exact hexpired
  · unfold BucketKey.expiry
    omega

end MintFlow
