import MintFlow.Authentication.SignIn
import Mathlib.Data.List.Induction
import Mathlib.Data.List.Perm.Subperm

set_option relaxedAutoImplicit false
set_option autoImplicit false

/-!
# Sign-in requests together

Any number of requests and of deletions of buckets run at READ COMMITTED, on one clock that does not
go back. A reservation counts once its transaction is committed. While a bucket can be reserved from,
it counts every reservation of it, because whoever counts holds its row; after that nothing is added.

## Main definitions

* `MintFlow.SignInJob`, `MintFlow.SignInSystem` — the sessions.
* `MintFlow.Ledger`, `MintFlow.ledger` — the reservations that were allowed.
* `MintFlow.Timely` — what the clock says, and that no reservation is a day late.
* `MintFlow.RateLimited` — what the limits promise.

## Main results

* `MintFlow.sign_in_rate_limited` — **Sign-in rate limit**: whatever is reached keeps the promise.
-/

namespace MintFlow

open Transact Transact.Prog

/-! ## Sessions -/

/-- What a session does. -/
inductive SignInJob
  | request (submittedEmail networkSource returnTarget : String)
  | cleanUp (batchSize : ℤ)

/-- The program of a session. -/
def SignInJob.program [PythonRuntime] (runtime : SignInRuntime) : SignInJob → SignInProgram Unit
  | .request submittedEmail networkSource returnTarget =>
    requestMagicLink runtime submittedEmail networkSource returnTarget
  | .cleanUp batchSize => cleanUpBuckets batchSize

/-- The database with its sessions, named by `ι`. -/
abbrev SignInSystem (ι : Type) := Config signIn SignInData SignInWrite SignInKey ι Unit

variable {ι : Type}

/-- Every session is about to begin. -/
def startedSignIn [PythonRuntime] (runtime : SignInRuntime) (db : SignInData) (jobs : ι → SignInJob)
    (tapes : ι → Stream' SignInReading) : SignInSystem ι where
  db := db
  holders := fun _ => []
  sessions := fun i => ⟨(jobs i).program runtime, tapes i, [], false⟩
  log := []
  sent := []

/-- Whether a session may act now: what it reads of the clock is the time, and what it reserves has
not expired. -/
def Timely (c : SignInSystem ι) (now : ℤ) (i : ι) : Prop :=
  (∀ k, (c.sessions i).prog = .ask k → (c.sessions i).tape.head.now.astimezoneUtc = now) ∧
    ∀ r k, (c.sessions i).prog = .stmt (.reserve r) k → now < r.key.expiry

/-- Whether that is so. -/
def isTimely (c : SignInSystem ι) (now : ℤ) (i : ι) : Bool :=
  match (c.sessions i).prog with
  | .ask _ => decide ((c.sessions i).tape.head.now.astimezoneUtc = now)
  | .stmt (.reserve r) _ => decide (now < r.key.expiry)
  | _ => true

/-- The check of a step decides whether it is timely. -/
lemma timely_of_isTimely {c : SignInSystem ι} {now : ℤ} {i : ι} (h : isTimely c now i = true) :
    Timely c now i := by
  unfold isTimely at h
  constructor
  · intro k hk
    rw [hk] at h
    exact of_decide_eq_true h
  · intro r k hk
    rw [hk] at h
    exact of_decide_eq_true h

/-! ## What is reserved -/

/-- The reservations of a session: those of the open transaction, those that are committed, and
whether one was refused. -/
structure Reserved where
  opened : List BucketKey
  granted : List BucketKey
  refused : Bool

namespace Reserved

/-- After a statement. -/
def after (k : Reserved) : (o : SignInStmt) → o.Resp → Reserved
  | .reserve r, allowed =>
    if (show Bool from allowed) then { k with opened := k.opened ++ [r.key] }
    else { k with refused := true }
  | _, _ => k

/-- After a commit. -/
def committed (k : Reserved) : Reserved := ⟨[], k.granted ++ k.opened, k.refused⟩

/-- After a rollback. -/
def rolledBack (k : Reserved) : Reserved := ⟨[], k.granted, k.refused⟩

/-- After an event. -/
def next (k : Reserved) : Event signIn → Reserved
  | .did o r => k.after o r
  | .committed => k.committed
  | .rolledBack => k.rolledBack

end Reserved

/-- The reservations of all sessions. -/
structure Ledger (ι : Type) where
  opened : ι → List BucketKey
  granted : List (ι × BucketKey)

namespace Ledger

variable [DecidableEq ι]

/-- After an event of session `i`. -/
def next (l : Ledger ι) (i : ι) : Event signIn → Ledger ι
  | .did (.reserve r) allowed =>
    if (show Bool from allowed) then
      { l with opened := Function.update l.opened i (l.opened i ++ [r.key]) }
    else l
  | .did _ _ => l
  | .committed =>
    ⟨Function.update l.opened i [], l.granted ++ (l.opened i).map fun key => (i, key)⟩
  | .rolledBack => { l with opened := Function.update l.opened i [] }

/-- How many reservations of a bucket were granted. -/
def grants (l : Ledger ι) (key : BucketKey) : ℕ :=
  l.granted.countP fun g => decide (g.2 = key)

/-- What session `i` was granted. -/
def grantedTo (l : Ledger ι) (i : ι) : List BucketKey :=
  l.granted.filterMap fun g => if g.1 = i then some g.2 else none

end Ledger

section Systems

variable [DecidableEq ι]

/-- The reservations made in a log. -/
def ledger (log : List (ι × Event signIn)) : Ledger ι :=
  log.foldl (fun l e => l.next e.1 e.2) ⟨fun _ => [], []⟩

/-- The reservations made by a session with a history. -/
def reservedIn (history : List (Event signIn)) : Reserved := history.foldl Reserved.next ⟨[], [], false⟩

/-- A log that is longer by an event. -/
lemma ledger_note (c : SignInSystem ι) (i : ι) (e : Event signIn) :
    ledger (c.note i e).log = (ledger c.log).next i e := by
  rw [ledger, Config.note, List.foldl_append]
  rfl

/-- **The ledger and the histories** agree.

**Proof sketch.** Induction on the log from its end: an event of the session is the last one of its
history, and any other leaves what the session has alone. -/
lemma ledger_eq (log : List (ι × Event signIn)) (i : ι) :
    let history := log.filterMap fun e => if e.1 = i then some e.2 else none
    (ledger log).opened i = (reservedIn history).opened ∧
      (ledger log).grantedTo i = (reservedIn history).granted := by
  induction log using List.reverseRecOn with
  | nil => exact ⟨rfl, rfl⟩
  | append_singleton log e ih =>
    obtain ⟨j, e⟩ := e
    have hledger : ledger (log ++ [(j, e)]) = (ledger log).next j e := by
      rw [ledger, List.foldl_append]
      rfl
    simp only at ih ⊢
    rw [hledger, List.filterMap_append]
    by_cases hj : j = i
    · subst hj
      have hhistory : reservedIn (log.filterMap (fun e => if e.1 = j then some e.2 else none) ++
          [(j, e)].filterMap fun e => if e.1 = j then some e.2 else none) =
            (reservedIn (log.filterMap fun e => if e.1 = j then some e.2 else none)).next e := by
        rw [reservedIn, List.foldl_append]
        simp [reservedIn]
      rw [hhistory]
      obtain ⟨hopened, hgranted⟩ := ih
      cases e with
      | did o r =>
        cases o with
        | reserve reservation =>
          change Bool at r
          cases r with
          | true =>
            refine ⟨?_, hgranted⟩
            show Function.update (ledger log).opened j _ j = _ ++ [reservation.key]
            rw [Function.update_self, hopened]
          | false => exact ⟨hopened, hgranted⟩
        | _ => exact ⟨hopened, hgranted⟩
      | committed =>
        refine ⟨Function.update_self _ _ _, ?_⟩
        show List.filterMap _ (_ ++ _) = _ ++ _
        rw [List.filterMap_append, ← hgranted, ← hopened]
        congr 1
        simp [List.filterMap_map]
      | rolledBack => exact ⟨Function.update_self _ _ _, hgranted⟩
    · have hother : [(j, e)].filterMap (fun e => if e.1 = i then some e.2 else none) = [] := by
        simp [hj]
      rw [hother, List.append_nil]
      obtain ⟨hopened, hgranted⟩ := ih
      have hne : i ≠ j := fun h => hj h.symm
      cases e with
      | did o r =>
        cases o with
        | reserve reservation =>
          change Bool at r
          cases r with
          | true =>
            refine ⟨?_, hgranted⟩
            show Function.update (ledger log).opened j _ i = _
            rw [Function.update_of_ne hne, hopened]
          | false => exact ⟨hopened, hgranted⟩
        | _ => exact ⟨hopened, hgranted⟩
      | committed =>
        refine ⟨(Function.update_of_ne hne _ _).trans hopened, ?_⟩
        show List.filterMap _ (_ ++ _) = _
        rw [List.filterMap_append, ← hgranted]
        simp [Ledger.grantedTo, List.filterMap_map, hj]
      | rolledBack => exact ⟨(Function.update_of_ne hne _ _).trans hopened, hgranted⟩

end Systems

/-! ## What a request does -/

section Requests

variable (runtime : SignInRuntime)

/-- The bucket of a network source. -/
def networkKey (networkSource : String) (issuedAt : ℤ) : BucketKey :=
  ⟨.networkRequest, runtime.digest .networkRequest networkSource, windowStart issuedAt⟩

/-- The bucket of an address. -/
def emailKey (canonicalEmail : String) (issuedAt : ℤ) : BucketKey :=
  ⟨.emailDelivery, runtime.digest .emailDelivery canonicalEmail, windowStart issuedAt⟩

/-- The canonical address that a job sends to. -/
def SignInJob.canonicalEmail : SignInJob → Option String
  | .request submittedEmail _ _ =>
    (runtime.normalizeEmail submittedEmail).map NormalizedEmail.canonicalEmail
  | .cleanUp _ => none

/-- The network source that a job comes from. -/
def SignInJob.networkSource : SignInJob → Option String
  | .request _ networkSource _ => some networkSource
  | .cleanUp _ => none

/-- The buckets that a job reserves from when it is issued at a time: that of its network source,
then that of its address. -/
def SignInJob.keys (job : SignInJob) (issuedAt : ℤ) : List BucketKey :=
  match job.networkSource, job.canonicalEmail runtime with
  | some source, some canonical => [networkKey runtime source issuedAt, emailKey runtime canonical issuedAt]
  | _, _ => []

/-- What may be reserved: the first bucket, and the second after the first. -/
def MayReserve (job : SignInJob) (issuedAt : ℤ) (r : RateLimitReservation) (k : Reserved) : Prop :=
  r.limit = r.key.dimension.limit ∧ k.refused = false ∧ k.opened = [] ∧
    k.granted ++ [r.key] <+: job.keys runtime issuedAt

/-- A reader that follows the reservations of a job. -/
def signInTracker (job : SignInJob) (issuedAt : ℤ) : Tracker signIn Reserved where
  start := ⟨[], [], false⟩
  answers := fun _ _ => True
  mayDo := fun o k =>
    match o with
    | .reserve r => MayReserve runtime job issuedAt r k
    | .deleteBuckets expiredAt maximumAgeAt _ =>
      expiredAt = issuedAt ∧ maximumAgeAt = issuedAt - rateLimitRetention
    | _ => True
  after := fun o r k => k.after o r
  maySend := fun k => k.granted = job.keys runtime issuedAt ∧ k.granted ≠ []
  mayCommit := fun _ => True
  committed := Reserved.committed
  rolledBack := Reserved.rolledBack
  mayFail := fun _ _ => True

lemma signInTracker_state (job : SignInJob) (issuedAt : ℤ) (history : List (Event signIn)) :
    (signInTracker runtime job issuedAt).state history = reservedIn history := by
  unfold Tracker.state reservedIn
  congr 1
  funext k e
  cases e <;> rfl

section Wp

variable {runtime} {job : SignInJob} {issuedAt : ℤ} {k : Reserved}

/-- Recording a request reserves nothing. -/
lemma wp_appendRequestAudit (occurredAt : Instant) (succeeded : Bool) (subject : Option UUID)
    {Q : Unit → Reserved → Prop} (hQ : ∀ k', k'.opened = [] → Q () k') :
    (appendRequestAudit occurredAt succeeded subject).wp (signInTracker runtime job issuedAt).logic
      Q k :=
  fun _ => ⟨trivial, fun _ _ => ⟨trivial, hQ _ rfl⟩⟩

/-- A reservation that a job may make is granted, or refused and never tried again. -/
lemma wp_reserve {r : RateLimitReservation} (hr : MayReserve runtime job issuedAt r k)
    {Q : Bool → Reserved → Prop} (hgranted : Q true ⟨[], k.granted ++ [r.key], false⟩)
    (hrefused : Q false ⟨[], k.granted, true⟩) :
    (reserve r).wp (signInTracker runtime job issuedAt).logic Q k := by
  obtain ⟨opened, granted, refused⟩ := k
  obtain ⟨-, rfl, rfl, -⟩ := id hr
  refine ⟨hr, fun allowed _ => ?_⟩
  change Bool at allowed
  cases allowed with
  | true => exact ⟨trivial, hgranted⟩
  | false =>
    refine ⟨trivial, ?_⟩
    show Q false ⟨[], granted ++ [], true⟩
    rw [List.append_nil]
    exact hrefused

/-- **A request** reserves from its buckets in order, and sends its link after both.

**Proof sketch.** Along the program. A clock without time zone, an address that is none and a
refusal each end it with at most an audit record. The two reservations are of the keys of the job,
in their order, and what is sent after both has all of them granted. -/
lemma wp_requestMagicLinkAt [PythonRuntime] (submittedEmail networkSource returnTarget : String) (now : DateTime) :
    (requestMagicLinkAt runtime submittedEmail networkSource returnTarget now).wp
      (signInTracker runtime (.request submittedEmail networkSource returnTarget)
        now.astimezoneUtc).logic (fun _ _ => True) ⟨[], [], false⟩ := by
  unfold requestMagicLinkAt
  refine (wp_bind _ _).mpr ?_
  cases require (now.utcoffset ≠ none) "clock must return a timezone-aware datetime" with
  | error e => trivial
  | ok u =>
    show Prog.wp _ _ _ _
    cases hemail : runtime.normalizeEmail submittedEmail with
    | none =>
      simp only
      exact wp_appendRequestAudit _ _ _ fun _ _ => trivial
    | some email =>
      simp only
      have hkeys : (SignInJob.request submittedEmail networkSource returnTarget).keys runtime
          now.astimezoneUtc = [networkKey runtime networkSource now.astimezoneUtc,
            emailKey runtime email.canonicalEmail now.astimezoneUtc] := by
        simp only [SignInJob.keys, SignInJob.networkSource, SignInJob.canonicalEmail, hemail,
          Option.map_some]
      have hlift : ∀ (dimension : RateLimitDimension) (digest : KeyDigest) (limit : ℕ),
          makeReservation dimension digest (Instant.toDateTime now.astimezoneUtc) limit =
            .ok ⟨⟨dimension, digest, windowStart now.astimezoneUtc⟩, _, limit, rfl⟩ := by
        intro dimension digest limit
        rw [makeReservation, fixedWindowStart_toDateTime]
        rfl
      split_ifs
      · rw [hlift, hlift]
        refine (wp_bind _ _).mpr ((wp_bind _ _).mpr ?_)
        refine wp_reserve ⟨rfl, rfl, rfl, ?_⟩ ?_ (wp_appendRequestAudit _ _ _ fun _ _ => trivial)
        · rw [hkeys]
          exact ⟨[_], rfl⟩
        refine (wp_bind _ _).mpr ((wp_bind _ _).mpr ?_)
        refine wp_reserve ⟨rfl, rfl, rfl, ?_⟩ ?_ (wp_appendRequestAudit _ _ _ fun _ _ => trivial)
        · rw [hkeys]
          exact ⟨[], rfl⟩
        -- Both places are granted, so the link may be sent.
        intro reading
        refine ⟨trivial, fun _ _ => ⟨trivial, ⟨?_, ?_⟩, wp_appendRequestAudit _ _ _ fun _ _ => trivial⟩⟩
        · exact hkeys.symm
        · exact List.cons_ne_nil _ _
      · exact (wp_bind _ _).mpr (wp_appendRequestAudit _ _ _ fun _ _ => trivial)

/-- **A deletion** deletes what expired before the time it read. -/
lemma wp_cleanUpBucketsAt (batchSize : ℤ) (size : ℕ) (now : DateTime) :
    (cleanUpBucketsAt size now).wp
      (signInTracker runtime (.cleanUp batchSize) now.astimezoneUtc).logic (fun _ _ => True)
        ⟨[], [], false⟩ := by
  unfold cleanUpBucketsAt
  refine (wp_bind _ _).mpr ?_
  cases requireAware now with
  | error e => trivial
  | ok u => exact ⟨⟨rfl, rfl⟩, fun _ _ => ⟨trivial, trivial⟩⟩

/-- **Every job** fails at once, or reads the clock and goes on as its tracker demands. -/
lemma program_cases [PythonRuntime] (job : SignInJob) :
    (∃ e, job.program runtime = .fail e) ∨
      ∃ f, job.program runtime = .ask f ∧ ∀ reading : SignInReading,
        (f reading).wp (signInTracker runtime job reading.now.astimezoneUtc).logic
          (fun _ _ => True) ⟨[], [], false⟩ := by
  cases job with
  | request submittedEmail networkSource returnTarget =>
    exact .inr ⟨_, rfl, fun reading => wp_requestMagicLinkAt _ _ _ reading.now⟩
  | cleanUp batchSize =>
    by_cases h : 0 < batchSize
    · refine .inr ⟨fun reading => cleanUpBucketsAt batchSize.toNat reading.now, if_pos h, ?_⟩
      exact fun reading => wp_cleanUpBucketsAt _ _ reading.now
    · exact .inl ⟨_, if_neg h⟩

/-- **Every job** sends at most one link.

**Proof sketch.** Along the program: the only statement that sends comes once, after every branch
that ends it early. -/
lemma program_budget [PythonRuntime] (job : SignInJob) :
    (job.program runtime).wp (budgetLogic signIn) (fun _ _ => True) 1 := by
  have haudit : ∀ (n : ℕ) (t : Instant) (succeeded : Bool) (subject : Option UUID)
      (Q : Unit → ℕ → Prop), (∀ n, Q () n) →
        (appendRequestAudit t succeeded subject).wp (budgetLogic signIn) Q n :=
    fun _ _ _ _ _ hQ _ _ => hQ _
  cases job with
  | cleanUp batchSize =>
    by_cases h : 0 < batchSize
    · show (cleanUpBuckets batchSize).wp _ _ _
      rw [cleanUpBuckets, if_pos h]
      intro reading
      unfold cleanUpBucketsAt
      refine (wp_bind _ _).mpr ?_
      cases requireAware reading.now with
      | error e => trivial
      | ok u => exact fun _ => trivial
    · show (cleanUpBuckets batchSize).wp _ _ _
      rw [cleanUpBuckets, if_neg h]
      trivial
  | request submittedEmail networkSource returnTarget =>
    intro reading
    unfold requestMagicLinkAt
    refine (wp_bind _ _).mpr ?_
    cases require (reading.now.utcoffset ≠ none) "clock must return a timezone-aware datetime" with
    | error e => trivial
    | ok u =>
      show Prog.wp _ _ _ _
      cases runtime.normalizeEmail submittedEmail with
      | none => exact haudit _ _ _ _ _ fun _ => trivial
      | some email =>
        simp only
        split_ifs
        swap
        · exact (wp_bind _ _).mpr (haudit _ _ _ _ _ fun _ => trivial)
        refine (wp_bind _ _).mpr ?_
        cases makeReservation .networkRequest (runtime.digest .networkRequest networkSource)
          (Instant.toDateTime reading.now.astimezoneUtc) networkRequestLimit with
        | error e => trivial
        | ok network =>
          refine (wp_bind _ _).mpr fun (allowed : Bool) => ?_
          cases allowed with
          | false => exact haudit _ _ _ _ _ fun _ => trivial
          | true =>
            refine (wp_bind _ _).mpr ?_
            cases makeReservation .emailDelivery
              (runtime.digest .emailDelivery email.canonicalEmail)
              (Instant.toDateTime reading.now.astimezoneUtc) emailDeliveryLimit with
            | error e => trivial
            | ok delivery =>
              refine (wp_bind _ _).mpr fun (allowed : Bool) => ?_
              cases allowed with
              | false => exact haudit _ _ _ _ _ fun _ => trivial
              | true => exact fun _ _ => ⟨0, rfl, haudit _ _ _ _ _ fun _ => trivial⟩

end Wp

end Requests

/-! ## Where a session is -/

section FollowsTape

variable [DecidableEq ι] [PythonRuntime] {runtime : SignInRuntime} {jobs : ι → SignInJob}
  {tapes : ι → Stream' SignInReading} {c c' : SignInSystem ι} {now : ℤ} {i j : ι}

omit [DecidableEq ι] [PythonRuntime] in
/-- When a job is issued: what it reads of the clock first. -/
def issuedAt (tapes : ι → Stream' SignInReading) (i : ι) : ℤ := (tapes i).head.now.astimezoneUtc

/-- A session has not begun, or it has read the clock, which was not ahead of the time, and goes on
as its tracker demands. One that failed does nothing any more. -/
def FollowsTape (runtime : SignInRuntime) (jobs : ι → SignInJob) (tapes : ι → Stream' SignInReading)
    (c : SignInSystem ι) (now : ℤ) (i : ι) : Prop :=
  ((c.sessions i).prog = (jobs i).program runtime ∧ (c.sessions i).tape = tapes i ∧
      c.history i = []) ∨
    Tracks (signInTracker runtime (jobs i) (issuedAt tapes i)) (fun _ _ => True) c i ∧
      ((∃ e, (c.sessions i).prog = .fail e) ∨ issuedAt tapes i ≤ now)

omit [DecidableEq ι] [PythonRuntime] in
/-- The database answers the tracker as it expects. -/
lemma signInTracker_fits (job : SignInJob) (t : ℤ) (busy : SignInKey → Bool) (db : SignInData) :
    (signInTracker runtime job t).FitsAt signInDatabase busy db :=
  ⟨fun _ _ _ _ _ _ => trivial, fun _ _ _ _ _ => trivial⟩

/-- **Sessions follow their jobs** as they move.

**Proof sketch.** A move of another session changes nothing here. The first move of the session
reads the clock, which from then on is the time the tracker expects, and every later one is followed
by the tracker. -/
lemma FollowsTape.move (h : FollowsTape runtime jobs tapes c now i)
    (htimely : ∀ k, (c.sessions j).prog = .ask k →
      (c.sessions j).tape.head.now.astimezoneUtc = now)
    (hm : Move signInDatabase c j c') : FollowsTape runtime jobs tapes c' now i := by
  by_cases hj : j = i
  swap
  · -- Another session's move.
    rcases h with ⟨hp, ht, hh⟩ | ⟨htracks, hpast⟩
    · left
      rw [session_stable hj hm, history_stable hj hm]
      exact ⟨hp, ht, hh⟩
    · right
      rw [session_stable hj hm]
      exact ⟨htracks.move (fun h => absurd h hj) (fun h => absurd h hj) hm, hpast⟩
  subst hj
  have hprog : ∀ s : Session signIn SignInWrite Unit,
      (Function.update c.sessions j s j).prog = s.prog := fun s => by rw [Function.update_self]
  rcases h with ⟨hp, ht, hh⟩ | ⟨htracks, hpast⟩
  · -- The first step reads the clock or fails.
    rcases @program_cases runtime _ (jobs j) with ⟨e, he⟩ | ⟨f, hf, hwp⟩
    · rw [he] at hp
      have hfail : Tracks (signInTracker runtime (jobs j) (issuedAt tapes j)) (fun _ _ => True) c j := by
        unfold Tracks
        rw [hp]
        trivial
      refine .inr ⟨hfail.move (fun _ => signInTracker_fits _ _ _ _) (fun _ _ => trivial) hm, .inl ?_⟩
      cases hm with
      | close => exact ⟨e, (hprog _).trans hp⟩
      | crash => exact ⟨_, hprog _⟩
      | ask k hk | emit o p hk | stmt o k r ws hk | raise o k e hk | commit p hk | rollback p hk =>
        rw [hp] at hk
        cases hk
    · rw [hf] at hp
      cases hm with
      | ask k hk =>
        obtain rfl : f = k := by
          rw [hp] at hk
          exact Prog.ask.inj hk
        have hnow := htimely _ hp
        rw [ht] at hnow
        refine .inr ⟨?_, .inr hnow.le⟩
        unfold Tracks
        show (Function.update c.sessions j _ j).prog.wp _ _ (_ : Reserved)
        rw [hprog]
        show Prog.wp _ _ _ ((signInTracker runtime (jobs j) (issuedAt tapes j)).state (c.history j))
        rw [hh, ht]
        exact hwp _
      | crash =>
        refine .inr ⟨?_, .inl ⟨_, hprog _⟩⟩
        unfold Tracks
        show (Function.update c.sessions j _ j).prog.wp _ _ (_ : Reserved)
        rw [hprog]
        trivial
      | close hend =>
        rw [hp] at hend
        rcases hend with ⟨a, ha⟩ | ⟨e, he⟩
        · cases ha
        · cases he
      | emit o p hk | stmt o k r ws hk | raise o k e hk | commit p hk | rollback p hk =>
        rw [hp] at hk
        cases hk
  · refine .inr ⟨htracks.move (fun _ => signInTracker_fits _ _ _ _) (fun _ _ => trivial) hm, ?_⟩
    rcases hpast with ⟨e, he⟩ | hpast
    · left
      cases hm with
      | close => exact ⟨e, (hprog _).trans he⟩
      | crash => exact ⟨_, hprog _⟩
      | ask k hk | emit o p hk | stmt o k r ws hk | raise o k e hk | commit p hk | rollback p hk =>
        rw [he] at hk
        cases hk
    · exact .inr hpast

/-- So they do when one stops. -/
lemma FollowsTape.stop (h : FollowsTape runtime jobs tapes c now i) :
    FollowsTape runtime jobs tapes (c.stop j) now i := by
  by_cases hj : j = i
  · subst hj
    have hprog : ((c.stop j).sessions j).prog = .fail signIn.interrupted := by
      show (Function.update c.sessions j _ j).prog = _
      rw [Function.update_self]
    refine .inr ⟨?_, .inl ⟨_, hprog⟩⟩
    unfold Tracks
    rw [hprog]
    trivial
  · have hsession : (c.stop j).sessions i = c.sessions i :=
      Function.update_of_ne (fun h => hj h.symm) _ _
    unfold FollowsTape Tracks
    rw [hsession]
    exact h

/-- What a session that follows its job executes, the tracker allows, and the job was issued. -/
lemma FollowsTape.mayDo {o : SignInStmt} {f : o.Resp → SignInProgram Unit}
    (h : FollowsTape runtime jobs tapes c now i) (hp : (c.sessions i).prog = .stmt o f) :
    (signInTracker runtime (jobs i) (issuedAt tapes i)).mayDo o (reservedIn (c.history i)) ∧
      issuedAt tapes i ≤ now := by
  rcases h with ⟨hprog, -, -⟩ | ⟨htracks, hpast⟩
  · rw [hprog] at hp
    rcases @program_cases runtime _ (jobs i) with ⟨e, he⟩ | ⟨f', hf, -⟩
    · rw [he] at hp
      cases hp
    · rw [hf] at hp
      cases hp
  · have hmay := htracks.mayDo hp
    rw [signInTracker_state] at hmay
    refine ⟨hmay, ?_⟩
    rcases hpast with ⟨e, he⟩ | hpast
    · rw [he] at hp
      cases hp
    · exact hpast

/-- What a session that follows its job sends, it sends after both reservations. -/
lemma FollowsTape.maySend {o : MagicLinkMessage} {p : SignInProgram Unit}
    (h : FollowsTape runtime jobs tapes c now i) (hp : (c.sessions i).prog = .emit o p) :
    (reservedIn (c.history i)).granted = (jobs i).keys runtime (issuedAt tapes i) ∧
      (reservedIn (c.history i)).granted ≠ [] := by
  rcases h with ⟨hprog, -, -⟩ | ⟨htracks, -⟩
  · rw [hprog] at hp
    rcases @program_cases runtime _ (jobs i) with ⟨e, he⟩ | ⟨f', hf, -⟩
    · rw [he] at hp
      cases hp
    · rw [hf] at hp
      cases hp
  · unfold Tracks at htracks
    rw [hp, signInTracker_state] at htracks
    exact htracks.1

end FollowsTape

/-! ## What the buckets count -/

section Counted

variable [DecidableEq ι] {c c' : SignInSystem ι} {now : ℤ} {i j : ι} {key : BucketKey}

/-- Whoever has reserved in an open transaction holds the row; a bucket that can be reserved from
counts its reservations, to everybody; and there are no more of them than the limit. -/
structure Counted (c : SignInSystem ι) (now : ℤ) : Prop where
  sound : c.Sound SignInWrite.keys
  held : ∀ i, (c.sessions i).closed = false → ∀ key ∈ (ledger c.log).opened i,
    c.holds i (.bucket key) .noKeyUpdate = true
  stored : ∀ key, now < key.expiry → (ledger c.log).grants key ≤ c.db.buckets.count key
  seen : ∀ key, now < key.expiry → ∀ i, (c.sessions i).closed = false →
    (ledger c.log).grants key + ((ledger c.log).opened i).count key ≤
      (c.view signInDatabase i).buckets.count key
  limited : ∀ key, (ledger c.log).grants key ≤ key.dimension.limit
  within : ∀ key i, (c.sessions i).closed = false →
    (ledger c.log).grants key + ((ledger c.log).opened i).count key ≤ key.dimension.limit

/-- Time passes. -/
lemma Counted.wait {later : ℤ} (h : Counted c now) (hle : now ≤ later) : Counted c later where
  sound := h.sound
  held := h.held
  stored key hk := h.stored key (hle.trans_lt hk)
  seen key hk := h.seen key (hle.trans_lt hk)
  limited := h.limited
  within := h.within

/-- A step that records nothing and changes no view keeps the count. -/
lemma Counted.same (h : Counted c now) (hsound : c'.Sound SignInWrite.keys) (hlog : c'.log = c.log)
    (hdb : c'.db = c.db) (hsame : ∀ i, (c'.sessions i).closed = false →
      (c.sessions i).closed = false ∧ c'.view signInDatabase i = c.view signInDatabase i ∧
        ∀ k, c.holds i k .noKeyUpdate = true → c'.holds i k .noKeyUpdate = true) :
    Counted c' now where
  sound := hsound
  held i hi key hkey := (hsame i hi).2.2 _ (h.held i (hsame i hi).1 key (hlog ▸ hkey))
  stored key hk := by
    rw [hlog, hdb]
    exact h.stored key hk
  seen key hk i hi := by
    rw [hlog, (hsame i hi).2.1]
    exact h.seen key hk i (hsame i hi).1
  limited key := by
    rw [hlog]
    exact h.limited key
  within key i hi := by
    rw [hlog]
    exact h.within key i (hsame i hi).1

/-- The configuration after a statement. -/
def afterStatement (c : SignInSystem ι) (i : ι) (o : SignInStmt) (p : SignInProgram Unit)
    (r : o.Resp) (ws : List SignInWrite) (ls : List (SignInKey × Strength)) : SignInSystem ι :=
  ((c.put i { c.sessions i with prog := p, pending := (c.sessions i).pending ++ ws }).take i ls).note
    i (.did o r)

section AfterStatement

variable {o : SignInStmt} {p : SignInProgram Unit} {r : o.Resp} {ws : List SignInWrite}
  {ls : List (SignInKey × Strength)}

lemma view_afterStatement_self : (afterStatement c i o p r ws ls).view signInDatabase i =
    signInDatabase.applyAll ws (c.view signInDatabase i) := by
  show (c.put i _).view signInDatabase i = _
  rw [Config.view_put_self, Backend.applyAll_append]
  rfl

lemma view_afterStatement_of_ne (h : j ≠ i) : (afterStatement c i o p r ws ls).view
    signInDatabase j = c.view signInDatabase j :=
  Config.view_put_of_ne c h _

lemma closed_afterStatement : ((afterStatement c i o p r ws ls).sessions j).closed =
    (c.sessions j).closed := by
  show (Function.update c.sessions i _ j).closed = _
  by_cases h : j = i
  · subst h
    rw [Function.update_self]
  · rw [Function.update_of_ne h]

/-- A statement takes away no lock. -/
lemma holds_afterStatement {k : SignInKey} {m : Strength} (h : c.holds j k m = true) :
    (afterStatement c i o p r ws ls).holds j k m = true := by
  show ((c.put i _).take i ls).holds j k m = true
  by_cases hj : j = i
  · subst hj
    exact Config.holds_take_self.mpr (.inr h)
  · exact (Config.holds_take_of_ne hj).trans h

/-- A statement that reserves nothing and hides nothing keeps the count.

**Proof sketch.** Neither the ledger nor the committed state changes. A bucket that could be
reserved from counts no less for the session, and the same for all others. -/
lemma Counted.afterStatement (h : Counted c now)
    (hsound : (MintFlow.afterStatement c i o p r ws ls).Sound SignInWrite.keys)
    (hledger : (ledger c.log).next i (.did o r) = ledger c.log)
    (hview : ∀ key, now < key.expiry → (c.view signInDatabase i).buckets.count key ≤
      (signInDatabase.applyAll ws (c.view signInDatabase i)).buckets.count key) :
    Counted (MintFlow.afterStatement c i o p r ws ls) now := by
  have hlog : ledger (MintFlow.afterStatement c i o p r ws ls).log = ledger c.log :=
    (ledger_note _ i _).trans hledger
  constructor
  case sound => exact hsound
  case held =>
    intro j hj key hkey
    rw [hlog] at hkey
    rw [closed_afterStatement] at hj
    exact holds_afterStatement (h.held j hj key hkey)
  case stored =>
    intro key hk
    rw [hlog]
    exact h.stored key hk
  case seen =>
    intro key hk j hj
    rw [closed_afterStatement] at hj
    rw [hlog]
    by_cases hji : j = i
    · subst hji
      rw [view_afterStatement_self]
      exact (h.seen key hk j hj).trans (hview key hk)
    · rw [view_afterStatement_of_ne hji]
      exact h.seen key hk j hj
  case limited =>
    intro key
    rw [hlog]
    exact h.limited key
  case within =>
    intro key j hj
    rw [closed_afterStatement] at hj
    rw [hlog]
    exact h.within key j hj

end AfterStatement

/-- **A reservation** that is allowed counts one more, and does not exceed the limit.

**Proof sketch.** The bucket the session sees counts all that was granted and what it opened itself.
The reservation found a place left in it, so with one more both still are within the limit, and the
session has taken the lock of the bucket. -/
lemma Counted.reserved {r : RateLimitReservation} {row : BucketRecord} {p : SignInProgram Unit}
    (h : Counted c now) (hopen : (c.sessions i).closed = false)
    (hsound : (MintFlow.afterStatement c i (.reserve r) p true [.putBucket row]
      [(.bucket r.key, .noKeyUpdate)]).Sound SignInWrite.keys)
    (hlimit : r.limit = r.key.dimension.limit) (htimely : now < r.key.expiry)
    (hrow : (c.view signInDatabase i).buckets.reserve r = some row) :
    Counted (MintFlow.afterStatement c i (.reserve r) p true [.putBucket row]
      [(.bucket r.key, .noKeyUpdate)]) now := by
  obtain ⟨hkey, hcount, hle⟩ := Buckets.reserve_eq_some hrow
  have hpositive : 0 < r.limit := by
    rw [hlimit]
    cases r.key.dimension <;> decide
  have hlog : ledger (MintFlow.afterStatement c i (.reserve r) p true [.putBucket row]
      [(.bucket r.key, .noKeyUpdate)]).log =
      ⟨Function.update (ledger c.log).opened i ((ledger c.log).opened i ++ [r.key]),
        (ledger c.log).granted⟩ :=
    ledger_note _ i _
  have hopened : ∀ j, j ≠ i → Function.update (ledger c.log).opened i
      ((ledger c.log).opened i ++ [r.key]) j = (ledger c.log).opened j :=
    fun j hj => Function.update_of_ne hj _ _
  have hview : ∀ key, (signInDatabase.applyAll [.putBucket row]
      (c.view signInDatabase i)).buckets.count key =
        (c.view signInDatabase i).buckets.count key + [r.key].count key := by
    intro key
    show Buckets.count (Table.upsert _ row) key = _
    rw [Buckets.count, Table.find_upsert]
    by_cases hk : key = r.key
    · rw [if_pos (hk.trans hkey.symm), hk, List.count_singleton_self]
      exact hcount
    · rw [if_neg fun h => hk (h.trans hkey), List.count_singleton, if_neg (by simpa using Ne.symm hk)]
      rfl
  constructor
  case sound => exact hsound
  case held =>
    intro j hj key hmem
    rw [closed_afterStatement] at hj
    rw [hlog] at hmem
    by_cases hji : j = i
    · subst hji
      simp only [Function.update_self, List.mem_append, List.mem_singleton] at hmem
      rcases hmem with hmem | rfl
      · exact holds_afterStatement (h.held j hj key hmem)
      · exact Config.holds_take_self.mpr (.inl ⟨_, List.mem_singleton.mpr rfl, Nat.le_refl _⟩)
    · simp only [hopened j hji] at hmem
      exact holds_afterStatement (h.held j hj key hmem)
  case stored =>
    intro key hk
    rw [hlog]
    exact h.stored key hk
  case seen =>
    intro key hk j hj
    rw [closed_afterStatement] at hj
    rw [hlog]
    by_cases hji : j = i
    · subst hji
      have hseen := h.seen key hk j hj
      simp only [Function.update_self, List.count_append]
      rw [view_afterStatement_self, hview]
      show (ledger c.log).grants key + _ ≤ _
      omega
    · simp only [hopened j hji]
      rw [view_afterStatement_of_ne hji]
      exact h.seen key hk j hj
  case limited =>
    intro key
    rw [hlog]
    exact h.limited key
  case within =>
    intro key j hj
    rw [closed_afterStatement] at hj
    rw [hlog]
    by_cases hji : j = i
    · subst hji
      simp only [Function.update_self, List.count_append]
      show (ledger c.log).grants key + _ ≤ _
      by_cases hk : key = r.key
      · -- The row had a place left, and it counts every reservation there is.
        subst hk
        have hseen := h.seen _ htimely j hopen
        have hle' := hle hpositive
        rw [List.count_singleton_self]
        omega
      · rw [List.count_singleton, if_neg (by simpa using Ne.symm hk), Nat.add_zero]
        exact h.within key j hj
    · simp only [hopened j hji]
      exact h.within key j hj

/-- The configuration after a commit. -/
def afterCommit (c : SignInSystem ι) (i : ι) (p : SignInProgram Unit) : SignInSystem ι :=
  (({ c with db := c.view signInDatabase i }.put i
    { c.sessions i with prog := p, pending := [] }).release i).note i .committed

/-- The configuration after a rollback. -/
def afterRollback (c : SignInSystem ι) (i : ι) (p : SignInProgram Unit) : SignInSystem ι :=
  ((c.put i { c.sessions i with prog := p, pending := [] }).release i).note i .rolledBack

/-- Two sessions have not both reserved from a bucket in open transactions. -/
lemma Counted.alone (h : Counted c now) (hi : (c.sessions i).closed = false)
    (hj : (c.sessions j).closed = false) (hji : j ≠ i) (hmem : key ∈ (ledger c.log).opened j) :
    ((ledger c.log).opened i).count key = 0 := by
  rw [List.count_eq_zero]
  intro hmem'
  exact hji (h.sound.eq_of_conflicts (h.held j hj key hmem) (h.held i hi key hmem') rfl)

/-- **A commit** grants what the transaction reserved.

**Proof sketch.** What the session opened is granted, and what it saw is committed. Another session
sees the buckets it holds as before, and for the others what is committed now (`guarded_bucket`). -/
lemma Counted.commit {p : SignInProgram Unit} (h : Counted c now)
    (hopen : (c.sessions i).closed = false)
    (hsound : (afterCommit c i p).Sound SignInWrite.keys) : Counted (afterCommit c i p) now := by
  have hlog : ledger (afterCommit c i p).log =
      ⟨Function.update (ledger c.log).opened i [],
        (ledger c.log).granted ++ ((ledger c.log).opened i).map fun key => (i, key)⟩ :=
    ledger_note _ i _
  have hgrants : ∀ key, (ledger (afterCommit c i p).log).grants key =
      (ledger c.log).grants key + ((ledger c.log).opened i).count key := by
    intro key
    rw [hlog, Ledger.grants, List.countP_append, List.countP_map, List.count_eq_countP]
    rfl
  have hself : (afterCommit c i p).view signInDatabase i = c.view signInDatabase i :=
    Config.view_put_self _ i _
  have hclosed : ∀ j, ((afterCommit c i p).sessions j).closed = (c.sessions j).closed := by
    intro j
    show (Function.update c.sessions i _ j).closed = _
    by_cases hj : j = i
    · subst hj
      rw [Function.update_self]
    · rw [Function.update_of_ne hj]
  have hholds : ∀ j, j ≠ i → ∀ k m, (afterCommit c i p).holds j k m = c.holds j k m :=
    fun j hj k m => Config.holds_release (c := Config.put _ i _) hj
  -- The buckets that another session sees are its own, or the committed ones.
  have hother : ∀ j, j ≠ i → ∀ key, ((afterCommit c i p).view signInDatabase j).buckets.find key =
      if c.holds j (.bucket key) .noKeyUpdate then (c.view signInDatabase j).buckets.find key
      else (c.view signInDatabase i).buckets.find key := by
    intro j hj key
    split_ifs with hown
    · have hdb : (c.view signInDatabase i).buckets.find key = c.db.buckets.find key := by
        refine view_eq_of_not_holds h.sound (guarded_bucket key) (Bool.eq_false_iff.mpr fun hi => ?_)
        exact hj (h.sound.eq_of_conflicts hown hi rfl)
      have hview : (afterCommit c i p).view signInDatabase j =
          signInDatabase.applyAll (c.sessions j).pending (c.view signInDatabase i) := by
        show signInDatabase.applyAll (Function.update c.sessions i _ j).pending _ = _
        rw [Function.update_of_ne hj]
        rfl
      rw [hview]
      exact (guarded_bucket key).applyAll_congr _ hdb
    · refine view_eq_of_not_holds hsound (guarded_bucket key) ?_
      rw [hholds j hj]
      exact Bool.eq_false_iff.mpr hown
  constructor
  case sound => exact hsound
  case held =>
    intro j hj key hmem
    rw [hclosed] at hj
    rw [hlog] at hmem
    by_cases hji : j = i
    · subst hji
      simp only [Function.update_self, List.not_mem_nil] at hmem
    · simp only [Function.update_of_ne hji] at hmem
      rw [hholds j hji]
      exact h.held j hj key hmem
  case stored =>
    intro key hk
    rw [hgrants]
    exact h.seen key hk i hopen
  case seen =>
    intro key hk j hj
    rw [hclosed] at hj
    rw [hgrants, hlog]
    by_cases hji : j = i
    · subst hji
      simp only [Function.update_self, List.count_nil, Nat.add_zero]
      rw [hself]
      exact h.seen key hk j hopen
    · simp only [Function.update_of_ne hji]
      rw [Buckets.count, hother j hji]
      by_cases hmem : key ∈ (ledger c.log).opened j
      · rw [if_pos (h.held j hj key hmem), h.alone hopen hj hji hmem, Nat.add_zero]
        exact h.seen key hk j hj
      · rw [List.count_eq_zero.mpr hmem, Nat.add_zero]
        split_ifs with hown
        · -- The row is the other session's, so nothing of it was committed.
          have hzero : ((ledger c.log).opened i).count key = 0 := by
            rw [List.count_eq_zero]
            intro hmem'
            exact hji (h.sound.eq_of_conflicts hown (h.held i hopen key hmem') rfl)
          have hseen := h.seen key hk j hj
          rw [List.count_eq_zero.mpr hmem] at hseen
          rw [hzero]
          exact hseen
        · exact h.seen key hk i hopen
  case limited =>
    intro key
    rw [hgrants]
    exact h.within key i hopen
  case within =>
    intro key j hj
    rw [hclosed] at hj
    rw [hgrants, hlog]
    by_cases hji : j = i
    · subst hji
      simp only [Function.update_self, List.count_nil, Nat.add_zero]
      exact h.within key j hopen
    · simp only [Function.update_of_ne hji]
      by_cases hmem : key ∈ (ledger c.log).opened j
      · rw [h.alone hopen hj hji hmem, Nat.add_zero]
        exact h.within key j hj
      · rw [List.count_eq_zero.mpr hmem, Nat.add_zero]
        exact h.within key i hopen

/-- A rollback forgets what the transaction reserved.

**Proof sketch.** What the session opened is dropped, and it sees the committed state again; the
rest stays. -/
lemma Counted.rollback {p : SignInProgram Unit} (h : Counted c now)
    (hsound : (afterRollback c i p).Sound SignInWrite.keys) :
    Counted (afterRollback c i p) now := by
  have hlog : ledger (afterRollback c i p).log =
      ⟨Function.update (ledger c.log).opened i [], (ledger c.log).granted⟩ := ledger_note _ i _
  have hclosed : ∀ j, ((afterRollback c i p).sessions j).closed = (c.sessions j).closed := by
    intro j
    show (Function.update c.sessions i _ j).closed = _
    by_cases hj : j = i
    · subst hj
      rw [Function.update_self]
    · rw [Function.update_of_ne hj]
  constructor
  case sound => exact hsound
  case held =>
    intro j hj key hmem
    rw [hclosed] at hj
    rw [hlog] at hmem
    by_cases hji : j = i
    · subst hji
      simp only [Function.update_self, List.not_mem_nil] at hmem
    · simp only [Function.update_of_ne hji] at hmem
      exact (Config.holds_release (c := c.put i _) hji).trans (h.held j hj key hmem)
  case stored =>
    intro key hk
    rw [hlog]
    exact h.stored key hk
  case seen =>
    intro key hk j hj
    rw [hclosed] at hj
    rw [hlog]
    by_cases hji : j = i
    · subst hji
      have hview : (afterRollback c j p).view signInDatabase j = c.db := Config.view_put_self c j _
      simp only [Function.update_self, List.count_nil, Nat.add_zero]
      rw [hview]
      exact h.stored key hk
    · have hview : (afterRollback c i p).view signInDatabase j = c.view signInDatabase j :=
        Config.view_put_of_ne c hji _
      simp only [Function.update_of_ne hji]
      rw [hview]
      exact h.seen key hk j hj
  case limited =>
    intro key
    rw [hlog]
    exact h.limited key
  case within =>
    intro key j hj
    rw [hclosed] at hj
    rw [hlog]
    by_cases hji : j = i
    · subst hji
      simp only [Function.update_self, List.count_nil, Nat.add_zero]
      exact h.limited key
    · simp only [Function.update_of_ne hji]
      exact h.within key j hj

/-- **What a statement does to a bucket** that can be reserved from: a deletion leaves it, and a
reservation counts.

**Proof sketch.** By the statement. A reservation writes its own bucket only, and a deletion runs at
or before the present time, so it does not take a bucket that has not expired by now. -/
lemma find_applyAll {runtime : SignInRuntime} {job : SignInJob} {t : ℤ} {o : SignInStmt}
    {k : Reserved} {busy : SignInKey → Bool} {db : SignInData} {r : o.Resp}
    {ws : List SignInWrite} (hmay : (signInTracker runtime job t).mayDo o k) (ht : t ≤ now)
    (he : signInDatabase.eval o busy db = .ok (r, ws)) (hkey : now < key.expiry) :
    (signInDatabase.applyAll ws db).buckets.find key = db.buckets.find key ∨
      ∃ row, ws = [.putBucket row] ∧ row.key = key ∧ row.count = db.buckets.count key + 1 := by
  cases o with
  | reserve reservation =>
    simp only [signInDatabase, SignInStmt.evaluate] at he
    cases hrow : db.buckets.reserve reservation with
    | none =>
      rw [hrow] at he
      obtain ⟨-, rfl⟩ := Prod.mk.inj (Except.ok.inj he)
      exact .inl rfl
    | some row =>
      rw [hrow] at he
      obtain ⟨-, rfl⟩ := Prod.mk.inj (Except.ok.inj he)
      obtain ⟨hrowkey, hcount, -⟩ := Buckets.reserve_eq_some hrow
      by_cases hk : key = reservation.key
      · subst hk
        exact .inr ⟨row, rfl, hrowkey, hcount⟩
      · left
        show (Table.upsert db.buckets row).find key = _
        rw [Table.find_upsert, if_neg fun h => hk (h.trans hrowkey)]
  | addChallenge challenge =>
    simp only [signInDatabase, SignInStmt.evaluate] at he
    split_ifs at he
    obtain ⟨-, rfl⟩ := Prod.mk.inj (Except.ok.inj he)
    exact .inl rfl
  | appendAudit record =>
    simp only [signInDatabase, SignInStmt.evaluate] at he
    split_ifs at he
    obtain ⟨-, rfl⟩ := Prod.mk.inj (Except.ok.inj he)
    exact .inl rfl
  | deleteBuckets expiredAt maximumAgeAt batchSize =>
    obtain ⟨rfl, rfl⟩ := hmay
    simp only [signInDatabase, SignInStmt.evaluate] at he
    obtain ⟨-, rfl⟩ := Prod.mk.inj (Except.ok.inj he)
    refine .inl ((guarded_bucket key).applyAll_of_not_mem (fun w hw hmem => ?_) db)
    obtain ⟨row, hrow, rfl⟩ := List.mem_map.mp hw
    obtain rfl : key = row.key := SignInKey.bucket.inj (List.mem_singleton.mp hmem)
    have hexpired := Buckets.expiry_of_mem_expired hrow
    omega

section Moves

variable [PythonRuntime] {runtime : SignInRuntime} {jobs : ι → SignInJob}
  {tapes : ι → Stream' SignInReading}

/-- **The count is kept** by every timely move.

**Proof sketch.** By the move. Commits and rollbacks have their lemmas, a statement reserves
(`Counted.reserved`) or leaves the buckets alone (`find_applyAll`, `Counted.afterStatement`), and
all other moves change neither ledger nor state. -/
lemma Counted.move (h : Counted c now) (hf : FollowsTape runtime jobs tapes c now i)
    (htimely : Timely c now i) (hopen : (c.sessions i).closed = false)
    (hm : Move signInDatabase c i c') : Counted c' now := by
  have hsound := sound_of_move signInDatabase_covers h.sound hm
  have hput : ∀ s : Session signIn SignInWrite Unit, s.pending = (c.sessions i).pending →
      s.closed = false → ∀ j, ((c.put i s).sessions j).closed = false →
        (c.sessions j).closed = false ∧
          (c.put i s).view signInDatabase j = c.view signInDatabase j ∧
            ∀ k, c.holds j k .noKeyUpdate = true → (c.put i s).holds j k .noKeyUpdate = true := by
    intro s hpending _ j hj
    by_cases hji : j = i
    · subst hji
      refine ⟨hopen, ?_, fun _ => id⟩
      rw [Config.view_put_self, hpending]
      rfl
    · have hj' : (Function.update c.sessions i s j).closed = false := hj
      rw [Function.update_of_ne hji] at hj'
      exact ⟨hj', Config.view_put_of_ne c hji s, fun _ => id⟩
  cases hm with
  | close hend =>
    refine h.same hsound rfl rfl fun j hj => ?_
    have hj' : (Function.update c.sessions i
        { c.sessions i with pending := [], closed := true } j).closed = false := hj
    by_cases hji : j = i
    · subst hji
      rw [Function.update_self] at hj'
      cases hj'
    · rw [Function.update_of_ne hji] at hj'
      exact ⟨hj', Config.view_put_of_ne c hji _,
        fun k hk => (Config.holds_release (c := c.put i _) hji).trans hk⟩
  | ask k hp => exact h.same hsound rfl rfl (hput _ rfl hopen)
  | emit o p hp =>
    exact h.same hsound rfl rfl (hput { c.sessions i with prog := p } rfl hopen)
  | raise o k e hp he => exact h.same hsound rfl rfl (hput _ rfl hopen)
  | crash => exact h.same hsound rfl rfl (hput _ rfl hopen)
  | commit p hp => exact h.commit hopen hsound
  | rollback p hp => exact h.rollback hsound
  | stmt o f r ws hp hl he =>
    obtain ⟨hmay, hpast⟩ := hf.mayDo hp
    have hkeep : ∀ key, now < key.expiry → (c.view signInDatabase i).buckets.count key ≤
        (signInDatabase.applyAll ws (c.view signInDatabase i)).buckets.count key := by
      intro key hkey
      rcases find_applyAll hmay hpast he hkey with hsame | ⟨row, rfl, rfl, hcount⟩
      · rw [Buckets.count, Buckets.count, hsame]
      · show _ ≤ Buckets.count (Table.upsert _ row) row.key
        rw [Buckets.count, Buckets.count, Table.find_upsert_self]
        rw [Buckets.count] at hcount
        show _ ≤ row.count
        omega
    cases o with
    | reserve reservation =>
      change Bool at r
      cases r with
      | true =>
        have hrow : ∃ row, (c.view signInDatabase i).buckets.reserve reservation = some row ∧
            ws = [.putBucket row] := by
          simp only [signInDatabase, SignInStmt.evaluate] at he
          split at he
          · rename_i row hrow
            obtain ⟨-, rfl⟩ := Prod.mk.inj (Except.ok.inj he)
            exact ⟨row, hrow, rfl⟩
          · obtain ⟨hr, -⟩ := Prod.mk.inj (Except.ok.inj he)
            cases hr
        obtain ⟨row, hrow, rfl⟩ := hrow
        exact h.reserved hopen hsound hmay.1 (htimely.2 _ _ hp) hrow
      | false => exact Counted.afterStatement h hsound rfl hkeep
    | addChallenge challenge => exact Counted.afterStatement h hsound rfl hkeep
    | appendAudit record => exact Counted.afterStatement h hsound rfl hkeep
    | deleteBuckets e m n => exact Counted.afterStatement h hsound rfl hkeep

omit [PythonRuntime] in
/-- A session that stops keeps the count. -/
lemma Counted.stop (h : Counted c now) (hopen : (c.sessions i).closed = false) :
    Counted (c.stop i) now := by
  have hm : Move signInDatabase c i (c.stop i) := .crash
  refine h.same (sound_of_move signInDatabase_covers h.sound hm) rfl rfl fun j hj => ?_
  by_cases hji : j = i
  · subst hji
    exact ⟨hopen, Config.view_put_self c j _, fun _ => id⟩
  · rw [session_stable (fun h => hji h.symm) hm] at hj
    exact ⟨hj, Config.view_put_of_ne c hji _, fun _ => id⟩

end Moves

end Counted

/-- A bucket is still there, and counts no less. -/
def Grown (before after : Option BucketRecord) : Prop :=
  ∀ row, before = some row → ∃ row', after = some row' ∧ row.count ≤ row'.count

lemma Grown.refl (x : Option BucketRecord) : Grown x x := fun row h => ⟨row, h, Nat.le_refl _⟩

lemma Grown.trans {x y z : Option BucketRecord} (h : Grown x y) (h' : Grown y z) : Grown x z := by
  intro row hrow
  obtain ⟨row', hrow', hle⟩ := h row hrow
  obtain ⟨row'', hrow'', hle'⟩ := h' row' hrow'
  exact ⟨row'', hrow'', hle.trans hle'⟩

/-! ## What a session was granted -/

section Orderly

variable [DecidableEq ι] [PythonRuntime] {runtime : SignInRuntime} {jobs : ι → SignInJob}
  {tapes : ι → Stream' SignInReading} {c c' : SignInSystem ι} {now : ℤ} {i j : ι}

omit [DecidableEq ι] [PythonRuntime] in
/-- A session reserved from its buckets in their order, and from one at most if it was refused. -/
structure Orderly (runtime : SignInRuntime) (job : SignInJob) (t : ℤ) (k : Reserved) : Prop where
  inOrder : k.granted ++ k.opened <+: job.keys runtime t
  refusedEarly : k.refused = true → (k.granted ++ k.opened).length ≤ 1

omit [PythonRuntime] in
/-- A job has two buckets at most. -/
lemma length_keys_le (job : SignInJob) (t : ℤ) : (job.keys runtime t).length ≤ 2 := by
  unfold SignInJob.keys
  split
  · exact Nat.le_refl _
  · exact Nat.zero_le _

/-- **Order is kept** by every move.

**Proof sketch.** A move of another session is not in its history. Of its own, a commit turns what
is open into what is granted, a rollback drops it, and a reservation is the next of the keys, if
none was refused. -/
lemma Orderly.move (h : Orderly runtime (jobs i) (issuedAt tapes i) (reservedIn (c.history i)))
    (hf : FollowsTape runtime jobs tapes c now j) (hm : Move signInDatabase c j c') :
    Orderly runtime (jobs i) (issuedAt tapes i) (reservedIn (c'.history i)) := by
  by_cases hj : j = i
  swap
  · rw [history_stable hj hm]
    exact h
  subst hj
  have hnote : ∀ e : Event signIn, c'.log = c.log ++ [(j, e)] →
      reservedIn (c'.history j) = (reservedIn (c.history j)).next e := by
    intro e hlog
    rw [Config.history, hlog, List.filterMap_append, reservedIn, List.foldl_append]
    simp [Config.history, reservedIn]
  cases hm with
  | commit p hp =>
    rw [hnote _ rfl]
    refine ⟨?_, fun hrefused => ?_⟩
    · show (_ ++ _) ++ [] <+: _
      rw [List.append_nil]
      exact h.inOrder
    · show ((_ ++ _) ++ []).length ≤ 1
      rw [List.append_nil]
      exact h.refusedEarly hrefused
  | rollback p hp =>
    rw [hnote _ rfl]
    refine ⟨?_, fun hrefused => ?_⟩
    · show _ ++ [] <+: _
      rw [List.append_nil]
      exact (List.prefix_append _ _).trans h.inOrder
    · have hle := h.refusedEarly hrefused
      rw [List.length_append] at hle
      show ((reservedIn (c.history j)).granted ++ []).length ≤ 1
      rw [List.append_nil]
      omega
  | stmt o f r ws hp hl he =>
    obtain ⟨hmay, -⟩ := hf.mayDo hp
    rw [hnote _ rfl]
    cases o with
    | reserve reservation =>
      obtain ⟨-, hnone, hopened, hfront⟩ := hmay
      change Bool at r
      cases r with
      | true =>
        have hnext : (reservedIn (c.history j)).next (.did (.reserve reservation) true) =
            ⟨[reservation.key], (reservedIn (c.history j)).granted, false⟩ := by
          show Reserved.mk (_ ++ [reservation.key]) _ _ = _
          rw [hopened, hnone, List.nil_append]
        rw [hnext]
        exact ⟨hfront, fun hrefused => by cases hrefused⟩
      | false =>
        refine ⟨h.inOrder, fun _ => ?_⟩
        -- There was a bucket left to reserve from, so at most one was reserved from before.
        have hle := hfront.length_le.trans (length_keys_le _ _)
        rw [List.length_append, List.length_singleton] at hle
        show ((reservedIn (c.history j)).granted ++ (reservedIn (c.history j)).opened).length ≤ 1
        rw [hopened, List.append_nil]
        omega
    | addChallenge challenge => exact h
    | appendAudit record => exact h
    | deleteBuckets e m n => exact h
  | close => exact h
  | ask => exact h
  | emit => exact h
  | raise => exact h
  | crash => exact h

end Orderly

/-! ## The promise -/

section Promise

variable [DecidableEq ι] [PythonRuntime]

omit [PythonRuntime] in
/-- What the rate limits promise of a state of the sessions at a time. -/
structure RateLimited (runtime : SignInRuntime) (jobs : ι → SignInJob)
    (tapes : ι → Stream' SignInReading) (c : SignInSystem ι) (now : ℤ) : Prop where
  /-- No bucket gave more reservations than its limit. -/
  limited : ∀ key, (ledger c.log).grants key ≤ key.dimension.limit
  /-- No step deletes a bucket that can still be reserved from, or makes it count less. -/
  kept : ∀ key, now < key.expiry → ∀ row, c.db.buckets.find key = some row → ∀ l c',
    (∀ i, l = .go i → Timely c now i) → step signInDatabase c l = some c' →
      ∃ row', c'.db.buckets.find key = some row' ∧ row.count ≤ row'.count
  /-- For the requests issued in one window, at most three links are sent to one address. -/
  emails : ∀ canonical w, (c.sent.countP fun m =>
    decide ((jobs m.1).canonicalEmail runtime = some canonical ∧
      windowStart (issuedAt tapes m.1) = w)) ≤ emailDeliveryLimit
  /-- And at most thirty to one network source. -/
  sources : ∀ source w, (c.sent.countP fun m =>
    decide ((jobs m.1).networkSource = some source ∧
      windowStart (issuedAt tapes m.1) = w)) ≤ networkRequestLimit
  /-- A session takes from its own buckets only. -/
  own : ∀ i, ∀ key ∈ (ledger c.log).grantedTo i, key ∈ (jobs i).keys runtime (issuedAt tapes i)
  /-- A session that was refused took from the allowance of no address. -/
  refused : ∀ i r, (.did (.reserve r) false : Event signIn) ∈ c.history i →
    ∀ key ∈ (ledger c.log).grantedTo i, key.dimension = .networkRequest

/-- What is known of a state that is reached. -/
structure SignInInvariant (runtime : SignInRuntime) (jobs : ι → SignInJob)
    (tapes : ι → Stream' SignInReading) (c : SignInSystem ι) (now : ℤ) : Prop where
  follows : ∀ i, FollowsTape runtime jobs tapes c now i
  counted : Counted c now
  budgeted : ∀ i, Budgeted 1 c i
  orderly : ∀ i, Orderly runtime (jobs i) (issuedAt tapes i) (reservedIn (c.history i))
  /-- Whoever sent a link had a place in each of its buckets. -/
  paid : ∀ m ∈ c.sent, (jobs m.1).keys runtime (issuedAt tapes m.1) ≠ [] ∧
    ∀ key ∈ (jobs m.1).keys runtime (issuedAt tapes m.1), key ∈ (ledger c.log).grantedTo m.1
  /-- Everybody sees at least what is committed of a bucket that can be reserved from. -/
  grown : ∀ key, now < key.expiry → ∀ i, Grown (c.db.buckets.find key)
    ((c.view signInDatabase i).buckets.find key)

variable {runtime : SignInRuntime} {db : SignInData} {jobs : ι → SignInJob}
  {tapes : ι → Stream' SignInReading} {c c' : SignInSystem ι} {now : ℤ} {i j : ι}

omit [DecidableEq ι] [PythonRuntime] in
/-- A request that has buckets and an address has the bucket of the address. -/
lemma emailKey_mem_keys {job : SignInJob} {t : ℤ} {canonical : String}
    (hne : job.keys runtime t ≠ []) (h : job.canonicalEmail runtime = some canonical) :
    emailKey runtime canonical t ∈ job.keys runtime t := by
  unfold SignInJob.keys at hne ⊢
  rw [h] at hne ⊢
  cases hsource : job.networkSource with
  | none =>
    rw [hsource] at hne
    exact absurd rfl hne
  | some source => exact List.mem_cons_of_mem _ List.mem_cons_self

omit [DecidableEq ι] [PythonRuntime] in
/-- A request that has buckets has the one of its network source. -/
lemma networkKey_mem_keys {job : SignInJob} {t : ℤ} {source : String}
    (hne : job.keys runtime t ≠ []) (h : job.networkSource = some source) :
    networkKey runtime source t ∈ job.keys runtime t := by
  unfold SignInJob.keys at hne ⊢
  rw [h] at hne ⊢
  cases hcanonical : job.canonicalEmail runtime with
  | none =>
    rw [hcanonical] at hne
    exact absurd rfl hne
  | some canonical => exact List.mem_cons_self

omit [DecidableEq ι] [PythonRuntime] in
/-- The first bucket of a job is that of its network source. -/
lemma dimension_of_prefix {job : SignInJob} {t : ℤ} {key : BucketKey}
    (h : [key] <+: job.keys runtime t) : key.dimension = .networkRequest := by
  unfold SignInJob.keys at h
  split at h
  · obtain ⟨rfl, -⟩ := List.cons_prefix_cons.mp h
    rfl
  · exact absurd (List.prefix_nil.mp h) (List.cons_ne_nil _ _)

omit [DecidableEq ι] [PythonRuntime] in
/-- A refusal is not forgotten.

**Proof sketch.** Induction on the history: a refusal sets the flag, and no event unsets it. -/
lemma refused_of_mem {history : List (Event signIn)} {r : RateLimitReservation}
    (h : (.did (.reserve r) false : Event signIn) ∈ history) :
    (reservedIn history).refused = true := by
  have hstays : ∀ (k : Reserved) (e : Event signIn), k.refused = true →
      (k.next e).refused = true := by
    intro k e hk
    cases e with
    | did o r =>
      cases o with
      | reserve reservation =>
        change Bool at r
        cases r with
        | true => exact hk
        | false => rfl
      | _ => exact hk
    | committed => exact hk
    | rolledBack => exact hk
  have hfold : ∀ (history : List (Event signIn)) (k : Reserved),
      k.refused = true ∨ (.did (.reserve r) false : Event signIn) ∈ history →
        (history.foldl Reserved.next k).refused = true := by
    intro history
    induction history with
    | nil => exact fun k hk => hk.resolve_right List.not_mem_nil
    | cons e history ih =>
      intro k hk
      refine ih _ ?_
      rcases hk with hk | hmem
      · exact .inl (hstays k e hk)
      · rcases List.mem_cons.mp hmem with rfl | hmem
        · exact .inl rfl
        · exact .inr hmem
  exact hfold history _ (.inr h)

omit [PythonRuntime] in
/-- What was granted stays granted. -/
lemma mem_grantedTo_note {e : Event signIn} {key : BucketKey}
    (h : key ∈ (ledger c.log).grantedTo i) : key ∈ (ledger (c.note j e).log).grantedTo i := by
  rw [ledger_note]
  cases e with
  | did o r =>
    cases o with
    | reserve reservation =>
      change Bool at r
      cases r <;> exact h
    | _ => exact h
  | committed =>
    show key ∈ List.filterMap _ (_ ++ _)
    rw [List.filterMap_append]
    exact List.mem_append_left _ h
  | rolledBack => exact h

/-- **Growth.** A move of a session that follows its job loses no bucket that can be reserved from,
and makes it count no less. -/
lemma SignInInvariant.grown_move (h : SignInInvariant runtime jobs tapes c now)
    (hm : Move signInDatabase c j c') (key : BucketKey) (hkey : now < key.expiry) :
    (∀ i, Grown (c'.db.buckets.find key) ((c'.view signInDatabase i).buckets.find key)) ∧
      Grown (c.db.buckets.find key) (c'.db.buckets.find key) := by
  refine persists_of_move h.counted.sound (guarded_bucket key) Grown.refl
    (fun _ _ _ => Grown.trans) ?_ (h.grown key hkey) hm
  intro o f r ws hp he _
  obtain ⟨hmay, hpast⟩ := (h.follows j).mayDo hp
  rcases find_applyAll hmay hpast he hkey with hsame | ⟨row, rfl, rfl, hcount⟩
  · rw [hsame]
    exact Grown.refl _
  · intro row' hrow'
    refine ⟨row, Table.find_upsert_self _ row, ?_⟩
    rw [Buckets.count, hrow'] at hcount
    exact (Nat.le_succ _).trans hcount.ge

/-- What is known is kept by every timely move.

**Proof sketch.** Part by part. A link is only sent with all places of its keys granted, and what is
granted stays granted. -/
lemma SignInInvariant.move (h : SignInInvariant runtime jobs tapes c now)
    (htimely : Timely c now j) (hopen : (c.sessions j).closed = false)
    (hm : Move signInDatabase c j c') : SignInInvariant runtime jobs tapes c' now where
  follows i := (h.follows i).move htimely.1 hm
  counted := h.counted.move (h.follows j) htimely hopen hm
  budgeted i := (h.budgeted i).move hm
  orderly i := (h.orderly i).move (h.follows j) hm
  paid := by
    cases hm with
    | emit o p hp =>
      intro m hmem
      rcases List.mem_append.mp hmem with hmem | hmem
      · exact h.paid m hmem
      · obtain rfl := List.mem_singleton.mp hmem
        obtain ⟨hgranted, hne⟩ := (h.follows j).maySend hp
        have hledger := (ledger_eq c.log j).2
        refine ⟨hgranted ▸ hne, fun key hkey => ?_⟩
        show key ∈ (ledger c.log).grantedTo j
        rw [hledger]
        exact hgranted.symm ▸ hkey
    | stmt o f r ws hp hl he =>
      exact fun m hmem => ⟨(h.paid m hmem).1, fun key hkey =>
        mem_grantedTo_note ((h.paid m hmem).2 key hkey)⟩
    | commit p hp =>
      exact fun m hmem => ⟨(h.paid m hmem).1, fun key hkey =>
        mem_grantedTo_note ((h.paid m hmem).2 key hkey)⟩
    | rollback p hp =>
      exact fun m hmem => ⟨(h.paid m hmem).1, fun key hkey =>
        mem_grantedTo_note ((h.paid m hmem).2 key hkey)⟩
    | close => exact h.paid
    | ask => exact h.paid
    | raise => exact h.paid
    | crash => exact h.paid
  grown key hkey i := (h.grown_move hm key hkey).1 i

/-- So it is when a session stops. -/
lemma SignInInvariant.stop (h : SignInInvariant runtime jobs tapes c now)
    (hopen : (c.sessions j).closed = false) : SignInInvariant runtime jobs tapes (c.stop j) now where
  follows i := (h.follows i).stop
  counted := h.counted.stop hopen
  budgeted i := (h.budgeted i).move (.crash : Move signInDatabase c j (c.stop j))
  orderly i := h.orderly i
  paid := h.paid
  grown key hkey i := (h.grown_move .crash key hkey).1 i

/-- And as time passes. -/
lemma SignInInvariant.wait {later : ℤ} (h : SignInInvariant runtime jobs tapes c now)
    (hle : now ≤ later) : SignInInvariant runtime jobs tapes c later where
  follows i := (h.follows i).imp_right fun h => ⟨h.1, h.2.imp_right fun h => h.trans hle⟩
  counted := h.counted.wait hle
  budgeted := h.budgeted
  orderly := h.orderly
  paid := h.paid
  grown key hkey := h.grown key (hle.trans_lt hkey)

/-- It holds before anything happens. -/
lemma signInInvariant_started :
    SignInInvariant runtime jobs tapes (startedSignIn runtime db jobs tapes) now where
  follows _ := .inl ⟨rfl, rfl, rfl⟩
  counted :=
    { sound := ⟨fun _ _ hw => absurd hw List.not_mem_nil, fun _ _ hh => absurd hh List.not_mem_nil⟩
      held := fun _ _ _ hkey => absurd hkey List.not_mem_nil
      stored := fun _ _ => Nat.zero_le _
      seen := fun _ _ _ _ => Nat.zero_le _
      limited := fun _ => Nat.zero_le _
      within := fun _ _ _ => Nat.zero_le _ }
  budgeted i := ⟨1, Nat.le_refl _, program_budget (jobs i)⟩
  orderly _ := ⟨List.nil_prefix, fun h => nomatch h⟩
  paid _ hm := absurd hm List.not_mem_nil
  grown _ _ _ := Grown.refl _

/-- **What is known** holds whenever it is looked at. -/
lemma signInInvariant_reached
    (h : ReachedAt signInDatabase Timely (startedSignIn runtime db jobs tapes) c now) :
    SignInInvariant runtime jobs tapes c now := by
  refine h.induction ?_ ?_ ?_ ?_
  · exact fun now => signInInvariant_started
  · exact fun c now later h hle => h.wait hle
  · exact fun c c' now i h htimely hopen hm => h.move htimely hopen hm
  · exact fun c now i h hopen => h.stop hopen

omit [PythonRuntime] in
/-- **Counting links.** Where each of the sessions that a link was sent for has a place in one
bucket, there are no more such links than places were granted.

**Proof sketch.** No session sends twice, so the senders with a place in the bucket are as many
different entries of what was granted of it. -/
lemma countP_sent_le {p : ι → Prop} [DecidablePred p] {key : BucketKey}
    (hnodup : (c.sent.map Prod.fst).Nodup)
    (hp : ∀ m ∈ c.sent, p m.1 → key ∈ (ledger c.log).grantedTo m.1) :
    (c.sent.countP fun m => decide (p m.1)) ≤ (ledger c.log).grants key := by
  rw [List.countP_eq_length_filter, Ledger.grants, List.countP_eq_length_filter]
  set senders := ((c.sent.map Prod.fst).filter fun i => decide (p i)).map fun i => (i, key)
    with hsenders
  have hlength : (c.sent.filter fun m => decide (p m.1)).length = senders.length := by
    rw [hsenders, List.length_map, List.filter_map, List.length_map]
    rfl
  have hinj : senders.Nodup :=
    (hnodup.filter _).map fun i j h => (Prod.mk.inj h).1
  have hsubset : senders ⊆ (ledger c.log).granted.filter fun g => decide (g.2 = key) := by
    intro g hg
    obtain ⟨i, hi, rfl⟩ := List.mem_map.mp hg
    obtain ⟨hi, hpi⟩ := List.mem_filter.mp hi
    obtain ⟨m, hm, rfl⟩ := List.mem_map.mp hi
    have hgranted := hp m hm (of_decide_eq_true hpi)
    obtain ⟨g, hg, heq⟩ := List.mem_filterMap.mp hgranted
    simp only [Option.ite_none_right_eq_some, Option.some.injEq] at heq
    rw [List.mem_filter]
    obtain ⟨hfst, hsnd⟩ := heq
    have hpair : g = (m.1, key) := Prod.ext hfst hsnd
    exact ⟨hpair ▸ hg, decide_eq_true rfl⟩
  rw [hlength]
  exact (List.subperm_of_subset hinj hsubset).length_le

/-- **Sign-in rate limit.** Whatever any number of requests and deletions of buckets reach, on a
clock that does not go back and with no reservation a day late, from any stored buckets, keeps what
the limits promise.

**Proof sketch.** All parts follow from the invariant of `signInInvariant_reached`. The links of an
address or source and a window are counted by the bucket their senders had a place in
(`countP_sent_le`), which is within its limit. -/
theorem sign_in_rate_limited (runtime : SignInRuntime) (db : SignInData) (jobs : ι → SignInJob)
    (tapes : ι → Stream' SignInReading) (c : SignInSystem ι) (now : ℤ)
    (h : ReachedAt signInDatabase Timely (startedSignIn runtime db jobs tapes) c now) :
    (∀ t w, IsWindow w ∧ InWindow w t ↔ w = windowStart t) ∧
      RateLimited runtime jobs tapes c now := by
  refine ⟨windowStart_unique, ?_⟩
  have hinv := signInInvariant_reached h
  have hnodup := nodup_senders hinv.budgeted
  constructor
  case limited => exact hinv.counted.limited
  case kept =>
    intro key hkey row hrow l c' htimely hstep
    have hmove := (move_of_step hstep).2
    exact (hinv.grown_move hmove key hkey).2 row hrow
  case emails =>
    intro canonical w
    refine le_trans (countP_sent_le (p := fun i => (jobs i).canonicalEmail runtime =
      some canonical ∧ windowStart (issuedAt tapes i) = w) hnodup ?_)
      (hinv.counted.limited ⟨.emailDelivery, runtime.digest .emailDelivery canonical, w⟩)
    rintro m hm ⟨hcanonical, rfl⟩
    obtain ⟨hne, hpaid⟩ := hinv.paid m hm
    exact hpaid _ (emailKey_mem_keys hne hcanonical)
  case sources =>
    intro source w
    refine le_trans (countP_sent_le (p := fun i => (jobs i).networkSource = some source ∧
      windowStart (issuedAt tapes i) = w) hnodup ?_)
      (hinv.counted.limited ⟨.networkRequest, runtime.digest .networkRequest source, w⟩)
    rintro m hm ⟨hsource, rfl⟩
    obtain ⟨hne, hpaid⟩ := hinv.paid m hm
    exact hpaid _ (networkKey_mem_keys hne hsource)
  case own =>
    intro i key hkey
    rw [(ledger_eq c.log i).2] at hkey
    exact (hinv.orderly i).inOrder.subset (List.mem_append_left _ hkey)
  case refused =>
    intro i r hr key hkey
    rw [(ledger_eq c.log i).2] at hkey
    obtain ⟨hfront, hearly⟩ := hinv.orderly i
    have hle := hearly (refused_of_mem hr)
    -- One bucket at most was reserved from, and the first one is that of the network source.
    have hhead : (reservedIn (c.history i)).granted ++ (reservedIn (c.history i)).opened = [key] := by
      have hmem : key ∈ (reservedIn (c.history i)).granted ++ (reservedIn (c.history i)).opened :=
        List.mem_append_left _ hkey
      obtain ⟨k, hk⟩ := List.length_eq_one_iff.mp
        (Nat.le_antisymm hle (List.length_pos_of_mem hmem))
      rw [hk] at hmem ⊢
      rw [List.mem_singleton.mp hmem]
    rw [hhead] at hfront
    exact dimension_of_prefix hfront

end Promise

/-- A process that takes every address as it is and digests a key by its bytes. -/
def sampleRuntime : SignInRuntime where
  validateEmail := some
  hmac key := BitVec.ofNat 256 (key.toList.foldl (fun n c => n * 256 + c.toNat) 0)
  allowedReturnTargets := ["/"]

/-- Five requests for one address from five network sources, and a deletion of old buckets. -/
def sampleJobs : Fin 6 → SignInJob
  | 4 => .cleanUp 100
  | i => .request "a@example.com" ("192.0.2." ++ toString i.val) "/"

/-- What they read, an hour into the third day. -/
def sampleTapes (i : Fin 6) : Stream' SignInReading :=
  Stream'.const ⟨Instant.toDateTime 176400000000, BitVec.ofNat 128 i.val, toString i.val⟩

/-- The bucket of the address that was filled on the first day. -/
def staleBucket : BucketRecord :=
  ⟨⟨.emailDelivery, sampleRuntime.digest .emailDelivery "a@example.com", 0⟩, 3, _, by decide, rfl⟩

/-- All begin at once and take a place for their network source, but one stops before it commits;
then the others take turns at the bucket of the address, and go on side by side. -/
def sampleSchedule : List (Label (Fin 6)) :=
  let together (sessions : List (Fin 6)) (steps : ℕ) : List (Label (Fin 6)) :=
    (List.replicate steps (sessions.map .go)).flatten
  together [0, 1, 2, 3, 4, 5] 2 ++ [.crash 5] ++ together [0, 1, 2, 3, 4] 1 ++
    [0, 1, 2, 3].flatMap (fun i => together [i] 2) ++ together [0, 1, 2, 3] 3 ++
    together [0, 1, 2] 4

/-- The state they reach. -/
def sampleRun : Option (SignInSystem (Fin 6)) :=
  runWhile signInDatabase (fun c i => isTimely c 176400000000 i)
    (@startedSignIn (Fin 6) .ascii sampleRuntime ⟨⟨[staleBucket], by decide⟩, [], []⟩ sampleJobs
      sampleTapes) sampleSchedule

/-- Three links are sent and the fourth request is refused, while an old bucket is deleted and a
request stops; and the promise is kept. -/
theorem sign_in_rate_limited_four : ∃ c, sampleRun = some c ∧ c.sent.map Prod.fst = [0, 1, 2] ∧
    (reservedIn (c.history 3)).refused = true ∧ c.db.buckets.find staleBucket.key = none ∧
    RateLimited sampleRuntime sampleJobs sampleTapes c 176400000000 := by
  have hrun : (sampleRun.any fun c => c.sent.map Prod.fst == [0, 1, 2] &&
      (reservedIn (c.history 3)).refused && (c.db.buckets.find staleBucket.key).isNone) = true := by
    decide +kernel
  obtain ⟨c, hc, hall⟩ := (Option.any_eq_true _ _).mp hrun
  obtain ⟨hall, hdeleted⟩ := (Bool.and_eq_true _ _).mp hall
  obtain ⟨hsent, hrefused⟩ := (Bool.and_eq_true _ _).mp hall
  refine ⟨c, hc, beq_iff_eq.mp hsent, hrefused, Option.isNone_iff_eq_none.mp hdeleted, ?_⟩
  refine (@sign_in_rate_limited (Fin 6) _ .ascii sampleRuntime ⟨⟨[staleBucket], by decide⟩, [], []⟩
    sampleJobs sampleTapes c 176400000000 ?_).2
  exact ReachedAt.runWhile (fun c i h => timely_of_isTimely h) (.begin _) hc

end MintFlow
