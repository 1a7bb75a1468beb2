import MintFlow.Lib.Outbox
import Mathlib.Data.List.Nodup

set_option relaxedAutoImplicit false
set_option autoImplicit false

/-!
# At most once

Some statements do a thing that is done at most once: they find it undone, and leave behind what
shows that it was done. If nothing takes that back, then of all the sessions that run at the same time
one alone commits it, once.

## Main definitions

* `Transact.Effects` — what a session did in the transactions it committed, and in the open one.
* `Transact.Deed` — a thing that is done at most once for each name, and where that shows.
* `Transact.Deed.Does` — a statement does what it says, and takes nothing back.
* `Transact.AtMostOnce` — what every configuration keeps.

## Main results

* `Transact.AtMostOnce.move` — **At most once**: no move commits a deed under a name that another commit
  used.
-/

namespace Transact

variable {S : Signature} {σ ω κ ι ρ α β τ : Type}

/-! ## What sessions did -/

/-- What a session did in its transactions. -/
structure Effects (α : Type) where
  /-- In those it committed. -/
  committed : List α
  /-- In the open one. -/
  pending : List α

namespace Effects

variable (f : (o : S.Op) → S.Resp o → Option α)

/-- After an event. -/
def next (x : Effects α) : Event S → Effects α
  | .did o r => ⟨x.committed, x.pending ++ (f o r).toList⟩
  | .committed => ⟨x.committed ++ x.pending, []⟩
  | .rolledBack => ⟨x.committed, []⟩

/-- The effects of a history, where `f` reads them from statements and their answers. -/
def ofHistory (es : List (Event S)) : Effects α := es.foldl (next f) ⟨[], []⟩

@[simp] lemma ofHistory_append (es : List (Event S)) (e : Event S) :
    ofHistory f (es ++ [e]) = next f (ofHistory f es) e := by
  simp [ofHistory]

end Effects

/-- A statement that is recorded was the next one of its session, and was answered like that; the
session sees what it wrote.

**Proof sketch.** By the move: only a statement appends such an event, and it appends its own
operation and answer. -/
lemma did_of_log [DecidableEq ι] [DecidableEq κ] {B : Backend S σ ω κ} {c c' : Config S σ ω κ ι ρ}
    {j : ι} {o : S.Op} {r : S.Resp o} (hm : Move B c j c')
    (hlog : c'.log = c.log ++ [(j, .did o r)]) :
    ∃ f ws, (c.sessions j).prog = .stmt o f ∧
      B.eval o (c.busy j) (c.view B j) = .ok (r, ws) ∧
      c'.view B j = B.applyAll ws (c.view B j) := by
  have hnothing : c.log ≠ c.log ++ [(j, Event.did o r)] := fun heq =>
    absurd (List.self_eq_append_right.mp heq) (List.cons_ne_nil _ _)
  cases hm with
  | stmt o' f r' ws hp hl he =>
    have hlast := List.append_cancel_left hlog
    simp only [List.cons.injEq, Prod.mk.injEq, true_and, and_true, Event.did.injEq] at hlast
    obtain ⟨rfl, hr⟩ := hlast
    obtain rfl := eq_of_heq hr
    refine ⟨f, ws, hp, he, ?_⟩
    show B.applyAll (Function.update c.sessions j _ j).pending c.db = _
    rw [Function.update_self, Backend.applyAll_append]
    rfl
  | commit p hp => cases List.append_cancel_left hlog
  | rollback p hp => cases List.append_cancel_left hlog
  | _ => exact absurd hlog hnothing

/-- What a move leaves pending of its session: what was pending, that and the writes of a statement,
or nothing when a transaction has ended.

**Proof sketch.** Cases on the move. Only a statement adds to what is pending, and only the end of a
transaction clears it. -/
lemma pending_of_move [DecidableEq ι] [DecidableEq κ] {B : Backend S σ ω κ}
    {c c' : Config S σ ω κ ι ρ} {j : ι} (hm : Move B c j c') :
    ((c'.sessions j).pending = (c.sessions j).pending ∧ c'.history j = c.history j) ∨
      (∃ o f r ws, (c.sessions j).prog = .stmt o f ∧
        B.eval o (c.busy j) (c.view B j) = .ok (r, ws) ∧
        (c'.sessions j).pending = (c.sessions j).pending ++ ws ∧
        c'.history j = c.history j ++ [.did o r]) ∨
      (c'.sessions j).pending = [] := by
  have hput : ∀ s : Session S ω ρ, (Function.update c.sessions j s j).pending = s.pending :=
    fun s => by rw [Function.update_self]
  cases hm with
  | close => exact .inr (.inr (hput _))
  | ask f hp => exact .inl ⟨hput _, rfl⟩
  | emit o p hp => exact .inl ⟨hput { c.sessions j with prog := p }, rfl⟩
  | raise o f e hp he => exact .inl ⟨hput _, rfl⟩
  | crash => exact .inl ⟨hput _, rfl⟩
  | commit p hp => exact .inr (.inr (hput { c.sessions j with prog := p, pending := [] }))
  | rollback p hp => exact .inr (.inr (hput { c.sessions j with prog := p, pending := [] }))
  | stmt o f r ws hp hl he =>
    refine .inr (.inl ⟨o, f, r, ws, hp, he, hput { c.sessions j with
      prog := f r, pending := (c.sessions j).pending ++ ws }, ?_⟩)
    rw [Config.history_note, if_pos rfl]
    rfl

/-! ## Deeds -/

/-- A thing that is done at most once for each name: which statements do it, which lock guards the
part of the state where it shows, and how that part may go on. -/
structure Deed (B : Backend S σ ω κ) (keys : ω → List κ) (α β τ : Type) where
  /-- What a statement did. -/
  effect : (o : S.Op) → S.Resp o → Option α
  name : α → β
  key : β → κ
  obs : β → σ → τ
  guarded : ∀ b, Guarded B keys (key b) (obs b)
  /-- How what is observed may go on. -/
  follows : τ → τ → Prop
  refl : ∀ x, follows x x
  trans : ∀ x y z, follows x y → follows y z → follows x z
  /-- What shows that it was done. -/
  shows : α → τ → Prop
  stays : ∀ a x y, shows a x → follows x y → shows a y

namespace Deed

variable {B : Backend S σ ω κ} {keys : ω → List κ} (D : Deed B keys α β τ)

/-- Nobody did it under this name. -/
def Undone (b : β) (s : σ) : Prop := ∀ a, D.name a = b → ¬ D.shows a (D.obs b s)

/-- A statement takes nothing back, and what it does it finds undone and shows. -/
structure Does (o : S.Op) (r : S.Resp o) (s s' : σ) : Prop where
  follows : ∀ b, D.follows (D.obs b s) (D.obs b s')
  undone : ∀ a, D.effect o r = some a → D.Undone (D.name a) s
  shown : ∀ a, D.effect o r = some a → D.shows a (D.obs (D.name a) s')

variable [DecidableEq ι]

/-- What a session did so far. -/
def effects (c : Config S σ ω κ ι ρ) (i : ι) : Effects α := .ofHistory D.effect (c.history i)

/-- What a session did and committed. -/
def committed (c : Config S σ ω κ ι ρ) (i : ι) : List α := (D.effects c i).committed

/-- What a session did in its open transaction. -/
def pending (c : Config S σ ω κ ι ρ) (i : ι) : List α := (D.effects c i).pending

end Deed

/-- What every configuration keeps of a deed. -/
structure AtMostOnce [DecidableEq ι] {B : Backend S σ ω κ} {keys : ω → List κ}
    (D : Deed B keys α β τ) (c : Config S σ ω κ ι ρ) : Prop where
  /-- Every session sees what was done. -/
  follows : ∀ b i, D.follows (D.obs b c.db) (D.obs b (c.view B i))
  /-- What was committed shows. -/
  shown : ∀ i, ∀ a ∈ D.committed c i, D.shows a (D.obs (D.name a) c.db)
  /-- What an open transaction did is guarded by its lock, is not yet done for the others and shows
  for the session. -/
  held : ∀ i, (c.sessions i).closed = false → ∀ a ∈ D.pending c i,
    c.holds i (D.key (D.name a)) .noKeyUpdate = true ∧ D.Undone (D.name a) c.db ∧
      D.shows a (D.obs (D.name a) (c.view B i))
  pendingOnce : ∀ i, (c.sessions i).closed = false → ((D.pending c i).map D.name).Nodup
  once : ∀ i, ((D.committed c i).map D.name).Nodup
  apart : ∀ i j, i ≠ j → ∀ a ∈ D.committed c i, ∀ b ∈ D.committed c j, D.name a ≠ D.name b

namespace AtMostOnce

variable [DecidableEq ι] {B : Backend S σ ω κ} {keys : ω → List κ} {D : Deed B keys α β τ}
  {c c' : Config S σ ω κ ι ρ} {i j : ι}

/-- Before anything was done.

**Proof sketch.** Every history is empty, so nothing was committed and nothing is pending. -/
lemma start (hhistory : ∀ i, c.history i = []) (hpending : ∀ i, (c.sessions i).pending = []) :
    AtMostOnce D c := by
  have hnone : ∀ i, D.committed c i = [] ∧ D.pending c i = [] := by
    intro i
    unfold Deed.committed Deed.pending Deed.effects
    rw [hhistory]
    exact ⟨rfl, rfl⟩
  refine ⟨fun b i => ?_, fun i a ha => ?_, fun i _ a ha => ?_, fun i _ => ?_, fun i => ?_,
    fun i _ _ a ha => ?_⟩
  · unfold Config.view
    rw [hpending]
    exact D.refl _
  · rw [(hnone i).1] at ha
    cases ha
  · rw [(hnone i).2] at ha
    cases ha
  · rw [(hnone i).2]
    exact List.nodup_nil
  · rw [(hnone i).1]
    exact List.nodup_nil
  · rw [(hnone i).1] at ha
    cases ha

/-- What an open transaction did, nobody has committed. -/
lemma new_of_pending (h : AtMostOnce D c) (hopen : (c.sessions i).closed = false) {a b : α}
    (ha : a ∈ D.pending c i) (hb : b ∈ D.committed c j) : D.name b ≠ D.name a := by
  intro hname
  refine (h.held i hopen a ha).2.1 b hname ?_
  rw [← hname]
  exact h.shown j b hb

variable [DecidableEq κ]

/-- What a move makes of the effects of a session.

**Proof sketch.** Another session's history stays the same. A session's own history grows by what
the move records, and the effects are read along the history. -/
lemma effects_of_move (hm : Move B c j c') (i : ι) :
    D.effects c' i = D.effects c i ∨ j = i ∧
      ((∃ o f r ws, (c.sessions j).prog = .stmt o f ∧
          B.eval o (c.busy j) (c.view B j) = .ok (r, ws) ∧ c'.log = c.log ++ [(j, .did o r)] ∧
          D.effects c' i = ⟨D.committed c i, D.pending c i ++ (D.effect o r).toList⟩) ∨
        (c'.db = c.view B j ∧ D.effects c' i = ⟨D.committed c i ++ D.pending c i, []⟩) ∨
        D.effects c' i = ⟨D.committed c i, []⟩) := by
  by_cases hj : j = i
  swap
  · left
    unfold Deed.effects
    rw [history_stable hj hm]
  subst hj
  unfold Deed.effects
  cases recorded_of_move hm with
  | nothing hhistory =>
    left
    rw [hhistory]
  | did o f r ws hp heval hlog hhistory =>
    right
    refine ⟨rfl, .inl ⟨o, f, r, ws, hp, heval, hlog, ?_⟩⟩
    rw [hhistory, Effects.ofHistory_append]
    rfl
  | committed hdb hlog hhistory =>
    right
    refine ⟨rfl, .inr (.inl ⟨hdb, ?_⟩)⟩
    rw [hhistory, Effects.ofHistory_append]
    rfl
  | rolledBack hhistory =>
    right
    refine ⟨rfl, .inr (.inr ?_)⟩
    rw [hhistory, Effects.ofHistory_append]
    rfl

/-- What a session committed grows with its commits alone. -/
lemma committed_of_move (hm : Move B c j c') (i : ι) : D.committed c' i = D.committed c i ∨
    j = i ∧ c'.db = c.view B j ∧ D.committed c' i = D.committed c i ++ D.pending c i := by
  rcases effects_of_move (D := D) hm i with h | ⟨hj, ⟨_, _, _, _, -, -, -, h⟩ | ⟨hdb, h⟩ | h⟩
  · exact .inl (congrArg Effects.committed h)
  · exact .inl (congrArg Effects.committed h :)
  · exact .inr ⟨hj, hdb, congrArg Effects.committed h⟩
  · exact .inl (congrArg Effects.committed h :)

omit [DecidableEq κ] in
/-- What is done in an open transaction is held by its session. -/
lemma holds_of_shows {a : α} (hs : c.Sound keys) (hundone : D.Undone (D.name a) c.db)
    (hshows : D.shows a (D.obs (D.name a) (c.view B i))) :
    c.holds i (D.key (D.name a)) .noKeyUpdate = true := by
  by_contra hnot
  rw [view_eq_of_not_holds hs (D.guarded _) (Bool.eq_false_iff.mpr hnot)] at hshows
  exact hundone a rfl hshows

omit [DecidableEq κ] in
/-- What is undone in a session's eyes is undone. -/
lemma undone_of_view (h : AtMostOnce D c) {b : β} (hundone : D.Undone b (c.view B i)) :
    D.Undone b c.db :=
  fun a ha hshows => hundone a ha (D.stays a _ _ hshows (h.follows b i))

section Moves

variable (hs : c.Sound keys) (hs' : c'.Sound keys)
  (hstmt : ∀ o f r ws, (c.sessions j).prog = .stmt o f →
    B.eval o (c.busy j) (c.view B j) = .ok (r, ws) → c'.log = c.log ++ [(j, .did o r)] →
    D.Does o r (c.view B j) (B.applyAll ws (c.view B j)))
  (hopen : (c.sessions j).closed = false) (h : AtMostOnce D c) (hm : Move B c j c')

include hs hstmt h hm

/-- What is done stays done, and every session sees it. -/
lemma follows_of_move (b : β) : (∀ i, D.follows (D.obs b c'.db) (D.obs b (c'.view B i))) ∧
    D.follows (D.obs b c.db) (D.obs b c'.db) :=
  persists_of_move hs (D.guarded b) D.refl D.trans
    (fun o f r ws hp heval hlog => (hstmt o f r ws hp heval hlog).follows b) (h.follows b) hm

include hopen

/-- What is committed shows from then on. -/
lemma shown_of_move (i : ι) : ∀ a ∈ D.committed c' i, D.shows a (D.obs (D.name a) c'.db) := by
  have hold : ∀ a ∈ D.committed c i, D.shows a (D.obs (D.name a) c'.db) := fun a ha =>
    D.stays a _ _ (h.shown i a ha) (follows_of_move hs hstmt h hm _).2
  intro a ha
  rcases committed_of_move hm i with heq | ⟨rfl, hdb, heq⟩
  · rw [heq] at ha
    exact hold a ha
  · rw [heq] at ha
    rcases List.mem_append.mp ha with ha | ha
    · exact hold a ha
    · rw [hdb]
      exact (h.held j hopen a ha).2.2

omit hs hstmt in
/-- A session commits nothing twice. -/
lemma once_of_move (i : ι) : ((D.committed c' i).map D.name).Nodup := by
  rcases committed_of_move hm i with heq | ⟨rfl, -, heq⟩
  · rw [heq]
    exact h.once i
  · rw [heq, List.map_append, List.nodup_append]
    refine ⟨h.once j, h.pendingOnce j hopen, fun x hx y hy => ?_⟩
    obtain ⟨b, hb, rfl⟩ := List.mem_map.mp hx
    obtain ⟨a, ha, rfl⟩ := List.mem_map.mp hy
    exact h.new_of_pending hopen ha hb

omit hs hstmt in
/-- No two sessions commit the same.

**Proof sketch.** The two sessions do not both commit in one move. If one does, what it commits was
pending, and what is pending nobody else has committed (`new_of_pending`). -/
lemma apart_of_move (i k : ι) (hik : i ≠ k) :
    ∀ a ∈ D.committed c' i, ∀ b ∈ D.committed c' k, D.name a ≠ D.name b := by
  intro a ha b hb
  rcases committed_of_move hm i with hi | ⟨rfl, -, hi⟩
  · rcases committed_of_move hm k with hk | ⟨rfl, -, hk⟩
    · rw [hi] at ha
      rw [hk] at hb
      exact h.apart i k hik a ha b hb
    · rw [hi] at ha
      rw [hk] at hb
      rcases List.mem_append.mp hb with hb | hb
      · exact h.apart i j hik a ha b hb
      · exact h.new_of_pending hopen hb ha
  · rcases committed_of_move hm k with hk | ⟨hjk, -⟩
    swap
    · exact absurd hjk hik
    rw [hi] at ha
    rw [hk] at hb
    rcases List.mem_append.mp ha with ha | ha
    · exact h.apart j k hik a ha b hb
    · exact (h.new_of_pending hopen ha hb).symm

include hs'

/-- What an open transaction did stays its own.

**Proof sketch.** Another session's move cannot change a row that is locked. Of the session's own
moves a statement may do one more thing, which takes the lock and shows, and the end of a
transaction leaves nothing pending. -/
lemma held_of_move (i : ι) (hopen' : (c'.sessions i).closed = false) :
    ∀ a ∈ D.pending c' i, c'.holds i (D.key (D.name a)) .noKeyUpdate = true ∧
      D.Undone (D.name a) c'.db ∧ D.shows a (D.obs (D.name a) (c'.view B i)) := by
  by_cases hj : j = i
  swap
  · -- The lock keeps others away.
    intro a ha
    rw [session_stable hj hm] at hopen'
    unfold Deed.pending Deed.effects at ha
    rw [history_stable hj hm] at ha
    obtain ⟨hk, hundone, hshows⟩ := h.held i hopen' a ha
    have hk' := Config.holds_mono (m := .share) (by decide) hk
    rw [holds_stable hj hm, view_stable hs (D.guarded _) hk' hj hm]
    refine ⟨hk, fun b hb => ?_, hshows⟩
    rw [db_stable hs (D.guarded _) hk' hj hm]
    exact hundone b hb
  subst hj
  -- What records nothing and releases nothing keeps everything.
  have hsame : ∀ s : Session S ω ρ, s.pending = (c.sessions j).pending →
      ∀ a ∈ D.pending c j, c.holds j (D.key (D.name a)) .noKeyUpdate = true ∧
        D.Undone (D.name a) c.db ∧ D.shows a (D.obs (D.name a) ((c.put j s).view B j)) := by
    intro s hpend a ha
    have hview : (c.put j s).view B j = c.view B j := by
      show B.applyAll (Function.update c.sessions j s j).pending c.db = _
      rw [Function.update_self, hpend]
      rfl
    rw [hview]
    exact h.held j hopen a ha
  have hnone : D.effects c' j = ⟨D.committed c' j, []⟩ → ∀ a ∈ D.pending c' j,
      c'.holds j (D.key (D.name a)) .noKeyUpdate = true ∧ D.Undone (D.name a) c'.db ∧
        D.shows a (D.obs (D.name a) (c'.view B j)) := by
    intro heq a ha
    unfold Deed.pending at ha
    rw [heq] at ha
    cases ha
  cases hm with
  | close =>
    have hclosed : (Function.update c.sessions j
      { c.sessions j with pending := [], closed := true } j).closed = false := hopen'
    rw [Function.update_self] at hclosed
    cases hclosed
  | ask f hp => exact hsame _ rfl
  | emit o p hp => exact hsame { c.sessions j with prog := p } rfl
  | raise o f e hp he => exact hsame _ rfl
  | crash => exact hsame _ rfl
  | commit p hp =>
    refine hnone ?_
    unfold Deed.committed Deed.effects
    rw [Config.history_note, if_pos rfl, Effects.ofHistory_append]
    rfl
  | rollback p hp =>
    refine hnone ?_
    unfold Deed.committed Deed.effects
    rw [Config.history_note, if_pos rfl, Effects.ofHistory_append]
    rfl
  | stmt o f r ws hp hl he =>
    have hdoes := hstmt o f r ws hp he rfl
    have hview : ((((c.put j { c.sessions j with
        prog := f r, pending := (c.sessions j).pending ++ ws }).take j
          (B.locks o (c.busy j) (c.view B j))).note j (.did o r)).view B j) =
        B.applyAll ws (c.view B j) := by
      show B.applyAll (Function.update c.sessions j _ j).pending c.db = _
      rw [Function.update_self, Backend.applyAll_append]
      rfl
    intro a ha
    unfold Deed.pending Deed.effects at ha
    rw [Config.history_note, if_pos rfl, Effects.ofHistory_append] at ha
    rcases List.mem_append.mp ha with ha | ha
    · obtain ⟨hk, hundone, hshows⟩ := h.held j hopen a ha
      rw [hview]
      exact ⟨Config.holds_take_self.mpr (.inr hk), hundone,
        D.stays a _ _ hshows (hdoes.follows _)⟩
    · have heffect := Option.mem_toList.mp ha
      have hundone : D.Undone (D.name a) c.db := h.undone_of_view (hdoes.undone a heffect)
      have hshows := hdoes.shown a heffect
      rw [← hview] at hshows
      exact ⟨holds_of_shows hs' hundone hshows, hundone, hshows⟩

omit hs hs' in
/-- An open transaction does nothing twice.

**Proof sketch.** Only a statement adds a deed. It finds the deed undone, while each deed that is
pending shows, so the names differ. -/
lemma pendingOnce_of_move (i : ι) (hopen' : (c'.sessions i).closed = false) :
    ((D.pending c' i).map D.name).Nodup := by
  have hopen₀ : (c.sessions i).closed = false := by
    by_cases hj : j = i
    · rw [← hj]
      exact hopen
    · rw [← session_stable hj hm]
      exact hopen'
  unfold Deed.pending
  rcases effects_of_move (D := D) hm i with heq | ⟨rfl, ⟨o, f, r, ws, hp, heval, hlog, heq⟩ |
    ⟨-, heq⟩ | heq⟩
  · rw [heq]
    exact h.pendingOnce i hopen₀
  · rw [heq]
    cases heffect : D.effect o r with
    | none =>
      show ((D.pending c j ++ []).map D.name).Nodup
      rw [List.append_nil]
      exact h.pendingOnce j hopen₀
    | some a =>
      show ((D.pending c j ++ [a]).map D.name).Nodup
      rw [List.map_append, List.nodup_append]
      refine ⟨h.pendingOnce j hopen₀, List.nodup_singleton _, fun x hx y hy => ?_⟩
      obtain ⟨b, hb, rfl⟩ := List.mem_map.mp hx
      obtain rfl := List.mem_singleton.mp hy
      intro hname
      -- What the transaction did before, the statement would have found done.
      refine (hstmt o f r ws hp heval hlog).undone a heffect b hname ?_
      rw [← hname]
      exact (h.held j hopen₀ b hb).2.2
  · rw [heq]
    exact List.nodup_nil
  · rw [heq]
    exact List.nodup_nil

/-- **Every move** keeps a deed done at most once, if the statements do it as they should. -/
theorem move : AtMostOnce D c' where
  follows b := (follows_of_move hs hstmt h hm b).1
  shown := shown_of_move hs hstmt hopen h hm
  held := held_of_move hs hs' hstmt hopen h hm
  pendingOnce := pendingOnce_of_move hstmt hopen h hm
  once := once_of_move hopen h hm
  apart := apart_of_move hopen h hm

end Moves

end AtMostOnce

end Transact
