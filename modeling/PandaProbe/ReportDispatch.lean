import Mathlib.Data.Prod.Lex
import PandaProbe.GuardedRun
import PandaProbe.OldestFirst
import PandaProbe.Registry

/-! # Dispatching the pending reports

`dispatch_billing_reports` takes the 200 pending reports with the oldest `updated_at` and queues a
delivery for each; a delivery, whether it succeeds or fails, writes the report and with it
`updated_at`.  So does the check that the same dispatcher queues for the period of a closing
report, whether or not that report has been delivered.  A dispatcher first claims a key that lives
for two minutes, and only who claims it dispatches; where Redis cannot be reached it dispatches all
the same.

`pending_reports_dispatched`: from whatever state of a run, no report is passed over for ever,
however many fail.  If every delivery of a batch has been tried by the next dispatch, a report with
`n` older ones ahead of it is in one of the next `n / 200 + 1` batches, unless its period is checked
in the meantime: a check puts a report that was not tried at the end of the queue, and a closing
report that is checked after every batch can stay out of all of them.  And dispatches that claimed
the key are two minutes apart, while one that did not has another in the two minutes before.

Only what the queries read of a report is kept.  The clock moves on with every write.
-/
namespace PandaProbe
open OldestFirst

/-- What the dispatcher reads of a row of `billing_reports`. -/
structure ReportStamp where
  id : UUID
  updatedAt : DateTime
  pending : Bool
  closing : Bool
  deriving DecidableEq, Repr

/-- `ORDER BY updated_at, id`. -/
def ReportStamp.order (r : ReportStamp) : DateTime ×ₗ UUID := toLex (r.updatedAt, r.id)

/-- The rows, the clock and the key of the lock with its end; the batches so far, of the last one
what has not been tried, the times of the claims and of the dispatches that were skipped, and the
reports that were tried or deleted. -/
structure ReportDispatch where
  rows : List ReportStamp
  clock : DateTime
  lockedUntil : Option DateTime
  batches : List (List UUID)
  untried : List UUID
  claims : List DateTime
  skipped : List DateTime
  handled : List UUID

/-- What can happen next. -/
inductive DispatchAct
  | tick (now : DateTime) (redisUp : Bool)
  | stage (id : UUID) (now : DateTime) (closing : Bool)
  | attempt (id : UUID) (now : DateTime) (stillPending : Bool)
  | check (id : UUID) (now : DateTime)
  | delete (id : UUID) (now : DateTime)

/-- The time of an action. -/
def DispatchAct.now : DispatchAct → DateTime
  | .tick now _ | .stage _ now _ | .attempt _ now _ | .check _ now | .delete _ now => now

/-- The default of `pending_ids`. -/
def pendingLimit : Nat := 200

/-- `_DISPATCH_LOCK_TTL`. -/
def dispatchLockTtl : Int := DateTime.seconds 120

namespace ReportDispatch
variable (s : ReportDispatch)

/-- The pending rows. -/
def pending : List ReportStamp := s.rows.filter ReportStamp.pending

/-- `pending_ids`. -/
def pendingIds : List UUID := (oldest ReportStamp.order pendingLimit s.pending).map ReportStamp.id

/-- The key is there. -/
def held (now : DateTime) : Bool := s.lockedUntil.any (now < ·)

/-- `_dispatch_billing_reports`, as far as the pending reports go. -/
def dispatch (now : DateTime) (redisUp : Bool) : ReportDispatch :=
  let fanOut := { s with
    clock := now
    batches := s.batches ++ [s.pendingIds]
    untried := s.pendingIds }
  if !redisUp then fanOut
  else if s.held now then { s with clock := now, skipped := s.skipped ++ [now] }
  else { fanOut with lockedUntil := some (now + dispatchLockTtl), claims := s.claims ++ [now] }

/-- One dispatch, staged report, delivery, check of a closed period or deletion.  A delivery writes
only a pending report, a check the closing report of its period, pending or not. -/
def step : DispatchAct → Option ReportDispatch
  | .tick now redisUp => some (s.dispatch now redisUp)
  | .stage id now closing =>
    if s.rows.any (fun r => r.id = id) then none
    else some { s with clock := now, rows := s.rows ++ [⟨id, now, true, closing⟩] }
  | .attempt id now stillPending => some { s with
      clock := now
      rows := s.rows.map fun r =>
        if r.id = id ∧ r.pending then { r with updatedAt := now, pending := stillPending } else r
      untried := s.untried.erase id
      handled := s.handled ++ [id] }
  | .check id now =>
    if s.rows.any (fun r => r.id = id && r.closing) then
      some { s with
        clock := now
        rows := s.rows.map fun r => if r.id = id then { r with updatedAt := now } else r }
    else none
  | .delete id now => some { s with
      clock := now
      rows := s.rows.filter fun r => r.id ≠ id
      handled := s.handled ++ [id] }

/-- The clock moves on, and a dispatch that goes through finds the last batch tried. -/
def InTurn (s : ReportDispatch) (a : DispatchAct) : Prop :=
  s.clock < a.now ∧ ∀ now redisUp, a = .tick now redisUp → (redisUp && s.held now) = false →
    s.untried = []

/-- The period of a closing report is not checked. -/
def Spares (x : ReportStamp) (a : DispatchAct) : Prop :=
  x.closing = true → ∀ now, a ≠ .check x.id now

/-- The dispatcher has not run. -/
structure Fresh (s : ReportDispatch) : Prop where
  ids : (s.rows.map ReportStamp.id).Nodup
  stamps : ∀ r ∈ s.rows, r.updatedAt ≤ s.clock
  unlocked : s.lockedUntil = none
  quiet : s.batches = [] ∧ s.untried = [] ∧ s.claims = [] ∧ s.skipped = [] ∧ s.handled = []

/-! ## The place in the queue -/

/-- The pending reports ahead of one that the last batch has not taken, or that were tried. -/
def front (x : ReportStamp) : Nat :=
  s.rows.countP fun y => y.pending ∧ y.order < x.order ∧ y.id ∉ s.untried

/-- The rows are keyed, and none is from the future. -/
structure Stamped (s : ReportDispatch) : Prop where
  ids : (s.rows.map ReportStamp.id).Nodup
  stamps : ∀ r ∈ s.rows, r.updatedAt ≤ s.clock

/-- **The invariant**, for a report that was pending with `n` ahead of it in a state `s₁`: once it
is in a batch, tried or deleted there is nothing more to say; until then it is where it was, and the
batches have taken their share of what was ahead. -/
structure Place (s₁ : ReportDispatch) (x : ReportStamp) (n : Nat) (s : ReportDispatch) : Prop
    extends Stamped s where
  before : x.updatedAt ≤ s.clock
  batches : s₁.batches.length ≤ s.batches.length
  handled : s₁.handled.length ≤ s.handled.length
  place : x.id ∈ (s.batches.drop s₁.batches.length).flatten ∨
    x.id ∈ s.handled.drop s₁.handled.length ∨
    x ∈ s.rows ∧ x.pending = true ∧
      s.front x + pendingLimit * (s.batches.length - s₁.batches.length) ≤ n

/-- **The lock**: claims are a lifetime apart, and whoever was skipped found one within the
lifetime. -/
structure Spaced (s : ReportDispatch) : Prop where
  locked : s.lockedUntil = s.claims.getLast?.map (· + dispatchLockTtl)
  past : ∀ c ∈ s.claims, c ≤ s.clock
  apart : s.claims.IsChain fun c c' => c + dispatchLockTtl ≤ c'
  skipped : ∀ t ∈ s.skipped, ∃ c ∈ s.claims, c ≤ t ∧ t < c + dispatchLockTtl

variable {s} {s' s₁ : ReportDispatch} {x : ReportStamp} {n : Nat}

theorem order_lt_iff {x y : ReportStamp} :
    y.order < x.order ↔ y.updatedAt < x.updatedAt ∨ y.updatedAt = x.updatedAt ∧ y.id < x.id := by
  exact Prod.Lex.toLex_lt_toLex

/-- A row written now comes behind all that were there. -/
theorem not_order_lt {x y : ReportStamp} (h : x.updatedAt < y.updatedAt) : ¬ y.order < x.order := by
  rw [order_lt_iff]
  rintro (hlt | ⟨heq, -⟩)
  · exact absurd hlt (not_lt.mpr h.le)
  · exact absurd heq h.ne'

theorem order_inj (hids : (s.rows.map ReportStamp.id).Nodup) :
    ∀ a ∈ s.pending, ∀ b ∈ s.pending, a.order = b.order → a = b := by
  intro a ha b hb hab
  have hid : a.id = b.id := congrArg (fun k => (ofLex k).2) hab
  exact List.inj_on_of_nodup_map hids (List.mem_filter.mp ha).1 (List.mem_filter.mp hb).1 hid

/-- **A batch that leaves a report out takes 200 of those ahead of it.** -/
theorem front_dispatch (hids : (s.rows.map ReportStamp.id).Nodup) (hx : x ∈ s.rows)
    (hpending : x.pending = true) (htried : s.untried = []) (hout : x.id ∉ s.pendingIds) :
    s.rows.countP (fun y => y.pending ∧ y.order < x.order ∧ y.id ∉ s.pendingIds) + pendingLimit ≤
      s.front x := by
  have hmem : x ∈ s.pending := List.mem_filter.mpr ⟨hx, hpending⟩
  have hnot : x ∉ oldest ReportStamp.order pendingLimit s.pending :=
    fun h => hout (List.mem_map_of_mem h)
  have hcount := left_behind (List.Subperm.refl _) (order_inj hids) hmem hnot
    (p := fun y => decide (y.id ∈ s.pendingIds)) fun y hy => decide_eq_true (List.mem_map_of_mem hy)
  rw [ahead, pending, List.countP_filter, List.countP_filter] at hcount
  refine le_trans (Nat.add_le_add_right (List.countP_congr fun y _ => ?_).le _)
    (hcount.trans (List.countP_congr fun y _ => ?_).le)
  · simp only [Bool.and_eq_true, Bool.not_eq_true', decide_eq_true_eq, decide_eq_false_iff_not]
    tauto
  · simp [htried, and_comm]

/-- Writing rows at a time keeps their keys, and none is from the future. -/
theorem Stamped.write (h : Stamped s) {now : DateTime} (hnow : s.clock ≤ now)
    {f : ReportStamp → ReportStamp} (hid : ∀ r, (f r).id = r.id)
    (hstamp : ∀ r, (f r).updatedAt = r.updatedAt ∨ (f r).updatedAt = now) :
    ((s.rows.map f).map ReportStamp.id).Nodup ∧ ∀ r ∈ s.rows.map f, r.updatedAt ≤ now := by
  refine ⟨?_, fun r hr => ?_⟩
  · rw [List.map_map, show ReportStamp.id ∘ f = ReportStamp.id from funext hid]
    exact h.ids
  · obtain ⟨q, hq, rfl⟩ := List.mem_map.mp hr
    rcases hstamp q with hsame | hwritten
    · rw [hsame]
      exact (h.stamps q hq).trans hnow
    · rw [hwritten]

theorem Stamped.step (h : Stamped s) {a : DispatchAct} (hnow : s.clock < a.now)
    (hs : s.step a = some s') : Stamped s' := by
  have hold : ∀ r ∈ s.rows, r.updatedAt ≤ a.now := fun r hr => (h.stamps r hr).trans hnow.le
  cases a with
  | tick now redisUp =>
    cases hs
    unfold dispatch
    split
    · exact ⟨h.ids, hold⟩
    · split
      · exact ⟨h.ids, hold⟩
      · exact ⟨h.ids, hold⟩
  | stage id now closing =>
    simp only [ReportDispatch.step] at hs
    split at hs
    · cases hs
    next hnew =>
      cases hs
      refine ⟨?_, fun r hr => ?_⟩
      · rw [List.map_append, List.nodup_append]
        refine ⟨h.ids, List.nodup_singleton _, fun i hi j hj => ?_⟩
        obtain rfl := List.mem_singleton.mp hj
        obtain ⟨r, hr, rfl⟩ := List.mem_map.mp hi
        rintro rfl
        exact hnew (List.any_eq_true.mpr ⟨r, hr, by simp⟩)
      · rcases List.mem_append.mp hr with hr | hr
        · exact hold r hr
        · obtain rfl := List.mem_singleton.mp hr
          exact le_refl now
  | attempt id now stillPending =>
    cases hs
    obtain ⟨hids, hstamps⟩ := h.write (f := fun r => if r.id = id ∧ r.pending then
      { r with updatedAt := now, pending := stillPending } else r) hnow.le
      (fun r => by split <;> rfl) fun r => by
        split
        · exact .inr rfl
        · exact .inl rfl
    exact ⟨hids, hstamps⟩
  | check id now =>
    simp only [ReportDispatch.step] at hs
    split at hs
    · cases hs
      obtain ⟨hids, hstamps⟩ := h.write
        (f := fun r => if r.id = id then { r with updatedAt := now } else r) hnow.le
        (fun r => by split <;> rfl) fun r => by
          split
          · exact .inr rfl
          · exact .inl rfl
      exact ⟨hids, hstamps⟩
    · cases hs
  | delete id now =>
    cases hs
    exact ⟨h.ids.sublist (List.filter_sublist.map _), fun r hr => hold r (List.mem_filter.mp hr).1⟩

theorem place_tick (h : Place s₁ x n s) {now : DateTime} {redisUp : Bool} (hnow : s.clock < now)
    (htried : (redisUp && s.held now) = false → s.untried = []) :
    Place s₁ x n (s.dispatch now redisUp) := by
  have hlength : s₁.batches.length ≤ (s.batches ++ [s.pendingIds]).length := by
    rw [List.length_append]
    exact h.batches.trans (Nat.le_add_right _ _)
  have hfan : s.untried = [] →
      x.id ∈ ((s.batches ++ [s.pendingIds]).drop s₁.batches.length).flatten ∨
      x.id ∈ s.handled.drop s₁.handled.length ∨ x ∈ s.rows ∧ x.pending = true ∧
        s.rows.countP (fun y => y.pending ∧ y.order < x.order ∧ y.id ∉ s.pendingIds) +
          pendingLimit * ((s.batches ++ [s.pendingIds]).length - s₁.batches.length) ≤ n := by
    intro htried
    rw [List.drop_append_of_le_length h.batches, List.flatten_append, List.mem_append,
      List.length_append, List.length_singleton]
    rcases h.place with hin | hdone | ⟨hx, hpending, hle⟩
    · exact .inl (.inl hin)
    · exact .inr (.inl hdone)
    · by_cases hout : x.id ∈ s.pendingIds
      · exact .inl (.inr (by simpa using hout))
      · have hfront := front_dispatch h.ids hx hpending htried hout
        refine .inr (.inr ⟨hx, hpending, ?_⟩)
        rw [Nat.succ_sub h.batches, Nat.mul_succ]
        omega
  have hstamped : Stamped (s.dispatch now redisUp) :=
    h.toStamped.step (a := .tick now redisUp) hnow rfl
  have hbefore : x.updatedAt ≤ now := h.before.trans hnow.le
  unfold dispatch at hstamped ⊢
  split at hstamped
  next hdown =>
    rw [if_pos hdown]
    exact ⟨hstamped, hbefore, hlength, h.handled, hfan (htried (by simp at hdown; simp [hdown]))⟩
  next hup =>
    rw [if_neg hup]
    split at hstamped
    next hheld =>
      rw [if_pos hheld]
      exact ⟨hstamped, hbefore, h.batches, h.handled, h.place⟩
    next hfree =>
      rw [if_neg hfree]
      exact ⟨hstamped, hbefore, hlength, h.handled, hfan (htried (by simp [hfree]))⟩

/-- A write to another report leaves one where it is, if what is written goes to the end. -/
theorem place_write (h : Place s₁ x n s) (done : List UUID) {s' : ReportDispatch}
    (hstamped : Stamped s') (hclock : s.clock ≤ s'.clock) (hbatches : s'.batches = s.batches)
    (hhandled : s'.handled = s.handled ++ done)
    (hx : x ∈ s.rows → x ∈ s'.rows ∨ x.id ∈ done) (hfront : s'.front x ≤ s.front x) :
    Place s₁ x n s' := by
  refine ⟨hstamped, h.before.trans hclock, hbatches ▸ h.batches, ?_, ?_⟩
  · rw [hhandled, List.length_append]
    exact h.handled.trans (Nat.le_add_right _ _)
  · rw [hbatches, hhandled, List.drop_append_of_le_length h.handled, List.mem_append]
    rcases h.place with hin | hdone | ⟨hmem, hpending, hle⟩
    · exact .inl hin
    · exact .inr (.inl (.inl hdone))
    · rcases hx hmem with hkept | hdone
      · exact .inr (.inr ⟨hkept, hpending, (Nat.add_le_add_right hfront _).trans hle⟩)
      · exact .inr (.inl (.inr hdone))

theorem place_step (h : Place s₁ x n s) {a : DispatchAct} (hturn : InTurn s a)
    (hspares : Spares x a) (hs : s.step a = some s') : Place s₁ x n s' := by
  obtain ⟨hnow, htried⟩ := hturn
  have hstamped := h.toStamped.step hnow hs
  -- what is written now comes behind
  have hlate : ∀ y : ReportStamp, y.updatedAt = a.now → ¬ y.order < x.order := fun y hy =>
    not_order_lt (hy ▸ lt_of_le_of_lt h.before hnow)
  cases a with
  | tick now redisUp =>
    cases hs
    exact place_tick h hnow (htried now redisUp rfl)
  | stage id now closing =>
    simp only [step] at hs
    split at hs
    · cases hs
    · cases hs
      refine place_write h [] hstamped hnow.le rfl (List.append_nil _).symm
        (fun hx => .inl (List.mem_append_left _ hx)) ?_
      simp [front, List.countP_append, hlate ⟨id, now, true, closing⟩ rfl]
  | attempt id now stillPending =>
    cases hs
    refine place_write h [id] hstamped hnow.le rfl rfl (fun hx => ?_) ?_
    · by_cases hxid : x.id = id
      · exact .inr (List.mem_singleton.mpr hxid)
      · exact .inl (List.mem_map.mpr ⟨x, hx, if_neg fun h => hxid h.1⟩)
    · rw [front, front, List.countP_map]
      refine List.countP_mono_left fun r _ hr => ?_
      simp only [Function.comp_apply, decide_eq_true_eq] at hr ⊢
      split at hr
      · exact absurd hr.2.1 (hlate _ rfl)
      next hother =>
        refine ⟨hr.1, hr.2.1, fun hmem => hr.2.2 ?_⟩
        have hne : r.id ≠ id := fun heq => hother ⟨heq, hr.1⟩
        exact (List.mem_erase_of_ne hne).mpr hmem
  | check id now =>
    simp only [step] at hs
    split at hs
    next hclosing =>
      cases hs
      refine place_write h [] hstamped hnow.le rfl (List.append_nil _).symm
        (fun hx => .inl (List.mem_map.mpr ⟨x, hx, if_neg fun hxid => ?_⟩)) ?_
      · -- a check of this report is spared
        obtain ⟨r, hr, hrid⟩ := List.any_eq_true.mp hclosing
        simp only [Bool.and_eq_true, decide_eq_true_eq] at hrid
        obtain rfl : r = x := List.inj_on_of_nodup_map h.ids hr hx (hrid.1.trans hxid.symm)
        exact hspares hrid.2 now (hxid ▸ rfl)
      · rw [front, front, List.countP_map]
        refine List.countP_mono_left fun r _ hr => ?_
        simp only [Function.comp_apply, decide_eq_true_eq] at hr ⊢
        split at hr
        · exact absurd hr.2.1 (hlate _ rfl)
        · exact hr
    · cases hs
  | delete id now =>
    cases hs
    refine place_write h [id] hstamped hnow.le rfl rfl (fun hx => ?_)
      List.filter_sublist.countP_le
    by_cases hxid : x.id = id
    · exact .inr (List.mem_singleton.mpr hxid)
    · exact .inl (List.mem_filter.mpr ⟨hx, decide_eq_true hxid⟩)

/-! ## The lock -/

theorem held_iff (h : Spaced s) {now : DateTime} :
    s.held now = true ↔ ∃ c, s.claims.getLast? = some c ∧ now < c + dispatchLockTtl := by
  rw [held, h.locked]
  cases s.claims.getLast? with
  | none => simp
  | some c => simp

theorem spaced_frame (h : Spaced s) (hlocked : s'.lockedUntil = s.lockedUntil)
    (hclaims : s'.claims = s.claims) (hskipped : s'.skipped = s.skipped)
    (hclock : s.clock ≤ s'.clock) : Spaced s' where
  locked := by rw [hlocked, hclaims, h.locked]
  past c hc := (h.past c (hclaims ▸ hc)).trans hclock
  apart := hclaims ▸ h.apart
  skipped t ht := hclaims ▸ h.skipped t (hskipped ▸ ht)

theorem spaced_step (h : Spaced s) {a : DispatchAct} (hnow : s.clock < a.now)
    (hs : s.step a = some s') : Spaced s' := by
  cases a with
  | stage id now closing =>
    simp only [step] at hs
    split at hs
    · cases hs
    · cases hs
      exact spaced_frame h rfl rfl rfl hnow.le
  | check id now =>
    simp only [step] at hs
    split at hs
    · cases hs
      exact spaced_frame h rfl rfl rfl hnow.le
    · cases hs
  | attempt id now stillPending =>
    cases hs
    exact spaced_frame h rfl rfl rfl hnow.le
  | delete id now =>
    cases hs
    exact spaced_frame h rfl rfl rfl hnow.le
  | tick now redisUp =>
    change s.clock < now at hnow
    cases hs
    unfold dispatch
    split
    · exact spaced_frame h rfl rfl rfl hnow.le
    · split
      next hheld =>
        obtain ⟨c, hlast, hwithin⟩ := (held_iff h).mp hheld
        have hc : c ∈ s.claims := List.mem_of_getLast? hlast
        exact {
          locked := h.locked
          past := fun c hc => (h.past c hc).trans hnow.le
          apart := h.apart
          skipped := fun t ht => by
            rcases List.mem_append.mp ht with ht | ht
            · exact h.skipped t ht
            · obtain rfl := List.mem_singleton.mp ht
              exact ⟨c, hc, (h.past c hc).trans hnow.le, hwithin⟩ }
      next hfree =>
        exact {
          locked := by simp
          past := fun c hc => by
            rcases List.mem_append.mp hc with hc | hc
            · exact (h.past c hc).trans hnow.le
            · exact (List.mem_singleton.mp hc).le
          apart := by
            refine h.apart.append (List.isChain_singleton now) fun c hc t ht => ?_
            obtain rfl : now = t := by simpa using ht
            by_contra hlt
            exact hfree ((held_iff h).mpr ⟨c, hc, not_le.mp hlt⟩)
          skipped := fun t ht => by
            obtain ⟨c, hc, hwithin⟩ := h.skipped t ht
            exact ⟨c, List.mem_append_left _ hc, hwithin⟩ }

/-- **No report is passed over.**  In every run that keeps to the turns, from any state on: a report
that is pending with `n` older ones ahead of it, and whose period is not checked, is in a batch,
tried or deleted as soon as there are more than `n / 200` further batches.  Claims are two minutes
apart, and a dispatch that was skipped found one in the two minutes before. -/
theorem pending_reports_dispatched {s₀ : ReportDispatch} (hfresh : Fresh s₀)
    (h₁ : GuardedRun.Reach step InTurn s₀ s₁) :
    (∀ x ∈ s₁.pending, ∀ s,
      GuardedRun.Reach step (fun s a => InTurn s a ∧ Spares x a) s₁ s →
      ahead ReportStamp.order s₁.pending x.order / pendingLimit <
        s.batches.length - s₁.batches.length →
      x.id ∈ (s.batches.drop s₁.batches.length).flatten ∨
        x.id ∈ s.handled.drop s₁.handled.length) ∧
      (s₁.claims.IsChain fun c c' => c + dispatchLockTtl ≤ c') ∧
      ∀ t ∈ s₁.skipped, ∃ c ∈ s₁.claims, c ≤ t ∧ t < c + dispatchLockTtl := by
  obtain ⟨-, -, hclaims, hskipped, -⟩ := hfresh.quiet
  have hspaced : Spaced s₁ := by
    refine h₁.invariant ⟨?_, ?_, ?_, ?_⟩ fun _ _ _ hs hturn hstep => spaced_step hs hturn.1 hstep
    · rw [hfresh.unlocked, hclaims]
      rfl
    · rw [hclaims]
      exact fun c hc => by cases hc
    · rw [hclaims]
      exact .nil
    · rw [hskipped]
      exact fun t ht => by cases ht
  have hstamped : Stamped s₁ := h₁.invariant ⟨hfresh.ids, hfresh.stamps⟩
    fun _ _ _ hs hturn hstep => hs.step hturn.1 hstep
  refine ⟨fun x hx s h hmany => ?_, hspaced.apart, hspaced.skipped⟩
  obtain ⟨hmem, hpending⟩ := List.mem_filter.mp hx
  have hstart : Place s₁ x (ahead ReportStamp.order s₁.pending x.order) s₁ := by
    refine ⟨hstamped, hstamped.stamps x hmem, le_refl _, le_refl _, .inr (.inr ⟨hmem, hpending, ?_⟩)⟩
    rw [Nat.sub_self, Nat.mul_zero, Nat.add_zero, front, ahead, pending, List.countP_filter]
    refine List.countP_mono_left fun y _ hy => ?_
    simp only [decide_eq_true_eq, Bool.and_eq_true] at hy ⊢
    exact ⟨hy.2.1, hy.1⟩
  have hplace := h.invariant hstart
    fun _ _ _ hs hturn hstep => place_step hs hturn.1 hturn.2 hstep
  rcases hplace.place with hin | hdone | ⟨-, -, hle⟩
  · exact .inl hin
  · exact .inr hdone
  · exfalso
    have hlt := (Nat.div_lt_iff_lt_mul (by decide : 0 < pendingLimit)).mp hmany
    rw [Nat.mul_comm] at hlt
    omega

/-- Three reports are pending, two of them closing a period. -/
def threePending : ReportDispatch :=
  ⟨[⟨"b", 0, true, false⟩, ⟨"a", 0, true, true⟩, ⟨"c", 0, true, true⟩], 0, none, [], [], [], [], []⟩

/-- All are dispatched, and one fails; a second dispatch comes too early. -/
def firstTry : List DispatchAct :=
  [.tick 1 true, .attempt "a" 2 true, .tick 3 true, .attempt "b" 4 false, .attempt "c" 5 false]

/-- The other closed period is checked, and the report that failed is dispatched again. -/
def secondTry : List DispatchAct := [.check "c" 6, .tick (1 + dispatchLockTtl) true]

/-- A test of the turn. -/
def inTurn (s : ReportDispatch) (a : DispatchAct) : Bool :=
  s.clock < a.now && match a with
    | .tick now redisUp => (redisUp && s.held now) || s.untried.isEmpty
    | _ => true

theorem inTurn_of_test (s : ReportDispatch) (a : DispatchAct) (h : inTurn s a = true) :
    InTurn s a := by
  obtain ⟨hnow, htried⟩ := Bool.and_eq_true_iff.mp h
  refine ⟨of_decide_eq_true hnow, fun now redisUp ha hfree => ?_⟩
  subst ha
  dsimp only at htried
  rw [hfree, Bool.false_or, List.isEmpty_iff] at htried
  exact htried

/-- A test that a report is spared. -/
def spares (x : ReportStamp) : DispatchAct → Bool
  | .check id _ => id ≠ x.id
  | _ => true

theorem spares_of_test {a : DispatchAct} (h : spares x a = true) : Spares x a := by
  rintro - now rfl
  exact of_decide_eq_true h rfl

/-- The report that failed is dispatched again. -/
theorem pending_reports_dispatched_again :
    ∃ s₁ s, GuardedRun.run step threePending firstTry = some s₁ ∧
      s₁.batches = [["a", "b", "c"]] ∧ s₁.skipped = [3] ∧
      ⟨"a", 2, true, true⟩ ∈ s₁.pending ∧ GuardedRun.run step s₁ secondTry = some s ∧
      ("a" ∈ (s.batches.drop 1).flatten ∨ "a" ∈ s.handled.drop 3) := by
  let s₁ := (GuardedRun.run step threePending firstTry).getD threePending
  let s := (GuardedRun.run step s₁ secondTry).getD s₁
  have hs₁ : GuardedRun.run (GuardedRun.checked step inTurn) threePending firstTry = some s₁ := rfl
  have hs : GuardedRun.run (GuardedRun.checked step fun s a =>
      inTurn s a && spares ⟨"a", 2, true, true⟩ a) s₁ secondTry = some s := rfl
  have hfresh : Fresh threePending :=
    ⟨by decide, by decide, rfl, rfl, rfl, rfl, rfl, rfl⟩
  obtain ⟨hall, -, -⟩ := pending_reports_dispatched hfresh
    (GuardedRun.Reach.initial.run_checked inTurn_of_test hs₁)
  have hreach : GuardedRun.Reach step
      (fun s a => InTurn s a ∧ Spares ⟨"a", 2, true, true⟩ a) s₁ s := by
    refine GuardedRun.Reach.initial.run_checked (fun s a h => ?_) hs
    obtain ⟨hturn, hspares⟩ := Bool.and_eq_true_iff.mp h
    exact ⟨inTurn_of_test s a hturn, spares_of_test hspares⟩
  exact ⟨s₁, s, rfl, rfl, rfl, by decide +kernel, rfl,
    hall _ (by decide +kernel) s hreach (by decide +kernel)⟩

end ReportDispatch
end PandaProbe
