import PandaProbe.MonitorSchedule
import PandaProbe.RearmedTimer

/-! # When a monitor is dispatched

One ACTIVE monitor is watched over the ticks of the scheduler, while calls and tasks about all
monitors are under way.  A tick takes the lock, reads the table at its own time, and writes the
next runs later; then the lock is free and the tasks are enqueued.  What the monitor's own task
writes leaves the next run (`advanceMonitor`).

While the schedule of the monitor is left alone and every due row has filters when the monitor is
due itself, it is dispatched at exactly the ticks that are not before its next run.  Its next run is
a timer that the dispatch sets again (`Firing.Rearmed`), so dispatches are as far apart as the
cadence, and no instant is dispatched for twice (`dispatch_law`).  A due row with JSON `null` for
its filters, of whatever project, makes the tick raise, and the monitor is passed over.
-/
namespace PandaProbe
open ScheduleRun

/-- A tick that had the lock: its time, the next run of the monitor when it read the table, and
whether it enqueued the monitor's task. -/
structure Tick where
  now : DateTime
  nextRunAt : Option DateTime
  dispatched : Bool
  deriving DecidableEq, Repr

namespace Tick

/-- The time is not before the next run. -/
def reached (tick : Tick) : Bool := tick.nextRunAt.any (· ≤ tick.now)

/-- The dispatch, if there is one. -/
def firing (tick : Tick) : Option (Firing DateTime) :=
  if tick.dispatched then tick.nextRunAt.map fun due => ⟨tick.now, due⟩ else none

end Tick

/-- The dispatches among the ticks. -/
def dispatches (ticks : List Tick) : List (Firing DateTime) := ticks.filterMap Tick.firing

/-- The monitors, the tick that has the lock with its worker, the time of the last tick, and the
ticks that are over, the last one first. -/
structure Watch (F : Type) where
  base : ScheduleRun F
  running : Option (Nat × Tick)
  last : DateTime
  ticks : List Tick

namespace Watch
variable {F : Type} (env : MonitorEnv F) (id : UUID) (s : Watch F)

/-- The next run of the monitor. -/
def nextRunAt : Option DateTime :=
  (s.base.rows.find? fun row => row.id = id).bind fun row => row.nextRunAt

/-- The tick that a worker runs. -/
def tickOf (w : Nat) : Option Tick :=
  s.running.bind fun x => if x.1 = w then some x.2 else none

/-- One step.  A tick that does not get the lock is skipped, and time does not run back.  A tick
that raises enqueues nothing; one whose worker fails is undone, and counts as none. -/
def step (a : MonitorAct F) : Option (Watch F) :=
  match a with
  | .tick w now =>
    if s.running.isSome then some s
    else if now < s.last then none
    else
      (s.base.step env (.tick w now)).map fun base =>
        match dueMonitors env s.base.rows now with
        | none => { s with last := now, ticks := ⟨now, s.nextRunAt id, false⟩ :: s.ticks }
        | some due =>
          { s with
            base := base
            running := some (w, ⟨now, s.nextRunAt id, due.any fun x => x.1.id = id⟩)
            last := now }
  | .commit w =>
    (s.base.step env (.commit w)).map fun base =>
      match s.tickOf w with
      | some tick => { s with base := base, running := none, ticks := tick :: s.ticks }
      | none => { s with base := base }
  | .fail w =>
    (s.base.step env (.fail w)).map fun base =>
      match s.tickOf w with
      | some _ => { s with base := base, running := none }
      | none => { s with base := base }
  | a => (s.base.step env a).map fun base => { s with base := base }

/-- The watch begins, with no tick under way; `last` is before the first one. -/
def watching (base : ScheduleRun F) (last : DateTime) : Watch F := ⟨base, none, last, []⟩

/-- The monitor is not edited, paused, resumed or triggered: a write that reaches its row leaves
the status, the cadence and the next run.  Nor is it deleted. -/
def Undisturbed : MonitorAct F → Prop
  | .commit w => ∀ v now, s.base.task w = .writing id v now → v.accepted = true →
      v.status = none ∧ v.cadence = none ∧ v.nextRunAt = none
  | .delete id' projectId => ∀ row ∈ s.base.rows, row.id = id →
      ¬ (row.id = id' ∧ row.projectId = projectId)
  | _ => True

/-- **The condition on a tick**: if the monitor is due, no due row has JSON `null` for its
filters. -/
def Filtered : MonitorAct F → Prop
  | .tick _ now => s.running = none → (∃ row ∈ s.base.rows, row.id = id ∧ isDue now row = true) →
      ∀ row ∈ s.base.rows, isDue now row = true → row.filters.isSome
  | _ => True

/-- What the law relies on of `croniter`: the next time is the least matching one strictly after
the base, and an expression that has one has one at every base. -/
structure Croniter (env : MonitorEnv F) (Matches : String → DateTime → Prop) : Prop where
  least : ∀ expr t u, env.cronNext expr t = some u → IsLeast {x | Matches expr x ∧ t < x} u
  total : ∀ expr t t', (env.cronNext expr t).isSome → (env.cronNext expr t').isSome

/-- **The law of the schedule.** -/
structure DispatchLaw (Matches : String → DateTime → Prop) (cadence : String) (ticks : List Tick) :
    Prop where
  /-- The dispatches are at exactly the ticks that are not before the next run. -/
  exact : ∀ tick ∈ ticks, tick.dispatched = true ↔ ∃ t, tick.nextRunAt = some t ∧ t ≤ tick.now
  /-- With a predefined cadence they are at least that far apart. -/
  apart : ∀ delta, predefinedDelta cadence = some delta →
    (dispatches ticks).Pairwise fun later earlier => earlier.time + delta ≤ later.time
  /-- Of a cron monitor there is one for an instant at most; one that is not the first has an
  instant of the expression between the dispatch before it and itself. -/
  once : ∀ expr, cronExpr cadence = some expr →
    ((dispatches ticks).map Firing.due).Nodup ∧
      (dispatches ticks).Pairwise fun later earlier =>
        Matches expr later.due ∧ earlier.time < later.due ∧ later.due ≤ later.time

/-! ## The law of a list of ticks -/

variable {env} {Matches : String → DateTime → Prop} {cadence : String} {ticks : List Tick}
  {armed : Option DateTime}

theorem predefinedDelta_nonneg {delta : Int} (h : predefinedDelta cadence = some delta) :
    0 ≤ delta := by
  unfold predefinedDelta at h
  split_ifs at h <;> cases h <;> decide

theorem computeNextRun_predefined {delta : Int} (h : predefinedDelta cadence = some delta)
    (t : DateTime) : computeNextRun env cadence t = some (t + delta) := by
  rw [computeNextRun, h]

theorem computeNextRun_cron {expr : String} (h : cronExpr cadence = some expr) (t : DateTime) :
    computeNextRun env cadence t = env.cronNext expr t := by
  have hnames : ∀ name ∈ ["every_6h", "daily", "weekly"], cronExpr name = none := by decide
  have hother : cadence ∉ ["every_6h", "daily", "weekly"] := fun hmem => by
    rw [hnames cadence hmem] at h
    cases h
  have hnone : predefinedDelta cadence = none := by
    simp only [List.mem_cons, List.not_mem_nil, or_false, not_or] at hother
    rw [predefinedDelta, if_neg hother.1, if_neg hother.2.1, if_neg hother.2.2]
  rw [computeNextRun, hnone, h]

theorem late_dispatches (h : ∀ tick ∈ ticks, tick.dispatched = tick.reached) :
    Firing.Late (dispatches ticks) := by
  intro f hf
  obtain ⟨tick, htick, hfiring⟩ := List.mem_filterMap.mp hf
  have hexact := h tick htick
  unfold Tick.firing at hfiring
  split at hfiring
  next hd =>
    obtain ⟨due, hdue, rfl⟩ := Option.map_eq_some_iff.mp hfiring
    rw [hd, Tick.reached, hdue] at hexact
    exact of_decide_eq_true hexact.symm
  · cases hfiring

/-- Exact ticks of a monitor whose next run is set again keep the law. -/
theorem dispatchLaw_of_rearmed (hcron : Croniter env Matches)
    (hexact : ∀ tick ∈ ticks, tick.dispatched = tick.reached)
    (h : Firing.Rearmed (computeNextRun env cadence) armed (dispatches ticks)) :
    DispatchLaw Matches cadence ticks := by
  have hlate := late_dispatches hexact
  refine ⟨fun tick htick => ?_, fun delta hdelta => ?_, fun expr hexpr => ?_⟩
  · rw [hexact tick htick, Tick.reached, Option.any_eq_true]
    simp only [decide_eq_true_eq]
  · have hnonneg := predefinedDelta_nonneg hdelta
    have hpair := h.pairwise (R := fun t u => t + delta ≤ u)
      (fun t u htu => by
        rw [computeNextRun_predefined hdelta] at htu
        exact (Option.some.inj htu).le)
      (fun t u htu => by omega) (fun t u v htu huv => htu.trans huv) hlate
    exact hpair.imp_of_mem fun hlater _ hle => hle.trans (hlate _ hlater)
  · have hleast : ∀ t u, computeNextRun env cadence t = some u → Matches expr u ∧ t < u :=
      fun t u htu => (hcron.least expr t u (computeNextRun_cron hexpr t ▸ htu)).1
    have hnext : ∀ t u, computeNextRun env cadence t = some u → t < u :=
      fun t u htu => (hleast t u htu).2
    have hpair := h.pairwise hnext (fun _ _ => le_of_lt) (fun _ _ _ => lt_of_lt_of_le) hlate
    refine ⟨h.nodup_due hnext hlate, ?_⟩
    refine (hpair.and h.due_next).imp_of_mem fun {later earlier} hlater _ hboth => ?_
    obtain ⟨hlt, t, ht⟩ := hboth
    exact ⟨(hleast t _ ht).1, hlt, hlate later hlater⟩

/-! ## Rows and tasks that a step leaves alone -/

section Base
variable {base base' : ScheduleRun F} {a : MonitorAct F} {row : MonitorRow F} {w u : Nat}

/-- A row that a tick can handle if it has filters. -/
structure Computable (env : MonitorEnv F) (row : MonitorRow F) : Prop where
  rate : env.rateOk row.samplingRate = true
  next : ∀ t, (computeNextRun env row.cadence t).isSome
  active : row.status = .active → row.nextRunAt.isSome

theorem Computable.dueNext {now : DateTime} (h : Computable env row)
    (hfilters : row.filters.isSome) : (dueNext env now row).isSome := by
  obtain ⟨filters, hfilters⟩ := Option.isSome_iff_exists.mp hfilters
  obtain ⟨t, ht⟩ := Option.isSome_iff_exists.mp (h.next now)
  simp [ScheduleRun.dueNext, MonitorRow.toMonitor, hfilters, h.rate, ht]

/-- Every row is computable, and every waiting write is checked, whatever is written. -/
theorem table_computable_step (hcron : Croniter env Matches)
    (h : Table (Computable env) (fun _ v => Checked env v) base)
    (hs : base.step env a = some base') :
    Table (Computable env) (fun _ v => Checked env v) base' := by
  refine table_step h ?_ hs
  constructor
  case created =>
    intro id projectId req now row _ hok
    have hnew := createMonitor_ok hok
    exact ⟨hnew.rate, computeNextRun_isSome hcron.total hnew.next, fun _ => hnew.nextRunAt⟩
  case planned =>
    intro w id projectId now m v _ hplan _ row _ _ _
    exact checked_planned hcron.total hplan
  case written =>
    rintro w id v now row - - - - - hold hv
    exact ⟨rate_set hold.rate hv, next_set hold.next hv, nextRunAt_set hold.active hv⟩
  case rescheduled =>
    intro w next now t row _ _ _ _ hold
    exact ⟨hold.rate, hold.next, fun _ => rfl⟩

/-- The columns of a row that its schedule depends on. -/
structure Kept (row row' : MonitorRow F) : Prop where
  id : row'.id = row.id
  status : row'.status = row.status
  cadence : row'.cadence = row.cadence
  nextRunAt : row'.nextRunAt = row.nextRunAt

theorem Kept.refl (row : MonitorRow F) : Kept row row := ⟨rfl, rfl, rfl, rfl⟩

theorem kept_set {v : MonitorValues F} {now : DateTime} (hstatus : v.status = none)
    (hcadence : v.cadence = none) (hnext : v.nextRunAt = none) : Kept row (v.set now row) where
  id := rfl
  status := by
    show v.status.getD row.status = row.status
    rw [hstatus, Option.getD_none]
  cadence := by
    show v.cadence.setNotNull row.cadence = row.cadence
    rw [hcadence]
    rfl
  nextRunAt := by
    show v.nextRunAt.set row.nextRunAt = row.nextRunAt
    rw [hnext]
    rfl

/-- A step that does not disturb the monitor and is no tick's commit keeps the schedule of the row. -/
theorem kept_step (hrow : row ∈ s.base.rows) (hquiet : s.Undisturbed row.id a)
    (htick : ∀ w next now, a = .commit w → s.base.task w ≠ .rescheduling next now)
    (hs : s.base.step env a = some base') : ∃ row' ∈ base'.rows, Kept row row' := by
  cases moves_of_step hs with
  | same | planned | ticked | ended => exact ⟨row, hrow, .refl row⟩
  | created => exact ⟨row, List.mem_append_left _ hrow, .refl row⟩
  | deleted =>
    have hstays := hquiet row hrow rfl
    exact ⟨row, List.mem_filter.mpr ⟨hrow, decide_eq_true hstays⟩, .refl row⟩
  | @written w id v now hw hok =>
    refine ⟨_, List.mem_map_of_mem hrow, ?_⟩
    by_cases hid : row.id = id
    · obtain ⟨hstatus, hcadence, hnext⟩ := hquiet v now (hid ▸ hw) hok
      rw [if_pos hid]
      exact kept_set hstatus hcadence hnext
    · rw [if_neg hid]
      exact .refl row
  | rescheduled hw => exact absurd hw (htick _ _ _ rfl)

theorem goto_task_other {p : MonitorTask F} (h : u ≠ w) : (base.goto w p).task u = base.task u :=
  Function.update_of_ne h ..

/-- A worker is in the same tick before and after a step. -/
def SameTick (base base' : ScheduleRun F) (u : Nat) : Prop :=
  ∀ next now, base'.task u = .rescheduling next now ↔ base.task u = .rescheduling next now

theorem sameTick_call {id projectId : UUID} {now : DateTime}
    {plan : EvalMonitor F → Option (MonitorValues F)}
    (hs : base.call env w id projectId now plan = some base') (u : Nat) :
    SameTick base base' u := by
  unfold call at hs
  split at hs
  next hidle =>
    split at hs
    · cases hs
      exact fun _ _ => Iff.rfl
    next v _ =>
      split at hs
      · cases hs
        exact fun _ _ => Iff.rfl
      · cases hs
        intro next now'
        by_cases huw : u = w
        · subst huw
          rw [goto_task_self, hidle]
          exact ⟨nofun, nofun⟩
        · rw [goto_task_other huw]
  · cases hs

/-- Only a tick, its commit and its failure concern the tick of a worker. -/
theorem sameTick_step (hs : base.step env a = some base') (htick : ∀ w now, a ≠ .tick w now)
    (hcommit : a ≠ .commit u) (hfail : a ≠ .fail u) : SameTick base base' u := by
  cases a with
  | create id projectId req now =>
    simp only [ScheduleRun.step] at hs
    split at hs
    · cases hs
    · split at hs <;> cases hs <;> exact fun _ _ => Iff.rfl
  | update w id projectId req now => exact sameTick_call hs u
  | pause w id projectId now => exact sameTick_call hs u
  | resume w id projectId now => exact sameTick_call hs u
  | trigger w id projectId runId now => exact sameTick_call hs u
  | process w id projectId runId now => exact sameTick_call hs u
  | tick w now => exact absurd rfl (htick w now)
  | commit w =>
    have huw : u ≠ w := fun h => hcommit (h ▸ rfl)
    have htask : base'.task u = base.task u := by
      simp only [ScheduleRun.step, ScheduleRun.commit] at hs
      split at hs
      · cases hs
      · cases hs
        exact goto_task_other huw
      · cases hs
        exact goto_task_other huw
    rw [SameTick, htask]
    exact fun _ _ => Iff.rfl
  | fail w =>
    have huw : u ≠ w := fun h => hfail (h ▸ rfl)
    cases hs
    rw [SameTick, goto_task_other huw]
    exact fun _ _ => Iff.rfl
  | delete id projectId =>
    cases hs
    exact fun _ _ => Iff.rfl

/-- The worker of a tick is idle after its commit or its failure. -/
theorem idle_ended (ha : a = .commit w ∨ a = .fail w) (hs : base.step env a = some base') :
    base'.task w = .idle := by
  rcases ha with rfl | rfl
  · simp only [ScheduleRun.step, ScheduleRun.commit] at hs
    split at hs
    · cases hs
    · cases hs
      exact goto_task_self
    · cases hs
      exact goto_task_self
  · cases hs
    exact goto_task_self

end Base

/-! ## The invariant -/

/-- What the running tick has read of the monitor, and what its worker is about to write. -/
structure Reading (env : MonitorEnv F) (row : MonitorRow F) (tick : Tick)
    (next : List (UUID × DateTime)) : Prop where
  nextRunAt : tick.nextRunAt = row.nextRunAt
  exact : tick.dispatched = tick.reached
  listed : tick.dispatched = true ↔ ∃ t, (row.id, t) ∈ next
  computed : ∀ t, (row.id, t) ∈ next → computeNextRun env row.cadence tick.now = some t

/-- The monitor is ACTIVE, the ticks so far are exact, and its next run is the one after the last
dispatch; at most one worker is in a tick. -/
structure Watched (env : MonitorEnv F) (cadence : String) (s : Watch F) (row : MonitorRow F) :
    Prop where
  table : Table (Computable env) (fun _ v => Checked env v) s.base
  present : row ∈ s.base.rows
  active : row.status = .active
  cadence_eq : row.cadence = cadence
  running : ∀ w tick, s.running = some (w, tick) →
    ∃ next, s.base.task w = .rescheduling next tick.now ∧ Reading env row tick next
  alone : ∀ w next now, s.base.task w = .rescheduling next now → ∃ tick, s.running = some (w, tick)
  exact : ∀ tick ∈ s.ticks, tick.dispatched = tick.reached
  rearmed : Firing.Rearmed (computeNextRun env cadence) row.nextRunAt (dispatches s.ticks)

variable {s} {s' : Watch F} {base : ScheduleRun F} {row row' : MonitorRow F} {tick : Tick}
  {w : Nat} {now : DateTime}

theorem Reading.kept {next : List (UUID × DateTime)} (h : Reading env row tick next)
    (hk : Kept row row') : Reading env row' tick next := by
  refine ⟨?_, h.exact, ?_, ?_⟩
  · rw [hk.nextRunAt]
    exact h.nextRunAt
  · rw [hk.id]
    exact h.listed
  · rw [hk.id, hk.cadence]
    exact h.computed

theorem find?_row (h : Keyed base) (hrow : row ∈ base.rows) :
    (base.rows.find? fun r => r.id = row.id) = some row := by
  have hsome : (base.rows.find? fun r => r.id = row.id).isSome :=
    List.find?_isSome.mpr ⟨row, hrow, by simp⟩
  obtain ⟨found, hfound⟩ := Option.isSome_iff_exists.mp hsome
  have hid : found.id = row.id := by simpa using List.find?_some hfound
  rw [hfound, h.eq_of_id (List.mem_of_find?_eq_some hfound) hrow hid]

theorem Watched.nextRunAt (h : Watched env cadence s row) : s.nextRunAt row.id = row.nextRunAt := by
  rw [Watch.nextRunAt, find?_row h.table.keyed h.present, Option.bind_some]

theorem Watched.isDue_iff (h : Watched env cadence s row) :
    isDue now row = true ↔ row.nextRunAt.any (· ≤ now) = true := by
  simp [isDue, h.active]

/-- What a tick reads of the monitor. -/
theorem reading_tick (h : Watched env cadence s row) {due : List (EvalMonitor F × DateTime)}
    (hdue : dueMonitors env s.base.rows now = some due) :
    Reading env row ⟨now, s.nextRunAt row.id, due.any fun x => x.1.id = row.id⟩
      (due.map fun x => (x.1.id, x.2)) := by
  -- an entry with the id of the monitor is about its row
  have hentry : ∀ x ∈ due, x.1.id = row.id →
      isDue now row = true ∧ computeNextRun env row.cadence now = some x.2 := by
    intro x hx hid
    obtain ⟨row', hrow', hisdue, hnext⟩ := (mem_dueMonitors hdue).mp hx
    obtain ⟨hxid, -, hcompute⟩ := dueNext_some hnext
    obtain rfl := h.table.keyed.eq_of_id hrow' h.present (hxid.symm.trans hid)
    exact ⟨hisdue, hcompute⟩
  have hany : (due.any fun x => x.1.id = row.id) = true ↔
      ∃ t, (row.id, t) ∈ due.map fun x => (x.1.id, x.2) := by
    simp only [List.any_eq_true, decide_eq_true_eq, List.mem_map, Prod.mk.injEq]
    constructor
    · rintro ⟨x, hx, hid⟩
      exact ⟨x.2, x, hx, hid, rfl⟩
    · rintro ⟨t, x, hx, hid, -⟩
      exact ⟨x, hx, hid⟩
  refine ⟨h.nextRunAt, ?_, hany, ?_⟩
  · rw [Bool.eq_iff_iff]
    show _ ↔ (s.nextRunAt row.id).any (· ≤ now) = true
    rw [h.nextRunAt, ← h.isDue_iff, List.any_eq_true]
    simp only [decide_eq_true_eq]
    constructor
    · rintro ⟨x, hx, hid⟩
      exact (hentry x hx hid).1
    · intro hisdue
      have hsome := dueMonitors_isSome_iff.mp (Option.isSome_of_eq_some hdue) row h.present hisdue
      obtain ⟨x, hx⟩ := Option.isSome_iff_exists.mp hsome
      exact ⟨x, (mem_dueMonitors hdue).mpr ⟨row, h.present, hisdue, hx⟩, (dueNext_some hx).1⟩
  · intro t ht
    obtain ⟨x, hx, heq⟩ := List.mem_map.mp ht
    obtain ⟨hid, rfl⟩ := Prod.mk.inj heq
    exact (hentry x hx hid).2

/-- A tick that raises does so while the monitor is not due, where the condition is met. -/
theorem not_reached_of_raised (h : Watched env cadence s row) (hfree : s.running = none)
    (hok : s.Filtered row.id (.tick w now)) (hraise : dueMonitors env s.base.rows now = none) :
    row.nextRunAt.any (· ≤ now) = false := by
  rw [← Bool.not_eq_true, ← h.isDue_iff]
  intro hisdue
  have hfilters := hok hfree ⟨row, h.present, rfl, hisdue⟩
  have hsome : (dueMonitors env s.base.rows now).isSome := dueMonitors_isSome_iff.mpr
    fun row' hrow' hdue' => (h.table.rows row' hrow').dueNext (hfilters row' hrow' hdue')
  rw [hraise] at hsome
  cases hsome

/-- One more tick in the log. -/
theorem rearmed_cons {ticks : List Tick} {next : Option DateTime}
    (h : Firing.Rearmed (computeNextRun env cadence) tick.nextRunAt (dispatches ticks))
    (hexact : tick.dispatched = tick.reached)
    (hdispatched : tick.dispatched = true → next = computeNextRun env cadence tick.now)
    (hnot : tick.dispatched = false → next = tick.nextRunAt) :
    Firing.Rearmed (computeNextRun env cadence) next (dispatches (tick :: ticks)) := by
  cases hd : tick.dispatched with
  | false =>
    have hnone : tick.firing = none := by simp [Tick.firing, hd]
    rw [dispatches, List.filterMap_cons_none hnone, hnot hd]
    exact h
  | true =>
    rw [hd, Tick.reached] at hexact
    obtain ⟨due, hdue, -⟩ := (Option.any_eq_true _ _).mp hexact.symm
    have hfiring : tick.firing = some ⟨tick.now, due⟩ := by simp [Tick.firing, hd, hdue]
    rw [dispatches, List.filterMap_cons_some hfiring]
    exact ⟨hdispatched hd, hdue ▸ h⟩

/-! ## One step -/

variable {a : MonitorAct F}

/-- A step of the base that leaves the schedule of the monitor and the ticks alone. -/
theorem Watched.frame (h : Watched env cadence s row)
    (htable : Table (Computable env) (fun _ v => Checked env v) base)
    (hkept : ∃ row' ∈ base.rows, Kept row row') (hsame : ∀ u, SameTick s.base base u) :
    ∃ row', row'.id = row.id ∧ Watched env cadence { s with base := base } row' := by
  obtain ⟨row', hrow', hk⟩ := hkept
  refine ⟨row', hk.id, htable, hrow', hk.status.trans h.active, hk.cadence.trans h.cadence_eq,
    fun w tick hrun => ?_, fun w next now hw => h.alone w next now ((hsame w next now).mp hw),
    h.exact, ?_⟩
  · obtain ⟨next, hnext, hread⟩ := h.running w tick hrun
    exact ⟨next, (hsame w next tick.now).mpr hnext, hread.kept hk⟩
  · rw [hk.nextRunAt]
    exact h.rearmed

theorem tickOf_some (h : s.tickOf w = some tick) : s.running = some (w, tick) := by
  obtain ⟨⟨u, tick'⟩, hrun, hif⟩ := Option.bind_eq_some_iff.mp h
  split at hif
  next huw =>
    cases hif
    rw [hrun, ← huw]
  · cases hif

/-- Once its worker is through, no tick is under way. -/
theorem Watched.released (h : Watched env cadence s row) (hrun : s.running = some (w, tick))
    (ha : a = .commit w ∨ a = .fail w) (hs : s.base.step env a = some base) (u : Nat)
    (next : List (UUID × DateTime)) (now : DateTime) : base.task u ≠ .rescheduling next now := by
  intro hu
  by_cases huw : u = w
  · rw [huw, idle_ended ha hs] at hu
    cases hu
  · have hsame : SameTick s.base base u := by
      rcases ha with rfl | rfl
      · exact sameTick_step hs nofun (fun h => huw (by cases h; rfl)) nofun
      · exact sameTick_step hs nofun nofun (fun h => huw (by cases h; rfl))
    obtain ⟨tick', htick'⟩ := h.alone u next now ((hsame next now).mp hu)
    rw [hrun] at htick'
    cases htick'
    exact huw rfl

/-- A worker that is in no tick ends something else. -/
theorem Watched.sameTick_ended (h : Watched env cadence s row) (hno : s.tickOf w = none)
    (ha : a = .commit w ∨ a = .fail w) (hs : s.base.step env a = some base) (u : Nat) :
    SameTick s.base base u := by
  by_cases huw : u = w
  · subst huw
    intro next now
    rw [idle_ended ha hs]
    refine ⟨nofun, fun hu => ?_⟩
    obtain ⟨tick, hrun⟩ := h.alone u next now hu
    rw [tickOf, hrun] at hno
    simp at hno
  · rcases ha with rfl | rfl
    · exact sameTick_step hs nofun (fun h => huw (by cases h; rfl)) nofun
    · exact sameTick_step hs nofun nofun (fun h => huw (by cases h; rfl))

/-- The commit of the tick writes what it has read to be due. -/
theorem watched_commit (hcron : Croniter env Matches) (h : Watched env cadence s row)
    (hrun : s.running = some (w, tick)) (hs : s.base.step env (.commit w) = some base) :
    ∃ row', row'.id = row.id ∧
      Watched env cadence { s with base := base, running := none, ticks := tick :: s.ticks } row' := by
  have htable := table_computable_step hcron h.table hs
  have hfree := h.released hrun (.inl rfl) hs
  obtain ⟨next, hnext, hread⟩ := h.running w tick hrun
  have hrows : base.rows = s.base.rows.map (rescheduledRow tick.now next) := by
    simp only [ScheduleRun.step, ScheduleRun.commit, hnext] at hs
    cases hs
    exact reschedule_eq_map ..
  have hset : (tick.dispatched = true → (rescheduledRow tick.now next row).nextRunAt =
      computeNextRun env cadence tick.now) ∧
      (tick.dispatched = false → (rescheduledRow tick.now next row).nextRunAt = tick.nextRunAt) ∧
      (rescheduledRow tick.now next row).status = row.status ∧
      (rescheduledRow tick.now next row).cadence = row.cadence := by
    cases hd : tick.dispatched with
    | false =>
      obtain hsame | ⟨t, ht, -⟩ := rescheduledRow_cases tick.now next row
      · rw [hsame]
        exact ⟨by simp, fun _ => hread.nextRunAt.symm, rfl, rfl⟩
      · rw [hread.listed.mpr ⟨t, ht⟩] at hd
        cases hd
    | true =>
      obtain ⟨t, ht⟩ := hread.listed.mp hd
      obtain ⟨u, hu, hwith⟩ : ∃ u, (row.id, u) ∈ next ∧
          rescheduledRow tick.now next row = withNext tick.now u row := rescheduledRow_listed ht
      rw [hwith, ← h.cadence_eq]
      exact ⟨fun _ => (hread.computed u hu).symm, by simp, rfl, rfl⟩
  obtain ⟨hdispatched, hnot, hstatus, hcadence⟩ := hset
  refine ⟨rescheduledRow tick.now next row, rescheduledRow_id .., htable, ?_,
    hstatus.trans h.active, hcadence.trans h.cadence_eq, fun _ _ hrun => absurd hrun (by simp),
    fun u next now hu => absurd hu (hfree u next now), ?_, ?_⟩
  · rw [hrows]
    exact List.mem_map_of_mem h.present
  · exact List.forall_mem_cons.mpr ⟨hread.exact, h.exact⟩
  · refine rearmed_cons ?_ hread.exact hdispatched hnot
    rw [hread.nextRunAt]
    exact h.rearmed

/-- A tick whose worker fails leaves everything as it was. -/
theorem watched_fail (hcron : Croniter env Matches) (h : Watched env cadence s row)
    (hrun : s.running = some (w, tick)) (hs : s.base.step env (.fail w) = some base) :
    Watched env cadence { s with base := base, running := none } row := by
  have htable := table_computable_step hcron h.table hs
  have hfree := h.released hrun (.inr rfl) hs
  cases hs
  exact ⟨htable, h.present, h.active, h.cadence_eq, nofun,
    fun u next now hu => absurd hu (hfree u next now), h.exact, h.rearmed⟩

/-- A tick that gets the lock raises while the monitor is not due, or reads that it is. -/
theorem watched_tick (hcron : Croniter env Matches) (h : Watched env cadence s row)
    (hok : s.Filtered row.id (.tick w now)) (hs : s.step env row.id (.tick w now) = some s') :
    Watched env cadence s' row := by
  simp only [step] at hs
  split_ifs at hs with hbusy hlate
  · cases hs
    exact h
  have hfree : s.running = none := by simpa using hbusy
  obtain ⟨base, hbase, hs⟩ := Option.map_eq_some_iff.mp hs
  split at hs
  next hraise =>
    have hearly := not_reached_of_raised h hfree hok hraise
    rw [← h.nextRunAt] at hearly
    cases hs
    refine { h with exact := ?_, rearmed := ?_ }
    · exact List.forall_mem_cons.mpr ⟨hearly.symm, h.exact⟩
    · have hrearmed := h.rearmed
      rw [← h.nextRunAt] at hrearmed ⊢
      exact rearmed_cons hrearmed hearly.symm nofun fun _ => rfl
  next due hdue =>
    have htable := table_computable_step hcron h.table hbase
    simp only [ScheduleRun.step] at hbase
    split at hbase
    next hidle =>
      rw [hdue] at hbase
      cases hbase
      cases hs
      refine ⟨htable, h.present, h.active, h.cadence_eq, fun u tick hrun => ?_,
        fun u next now' hu => ?_, h.exact, h.rearmed⟩
      · cases hrun
        exact ⟨_, goto_task_self, reading_tick h hdue⟩
      · by_cases huw : u = w
        · subst huw
          exact ⟨_, rfl⟩
        · rw [goto_task_other huw] at hu
          obtain ⟨tick, hrun⟩ := h.alone u next now' hu
          rw [hfree] at hrun
          cases hrun
    · cases hbase

/-- **The step lemma.** -/
theorem watched_step (hcron : Croniter env Matches) (h : Watched env cadence s row)
    (hquiet : s.Undisturbed row.id a) (hok : s.Filtered row.id a)
    (hs : s.step env row.id a = some s') :
    ∃ row', row'.id = row.id ∧ Watched env cadence s' row' := by
  -- all steps but the ticks and what ends them
  have hframe : ∀ base, s.base.step env a = some base → (∀ w now, a ≠ .tick w now) →
      (∀ w, a = .commit w ∨ a = .fail w → s.tickOf w = none) →
      ∃ row', row'.id = row.id ∧ Watched env cadence { s with base := base } row' := by
    intro base hbase htick hended
    refine h.frame (table_computable_step hcron h.table hbase) ?_ fun u => ?_
    · refine kept_step s h.present hquiet (fun w next now ha hw => ?_) hbase
      obtain ⟨tick, hrun⟩ := h.alone w next now hw
      have hno := hended w (.inl ha)
      rw [tickOf, hrun] at hno
      simp at hno
    · by_cases hu : a = .commit u ∨ a = .fail u
      · exact h.sameTick_ended (hended u hu) hu hbase u
      · rw [not_or] at hu
        exact sameTick_step hbase htick hu.1 hu.2
  cases a with
  | tick w now => exact ⟨row, rfl, watched_tick hcron h hok hs⟩
  | commit w =>
    simp only [step, Option.map_eq_some_iff] at hs
    obtain ⟨base, hbase, hs⟩ := hs
    split at hs
    next tick htick =>
      cases hs
      exact watched_commit hcron h (tickOf_some htick) hbase
    next hno =>
      cases hs
      refine hframe base hbase nofun fun u hu => ?_
      rcases hu with hu | hu <;> cases hu
      exact hno
  | fail w =>
    simp only [step, Option.map_eq_some_iff] at hs
    obtain ⟨base, hbase, hs⟩ := hs
    split at hs
    next tick htick =>
      cases hs
      exact ⟨row, rfl, watched_fail hcron h (tickOf_some htick) hbase⟩
    next hno =>
      cases hs
      refine hframe base hbase nofun fun u hu => ?_
      rcases hu with hu | hu <;> cases hu
      exact hno
  | create | update | pause | resume | trigger | process | delete =>
    simp only [step, Option.map_eq_some_iff] at hs
    obtain ⟨base, hbase, hs⟩ := hs
    cases hs
    exact hframe base hbase nofun fun _ hu => by rcases hu with hu | hu <;> cases hu

/-! ## The law of a run -/

/-- The watch may begin with any ACTIVE monitor, whatever happened before. -/
theorem watched_watching (hcron : Croniter env Matches)
    (hbase : GuardedRun.Reach (ScheduleRun.step env) GuardedRun.Always ScheduleRun.initial base)
    (hrow : row ∈ base.rows) (hactive : row.status = .active)
    (hidle : ∀ w next now, base.task w ≠ .rescheduling next now) (last : DateTime) :
    Watched env row.cadence (watching base last) row where
  table := hbase.invariant table_initial fun _ _ _ h _ hs => table_computable_step hcron h hs
  present := hrow
  active := hactive
  cadence_eq := rfl
  running := nofun
  alone w next now hw := absurd hw (hidle w next now)
  exact := fun _ htick => absurd htick List.not_mem_nil
  rearmed := trivial

/-- A tick that does not meet the condition passes the monitor over although it is due. -/
theorem not_dispatchLaw (h : Watched env cadence s row) (hnot : ¬ s.Filtered row.id a)
    (hs : s.step env row.id a = some s') : ¬ DispatchLaw Matches cadence s'.ticks := by
  cases a with
  | tick w now =>
    simp only [Filtered, not_forall] at hnot
    obtain ⟨hfree, ⟨due, hdue, hid, hisdue⟩, row', hrow', hdue', hnull⟩ := hnot
    obtain rfl := h.table.keyed.eq_of_id hdue h.present hid
    have hraise : dueMonitors env s.base.rows now = none := by
      rw [← Option.not_isSome_iff_eq_none, dueMonitors_isSome_iff]
      intro hall
      have hsome := hall row' hrow' hdue'
      simp [dueNext, MonitorRow.toMonitor, Option.not_isSome_iff_eq_none.mp hnull] at hsome
    have hticks : s'.ticks = ⟨now, s.nextRunAt due.id, false⟩ :: s.ticks := by
      simp only [step, hfree, Option.isSome_none, Bool.false_eq_true, if_false] at hs
      split_ifs at hs
      simp only [Option.map_eq_some_iff, hraise] at hs
      obtain ⟨base, -, rfl⟩ := hs
      rfl
    intro hlaw
    rw [hticks] at hlaw
    have hreached : ∃ t, s.nextRunAt due.id = some t ∧ t ≤ now := by
      rw [h.isDue_iff, Option.any_eq_true] at hisdue
      simpa [h.nextRunAt] using hisdue
    cases (hlaw.exact _ (List.mem_cons_self ..)).mpr hreached
  | create | update | pause | resume | trigger | process | commit | fail | delete =>
    exact absurd trivial hnot

/-- **The schedule of a monitor, in every run.**  A monitor that is left alone is dispatched at
exactly the ticks that are not before its next run, as far apart as its cadence, and once for an
instant at most, exactly while at each of its ticks no due row has JSON `null` for its filters. -/
theorem dispatch_law (hcron : Croniter env Matches)
    (hbase : GuardedRun.Reach (ScheduleRun.step env) GuardedRun.Always ScheduleRun.initial base)
    (hrow : row ∈ base.rows) (hactive : row.status = .active)
    (hidle : ∀ w next now, base.task w ≠ .rescheduling next now) (last : DateTime) :
    ∀ s, GuardedRun.Reach (step env row.id)
        (fun s a => s.Undisturbed row.id a ∧ s.Filtered row.id a) (watching base last) s →
      DispatchLaw Matches row.cadence s.ticks ∧
      ∀ a s', s.step env row.id a = some s' → ¬ s.Filtered row.id a →
        ¬ DispatchLaw Matches row.cadence s'.ticks := by
  intro s hreach
  have hwatched : ∃ row', row'.id = row.id ∧ Watched env row.cadence s row' := by
    refine hreach.invariant (I := fun s => ∃ row', row'.id = row.id ∧ Watched env row.cadence s row')
      ⟨row, rfl, watched_watching hcron hbase hrow hactive hidle last⟩ ?_
    rintro s a s' ⟨row', hid, h⟩ ⟨hquiet, hok⟩ hs
    rw [← hid] at hquiet hok hs ⊢
    exact watched_step hcron h hquiet hok hs
  obtain ⟨row', hid, h⟩ := hwatched
  refine ⟨dispatchLaw_of_rearmed hcron h.exact h.rearmed, fun a s' hs hnot => ?_⟩
  rw [← hid] at hs hnot
  exact not_dispatchLaw h hnot hs

/-! ## Two runs -/

/-- Without ticks no worker is in one. -/
theorem no_tick (h : GuardedRun.Reach (ScheduleRun.step env) (fun _ a => ∀ w now, a ≠ .tick w now)
    ScheduleRun.initial base) (w : Nat) (next : List (UUID × DateTime)) (now : DateTime) :
    base.task w ≠ .rescheduling next now := by
  refine h.invariant (I := fun base => ∀ w next now, base.task w ≠ .rescheduling next now)
    nofun (fun base a base' ih htick hs u next now hu => ?_) w next now
  by_cases hended : a = .commit u ∨ a = .fail u
  · rw [idle_ended hended hs] at hu
    cases hu
  · rw [not_or] at hended
    exact ih u next now ((sameTick_step hs htick hended.1 hended.2 next now).mp hu)

/-- The full hours. -/
def Hourly (expr : String) (t : DateTime) : Prop := expr = "0 * * * *" ∧ DateTime.hours 1 ∣ t

theorem croniter_sampleEnv : Croniter sampleEnv Hourly := by
  refine ⟨fun expr t u hu => ?_, sampleEnv_cron⟩
  simp only [sampleEnv] at hu
  split at hu
  next hexpr =>
    obtain rfl := Option.some.inj hu
    have hpos : 0 < DateTime.hours 1 := by decide
    refine ⟨⟨⟨hexpr, Dvd.intro_left _ rfl⟩, ?_⟩, ?_⟩
    · exact Int.lt_ediv_add_one_mul_self t hpos
    · rintro _ ⟨⟨-, k, rfl⟩, hlt⟩
      have hk : t / DateTime.hours 1 < k :=
        Int.ediv_lt_of_lt_mul hpos (by rwa [mul_comm] at hlt)
      rw [mul_comm (DateTime.hours 1) k]
      exact mul_le_mul_of_nonneg_right hk hpos.le
  · cases hu

/-- A test of both conditions. -/
def quietTest (id : UUID) (s : Watch F) : MonitorAct F → Bool
  | .commit w =>
    match s.base.task w with
    | .writing _ v _ => v.status.isNone && v.cadence.isNone && v.nextRunAt.isNone
    | _ => true
  | .tick _ now => s.base.rows.all fun row => !isDue now row || row.filters.isSome
  | .delete id' _ => id' ≠ id
  | _ => true

theorem of_quietTest {id : UUID} (h : quietTest id s a = true) : s.Undisturbed id a ∧ s.Filtered id a := by
  cases a with
  | commit w =>
    refine ⟨fun v now hw _ => ?_, trivial⟩
    simp only [quietTest, hw, Bool.and_eq_true, Option.isNone_iff_eq_none] at h
    exact ⟨h.1.1, h.1.2, h.2⟩
  | tick w now =>
    refine ⟨trivial, fun _ _ row hrow hdue => ?_⟩
    have hrow := List.all_eq_true.mp h row hrow
    simpa [hdue] using hrow
  | delete id' projectId =>
    refine ⟨fun row _ hid heq => ?_, trivial⟩
    exact of_decide_eq_true h (heq.1.symm.trans hid)
  | create | update | pause | resume | trigger | process | fail => exact ⟨trivial, trivial⟩

/-- A row with the id that is ACTIVE, from a run of the table. -/
def activeRow (id : UUID) (base : ScheduleRun F) : Option (MonitorRow F) :=
  base.rows.find? fun row => row.id = id ∧ row.status = .active

theorem activeRow_some {id : UUID} (h : activeRow id base = some row) :
    row ∈ base.rows ∧ row.id = id ∧ row.status = .active := by
  have hrow : row.id = id ∧ row.status = .active := by simpa using List.find?_some h
  exact ⟨List.mem_of_find?_eq_some h, hrow⟩

/-- An hourly monitor: a tick at the full hour, its own task, a tick a little later, and one two
days later. -/
def hourlyTicks : List (MonitorAct ℚ) :=
  [.tick 0 (DateTime.hours 1), .process 1 "n" "B" "run" (DateTime.hours 1), .commit 0, .commit 1,
    .tick 0 (DateTime.hours 1 + 5), .commit 0, .tick 2 (DateTime.days 2), .commit 2]

/-- It is dispatched at the hour, not a little later, and once for the two days. -/
theorem dispatch_law_hourly : ∃ (row : MonitorRow ℚ) (s : Watch ℚ),
    row.cadence = "cron:0 * * * *" ∧
    DispatchLaw Hourly row.cadence s.ticks ∧
    dispatches s.ticks = [⟨DateTime.days 2, DateTime.hours 2⟩, ⟨DateTime.hours 1, DateTime.hours 1⟩] ∧
    s.ticks.map Tick.now = [DateTime.days 2, DateTime.hours 1 + 5, DateTime.hours 1] := by
  have hrun : ((GuardedRun.run (ScheduleRun.step sampleEnv) ScheduleRun.initial twoProjects).bind
      fun base => (activeRow "n" base).bind fun row =>
        (GuardedRun.run (GuardedRun.checked (step sampleEnv "n") (quietTest "n")) (watching base 0)
          hourlyTicks).map fun s => (row.cadence, dispatches s.ticks, s.ticks.map Tick.now)) =
      some ("cron:0 * * * *",
        [⟨DateTime.days 2, DateTime.hours 2⟩, ⟨DateTime.hours 1, DateTime.hours 1⟩],
        [DateTime.days 2, DateTime.hours 1 + 5, DateTime.hours 1]) := by decide +kernel
  obtain ⟨base, hbase, hrun⟩ := Option.bind_eq_some_iff.mp hrun
  obtain ⟨row, hrow, hrun⟩ := Option.bind_eq_some_iff.mp hrun
  obtain ⟨s, hs, hout⟩ := Option.map_eq_some_iff.mp hrun
  obtain ⟨hmem, hid, hactive⟩ := activeRow_some hrow
  obtain ⟨hcadence, hdispatches, htimes⟩ : _ ∧ _ ∧ _ := by simpa using hout
  have hidle := no_tick (GuardedRun.Reach.run_from .initial (by simp [twoProjects]) hbase)
  have hreach : GuardedRun.Reach (step sampleEnv row.id)
      (fun s a => s.Undisturbed row.id a ∧ s.Filtered row.id a) (watching base 0) s := by
    rw [hid]
    exact GuardedRun.Reach.run_checked .initial (fun _ _ => of_quietTest) hs
  exact ⟨row, s, hcadence, (dispatch_law croniter_sampleEnv (GuardedRun.reach_of_run hbase) hmem
    hactive hidle 0 s hreach).1, hdispatches, htimes⟩

/-- One of two monitors is left with `null` for its filters; the other one is due, and its tick
raises. -/
theorem dispatch_missed : ¬ ∀ (F : Type) (env : MonitorEnv F)
    (Matches : String → DateTime → Prop) (base : ScheduleRun F) (row : MonitorRow F)
    (last : DateTime) (s : Watch F), Croniter env Matches →
    GuardedRun.Reach (ScheduleRun.step env) GuardedRun.Always ScheduleRun.initial base →
    row ∈ base.rows → row.status = .active →
    (∀ w next now, base.task w ≠ .rescheduling next now) →
    GuardedRun.Reach (step env row.id) (fun s a => s.Undisturbed row.id a) (watching base last) s →
    DispatchLaw Matches row.cadence s.ticks := by
  intro hall
  have hrun : ((GuardedRun.run (ScheduleRun.step sampleEnv) ScheduleRun.initial nulled).bind
      fun base => (activeRow "n" base).bind fun _ =>
        (GuardedRun.run (step sampleEnv "n") (watching base 0) [.tick 0 (DateTime.days 1)]).map
          Watch.ticks) = some [⟨DateTime.days 1, some (DateTime.hours 1), false⟩] := by
    decide +kernel
  obtain ⟨base, hbase, hrun⟩ := Option.bind_eq_some_iff.mp hrun
  obtain ⟨row, hrow, hrun⟩ := Option.bind_eq_some_iff.mp hrun
  obtain ⟨s, hs, hticks⟩ := Option.map_eq_some_iff.mp hrun
  obtain ⟨hmem, hid, hactive⟩ := activeRow_some hrow
  have hidle := no_tick (GuardedRun.Reach.run_from .initial (by simp [nulled, twoProjects]) hbase)
  have hreach : GuardedRun.Reach (step sampleEnv row.id) (fun s a => s.Undisturbed row.id a)
      (watching base 0) s := by
    rw [hid]
    refine GuardedRun.Reach.run_from .initial (fun a ha s => ?_) hs
    rw [List.mem_singleton.mp ha]
    trivial
  have hlaw := hall ℚ sampleEnv Hourly base row 0 s croniter_sampleEnv
    (GuardedRun.reach_of_run hbase) hmem hactive hidle hreach
  rw [hticks] at hlaw
  cases (hlaw.exact _ (List.mem_singleton_self _)).mpr ⟨DateTime.hours 1, rfl, by decide⟩

end Watch
end PandaProbe
