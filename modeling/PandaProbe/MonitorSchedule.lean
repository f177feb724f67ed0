import Mathlib.Data.List.Sort
import PandaProbe.EvalMonitors
import PandaProbe.GuardedRun

/-! # The schedule of the monitors

The monitors of all projects, with any number of calls and scheduler ticks under way.  A call
reads its monitor and works out what to write; the write is a step of its own and sets its
columns whatever the row holds by then.  A tick reads all due monitors at once and writes their
next runs in one transaction.

A tick never fails (`ticks_succeed`), in the runs in which no PATCH leaves JSON `null` as the
filters of an ACTIVE monitor.  Such a row does not decode, and as all due rows are decoded in one
go, the tick then handles no monitor of any project.
-/
namespace PandaProbe
open Fallible

/-- What a call or a tick is about to write. -/
inductive MonitorTask (F : Type)
  | idle
  | writing (id : UUID) (values : MonitorValues F) (now : DateTime)
  | rescheduling (next : List (UUID × DateTime)) (now : DateTime)

/-- The rows, every id drawn so far, and the calls. -/
structure ScheduleRun (F : Type) where
  rows : List (MonitorRow F)
  ids : List UUID
  task : Nat → MonitorTask F

/-- What can happen next. -/
inductive MonitorAct (F : Type)
  | create (id projectId : UUID) (req : CreateMonitorRequest F) (now : DateTime)
  | update (w : Nat) (id projectId : UUID) (req : UpdateMonitorRequest F) (now : DateTime)
  | pause (w : Nat) (id projectId : UUID) (now : DateTime)
  | resume (w : Nat) (id projectId : UUID) (now : DateTime)
  | trigger (w : Nat) (id projectId runId : UUID) (now : DateTime)
  | process (w : Nat) (id projectId runId : UUID) (now : DateTime)
  | tick (w : Nat) (now : DateTime)
  | commit (w : Nat)
  | fail (w : Nat)
  | delete (id projectId : UUID)

namespace ScheduleRun
variable {F : Type} (env : MonitorEnv F)

/-! ## The scheduler -/

/-- The monitor is ACTIVE, and its next run is due. -/
def isDue (now : DateTime) (row : MonitorRow F) : Bool :=
  row.status = .active ∧ row.nextRunAt.any (· ≤ now)

/-- What a tick does with one due row: it decodes the row, and computes the next run. -/
def dueNext (now : DateTime) (row : MonitorRow F) : Option (EvalMonitor F × DateTime) := do
  let monitor ← row.toMonitor env
  let next ← computeNextRun env monitor.cadence now
  pure (monitor, next)

/-- `get_due_monitors` and the loop over them, in the order of their next runs: one row that
raises ends the tick. -/
def dueMonitors (rows : List (MonitorRow F)) (now : DateTime) :
    Option (List (EvalMonitor F × DateTime)) :=
  ((rows.filter (isDue now)).insertionSort (fun a b => a.nextRunAt.getD 0 ≤ b.nextRunAt.getD 0)).mapM
    (dueNext env now)

/-- An `UPDATE` of one monitor; one that breaks a constraint raises. -/
def writeRow (rows : List (MonitorRow F)) (id : UUID) (values : MonitorValues F)
    (now : DateTime) : Option (List (MonitorRow F)) :=
  if values.accepted then
    some (rows.map fun row => if row.id = id then values.set now row else row)
  else none

/-- `reschedule_monitor`. -/
def rescheduleRow (now : DateTime) (rows : List (MonitorRow F)) (x : UUID × DateTime) :
    List (MonitorRow F) :=
  rows.map fun row =>
    if row.id = x.1 then
      ({ nextRunAt := some (some x.2) } : MonitorValues F).set now row
    else row

/-- The rescheduling of a tick. -/
def reschedule (now : DateTime) (rows : List (MonitorRow F)) (next : List (UUID × DateTime)) :
    List (MonitorRow F) :=
  next.foldl (rescheduleRow now) rows

/-- `_check_eval_monitors`, when nothing comes between: the rows afterwards, and the monitors
whose task it enqueues. -/
def checkEvalMonitors (rows : List (MonitorRow F)) (now : DateTime) :
    Option (List (MonitorRow F) × List (UUID × UUID)) :=
  (dueMonitors env rows now).map fun due =>
    (reschedule now rows (due.map fun x => (x.1.id, x.2)),
      due.map fun x => (x.1.id, x.1.projectId))

/-! ## Steps -/

variable (s : ScheduleRun F)

/-- The call moves on. -/
def goto (w : Nat) (p : MonitorTask F) : ScheduleRun F :=
  { s with task := Function.update s.task w p }

/-- `get_monitor`. -/
def getMonitor (id projectId : UUID) : Option (EvalMonitor F) :=
  (s.rows.find? (fun row => row.id = id ∧ row.projectId = projectId)).bind (·.toMonitor env)

/-- A call that reads its monitor: it raises, has nothing to write, or goes on to its write. -/
def call (w : Nat) (id projectId : UUID) (now : DateTime)
    (plan : EvalMonitor F → Option (MonitorValues F)) : Option (ScheduleRun F) :=
  match s.task w with
  | .idle =>
    match (s.getMonitor env id projectId).bind plan with
    | none => some s
    | some values => if values.isEmpty then some s else some (s.goto w (.writing id values now))
  | _ => none

/-- What `update_monitor` writes, if it does not raise. -/
def planUpdate (req : UpdateMonitorRequest F) (now : DateTime) (monitor : EvalMonitor F) :
    Option (MonitorValues F) :=
  (updateMonitor env monitor req now).toOption

/-- The write of a call or of a tick; one that raises is undone. -/
def commit (w : Nat) : Option (ScheduleRun F) :=
  match s.task w with
  | .idle => none
  | .writing id values now =>
    some { s.goto w .idle with rows := (writeRow s.rows id values now).getD s.rows }
  | .rescheduling next now => some { s.goto w .idle with rows := reschedule now s.rows next }

/-- One step. -/
def step : MonitorAct F → Option (ScheduleRun F)
  | .create id projectId req now =>
    if id ∈ s.ids then none
    else
      match createMonitor env id projectId req now with
      | .error _ => some s
      | .ok row => some { s with rows := s.rows ++ [row], ids := id :: s.ids }
  | .update w id projectId req now => s.call env w id projectId now (planUpdate env req now)
  | .pause w id projectId now => s.call env w id projectId now pauseMonitor
  | .resume w id projectId now =>
    s.call env w id projectId now (fun monitor => resumeMonitor env monitor now)
  | .trigger w id projectId runId now =>
    s.call env w id projectId now (fun monitor => triggerMonitor env monitor runId now)
  | .process w id projectId runId now =>
    s.call env w id projectId now (fun _ => some (advanceMonitor runId now))
  | .tick w now =>
    match s.task w with
    | .idle =>
      match dueMonitors env s.rows now with
      | none => some s
      | some due => some (s.goto w (.rescheduling (due.map fun x => (x.1.id, x.2)) now))
    | _ => none
  | .commit w => s.commit w
  | .fail w => some (s.goto w .idle)
  | .delete id projectId =>
    some { s with rows := s.rows.filter (fun row => ¬ (row.id = id ∧ row.projectId = projectId)) }

/-- No monitor, and no call under way. -/
def initial : ScheduleRun F := ⟨[], [], fun _ => .idle⟩

/-! ## What one step does -/

/-- What a call has worked out from the monitor it read. -/
inductive Planned (env : MonitorEnv F) :
    MonitorAct F → Nat → UUID → UUID → DateTime → EvalMonitor F → MonitorValues F → Prop
  | update {w : Nat} {id projectId : UUID} {req : UpdateMonitorRequest F} {now : DateTime}
      {m : EvalMonitor F} {v : MonitorValues F} : updateMonitor env m req now = .ok v →
      Planned env (.update w id projectId req now) w id projectId now m v
  | pause {w : Nat} {id projectId : UUID} {now : DateTime} {m : EvalMonitor F}
      {v : MonitorValues F} : pauseMonitor m = some v →
      Planned env (.pause w id projectId now) w id projectId now m v
  | resume {w : Nat} {id projectId : UUID} {now : DateTime} {m : EvalMonitor F}
      {v : MonitorValues F} : resumeMonitor env m now = some v →
      Planned env (.resume w id projectId now) w id projectId now m v
  | trigger {w : Nat} {id projectId runId : UUID} {now : DateTime} {m : EvalMonitor F}
      {v : MonitorValues F} : triggerMonitor env m runId now = some v →
      Planned env (.trigger w id projectId runId now) w id projectId now m v
  | process {w : Nat} {id projectId runId : UUID} {now : DateTime} {m : EvalMonitor F} :
      Planned env (.process w id projectId runId now) w id projectId now m
        (advanceMonitor runId now)

variable {env} {s} {s' : ScheduleRun F} {w : Nat} {a : MonitorAct F}

theorem getMonitor_some {id projectId : UUID} {m : EvalMonitor F}
    (h : s.getMonitor env id projectId = some m) :
    ∃ row ∈ s.rows, row.id = id ∧ row.toMonitor env = some m := by
  obtain ⟨row, hrow, hdecode⟩ := Option.bind_eq_some_iff.mp h
  have hid : row.id = id ∧ row.projectId = projectId := by simpa using List.find?_some hrow
  exact ⟨row, List.mem_of_find?_eq_some hrow, hid.1, hdecode⟩

theorem call_cases {id projectId : UUID} {now : DateTime}
    {plan : EvalMonitor F → Option (MonitorValues F)}
    (h : s.call env w id projectId now plan = some s') :
    s' = s ∨ ∃ m v, s.getMonitor env id projectId = some m ∧ plan m = some v ∧
      s' = s.goto w (.writing id v now) := by
  unfold call at h
  split at h
  · split at h
    · cases h
      exact .inl rfl
    next v hv =>
      split at h
      · cases h
        exact .inl rfl
      · cases h
        obtain ⟨m, hm, hplan⟩ := Option.bind_eq_some_iff.mp hv
        exact .inr ⟨m, v, hm, hplan, rfl⟩
  · cases h

/-- **What a step can do.** -/
inductive Moves (env : MonitorEnv F) (s : ScheduleRun F) : MonitorAct F → ScheduleRun F → Prop
  | same {a : MonitorAct F} : Moves env s a s
  | created {id projectId : UUID} {req : CreateMonitorRequest F} {now : DateTime}
      {row : MonitorRow F} : id ∉ s.ids → createMonitor env id projectId req now = .ok row →
      Moves env s (.create id projectId req now)
        { s with rows := s.rows ++ [row], ids := id :: s.ids }
  | planned {a : MonitorAct F} {w : Nat} {id projectId : UUID} {now : DateTime}
      {m : EvalMonitor F} {v : MonitorValues F} : s.getMonitor env id projectId = some m →
      Planned env a w id projectId now m v → Moves env s a (s.goto w (.writing id v now))
  | ticked {w : Nat} {now : DateTime} {due : List (EvalMonitor F × DateTime)} :
      dueMonitors env s.rows now = some due →
      Moves env s (.tick w now) (s.goto w (.rescheduling (due.map fun x => (x.1.id, x.2)) now))
  | ended {a : MonitorAct F} {w : Nat} : Moves env s a (s.goto w .idle)
  | deleted {id projectId : UUID} : Moves env s (.delete id projectId)
      { s with rows := s.rows.filter (fun row => ¬ (row.id = id ∧ row.projectId = projectId)) }
  | written {w : Nat} {id : UUID} {v : MonitorValues F} {now : DateTime} :
      s.task w = .writing id v now → v.accepted = true → Moves env s (.commit w)
        { s.goto w .idle with
          rows := s.rows.map fun row => if row.id = id then v.set now row else row }
  | rescheduled {w : Nat} {next : List (UUID × DateTime)} {now : DateTime} :
      s.task w = .rescheduling next now → Moves env s (.commit w)
        { s.goto w .idle with rows := reschedule now s.rows next }

theorem planUpdate_some {req : UpdateMonitorRequest F} {now : DateTime} {m : EvalMonitor F}
    {v : MonitorValues F} : planUpdate env req now m = some v → updateMonitor env m req now = .ok v := by
  unfold planUpdate
  cases updateMonitor env m req now with
  | error e => exact nofun
  | ok v' =>
    intro h
    cases h
    rfl

theorem moves_of_step (h : s.step env a = some s') : Moves env s a s' := by
  cases a with
  | create id projectId req now =>
    simp only [step] at h
    split at h
    · cases h
    next hfresh =>
      split at h
      · cases h
        exact .same
      next row hrow =>
        cases h
        exact .created hfresh hrow
  | update w id projectId req now =>
    obtain rfl | ⟨m, v, hm, hv, rfl⟩ := call_cases h
    · exact .same
    · exact .planned hm (.update (planUpdate_some hv))
  | pause w id projectId now =>
    obtain rfl | ⟨m, v, hm, hv, rfl⟩ := call_cases h
    · exact .same
    · exact .planned hm (.pause hv)
  | resume w id projectId now =>
    obtain rfl | ⟨m, v, hm, hv, rfl⟩ := call_cases h
    · exact .same
    · exact .planned hm (.resume hv)
  | trigger w id projectId runId now =>
    obtain rfl | ⟨m, v, hm, hv, rfl⟩ := call_cases h
    · exact .same
    · exact .planned hm (.trigger hv)
  | process w id projectId runId now =>
    obtain rfl | ⟨m, v, hm, hv, rfl⟩ := call_cases h
    · exact .same
    · cases hv
      exact .planned hm .process
  | tick w now =>
    simp only [step] at h
    split at h
    · split at h
      · cases h
        exact .same
      next due hdue =>
        cases h
        exact .ticked hdue
    · cases h
  | commit w =>
    simp only [step, commit] at h
    split at h
    · cases h
    next id v now hw =>
      cases h
      unfold writeRow
      split
      next hok => exact .written hw hok
      · exact .ended
    next next now hw =>
      cases h
      exact .rescheduled hw
  | fail w =>
    cases h
    exact .ended
  | delete id projectId =>
    cases h
    exact .deleted

/-! ## Rows and their ids -/

/-- A row with a new next run. -/
def withNext (now t : DateTime) (row : MonitorRow F) : MonitorRow F :=
  { row with nextRunAt := some t, updatedAt := now }

/-- What a rescheduling makes of one row. -/
def rescheduledRow (now : DateTime) (next : List (UUID × DateTime)) (row : MonitorRow F) :
    MonitorRow F :=
  next.foldl (fun row x => if row.id = x.1 then withNext now x.2 row else row) row

theorem reschedule_eq_map (now : DateTime) (rows : List (MonitorRow F))
    (next : List (UUID × DateTime)) :
    reschedule now rows next = rows.map (rescheduledRow now next) := by
  induction next generalizing rows with
  | nil => exact (List.map_id rows).symm
  | cons x rest ih =>
    show reschedule now (rescheduleRow now rows x) rest = _
    rw [ih, rescheduleRow, List.map_map]
    rfl

/-- The row is left as it is, or gets a next run that is listed for it. -/
theorem rescheduledRow_cases (now : DateTime) (next : List (UUID × DateTime))
    (row : MonitorRow F) : rescheduledRow now next row = row ∨
      ∃ t, (row.id, t) ∈ next ∧ rescheduledRow now next row = withNext now t row := by
  induction next generalizing row with
  | nil => exact .inl rfl
  | cons x rest ih =>
    show rescheduledRow now rest (if row.id = x.1 then withNext now x.2 row else row) = row ∨
      ∃ t, _ ∧ rescheduledRow now rest (if row.id = x.1 then withNext now x.2 row else row) = _
    by_cases hx : row.id = x.1
    · rw [if_pos hx]
      right
      obtain hsame | ⟨t, ht, hnext⟩ := ih (withNext now x.2 row)
      · exact ⟨x.2, List.mem_cons.mpr (.inl (Prod.ext hx rfl)), hsame⟩
      · exact ⟨t, List.mem_cons_of_mem _ ht, hnext⟩
    · rw [if_neg hx]
      obtain hsame | ⟨t, ht, hnext⟩ := ih row
      · exact .inl hsame
      · exact .inr ⟨t, List.mem_cons_of_mem _ ht, hnext⟩

theorem rescheduledRow_id (now : DateTime) (next : List (UUID × DateTime)) (row : MonitorRow F) :
    (rescheduledRow now next row).id = row.id := by
  obtain h | ⟨t, -, h⟩ := rescheduledRow_cases now next row
  · rw [h]
  · rw [h]
    rfl

/-- A row for which next runs are listed gets one of them. -/
theorem rescheduledRow_listed {now t : DateTime} {next : List (UUID × DateTime)}
    {row : MonitorRow F} (hmem : (row.id, t) ∈ next) :
    ∃ u, (row.id, u) ∈ next ∧ rescheduledRow now next row = withNext now u row := by
  induction next generalizing row with
  | nil => cases hmem
  | cons x rest ih =>
    show ∃ u, _ ∧ rescheduledRow now rest (if row.id = x.1 then withNext now x.2 row else row) = _
    by_cases hx : row.id = x.1
    · rw [if_pos hx]
      obtain hsame | ⟨u, hu, hnext⟩ := rescheduledRow_cases now rest (withNext now x.2 row)
      · exact ⟨x.2, List.mem_cons.mpr (.inl (Prod.ext hx rfl)), hsame⟩
      · exact ⟨u, List.mem_cons_of_mem _ hu, hnext⟩
    · rw [if_neg hx]
      have hrest : (row.id, t) ∈ rest := by
        rcases List.mem_cons.mp hmem with rfl | hmem
        · exact absurd rfl hx
        · exact hmem
      obtain ⟨u, hu, hnext⟩ := ih hrest
      exact ⟨u, List.mem_cons_of_mem _ hu, hnext⟩

/-- Ids are drawn once. -/
structure Keyed (s : ScheduleRun F) : Prop where
  nodup : (s.rows.map (·.id)).Nodup
  drawn : ∀ row ∈ s.rows, row.id ∈ s.ids
  writing : ∀ w id v now, s.task w = .writing id v now → id ∈ s.ids

theorem Keyed.eq_of_id (h : Keyed s) {row row' : MonitorRow F} (hrow : row ∈ s.rows)
    (hrow' : row' ∈ s.rows) (hid : row.id = row'.id) : row = row' :=
  List.inj_on_of_nodup_map h.nodup hrow hrow' hid

theorem goto_task_self {p : MonitorTask F} : (s.goto w p).task w = p := by simp [goto]

/-- What holds of every waiting write still does when one call moves on. -/
theorem writes_goto {P : UUID → MonitorValues F → Prop} {p : MonitorTask F}
    (h : ∀ w id v now, s.task w = .writing id v now → P id v)
    (hp : ∀ id v now, p = .writing id v now → P id v) :
    ∀ u id v now, (s.goto w p).task u = .writing id v now → P id v := by
  intro u id v now hu
  by_cases huw : u = w
  · subst huw
    exact hp id v now (goto_task_self.symm.trans hu)
  · exact h u id v now (by simpa [goto, huw] using hu)

theorem keyed_goto {p : MonitorTask F} (h : Keyed s)
    (hp : ∀ id v now, p = .writing id v now → id ∈ s.ids) : Keyed (s.goto w p) :=
  ⟨h.nodup, h.drawn, writes_goto (P := fun id _ => id ∈ s.ids) h.writing hp⟩

/-- Rows rewritten one by one keep their ids. -/
theorem keyed_map {f : MonitorRow F → MonitorRow F} (h : Keyed s)
    (hf : ∀ row, (f row).id = row.id) : Keyed { s.goto w .idle with rows := s.rows.map f } := by
  have hids : (s.rows.map f).map (·.id) = s.rows.map (·.id) := by
    simp [Function.comp_def, hf]
  refine ⟨?_, fun row hrow => ?_, (keyed_goto (w := w) h fun _ _ _ h => by cases h).writing⟩
  · rw [hids]
    exact h.nodup
  · obtain ⟨old, hold, rfl⟩ := List.mem_map.mp hrow
    rw [hf]
    exact h.drawn old hold

theorem keyed_moves (h : Keyed s) (hs : Moves env s a s') : Keyed s' := by
  cases hs with
  | same => exact h
  | created hfresh hok =>
    have hnew := createMonitor_ok hok
    refine ⟨?_, fun row hrow => ?_, fun w id v now hw => ?_⟩
    · rw [List.map_append, List.map_singleton, hnew.id]
      refine List.Nodup.append h.nodup (List.nodup_singleton _) ?_
      rw [List.disjoint_singleton]
      intro hmem
      obtain ⟨old, hold, rfl⟩ := List.mem_map.mp hmem
      exact hfresh (h.drawn old hold)
    · rcases List.mem_append.mp hrow with hrow | hrow
      · exact List.mem_cons_of_mem _ (h.drawn row hrow)
      · rw [List.mem_singleton.mp hrow, hnew.id]
        exact List.mem_cons_self ..
    · exact List.mem_cons_of_mem _ (h.writing w id v now hw)
  | planned hm hplan =>
    refine keyed_goto h fun id v now hv => ?_
    cases hv
    obtain ⟨row, hrow, rfl, -⟩ := getMonitor_some hm
    exact h.drawn row hrow
  | ticked hdue => exact keyed_goto h fun _ _ _ hv => by cases hv
  | ended => exact keyed_goto h fun _ _ _ hv => by cases hv
  | deleted =>
    refine ⟨h.nodup.sublist (List.filter_sublist.map _), fun row hrow => ?_, h.writing⟩
    exact h.drawn row (List.mem_filter.mp hrow).1
  | written hw hok =>
    refine keyed_map h fun row => ?_
    split <;> rfl
  | rescheduled hw =>
    rw [reschedule_eq_map]
    exact keyed_map h (rescheduledRow_id _ _)

/-! ## An invariant of the table

Every row meets `RowOk`, and every waiting write meets `WriteOk` for the kind of the row it is
about.  A row never changes its kind, so a step has to answer only for what it brings in itself.
-/

/-- The invariant. -/
structure Table (RowOk : MonitorRow F → Prop) (WriteOk : TargetType → MonitorValues F → Prop)
    (s : ScheduleRun F) : Prop where
  keyed : Keyed s
  rows : ∀ row ∈ s.rows, RowOk row
  writes : ∀ w id v now, s.task w = .writing id v now → v.accepted = true →
    ∀ row ∈ s.rows, row.id = id → WriteOk row.targetType v

/-- What a step brings in is in order: a row it creates, a write it plans, a row it writes, and a
row it gives a next run. -/
structure Brings (env : MonitorEnv F) (RowOk : MonitorRow F → Prop)
    (WriteOk : TargetType → MonitorValues F → Prop) (s : ScheduleRun F) (a : MonitorAct F) :
    Prop where
  created : ∀ id projectId req now row, a = .create id projectId req now →
    createMonitor env id projectId req now = .ok row → RowOk row
  planned : ∀ w id projectId now m v, s.getMonitor env id projectId = some m →
    Planned env a w id projectId now m v → v.accepted = true →
    (∀ row ∈ s.rows, row.toMonitor env = some m → RowOk row → WriteOk row.targetType v)
  written : ∀ w id v now row, a = .commit w → s.task w = .writing id v now → v.accepted = true →
    row ∈ s.rows → row.id = id → RowOk row → WriteOk row.targetType v → RowOk (v.set now row)
  rescheduled : ∀ w next now t row, a = .commit w → s.task w = .rescheduling next now →
    row ∈ s.rows → (row.id, t) ∈ next → RowOk row → RowOk (withNext now t row)

section Table
variable {RowOk : MonitorRow F → Prop} {WriteOk : TargetType → MonitorValues F → Prop}

theorem keyed_initial : Keyed (initial : ScheduleRun F) :=
  ⟨List.nodup_nil, fun _ hrow => absurd hrow List.not_mem_nil, fun _ _ _ _ hw => by cases hw⟩

theorem table_initial : Table RowOk WriteOk (initial : ScheduleRun F) :=
  ⟨keyed_initial, fun _ hrow => absurd hrow List.not_mem_nil, fun _ _ _ _ hw => by cases hw⟩

/-- A waiting write is in order for each row with its id. -/
def InOrder (WriteOk : TargetType → MonitorValues F → Prop) (rows : List (MonitorRow F)) (id : UUID)
    (v : MonitorValues F) : Prop :=
  v.accepted = true → ∀ row ∈ rows, row.id = id → WriteOk row.targetType v

/-- It stays so when the rows are rewritten one by one and none changes its kind. -/
theorem inOrder_map {f : MonitorRow F → MonitorRow F} {rows : List (MonitorRow F)} {id : UUID}
    {v : MonitorValues F} (h : InOrder WriteOk rows id v)
    (hf : ∀ row, (f row).id = row.id ∧ (f row).targetType = row.targetType) :
    InOrder WriteOk (rows.map f) id v := by
  intro hok row' hrow' hid
  obtain ⟨row, hrow, rfl⟩ := List.mem_map.mp hrow'
  rw [(hf row).1] at hid
  rw [(hf row).2]
  exact h hok row hrow hid

theorem rows_moves (h : Table RowOk WriteOk s) (hb : Brings env RowOk WriteOk s a)
    (hs : Moves env s a s') : ∀ row ∈ s'.rows, RowOk row := by
  cases hs with
  | same => exact h.rows
  | created hfresh hok =>
    intro row hrow
    rcases List.mem_append.mp hrow with hrow | hrow
    · exact h.rows row hrow
    · rw [List.mem_singleton.mp hrow]
      exact hb.created _ _ _ _ _ rfl hok
  | planned hm hplan => exact h.rows
  | ticked hdue => exact h.rows
  | ended => exact h.rows
  | deleted => exact fun row hrow => h.rows row (List.mem_filter.mp hrow).1
  | @written w id v now hw hok =>
    intro row' hrow'
    obtain ⟨row, hrow, rfl⟩ := List.mem_map.mp hrow'
    split
    next hid =>
      exact hb.written w id v now row rfl hw hok hrow hid (h.rows row hrow)
        (h.writes w id v now hw hok row hrow hid)
    · exact h.rows row hrow
  | @rescheduled w next now hw =>
    intro row' hrow'
    simp only [reschedule_eq_map] at hrow'
    obtain ⟨row, hrow, rfl⟩ := List.mem_map.mp hrow'
    obtain hsame | ⟨t, ht, hnext⟩ := rescheduledRow_cases now next row
    · rw [hsame]
      exact h.rows row hrow
    · rw [hnext]
      exact hb.rescheduled w next now t row rfl hw hrow ht (h.rows row hrow)

theorem writes_moves (h : Table RowOk WriteOk s) (hb : Brings env RowOk WriteOk s a)
    (hs : Moves env s a s') :
    ∀ w id v now, s'.task w = .writing id v now → InOrder WriteOk s'.rows id v := by
  have hgone : ∀ id v now, (MonitorTask.idle : MonitorTask F) = .writing id v now →
      InOrder WriteOk s.rows id v := fun _ _ _ hv => by cases hv
  cases hs with
  | same => exact h.writes
  | created hfresh hnew =>
    intro w id v now hw hok row hrow hid
    rcases List.mem_append.mp hrow with hrow | hrow
    · exact h.writes w id v now hw hok row hrow hid
    · -- the id is new, so no call is about it
      rw [List.mem_singleton.mp hrow, (createMonitor_ok hnew).id] at hid
      subst hid
      exact absurd (h.keyed.writing w _ v now hw) hfresh
  | planned hm hplan =>
    refine writes_goto (P := InOrder WriteOk s.rows) h.writes fun id v now hv => ?_
    cases hv
    intro hok row hrow hid
    -- the call read the one row that has the id
    obtain ⟨row', hrow', hid', hdecode⟩ := getMonitor_some hm
    obtain rfl := h.keyed.eq_of_id hrow hrow' (hid.trans hid'.symm)
    exact hb.planned _ _ _ _ _ _ hm hplan hok row hrow hdecode (h.rows row hrow)
  | ticked hdue =>
    exact writes_goto (P := InOrder WriteOk s.rows) h.writes fun _ _ _ hv => by cases hv
  | ended => exact writes_goto (P := InOrder WriteOk s.rows) h.writes hgone
  | deleted =>
    exact fun w id v now hw hok row hrow => h.writes w id v now hw hok row (List.mem_filter.mp hrow).1
  | written hw hok =>
    intro u id v now hu
    refine inOrder_map (writes_goto (P := InOrder WriteOk s.rows) h.writes hgone u id v now hu)
      fun row => ?_
    split <;> exact ⟨rfl, rfl⟩
  | @rescheduled w next now hw =>
    intro u id v now' hu
    simp only [reschedule_eq_map]
    refine inOrder_map (writes_goto (P := InOrder WriteOk s.rows) h.writes hgone u id v now' hu)
      fun row => ⟨rescheduledRow_id .., ?_⟩
    obtain hsame | ⟨t, -, hnext⟩ := rescheduledRow_cases now next row
    · rw [hsame]
    · rw [hnext]
      rfl

/-- **The step rule**: a step keeps the table in order if what it brings in is. -/
theorem table_step (h : Table RowOk WriteOk s) (hb : Brings env RowOk WriteOk s a)
    (hs : s.step env a = some s') : Table RowOk WriteOk s' := by
  have hmoves := moves_of_step hs
  exact ⟨keyed_moves h.keyed hmoves, rows_moves h hb hmoves, writes_moves h hb hmoves⟩

end Table

/-! ## A tick -/

theorem dueNext_some {now : DateTime} {row : MonitorRow F} {x : EvalMonitor F × DateTime}
    (h : dueNext env now row = some x) :
    x.1.id = row.id ∧ x.1.projectId = row.projectId ∧ computeNextRun env row.cadence now = some x.2 := by
  obtain ⟨m, hm, h⟩ := Option.bind_eq_some_iff.mp h
  obtain ⟨t, ht, h⟩ := Option.bind_eq_some_iff.mp h
  cases h
  obtain ⟨hconfig, -⟩ := toMonitor_some hm
  rw [hconfig] at ht ⊢
  exact ⟨rfl, rfl, ht⟩

/-- The tick goes through if and only if each due row does. -/
theorem dueMonitors_isSome_iff {rows : List (MonitorRow F)} {now : DateTime} :
    (dueMonitors env rows now).isSome ↔
      ∀ row ∈ rows, isDue now row = true → (dueNext env now row).isSome := by
  rw [dueMonitors, isSome_mapM_iff]
  simp only [List.mem_insertionSort, List.mem_filter, and_imp]

theorem mem_dueMonitors {rows : List (MonitorRow F)} {now : DateTime}
    {due : List (EvalMonitor F × DateTime)} (h : dueMonitors env rows now = some due)
    {x : EvalMonitor F × DateTime} :
    x ∈ due ↔ ∃ row ∈ rows, isDue now row = true ∧ dueNext env now row = some x := by
  rw [dueMonitors] at h
  rw [mem_mapM h]
  simp only [List.mem_insertionSort, List.mem_filter, and_assoc]

/-- The tick goes through: every due monitor is enqueued, and its next run is the one after the
tick. -/
def TickSucceeds (env : MonitorEnv F) (rows : List (MonitorRow F)) (now : DateTime) : Prop :=
  ∃ rows' enqueued, checkEvalMonitors env rows now = some (rows', enqueued) ∧
    ∀ row ∈ rows, isDue now row = true →
      (row.id, row.projectId) ∈ enqueued ∧
      ∃ row' ∈ rows', row'.id = row.id ∧ row'.nextRunAt.isSome ∧
        row'.nextRunAt = computeNextRun env row.cadence now

/-- A tick that decodes every due row does its work. -/
theorem tickSucceeds_of_decodes (hk : Keyed s) {now : DateTime}
    (h : ∀ row ∈ s.rows, isDue now row = true → (dueNext env now row).isSome) :
    TickSucceeds env s.rows now := by
  obtain ⟨due, hdue⟩ := Option.isSome_iff_exists.mp (dueMonitors_isSome_iff.mpr h)
  refine ⟨_, _, by rw [checkEvalMonitors, hdue]; rfl, fun row hrow hisdue => ?_⟩
  obtain ⟨x, hx⟩ := Option.isSome_iff_exists.mp (h row hrow hisdue)
  obtain ⟨hid, hproject, hnext⟩ := dueNext_some hx
  have hmem : x ∈ due := (mem_dueMonitors hdue).mpr ⟨row, hrow, hisdue, hx⟩
  refine ⟨List.mem_map.mpr ⟨x, hmem, by rw [hid, hproject]⟩, ?_⟩
  rw [reschedule_eq_map]
  refine ⟨_, List.mem_map_of_mem hrow, rescheduledRow_id .., ?_⟩
  have hlisted : (row.id, x.2) ∈ due.map fun x => (x.1.id, x.2) :=
    List.mem_map.mpr ⟨x, hmem, by rw [hid]⟩
  obtain ⟨u, hu, hset⟩ : ∃ u, (row.id, u) ∈ (due.map fun x => (x.1.id, x.2)) ∧
      rescheduledRow now (due.map fun x => (x.1.id, x.2)) row = withNext now u row :=
    rescheduledRow_listed hlisted
  -- an entry for the id comes from this row
  obtain ⟨y, hy, hyu⟩ := List.mem_map.mp hu
  obtain ⟨row', hrow', -, hx'⟩ := (mem_dueMonitors hdue).mp hy
  obtain ⟨hyid, -, hynext⟩ := dueNext_some hx'
  obtain ⟨hrowid, rfl⟩ := Prod.mk.inj hyu
  obtain rfl := hk.eq_of_id hrow' hrow (hyid.symm.trans hrowid)
  rw [hset, hynext]
  exact ⟨rfl, rfl⟩

/-- One ACTIVE row that does not decode fails the tick at its next run, for every project. -/
theorem not_tickSucceeds {row : MonitorRow F} {t : DateTime} (hrow : row ∈ s.rows)
    (hactive : row.status = .active) (hnext : row.nextRunAt = some t) (hnull : row.filters = none) :
    ¬ TickSucceeds env s.rows t := by
  rintro ⟨rows', enqueued, hcheck, -⟩
  have hsome : (dueMonitors env s.rows t).isSome := by
    rw [checkEvalMonitors] at hcheck
    obtain ⟨due, hdue, -⟩ := Option.map_eq_some_iff.mp hcheck
    exact Option.isSome_of_eq_some hdue
  have hdecode := dueMonitors_isSome_iff.mp hsome row hrow (by simp [isDue, hactive, hnext])
  simp [dueNext, MonitorRow.toMonitor, hnull] at hdecode

/-! ## Ticks succeed -/

/-- A row that a tick can handle. -/
structure Schedulable (env : MonitorEnv F) (row : MonitorRow F) : Prop where
  rate : env.rateOk row.samplingRate = true
  next : ∀ t, (computeNextRun env row.cadence t).isSome
  active : row.status = .active → row.filters.isSome ∧ row.nextRunAt.isSome

theorem Schedulable.dueNext {row : MonitorRow F} {now : DateTime} (h : Schedulable env row)
    (hdue : isDue now row = true) : (dueNext env now row).isSome := by
  have hactive : row.status = .active := by
    simp only [isDue, decide_eq_true_eq] at hdue
    exact hdue.1
  obtain ⟨filters, hfilters⟩ := Option.isSome_iff_exists.mp (h.active hactive).1
  obtain ⟨t, ht⟩ := Option.isSome_iff_exists.mp (h.next now)
  simp [ScheduleRun.dueNext, MonitorRow.toMonitor, hfilters, h.rate, ht]

/-- What the values of a waiting write have been checked for. -/
structure Checked (env : MonitorEnv F) (v : MonitorValues F) : Prop where
  rate : ∀ r, v.samplingRate = some (some r) → env.rateOk r = true
  next : ∀ c, v.cadence = some (some c) → ∀ t, (computeNextRun env c t).isSome
  activates : v.status = some .active → ∃ t, v.nextRunAt = some (some t)
  clears : v.nextRunAt = some none → v.status = some .paused
  alone : v.status ≠ none → v.filters = none

theorem rate_set {v : MonitorValues F} {now : DateTime} {row : MonitorRow F}
    (hrow : env.rateOk row.samplingRate = true) (hv : Checked env v) :
    env.rateOk (v.set now row).samplingRate = true := by
  show env.rateOk (v.samplingRate.join.getD row.samplingRate) = true
  rcases hr : v.samplingRate with _ | _ | r
  · exact hrow
  · exact hrow
  · exact hv.rate r hr

theorem next_set {v : MonitorValues F} {now : DateTime} {row : MonitorRow F}
    (hrow : ∀ t, (computeNextRun env row.cadence t).isSome) (hv : Checked env v) (t : DateTime) :
    (computeNextRun env (v.set now row).cadence t).isSome := by
  show (computeNextRun env (v.cadence.join.getD row.cadence) t).isSome
  rcases hc : v.cadence with _ | _ | c
  · exact hrow t
  · exact hrow t
  · exact hv.next c hc t

theorem nextRunAt_set {v : MonitorValues F} {now : DateTime} {row : MonitorRow F}
    (hrow : row.status = .active → row.nextRunAt.isSome) (hv : Checked env v)
    (hactive : (v.set now row).status = .active) : (v.set now row).nextRunAt.isSome := by
  have hactive : v.status.getD row.status = .active := hactive
  show (v.nextRunAt.getD row.nextRunAt).isSome
  rcases hn : v.nextRunAt with _ | _ | t
  · cases hs : v.status with
    | none =>
      rw [hs] at hactive
      exact hrow hactive
    | some st =>
      rw [hs] at hactive
      obtain rfl : st = .active := hactive
      obtain ⟨t, ht⟩ := hv.activates hs
      rw [hn] at ht
      cases ht
  · rw [hv.clears hn] at hactive
    cases hactive
  · rfl

/-- The write leaves no ACTIVE row without filters: one that nulls them finds the monitor PAUSED,
and one that resumes the monitor finds filters there. -/
def KeepsFilters (v : MonitorValues F) (row : MonitorRow F) : Prop :=
  (v.filters = some none → row.status = .paused) ∧ (v.status = some .active → row.filters.isSome)

/-- A row is ACTIVE and without filters after a write exactly if the write does not keep them. -/
theorem keepsFilters_iff {v : MonitorValues F} {now : DateTime} {row : MonitorRow F}
    (hrow : Schedulable env row) (hv : Checked env v) : KeepsFilters v row ↔
      ((v.set now row).status = .active → (v.set now row).filters.isSome) := by
  show _ ↔ (v.status.getD row.status = .active → (v.filters.getD row.filters).isSome)
  cases hs : v.status with
  | none =>
    rcases hf : v.filters with _ | _ | filters
    · simpa [KeepsFilters, hs, hf] using fun hactive => (hrow.active hactive).1
    · cases hstatus : row.status <;> simp [KeepsFilters, hs, hf, hstatus]
    · simp [KeepsFilters, hs, hf]
  | some status =>
    have hf : v.filters = none := hv.alone (by simp [hs])
    cases status <;> simp [KeepsFilters, hs, hf]

theorem schedulable_set {v : MonitorValues F} {now : DateTime} {row : MonitorRow F}
    (hrow : Schedulable env row) (hv : Checked env v) (hkeeps : KeepsFilters v row) :
    Schedulable env (v.set now row) where
  rate := rate_set hrow.rate hv
  next := next_set hrow.next hv
  active hactive := ⟨(keepsFilters_iff hrow hv).mp hkeeps hactive,
    nextRunAt_set (fun hactive => (hrow.active hactive).2) hv hactive⟩

theorem checked_planned
    (hcron : ∀ expr t t', (env.cronNext expr t).isSome → (env.cronNext expr t').isSome)
    {id projectId : UUID} {now : DateTime} {m : EvalMonitor F} {v : MonitorValues F}
    (h : Planned env a w id projectId now m v) : Checked env v := by
  cases h with
  | update hv =>
    have hp := updateMonitor_ok hv
    obtain ⟨hnext, hclear⟩ := patchedCadence_ok hp.cadence
    refine ⟨hp.rate, fun c hc t => computeNextRun_isSome hcron (hnext c hc) t, fun hs => ?_,
      fun hn => absurd hn hclear, fun hs => absurd hp.status hs⟩
    rw [hp.status] at hs
    cases hs
  | pause hv =>
    unfold pauseMonitor at hv
    split at hv
    · cases hv
    · cases hv
      exact ⟨nofun, nofun, nofun, fun _ => rfl, fun _ => rfl⟩
  | resume hv =>
    unfold resumeMonitor at hv
    split at hv
    · cases hv
    · obtain ⟨t, -, rfl⟩ := Option.map_eq_some_iff.mp hv
      exact ⟨nofun, nofun, fun _ => ⟨t, rfl⟩, nofun, fun _ => rfl⟩
  | trigger hv =>
    obtain ⟨t, -, rfl⟩ := Option.map_eq_some_iff.mp hv
    exact ⟨nofun, nofun, nofun, nofun, fun _ => rfl⟩
  | process =>
    exact ⟨nofun, nofun, nofun, nofun, fun _ => rfl⟩

/-- **The condition on a step**: a write keeps the filters of the row it finds. -/
def InTurn (s : ScheduleRun F) : MonitorAct F → Prop
  | .commit w => ∀ id v now, s.task w = .writing id v now → v.accepted = true →
      ∀ row ∈ s.rows, row.id = id → KeepsFilters v row
  | _ => True

/-- Every row is schedulable, and every waiting write is checked. -/
def Sound (env : MonitorEnv F) (s : ScheduleRun F) : Prop :=
  Table (Schedulable env) (fun _ v => Checked env v) s

theorem sound_step
    (hcron : ∀ expr t t', (env.cronNext expr t).isSome → (env.cronNext expr t').isSome)
    (h : Sound env s) (ha : s.InTurn a) (hs : s.step env a = some s') : Sound env s' := by
  refine table_step h ?_ hs
  constructor
  case created =>
    intro id projectId req now row _ hok
    have hnew := createMonitor_ok hok
    exact ⟨hnew.rate, computeNextRun_isSome hcron hnew.next,
      fun _ => ⟨by rw [hnew.filters]; rfl, hnew.nextRunAt⟩⟩
  case planned =>
    intro w id projectId now m v _ hplan _ row _ _ _
    exact checked_planned hcron hplan
  case written =>
    rintro w id v now row rfl hw hok hrow hid hold hv
    exact schedulable_set hold hv (ha id v now hw hok row hrow hid)
  case rescheduled =>
    intro w next now t row _ _ _ _ hold
    exact ⟨hold.rate, hold.next, fun hactive => ⟨(hold.active hactive).1, rfl⟩⟩

/-- A write that does not keep the filters of an ACTIVE monitor leaves a row at which the tick
fails. -/
theorem tick_fails (h : Sound env s) (ha : ¬ s.InTurn a) (hs : s.step env a = some s') :
    ∃ now, ¬ TickSucceeds env s'.rows now := by
  cases a with
  | commit w =>
    simp only [InTurn, not_forall] at ha
    obtain ⟨id, v, now, hw, hok, row, hrow, rfl, hnot⟩ := ha
    have hv := h.writes w _ v now hw hok row hrow rfl
    have hiff : KeepsFilters v row ↔
        ((v.set now row).status = .active → (v.set now row).filters.isSome) :=
      keepsFilters_iff (h.rows row hrow) hv
    rw [hiff] at hnot
    obtain ⟨hactive, hnone⟩ := Classical.not_imp.mp hnot
    have hset : (v.set now row).nextRunAt.isSome :=
      nextRunAt_set (fun hactive => ((h.rows row hrow).active hactive).2) hv hactive
    obtain ⟨t, ht⟩ := Option.isSome_iff_exists.mp hset
    refine ⟨t, not_tickSucceeds ?_ hactive ht (by simpa using hnone)⟩
    simp only [step, commit, hw, writeRow, if_pos hok] at hs
    cases hs
    exact List.mem_map.mpr ⟨row, hrow, if_pos rfl⟩
  | create id projectId req now => exact absurd trivial ha
  | update w id projectId req now => exact absurd trivial ha
  | pause w id projectId now => exact absurd trivial ha
  | resume w id projectId now => exact absurd trivial ha
  | trigger w id projectId runId now => exact absurd trivial ha
  | process w id projectId runId now => exact absurd trivial ha
  | tick w now => exact absurd trivial ha
  | fail w => exact absurd trivial ha
  | delete id projectId => exact absurd trivial ha

/-- **A tick goes through in every state, exactly while no write leaves an ACTIVE monitor
without filters.**  In every run whose writes all keep the filters of the row they find, the tick
succeeds at every time; and the first write that does not makes some tick fail. -/
theorem ticks_succeed
    (hcron : ∀ expr t t', (env.cronNext expr t).isSome → (env.cronNext expr t').isSome) :
    ∀ s, GuardedRun.Reach (step env) InTurn initial s →
      (∀ now, TickSucceeds env s.rows now) ∧
      ∀ a s', s.step env a = some s' → ¬ s.InTurn a → ∃ now, ¬ TickSucceeds env s'.rows now := by
  intro s hreach
  have h : Sound env s :=
    hreach.invariant table_initial fun _ _ _ h ha hs => sound_step hcron h ha hs
  refine ⟨fun now => ?_, fun a s' hs ha => tick_fails h ha hs⟩
  exact tickSucceeds_of_decodes h.keyed fun row hrow hdue => (h.rows row hrow).dueNext hdue

/-- Rates between 0 and 1, and one cron expression: every full hour. -/
def sampleEnv : MonitorEnv ℚ where
  cronValid expr := expr = "0 * * * *"
  cronNext expr t :=
    if expr = "0 * * * *" then some ((t / DateTime.hours 1 + 1) * DateTime.hours 1) else none
  rateOk r := 0 ≤ r ∧ r ≤ 1
  weightsJson weights := .obj (weights.map fun x => (x.1, .num (x.2 * 100).floor 2))
  repr s := "'" ++ s ++ "'"

/-- A request for a new monitor on traces. -/
def sampleRequest (cadence : String) : CreateMonitorRequest ℚ :=
  { name := "quality"
    targetType := "TRACE"
    metrics := ["coherence"]
    filters := .empty
    samplingRate := 1
    model := none
    cadence := cadence
    onlyIfChanged := true
    signalWeights := none }

theorem sampleEnv_cron (expr : String) (t t' : DateTime) :
    (sampleEnv.cronNext expr t).isSome → (sampleEnv.cronNext expr t').isSome := by
  unfold sampleEnv
  dsimp only
  split <;> simp

/-- Two projects, each with a monitor. -/
def twoProjects : List (MonitorAct ℚ) :=
  [.create "m" "A" (sampleRequest "daily") 0, .create "n" "B" (sampleRequest "cron: 0 * * * *") 0]

/-- A day later both are due, and both are enqueued. -/
theorem ticks_succeed_two : ∃ s, GuardedRun.run (step sampleEnv) initial twoProjects = some s ∧
    TickSucceeds sampleEnv s.rows (DateTime.days 1) ∧
    (s.rows.filter (isDue (DateTime.days 1))).map (·.id) = ["m", "n"] := by
  obtain ⟨s, hs⟩ := Option.isSome_iff_exists.mp
    (show (GuardedRun.run (step sampleEnv) initial twoProjects).isSome from by decide +kernel)
  have hreach : GuardedRun.Reach (step sampleEnv) InTurn initial s :=
    GuardedRun.Reach.run_from .initial (by simp [InTurn, twoProjects]) hs
  refine ⟨s, hs, (ticks_succeed sampleEnv_cron s hreach).1 _, ?_⟩
  have hdue : (GuardedRun.run (step sampleEnv) initial twoProjects).map (fun s =>
      (s.rows.filter (isDue (DateTime.days 1))).map (·.id)) = some ["m", "n"] := by decide +kernel
  rw [hs] at hdue
  exact Option.some.inj hdue

/-- One of the two monitors is patched with `null` for its filters. -/
def nulled : List (MonitorAct ℚ) :=
  twoProjects ++ [.update 0 "m" "A" { filters := some none } 1, .commit 0]

/-- The tick at its next run fails, for the other project too. -/
theorem tick_stopped : ¬ ∀ (F : Type) (env : MonitorEnv F) (s : ScheduleRun F),
    (∀ expr t t', (env.cronNext expr t).isSome → (env.cronNext expr t').isSome) →
    GuardedRun.Reach (step env) GuardedRun.Always initial s →
    ∀ now, TickSucceeds env s.rows now := by
  intro h
  obtain ⟨s, hs⟩ := Option.isSome_iff_exists.mp
    (show (GuardedRun.run (step sampleEnv) initial nulled).isSome from by decide +kernel)
  have htick := h ℚ sampleEnv s sampleEnv_cron (GuardedRun.reach_of_run hs) (DateTime.days 1)
  have hbad : (GuardedRun.run (step sampleEnv) initial nulled).map (fun s =>
      s.rows.any fun row => row.status = .active ∧ row.nextRunAt = some (DateTime.days 1) ∧
        row.filters.isNone) = some true := by decide +kernel
  rw [hs] at hbad
  obtain ⟨row, hrow, hdue⟩ := List.any_eq_true.mp (Option.some.inj hbad)
  simp only [decide_eq_true_eq, Option.isNone_iff_eq_none] at hdue
  exact not_tickSucceeds hrow hdue.1 hdue.2.1 hdue.2.2 htick

end ScheduleRun
end PandaProbe
