import PandaProbe.MonitorSchedule

/-! # The configuration of the monitors

Every monitor has a metric, and only metrics of its kind of target; its filters hold signal
weights only if it is about sessions; and it has a next run if and only if it is ACTIVE.

`create_monitor` sees to all of it, and the other operations write parts of a row without
looking at it again.  A row is kept as it should be in the runs in which none of the following
happens (`Proper`): a PATCH is sent that brings in what `create_monitor` refuses, weights come
with the filters of a new TRACE monitor, or a next run is written to a PAUSED monitor.  The last
needs no race: a trigger and a new cadence both do it.
-/
namespace PandaProbe
open Fallible

namespace ScheduleRun
variable {F : Type} {env : MonitorEnv F} {s s' : ScheduleRun F} {w : Nat} {a : MonitorAct F}

/-- The monitor is configured as it should be. -/
structure Configured (row : MonitorRow F) : Prop where
  nonempty : row.metricNames ≠ []
  available : ∀ m ∈ row.metricNames, m ∈ row.targetType.available
  weights : ∀ f, row.filters = some f → (f weightsKey).isSome → row.targetType = .session
  scheduled : row.nextRunAt.isSome ↔ row.status = .active

/-- **The condition on a step.**  A monitor is created without weights among the filters, unless
it is about sessions.  A PATCH that goes through is not unchecked.  A next run that is written
without a status finds its monitor ACTIVE. -/
def Proper (env : MonitorEnv F) (s : ScheduleRun F) : MonitorAct F → Prop
  | .create id projectId req now => ∀ row, createMonitor env id projectId req now = .ok row →
      row.targetType = .trace → req.filters weightsKey = none
  | .update _ id projectId req now => ∀ m v, s.getMonitor env id projectId = some m →
      updateMonitor env m req now = .ok v → v.accepted = true → ¬ Unchecked m req
  | .commit w =>
    match s.task w with
    | .idle => True
    | .writing id v _ => v.accepted = true → v.status = none → v.nextRunAt ≠ none →
        ∀ row ∈ s.rows, row.id = id → row.status = .active
    | .rescheduling next _ => ∀ row ∈ s.rows, row.id ∈ next.map (·.1) → row.status = .active
  | _ => True

/-! ## Waiting writes -/

/-- What a waiting write may set of a monitor of this kind. -/
structure Settled (target : TargetType) (v : MonitorValues F) : Prop where
  metrics : ∀ names, v.metricNames = some names →
    names ≠ [] ∧ ∀ m ∈ names, m ∈ target.available
  weights : ∀ f, v.filters = some (some f) → (f weightsKey).isSome → target = .session
  active : v.status = some .active → ∃ t, v.nextRunAt = some (some t)
  paused : v.status = some .paused ↔ v.nextRunAt = some none

/-- A write that sets no metrics and no filters. -/
theorem settled_of_status {target : TargetType} {v : MonitorValues F} (hm : v.metricNames = none)
    (hf : v.filters = none) (hactive : v.status = some .active → ∃ t, v.nextRunAt = some (some t))
    (hpaused : v.status = some .paused ↔ v.nextRunAt = some none) : Settled target v := by
  refine ⟨fun names h => ?_, fun f h => ?_, hactive, hpaused⟩
  · rw [hm] at h
    cases h
  · rw [hf] at h
    cases h

theorem settled_update {m : EvalMonitor F} {req : UpdateMonitorRequest F} {now : DateTime}
    {v : MonitorValues F} (h : Patched env m req now v) (hreq : ¬ Unchecked m req)
    (hweights : (m.filters weightsKey).isSome → m.targetType = .session) :
    Settled m.targetType v := by
  refine ⟨fun names hnames => ?_, fun f hf hkey => ?_, fun hs => ?_, ?_⟩
  · have hmetrics := h.metrics
    rw [hnames] at hmetrics
    obtain ⟨hsent, havailable⟩ := patchedMetrics_ok hmetrics
    refine ⟨?_, havailable⟩
    rintro rfl
    exact hreq (.inl hsent)
  · cases htarget : m.targetType with
    | session => rfl
    | trace =>
      have hstored : m.filters weightsKey = none := by
        by_contra hsome
        have hsession := hweights (Option.isSome_iff_ne_none.mpr hsome)
        rw [htarget] at hsession
        cases hsession
      have hfilters := h.filters
      rw [hf] at hfilters
      rw [patchedFilters_trace htarget hstored hreq hfilters] at hkey
      cases hkey
  · rw [h.status] at hs
    cases hs
  · constructor
    · intro hs
      rw [h.status] at hs
      cases hs
    · exact fun hn => absurd hn (patchedCadence_ok h.cadence).2

/-- A row stays configured, if a next run without a status finds it ACTIVE. -/
theorem configured_set {v : MonitorValues F} {now : DateTime} {row : MonitorRow F}
    (hrow : Configured row) (hv : Settled row.targetType v)
    (hnext : v.status = none → v.nextRunAt ≠ none → row.status = .active) :
    Configured (v.set now row) := by
  have hmetrics : v.metricNames.getD row.metricNames ≠ [] ∧
      ∀ m ∈ v.metricNames.getD row.metricNames, m ∈ row.targetType.available := by
    cases hm : v.metricNames with
    | none => exact ⟨hrow.nonempty, hrow.available⟩
    | some names => exact hv.metrics names hm
  refine ⟨hmetrics.1, hmetrics.2, fun f hf hkey => ?_, ?_⟩
  · have hf : v.filters.getD row.filters = some f := hf
    cases hset : v.filters with
    | none =>
      rw [hset] at hf
      exact hrow.weights f hf hkey
    | some filters =>
      rw [hset] at hf
      obtain rfl : filters = some f := hf
      exact hv.weights f hset hkey
  · show (v.nextRunAt.getD row.nextRunAt).isSome ↔ v.status.getD row.status = .active
    rcases hs : v.status with _ | _ | _
    · rcases hn : v.nextRunAt with _ | _ | t
      · exact hrow.scheduled
      · have hpaused := hv.paused.mpr hn
        rw [hs] at hpaused
        cases hpaused
      · have hactive := hnext hs (by simp [hn])
        simp [hactive]
    · obtain ⟨t, ht⟩ := hv.active hs
      simp [ht]
    · simp [hv.paused.mp hs]

/-- What a call writes to the monitor it read. -/
theorem settled_planned {id projectId : UUID} {now : DateTime} {m : EvalMonitor F}
    {v : MonitorValues F} (ha : Proper env s a) (hm : s.getMonitor env id projectId = some m)
    (h : Planned env a w id projectId now m v) (hok : v.accepted = true)
    (hweights : (m.filters weightsKey).isSome → m.targetType = .session) :
    Settled m.targetType v := by
  cases h with
  | update hv => exact settled_update (updateMonitor_ok hv) (ha m v hm hv hok) hweights
  | pause hv =>
    unfold pauseMonitor at hv
    split at hv
    · cases hv
    · cases hv
      exact settled_of_status rfl rfl nofun (by simp)
  | resume hv =>
    unfold resumeMonitor at hv
    split at hv
    · cases hv
    · obtain ⟨t, -, rfl⟩ := Option.map_eq_some_iff.mp hv
      exact settled_of_status rfl rfl (fun _ => ⟨t, rfl⟩) (by simp)
  | trigger hv =>
    obtain ⟨t, -, rfl⟩ := Option.map_eq_some_iff.mp hv
    exact settled_of_status rfl rfl nofun (by simp)
  | process => exact settled_of_status rfl rfl nofun (by simp [advanceMonitor])

/-! ## Runs -/

/-- The new row of a create. -/
theorem configured_created {id : UUID} {req : CreateMonitorRequest F} {now : DateTime}
    {row : MonitorRow F} (h : Created env id req now row)
    (hreq : row.targetType = .trace → req.filters weightsKey = none) : Configured row := by
  refine ⟨h.metrics.1, h.metrics.2, fun f hf hkey => ?_, by simp [h.nextRunAt, h.status]⟩
  cases htarget : row.targetType with
  | session => rfl
  | trace =>
    rw [h.filters, h.weights htarget] at hf
    cases hf
    simp [newFilters, hreq htarget] at hkey

/-- Every row is configured, and every waiting write that will be accepted is settled for the row
it is about. -/
def Orderly (s : ScheduleRun F) : Prop := Table Configured Settled s

theorem orderly_step (h : Orderly s) (ha : Proper env s a) (hs : s.step env a = some s') :
    Orderly s' := by
  refine table_step h ?_ hs
  constructor
  case created =>
    rintro id projectId req now row rfl hok
    exact configured_created (createMonitor_ok hok) (ha row hok)
  case planned =>
    intro w id projectId now m v hm hplan hok row _ hdecode hrow
    obtain ⟨hconfig, hfilters⟩ := toMonitor_some hdecode
    have hsettled := settled_planned ha hm hplan hok fun hkey => by
      rw [hconfig]
      exact hrow.weights _ hfilters hkey
    rw [hconfig] at hsettled
    exact hsettled
  case written =>
    rintro w id v now row rfl hw hok hrow hid hold hv
    simp only [Proper, hw] at ha
    exact configured_set hold hv fun hs hn => ha hok hs hn row hrow hid
  case rescheduled =>
    rintro w next now t row rfl hw hrow ht hold
    simp only [Proper, hw] at ha
    have hactive := ha row hrow (List.mem_map.mpr ⟨_, ht, rfl⟩)
    exact ⟨hold.nonempty, hold.available, hold.weights, by simp [withNext, hactive]⟩

/-! ## A step out of order -/

/-- Some monitor is not configured as it should be. -/
def IllConfigured (s : ScheduleRun F) : Prop := ∃ row ∈ s.rows, ¬ Configured row

theorem illConfigured_create {id projectId : UUID} {req : CreateMonitorRequest F} {now : DateTime}
    (ha : ¬ Proper env s (.create id projectId req now))
    (hs : s.step env (.create id projectId req now) = some s') : IllConfigured s' := by
  simp only [Proper, not_forall] at ha
  obtain ⟨row, hrow, htrace, hkey⟩ := ha
  simp only [step, hrow] at hs
  split at hs
  · cases hs
  · cases hs
    refine ⟨row, List.mem_append_right _ (List.mem_singleton_self _), fun hconf => ?_⟩
    have hnew := createMonitor_ok hrow
    have hfilters : row.filters = some req.filters := by
      rw [hnew.filters, hnew.weights htrace]
      rfl
    have hsession := hconf.weights _ hfilters (Option.isSome_iff_ne_none.mpr hkey)
    rw [htrace] at hsession
    cases hsession

/-- A write is committed. -/
theorem step_commit {id : UUID} {v : MonitorValues F} {now : DateTime}
    (hw : s.task w = .writing id v now) (hok : v.accepted = true) :
    s.step env (.commit w) = some { s.goto w .idle with
      rows := s.rows.map fun row => if row.id = id then v.set now row else row } := by
  simp only [step, commit, hw, writeRow, if_pos hok, Option.getD_some]

theorem illConfigured_update {id projectId : UUID} {req : UpdateMonitorRequest F} {now : DateTime}
    (ha : ¬ Proper env s (.update w id projectId req now))
    (hs : s.step env (.update w id projectId req now) = some s') :
    ∃ t, s'.step env (.commit w) = some t ∧ IllConfigured t := by
  simp only [Proper, not_forall, not_not] at ha
  obtain ⟨m, v, hm, hv, hok, hreq⟩ := ha
  have hpatched := patched_unchecked (updateMonitor_ok hv) hreq
  have hplan : planUpdate env req now m = some v := by
    rw [planUpdate, hv]
    rfl
  have hset : v.isEmpty = false := by
    rcases hpatched with hnone | ⟨-, f, hf, -⟩
    · simp [MonitorValues.isEmpty, hnone]
    · simp [MonitorValues.isEmpty, hf]
  simp only [step, call, hm, Option.bind_some, hplan, hset] at hs
  split at hs
  · cases hs
    refine ⟨_, step_commit goto_task_self hok, ?_⟩
    obtain ⟨row, hrow, hid, hdecode⟩ := getMonitor_some hm
    obtain ⟨hconfig, -⟩ := toMonitor_some hdecode
    refine ⟨v.set now row, List.mem_map.mpr ⟨row, hrow, if_pos hid⟩, fun hconf => ?_⟩
    rcases hpatched with hnone | ⟨htrace, f, hf, hkey⟩
    · exact hconf.nonempty (by simp [MonitorValues.set, hnone])
    · have hsession := hconf.weights f (by simp [MonitorValues.set, hf]) hkey
      rw [hconfig] at htrace
      rw [show (v.set now row).targetType = row.targetType from rfl, htrace] at hsession
      cases hsession
  · cases hs

theorem illConfigured_commit (h : Orderly s) (ha : ¬ Proper env s (.commit w))
    (hs : s.step env (.commit w) = some s') : IllConfigured s' := by
  -- a next run without the status ACTIVE
  have hbad : ∀ row' : MonitorRow F, row'.nextRunAt.isSome → row'.status ≠ .active →
      ¬ Configured row' := fun row' hnext hstatus hconf => hstatus (hconf.scheduled.mp hnext)
  cases hw : s.task w with
  | idle =>
    simp only [Proper, hw] at ha
    exact absurd trivial ha
  | writing id v now =>
    simp only [Proper, hw, not_forall] at ha
    obtain ⟨hok, hstatus, hnext, row, hrow, hid, hpaused⟩ := ha
    rw [step_commit hw hok] at hs
    cases hs
    refine ⟨v.set now row, List.mem_map.mpr ⟨row, hrow, if_pos hid⟩, hbad _ ?_ ?_⟩
    · show (v.nextRunAt.getD row.nextRunAt).isSome
      rcases hn : v.nextRunAt with _ | _ | t
      · exact absurd hn hnext
      · have hclear := (h.writes w id v now hw hok row hrow hid).paused.mpr hn
        rw [hstatus] at hclear
        cases hclear
      · rfl
    · show v.status.getD row.status ≠ .active
      rw [hstatus]
      exact hpaused
  | rescheduling next now =>
    simp only [Proper, hw, not_forall] at ha
    obtain ⟨row, hrow, hlisted, hpaused⟩ := ha
    obtain ⟨x, hx, hid⟩ := List.mem_map.mp hlisted
    simp only [step, commit, hw, reschedule_eq_map] at hs
    cases hs
    refine ⟨_, List.mem_map_of_mem hrow, ?_⟩
    have hmem : (row.id, x.2) ∈ next := by
      rw [← hid]
      exact hx
    obtain ⟨u, -, hset⟩ : ∃ u, (row.id, u) ∈ next ∧
        rescheduledRow now next row = withNext now u row := rescheduledRow_listed hmem
    rw [hset]
    exact hbad _ rfl hpaused

/-- **Every monitor is configured as it should be, exactly while every step is proper.**  In every
run of proper steps every row is configured, whatever calls and ticks are under way; and after the
first step that is not proper, a row is not configured, at once or when the call has written. -/
theorem monitors_configured {s : ScheduleRun F}
    (hreach : GuardedRun.Reach (step env) (Proper env) initial s) :
    (∀ row ∈ s.rows, Configured row) ∧
    ∀ a s', s.step env a = some s' → ¬ Proper env s a →
      IllConfigured s' ∨ ∃ w t, s'.step env (.commit w) = some t ∧ IllConfigured t := by
  have h : Orderly s :=
    hreach.invariant table_initial fun _ _ _ h ha hs => orderly_step h ha hs
  refine ⟨h.rows, fun a s' hs ha => ?_⟩
  cases a with
  | create id projectId req now => exact .inl (illConfigured_create ha hs)
  | update w id projectId req now => exact .inr ⟨w, illConfigured_update ha hs⟩
  | commit w => exact .inl (illConfigured_commit h ha hs)
  | pause w id projectId now => exact absurd trivial ha
  | resume w id projectId now => exact absurd trivial ha
  | trigger w id projectId runId now => exact absurd trivial ha
  | process w id projectId runId now => exact absurd trivial ha
  | tick w now => exact absurd trivial ha
  | fail w => exact absurd trivial ha
  | delete id projectId => exact absurd trivial ha

/-- A test that is enough for a step to be proper. -/
def properTest (s : ScheduleRun F) : MonitorAct F → Bool
  | .create _ _ req _ => (req.filters weightsKey).isNone
  | .update .. => false
  | .commit w =>
    match s.task w with
    | .writing _ v _ => v.status.isSome
    | _ => false
  | _ => true

theorem proper_of_test {s : ScheduleRun F} {a : MonitorAct F} (h : properTest s a = true) :
    Proper env s a := by
  cases a with
  | create id projectId req now => exact fun _ _ _ => by simpa [properTest] using h
  | update w id projectId req now => cases h
  | commit w =>
    simp only [properTest] at h
    split at h
    next id v now hw =>
      simp only [Proper, hw]
      intro _ hnone
      rw [hnone] at h
      cases h
    · cases h
  | pause w id projectId now => trivial
  | resume w id projectId now => trivial
  | trigger w id projectId runId now => trivial
  | process w id projectId runId now => trivial
  | tick w now => trivial
  | fail w => trivial
  | delete id projectId => trivial

/-- A monitor is created and paused. -/
def pausing : List (MonitorAct ℚ) :=
  [.create "m" "A" (sampleRequest "daily") 0, .pause 0 "m" "A" 1, .commit 0]

/-- The paused monitor is configured. -/
theorem monitors_configured_paused : ∃ s,
    GuardedRun.run (GuardedRun.checked (step sampleEnv) properTest) initial pausing = some s ∧
    (∀ row ∈ s.rows, Configured row) ∧ s.rows.map (·.status) = [.paused] := by
  obtain ⟨s, hs⟩ := Option.isSome_iff_exists.mp (show (GuardedRun.run
    (GuardedRun.checked (step sampleEnv) properTest) initial pausing).isSome from by decide +kernel)
  have hreach : GuardedRun.Reach (step sampleEnv) (Proper sampleEnv) initial s :=
    GuardedRun.Reach.run_checked .initial (fun _ _ => proper_of_test) hs
  refine ⟨s, hs, (monitors_configured hreach).1, ?_⟩
  have hstatus : (GuardedRun.run (GuardedRun.checked (step sampleEnv) properTest) initial
      pausing).map (fun s => s.rows.map (·.status)) = some [.paused] := by decide +kernel
  rw [hs] at hstatus
  exact Option.some.inj hstatus

/-- A PATCH without any metric is written. -/
def patchedEmpty : List (MonitorAct ℚ) :=
  [.create "m" "A" (sampleRequest "daily") 0, .update 0 "m" "A" { metrics := some (some []) } 1,
    .commit 0]

/-- The monitor has no metric left. -/
theorem monitor_without_metrics : ¬ ∀ (F : Type) (env : MonitorEnv F) (s : ScheduleRun F),
    GuardedRun.Reach (step env) GuardedRun.Always initial s → ∀ row ∈ s.rows, Configured row := by
  intro h
  obtain ⟨s, hs⟩ := Option.isSome_iff_exists.mp
    (show (GuardedRun.run (step sampleEnv) initial patchedEmpty).isSome from by decide +kernel)
  have hconf := h ℚ sampleEnv s (GuardedRun.reach_of_run hs)
  have hbad : (GuardedRun.run (step sampleEnv) initial patchedEmpty).map (fun s =>
      s.rows.any fun row => row.metricNames = []) = some true := by decide +kernel
  rw [hs] at hbad
  obtain ⟨row, hrow, hempty⟩ := List.any_eq_true.mp (Option.some.inj hbad)
  exact (hconf row hrow).nonempty (by simpa using hempty)

end ScheduleRun
end PandaProbe
