import PandaProbe.EvalDispatch
import PandaProbe.Fallible
import PandaProbe.TraceStore

/-! # Evaluation monitors

The cadences of `core/evals/cadence.py` and the monitor operations of `EvalService`, each as a
function of the monitor it has read: what it raises, or the columns its `UPDATE` writes
(`MonitorValues`).  An update is by id and does not look at the row again, so the write can
come later than the read (`MonitorSchedule`).

A row is not yet a monitor: `filters` may hold the JSON value `null`, and then the row does not
decode (`toMonitor`).

`croniter`, the check of sampling rates, the JSON form of signal weights and `repr` are
parameters (`MonitorEnv`).
-/
namespace PandaProbe
open Fallible

/-! ## Cadences -/

/-- Whether Python's `str.strip` removes the character. -/
def isSpace (c : Char) : Bool :=
  let n := c.toNat
  (9 ≤ n && n ≤ 13) || (28 ≤ n && n ≤ 32) || n == 0x85 || n == 0xA0 || n == 0x1680 ||
    (0x2000 ≤ n && n ≤ 0x200A) || n == 0x2028 || n == 0x2029 || n == 0x202F || n == 0x205F ||
    n == 0x3000

/-- `str.strip`. -/
def stripSpace (l : List Char) : List Char :=
  ((l.dropWhile isSpace).reverse.dropWhile isSpace).reverse

/-- What the monitors take from outside. -/
structure MonitorEnv (F : Type) where
  /-- `croniter.is_valid(expr)`. -/
  cronValid : String → Bool
  /-- `croniter(expr, t).get_next()`, `none` when it raises. -/
  cronNext : String → DateTime → Option DateTime
  /-- `0.0 <= rate <= 1.0`, as requests and entities check it. -/
  rateOk : F → Bool
  /-- Signal weights as a JSON object. -/
  weightsJson : List (String × F) → Json
  repr : String → String

/-- What the eval service raises; `unhandled` is an error nobody catches. -/
inductive EvalError
  | notFound (detail : String)
  | validation (detail : String)
  | unhandled
  deriving DecidableEq, Repr

/-- `_PREDEFINED_DELTAS`. -/
def predefinedDelta (cadence : String) : Option Int :=
  if cadence = "every_6h" then some (DateTime.hours 6)
  else if cadence = "daily" then some (DateTime.days 1)
  else if cadence = "weekly" then some (DateTime.days 7)
  else none

/-- `_CRON_PREFIX`. -/
def cronPrefix : String := "cron:"

/-- The expression of a cron cadence. -/
def cronExpr (cadence : String) : Option String :=
  if cronPrefix.toList.isPrefixOf cadence.toList then
    some (String.ofList (stripSpace (cadence.toList.drop cronPrefix.length)))
  else none

section Cadence
variable {F : Type} (env : MonitorEnv F)

/-- Validate a cadence string and return it normalized. -/
def validateCadence (cadence : String) : Except EvalError String :=
  if (predefinedDelta cadence).isSome then .ok cadence
  else
    match cronExpr cadence with
    | some expr =>
      if expr = "" then
        .error (.validation "Cron expression must not be empty after 'cron:' prefix.")
      else if !env.cronValid expr then
        .error (.validation ("Invalid cron expression: " ++ env.repr expr))
      else .ok (cronPrefix ++ expr)
    | none =>
      .error (.validation ("Invalid cadence " ++ env.repr cadence ++ ". Must be one of " ++
        "[<MonitorCadence.EVERY_6H: 'every_6h'>, <MonitorCadence.DAILY: 'daily'>, " ++
        "<MonitorCadence.WEEKLY: 'weekly'>] or 'cron:<expression>'."))

/-- The next run after a time; `none` when it raises. -/
def computeNextRun (cadence : String) (now : DateTime) : Option DateTime :=
  match predefinedDelta cadence with
  | some delta => some (now + delta)
  | none =>
    match cronExpr cadence with
    | some expr => env.cronNext expr now
    | none => none

/-- A cadence that has a next time at some time has one at every time, if that is so of the
cron expressions. -/
theorem computeNextRun_isSome {env : MonitorEnv F}
    (hcron : ∀ expr t t', (env.cronNext expr t).isSome → (env.cronNext expr t').isSome)
    {cadence : String} {t : DateTime} (h : (computeNextRun env cadence t).isSome)
    (t' : DateTime) : (computeNextRun env cadence t').isSome := by
  unfold computeNextRun at h ⊢
  split
  · rfl
  next hnone =>
    rw [hnone] at h
    split
    next expr hexpr =>
      simp only [hexpr] at h
      exact hcron expr t t' h
    next hexpr =>
      simp only [hexpr] at h
      cases h

end Cadence

/-! ## Rows -/

/-- Lifecycle status of an evaluation monitor. -/
inductive MonitorStatus
  | active | paused
  deriving DecidableEq, Repr

/-- The columns of a monitor, less `filters`. -/
structure MonitorConfig (F : Type) where
  id : UUID
  projectId : UUID
  name : String
  targetType : TargetType
  metricNames : List String
  samplingRate : F
  model : Option String
  cadence : String
  onlyIfChanged : Bool
  status : MonitorStatus
  lastRunAt : Option DateTime
  lastRunId : Option UUID
  nextRunAt : Option DateTime
  createdAt : DateTime
  updatedAt : DateTime

/-- A row of `eval_monitors`; `filters` is `none` for the JSON value `null`. -/
structure MonitorRow (F : Type) extends MonitorConfig F where
  filters : Option JsonDict

/-- A persistent evaluation schedule that spawns eval runs on a cadence. -/
structure EvalMonitor (F : Type) extends MonitorConfig F where
  filters : JsonDict

/-- `list_metrics()`. -/
def listMetrics : List String :=
  ["argument_correctness", "coherence", "confidence", "plan_adherence", "plan_quality",
    "step_efficiency", "task_completion", "tool_correctness"]

/-- `list_session_metrics()`. -/
def listSessionMetrics : List String := ["agent_consistency", "agent_reliability"]

/-- The metrics available for a kind of target. -/
def TargetType.available : TargetType → List String
  | .trace => listMetrics
  | .session => listSessionMetrics

/-- The error for names that are not available. -/
def unknownMetrics (what : String) (invalid : List String) : EvalError :=
  .validation ("Unknown " ++ what ++ ": " ++ String.intercalate ", " invalid)

/-- The checks that the paths which take metrics from a request have in common. -/
def checkMetrics (what : String) (available metrics : List String) : Except EvalError Unit :=
  if metrics.filter (fun m => !available.contains m) ≠ [] then
    .error (unknownMetrics what (metrics.filter (fun m => !available.contains m)))
  else if metrics = [] then .error (.validation "At least one metric is required.")
  else .ok ()

/-- The key of signal weights among the filters. -/
def weightsKey : String := "signal_weights"

/-- No key at all. -/
def JsonDict.empty : JsonDict := fun _ => none

/-- `filters.get("signal_weights")`, `none` for Python's `None`. -/
def storedWeights (filters : JsonDict) : Option Json :=
  match filters weightsKey with
  | some .null => none
  | w => w

/-- The columns an `UPDATE` sets. -/
structure MonitorValues (F : Type) where
  name : Patch String := none
  metricNames : Option (List String) := none
  filters : Patch JsonDict := none
  samplingRate : Patch F := none
  model : Patch String := none
  cadence : Patch String := none
  onlyIfChanged : Patch Bool := none
  status : Option MonitorStatus := none
  nextRunAt : Patch DateTime := none
  lastRun : Option (DateTime × UUID) := none

/-- The text fits its column. -/
def fits (n : Nat) (s : String) : Bool := s.length ≤ n

namespace MonitorValues
variable {F : Type} (v : MonitorValues F)

/-- No column but a nullable one is set to NULL, and every text fits. -/
def accepted : Bool :=
  v.name.all (·.any (fits 255)) && v.samplingRate.all (·.isSome) && v.model.all (·.all (fits 255)) &&
    v.cadence.all (·.any (fits 50)) && v.onlyIfChanged.all (·.isSome)

/-- Nothing is set: there is no `UPDATE`. -/
def isEmpty : Bool :=
  v.name.isNone && v.metricNames.isNone && v.filters.isNone && v.samplingRate.isNone &&
    v.model.isNone && v.cadence.isNone && v.onlyIfChanged.isNone && v.status.isNone &&
    v.nextRunAt.isNone && v.lastRun.isNone

/-- The row with the columns set. -/
def set (now : DateTime) (row : MonitorRow F) : MonitorRow F :=
  { row with
    name := v.name.setNotNull row.name
    metricNames := v.metricNames.getD row.metricNames
    filters := v.filters.getD row.filters
    samplingRate := v.samplingRate.setNotNull row.samplingRate
    model := v.model.set row.model
    cadence := v.cadence.setNotNull row.cadence
    onlyIfChanged := v.onlyIfChanged.setNotNull row.onlyIfChanged
    status := v.status.getD row.status
    nextRunAt := v.nextRunAt.set row.nextRunAt
    lastRunAt := (v.lastRun.map (some ·.1)).getD row.lastRunAt
    lastRunId := (v.lastRun.map (some ·.2)).getD row.lastRunId
    updatedAt := now }

end MonitorValues

section Service
variable {F : Type} (env : MonitorEnv F)

/-- `_to_monitor`: the entity's own checks. -/
def MonitorRow.toMonitor (row : MonitorRow F) : Option (EvalMonitor F) :=
  match row.filters with
  | none => none
  | some filters => if env.rateOk row.samplingRate then some { row with filters := filters } else none

/-- The body of a request that creates a monitor. -/
structure CreateMonitorRequest (F : Type) where
  name : String
  targetType : String
  metrics : List String
  filters : JsonDict
  samplingRate : F
  model : Option String
  cadence : String
  onlyIfChanged : Bool
  signalWeights : Option (List (String × F))

/-- The target type of its name. -/
def TargetType.parse (s : String) : Except EvalError TargetType :=
  if s = "TRACE" then .ok .trace
  else if s = "SESSION" then .ok .session
  else .error (.validation "target_type must be 'TRACE' or 'SESSION'.")

/-- The filters of a new monitor. -/
def newFilters (filters : JsonDict) (weights : List (String × F)) : JsonDict :=
  if weights = [] then filters
  else Function.update filters weightsKey (some (env.weightsJson weights))

/-- `create_monitor`, of a request that its schema accepts. -/
def createMonitor (id projectId : UUID) (req : CreateMonitorRequest F) (now : DateTime) :
    Except EvalError (MonitorRow F) := do
  if !(env.rateOk req.samplingRate) then .error .unhandled
  else
    let targetType ← TargetType.parse req.targetType
    if targetType = .trace ∧ req.signalWeights.getD [] ≠ [] then
      .error (.validation "signal_weights is only valid for SESSION monitors.")
    else
      let _ ← checkMetrics "metrics" targetType.available req.metrics
      let cadence ← validateCadence env req.cadence
      match computeNextRun env cadence now with
      | none => .error .unhandled
      | some next =>
        if fits 255 req.name && req.model.all (fits 255) && fits 50 cadence then
          .ok
            { id := id
              projectId := projectId
              name := req.name
              targetType := targetType
              metricNames := req.metrics
              filters := some (newFilters env req.filters (req.signalWeights.getD []))
              samplingRate := req.samplingRate
              model := req.model
              cadence := cadence
              onlyIfChanged := req.onlyIfChanged
              status := .active
              lastRunAt := none
              lastRunId := none
              nextRunAt := some next
              createdAt := now
              updatedAt := now }
        else .error .unhandled

/-- The body of a PATCH; `model_fields_set` are the fields that are not `none`. -/
structure UpdateMonitorRequest (F : Type) where
  name : Patch String := none
  metrics : Patch (List String) := none
  filters : Patch JsonDict := none
  samplingRate : Patch F := none
  model : Patch String := none
  cadence : Patch String := none
  onlyIfChanged : Patch Bool := none
  signalWeights : Patch (List (String × F)) := none

/-- What a PATCH makes of the metrics. -/
def patchedMetrics (monitor : EvalMonitor F) (req : UpdateMonitorRequest F) :
    Except EvalError (Option (List String)) :=
  match req.metrics with
  | some (some metrics) =>
    let invalid := metrics.filter (fun m => !monitor.targetType.available.contains m)
    if invalid ≠ [] then .error (unknownMetrics "metrics" invalid) else .ok (some metrics)
  | _ => .ok none

/-- What a PATCH makes of the filters.  Weights that are sent go into them, or are removed by an
empty value; weights that are not sent stay.  Filters that are sent as `null`, with no weights
sent or stored, are written as they came. -/
def patchedFilters (monitor : EvalMonitor F) (req : UpdateMonitorRequest F) :
    Except EvalError (Patch JsonDict) :=
  match req.signalWeights with
  | some sent =>
    let weights := sent.getD []
    if monitor.targetType = .trace ∧ weights ≠ [] then
      .error (.validation "signal_weights is only valid for SESSION monitors.")
    else
      let base := match req.filters with
        | some filters => filters.getD .empty
        | none => monitor.filters
      let value := if weights = [] then none else some (env.weightsJson weights)
      .ok (some (some (Function.update base weightsKey value)))
  | none =>
    match req.filters, storedWeights monitor.filters with
    | some filters, some weights =>
      .ok (some (some (Function.update (filters.getD .empty) weightsKey (some weights))))
    | filters, _ => .ok filters

/-- What a PATCH makes of the cadence, and the next run with it. -/
def patchedCadence (req : UpdateMonitorRequest F) (now : DateTime) :
    Except EvalError (Patch String × Patch DateTime) :=
  match req.cadence with
  | some (some cadence) => do
    let cadence ← validateCadence env cadence
    match computeNextRun env cadence now with
    | none => .error .unhandled
    | some next => .ok (some (some cadence), some (some next))
  | cadence => .ok (cadence, none)

/-- `update_monitor`, of a request that its schema accepts, on the monitor read. -/
def updateMonitor (monitor : EvalMonitor F) (req : UpdateMonitorRequest F) (now : DateTime) :
    Except EvalError (MonitorValues F) := do
  if !req.samplingRate.join.all env.rateOk then .error .unhandled
  else
    let metricNames ← patchedMetrics monitor req
    let filters ← patchedFilters env monitor req
    let (cadence, nextRunAt) ← patchedCadence env req now
    .ok
      { name := req.name
        metricNames := metricNames
        filters := filters
        samplingRate := req.samplingRate
        model := req.model
        cadence := cadence
        onlyIfChanged := req.onlyIfChanged
        nextRunAt := nextRunAt }

/-- `pause_monitor`; `none` when there is nothing to do. -/
def pauseMonitor (monitor : EvalMonitor F) : Option (MonitorValues F) :=
  match monitor.status with
  | .paused => none
  | .active => some { status := some .paused, nextRunAt := some none }

/-- `resume_monitor`; `none` when there is nothing to do, or when it raises. -/
def resumeMonitor (monitor : EvalMonitor F) (now : DateTime) : Option (MonitorValues F) :=
  match monitor.status with
  | .active => none
  | .paused =>
    (computeNextRun env monitor.cadence now).map fun next =>
      { status := some .active, nextRunAt := some (some next) }

/-- `advance_monitor` of `prepare_trigger_monitor`. -/
def triggerMonitor (monitor : EvalMonitor F) (runId : UUID) (now : DateTime) :
    Option (MonitorValues F) :=
  (computeNextRun env monitor.cadence now).map fun next =>
    { lastRun := some (now, runId), nextRunAt := some (some next) }

/-- `advance_monitor` of the monitor task, which leaves the next run as the scheduler set it. -/
def advanceMonitor (runId : UUID) (now : DateTime) : MonitorValues F :=
  { lastRun := some (now, runId) }

/-! ## What the operations let through -/

variable {env} {monitor : EvalMonitor F} {v : MonitorValues F} {now : DateTime}

/-- A row that decodes has filters. -/
theorem toMonitor_some {row : MonitorRow F} (h : row.toMonitor env = some monitor) :
    monitor.toMonitorConfig = row.toMonitorConfig ∧ row.filters = some monitor.filters := by
  unfold MonitorRow.toMonitor at h
  split at h
  · cases h
  next filters hfilters =>
    split at h
    · cases h
      exact ⟨rfl, hfilters⟩
    · cases h

theorem checkMetrics_ok {what : String} {available metrics : List String} {u : Unit}
    (h : checkMetrics what available metrics = .ok u) :
    metrics ≠ [] ∧ ∀ m ∈ metrics, m ∈ available := by
  unfold checkMetrics at h
  split at h
  · cases h
  next hknown =>
    split at h
    · cases h
    next hsome =>
      refine ⟨hsome, fun m hm => ?_⟩
      have hnone := List.filter_eq_nil_iff.mp (not_not.mp hknown) m hm
      simpa using hnone

/-- **What a created monitor is like.** -/
structure Created (env : MonitorEnv F) (id : UUID) (req : CreateMonitorRequest F)
    (now : DateTime) (row : MonitorRow F) : Prop where
  id : row.id = id
  rate : env.rateOk row.samplingRate = true
  next : (computeNextRun env row.cadence now).isSome
  status : row.status = .active
  nextRunAt : row.nextRunAt.isSome
  metrics : row.metricNames ≠ [] ∧ ∀ m ∈ row.metricNames, m ∈ row.targetType.available
  targetType : TargetType.parse req.targetType = .ok row.targetType
  filters : row.filters = some (newFilters env req.filters (req.signalWeights.getD []))
  weights : row.targetType = .trace → req.signalWeights.getD [] = []

theorem createMonitor_ok {id projectId : UUID} {req : CreateMonitorRequest F} {row : MonitorRow F}
    (h : createMonitor env id projectId req now = .ok row) : Created env id req now row := by
  unfold createMonitor at h
  split at h
  · cases h
  next hrate =>
    obtain ⟨targetType, htarget, h⟩ := bind_ok h
    split at h
    · cases h
    next hweights =>
      obtain ⟨_, hmetrics, h⟩ := bind_ok h
      obtain ⟨cadence, -, h⟩ := bind_ok h
      split at h
      · cases h
      next next hnext =>
        split at h
        · cases h
          exact {
            id := rfl
            rate := by simpa using hrate
            next := Option.isSome_of_eq_some hnext
            status := rfl
            nextRunAt := rfl
            metrics := checkMetrics_ok hmetrics
            targetType := htarget
            filters := rfl
            weights := fun htrace => by
              by_contra hsome
              exact hweights ⟨htrace, hsome⟩ }
        · cases h

/-- **What a PATCH writes.** -/
structure Patched (env : MonitorEnv F) (monitor : EvalMonitor F) (req : UpdateMonitorRequest F)
    (now : DateTime) (v : MonitorValues F) : Prop where
  rate : ∀ r, v.samplingRate = some (some r) → env.rateOk r = true
  metrics : patchedMetrics monitor req = .ok v.metricNames
  filters : patchedFilters env monitor req = .ok v.filters
  cadence : patchedCadence env req now = .ok (v.cadence, v.nextRunAt)
  status : v.status = none

theorem updateMonitor_ok {req : UpdateMonitorRequest F}
    (h : updateMonitor env monitor req now = .ok v) : Patched env monitor req now v := by
  unfold updateMonitor at h
  split at h
  · cases h
  next hrate =>
    obtain ⟨metricNames, hmetrics, h⟩ := bind_ok h
    obtain ⟨filters, hfilters, h⟩ := bind_ok h
    obtain ⟨⟨cadence, nextRunAt⟩, hcadence, h⟩ := bind_ok h
    cases h
    refine ⟨fun r hr => ?_, hmetrics, hfilters, hcadence, rfl⟩
    have hr' : req.samplingRate = some (some r) := hr
    simpa [hr'] using hrate

/-- A new cadence has a next run, which is written with it; nothing else sets the next run. -/
theorem patchedCadence_ok {req : UpdateMonitorRequest F} {cadence : Patch String}
    {nextRunAt : Patch DateTime} (h : patchedCadence env req now = .ok (cadence, nextRunAt)) :
    (∀ c, cadence = some (some c) → (computeNextRun env c now).isSome) ∧ nextRunAt ≠ some none := by
  unfold patchedCadence at h
  split at h
  · obtain ⟨c, -, h⟩ := bind_ok h
    split at h
    · cases h
    next next hnext =>
      cases h
      refine ⟨fun c' hc' => ?_, by simp⟩
      cases hc'
      exact Option.isSome_of_eq_some hnext
  next hcadence =>
    cases h
    exact ⟨fun c hc => absurd hc (hcadence c), by simp⟩

/-- The metrics that a PATCH writes are available. -/
theorem patchedMetrics_ok {req : UpdateMonitorRequest F} {names : List String}
    (h : patchedMetrics monitor req = .ok (some names)) :
    req.metrics = some (some names) ∧ ∀ m ∈ names, m ∈ monitor.targetType.available := by
  unfold patchedMetrics at h
  split at h
  next metrics hmetrics =>
    dsimp only at h
    split at h
    · cases h
    next hknown =>
      cases h
      refine ⟨hmetrics, fun m hm => ?_⟩
      have hnone := List.filter_eq_nil_iff.mp (not_not.mp hknown) m hm
      simpa using hnone
  · cases h

/-- A PATCH that brings in what `create_monitor` refuses: no metric at all, or weights among the
filters of a TRACE monitor. -/
def Unchecked (monitor : EvalMonitor F) (req : UpdateMonitorRequest F) : Prop :=
  req.metrics = some (some []) ∨
    (monitor.targetType = .trace ∧ req.signalWeights = none ∧
      ∃ f, req.filters = some (some f) ∧ (f weightsKey).isSome)

/-- The filters that a checked PATCH writes to a TRACE monitor hold no weights. -/
theorem patchedFilters_trace {req : UpdateMonitorRequest F} {f : JsonDict}
    (htrace : monitor.targetType = .trace) (hstored : monitor.filters weightsKey = none)
    (hreq : ¬ Unchecked monitor req) (h : patchedFilters env monitor req = .ok (some (some f))) :
    f weightsKey = none := by
  unfold patchedFilters at h
  split at h
  next sent hsent =>
    dsimp only at h
    split at h
    · cases h
    next hweights =>
      have hempty : sent.getD [] = [] := by
        by_contra hne
        exact hweights ⟨htrace, hne⟩
      rw [if_pos hempty] at h
      cases h
      exact Function.update_self ..
  next hsent =>
    split at h
    next filters weights hfilters hstill =>
      simp [storedWeights, hstored] at hstill
    next filters w hno =>
      have hsome : req.filters = some (some f) := Except.ok.inj h
      by_contra hkey
      exact hreq (.inr ⟨htrace, hsent, f, hsome, Option.isSome_iff_ne_none.mpr hkey⟩)

/-- What an unchecked PATCH writes. -/
theorem patched_unchecked {req : UpdateMonitorRequest F} (h : Patched env monitor req now v)
    (hreq : Unchecked monitor req) :
    v.metricNames = some [] ∨
      (monitor.targetType = .trace ∧ ∃ f, v.filters = some (some f) ∧ (f weightsKey).isSome) := by
  rcases hreq with hnone | ⟨htrace, hsent, f, hf, hkey⟩
  · left
    have hmetrics := h.metrics
    rw [patchedMetrics, hnone] at hmetrics
    exact (Except.ok.inj hmetrics).symm
  · right
    refine ⟨htrace, ?_⟩
    have hfilters := h.filters
    rw [patchedFilters, hsent, hf] at hfilters
    dsimp only at hfilters
    split at hfilters
    next filters weights hsome hstill =>
      refine ⟨_, (Except.ok.inj hfilters).symm, ?_⟩
      rw [Function.update_self]
      rfl
    · exact ⟨f, (Except.ok.inj hfilters).symm, hkey⟩

end Service
end PandaProbe
