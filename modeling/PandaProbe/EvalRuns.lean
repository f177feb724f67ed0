import Mathlib.Data.List.Sort
import PandaProbe.EvalMonitors
import PandaProbe.EvalRunTask

/-! # Creating eval runs

The six paths of `EvalService` that prepare an eval run, and the one by which a monitor spawns
one, each up to the row it adds to its transaction.  They take the metrics of the run from
different places: from the request, checked against what is available; from the scores that
FAILED in an earlier run; from the monitor as it is now.

What a query for targets finds and what `random.sample` picks are arguments.  Name, filters
(signal weights apart), sampling rate and monitor of a run are left out, as no task reads them.
-/
namespace PandaProbe
open Fallible

/-- What the creation of runs takes from outside. -/
structure RunEnv (F : Type) where
  /-- `_resolve_model`. -/
  resolveModel : Option String → String
  /-- `rate < 1.0`. -/
  belowOne : F → Bool
  /-- `rate > 0`. -/
  positive : F → Bool
  /-- `int(n * rate)`. -/
  share : F → Nat → Nat
  /-- The signal weights among the filters of a monitor. -/
  weightsOf : JsonDict → Option (List (String × F))

/-- `random.sample`: the targets picked, of those found, for a number of them. -/
abbrev Pick := List String → Nat → List String

/-- A run that has been added to the transaction, with the arguments of its task. -/
structure NewRun (F : Type) extends PreparedRun where
  projectId : UUID
  signalWeights : Option (List (String × F))
  model : Option String
  targetIds : List String

/-- The row of a new run. -/
def NewRun.row {F : Type} (run : NewRun F) : EvalRun F where
  projectId := run.projectId
  metricNames := run.metricNames
  signalWeights := run.signalWeights
  model := run.model
  status := .pending
  evaluatedCount := 0
  failedCount := 0
  errorMessage := none
  completedAt := none

section Prepare
variable {F : Type} (env : RunEnv F)

/-- A new run of some targets. -/
def newRun (id projectId : UUID) (targetType : TargetType) (metrics : List String)
    (weights : Option (List (String × F))) (model : Option String) (targets : List String)
    (traceMetricMap : Option (List (UUID × List String))) : NewRun F where
  runId := id
  targetType := targetType
  totalTargets := targets.length
  metricNames := metrics
  traceMetricMap := traceMetricMap
  projectId := projectId
  signalWeights := weights
  model := model
  targetIds := targets

/-- The sampling of a request: a positive rate picks at least one target. -/
def sampled (rate : F) (pick : Pick) (found : List String) : List String :=
  if env.belowOne rate then
    let count := env.share rate found.length
    let count := if env.positive rate then max 1 count else count
    if 0 < count then pick found count else []
  else found

/-- A run of the targets that match filters. -/
def prepareFiltered (targetType : TargetType) (what noneMatch : String) (id projectId : UUID)
    (metrics : List String) (rate : F) (model : Option String) (weights : List (String × F))
    (found : List String) (pick : Pick) : Except EvalError (NewRun F) := do
  let _ ← checkMetrics what targetType.available metrics
  if found = [] then .error (.validation noneMatch)
  else
    .ok (newRun id projectId targetType metrics (if weights = [] then none else some weights)
      (some (env.resolveModel model)) (sampled env rate pick found) none)

/-- `prepare_eval_run`. -/
def prepareEvalRun (id projectId : UUID) (metrics : List String) (rate : F) (model : Option String)
    (found : List String) (pick : Pick) : Except EvalError (NewRun F) :=
  prepareFiltered env .trace "metrics" "No traces match the provided filters." id projectId metrics
    rate model [] found pick

/-- `prepare_session_eval_run`. -/
def prepareSessionEvalRun (id projectId : UUID) (metrics : List String) (rate : F)
    (model : Option String) (weights : List (String × F)) (found : List String) (pick : Pick) :
    Except EvalError (NewRun F) :=
  prepareFiltered env .session "session metrics" "No sessions match the provided filters." id
    projectId metrics rate model weights found pick

/-- A run of given targets, each once. -/
def prepareBatch (targetType : TargetType) (what noTarget : String) (id projectId : UUID)
    (targets metrics : List String) (model : Option String) (weights : List (String × F)) :
    Except EvalError (NewRun F) := do
  let _ ← checkMetrics what targetType.available metrics
  if targets = [] then .error (.validation noTarget)
  else
    .ok (newRun id projectId targetType metrics (if weights = [] then none else some weights)
      (some (env.resolveModel model)) targets.eraseDups none)

/-- `prepare_batch_eval_run`. -/
def prepareBatchEvalRun (id projectId : UUID) (traceIds metrics : List String)
    (model : Option String) : Except EvalError (NewRun F) :=
  prepareBatch env .trace "metrics" "At least one trace ID is required." id projectId traceIds
    metrics model []

/-- `prepare_batch_session_eval_run`. -/
def prepareBatchSessionEvalRun (id projectId : UUID) (sessionIds metrics : List String)
    (model : Option String) (weights : List (String × F)) : Except EvalError (NewRun F) :=
  prepareBatch env .session "session metrics" "At least one session ID is required." id projectId
    sessionIds metrics model weights

/-! ## Retries -/

/-- `sorted(set(l))`. -/
def sortedSet (l : List String) : List String := l.dedup.insertionSort (· ≤ ·)

/-- A FAILED score of the run. -/
def failedOfRun (runId projectId : UUID) (row : TraceScore) : Bool :=
  EvalDb.ofRun runId projectId row && row.status == .failed

/-- A FAILED session score of the run. -/
def failedSessionOfRun (runId projectId : UUID) (row : SessionScore) : Bool :=
  EvalDb.sessionOfRun runId projectId row && row.status == .failed

/-- `get_failed_scores_for_run`; `none` when a row does not decode. -/
def getFailedScoresForRun (eval : EvalEnv F) (db : EvalDb F) (runId projectId : UUID) :
    Option (List TraceScore) :=
  let rows := db.scores.filter (failedOfRun runId projectId)
  if rows.all (fun row => row.value.all (validateScoreValue eval · row.dataType)) then some rows
  else none

/-- `get_failed_session_scores_for_run`; `none` when a row does not decode. -/
def getFailedSessionScoresForRun (eval : EvalEnv F) (db : EvalDb F) (runId projectId : UUID) :
    Option (List SessionScore) :=
  let rows := db.sessionScores.filter (failedSessionOfRun runId projectId)
  if rows.all (fun row => row.value.all (validateScoreValue eval · row.dataType)) then some rows
  else none

/-- One more metric of a trace. -/
def addMetric (traceId : UUID) (name : String) :
    List (UUID × List String) → List (UUID × List String)
  | [] => [(traceId, [name])]
  | (t, names) :: rest =>
    if t = traceId then (t, if name ∈ names then names else names ++ [name]) :: rest
    else (t, names) :: addMetric traceId name rest

/-- The metrics that FAILED, by trace. -/
def failedMetricMap (failed : List TraceScore) : List (UUID × List String) :=
  failed.foldl (fun map s => addMetric s.traceId s.name map) []

/-- `prepare_retry_failed_run`, of a run of either kind. -/
def prepareRetryFailedRun (eval : EvalEnv F) (db : EvalDb F) (id runId projectId : UUID) :
    Except EvalError (NewRun F) :=
  match db.getEvalRun runId projectId with
  | none => .error (.notFound ("Eval run " ++ runId ++ " not found."))
  | some original =>
    match getFailedScoresForRun eval db runId projectId with
    | none => .error .unhandled
    | some failed =>
      if failed = [] then .error (.validation "No failed scores to retry in this run.")
      else
        let map := failedMetricMap failed
        .ok (newRun id projectId .trace (sortedSet (map.flatMap (·.2))) none original.model
          (map.map (·.1)) (some map))

/-- `prepare_retry_failed_session_run`. -/
def prepareRetryFailedSessionRun (eval : EvalEnv F) (db : EvalDb F) (id runId projectId : UUID) :
    Except EvalError (NewRun F) :=
  match db.getEvalRun runId projectId with
  | none => .error (.notFound ("Eval run " ++ runId ++ " not found."))
  | some original =>
    match getFailedSessionScoresForRun eval db runId projectId with
    | none => .error .unhandled
    | some failed =>
      if failed = [] then .error (.validation "No failed scores to retry in this run.")
      else
        let weights := original.signalWeights.getD []
        .ok (newRun id projectId .session (sortedSet (failed.map (·.name)))
          (if weights = [] then none else some weights) (some (env.resolveModel original.model))
          (sortedSet (failed.map (·.sessionId))) none)

/-! ## Monitors -/

/-- The error of a monitor without targets. -/
def TargetType.noneMatch : TargetType → String
  | .trace => "No traces match the monitor's filters."
  | .session => "No sessions match the monitor's filters."

/-- `_spawn_run_for_monitor`: here a rate of zero picks one target. -/
def spawnRunForMonitor (monitor : EvalMonitor F) (id : UUID) (found : List String) (pick : Pick) :
    Except EvalError (NewRun F) :=
  if found = [] then .error (.validation monitor.targetType.noneMatch)
  else
    let targets :=
      if env.belowOne monitor.samplingRate then
        pick found (max 1 (env.share monitor.samplingRate found.length))
      else found
    .ok (newRun id monitor.projectId monitor.targetType monitor.metricNames
      (env.weightsOf monitor.filters) (some (env.resolveModel monitor.model)) targets none)

/-! ## The metrics of a new run -/

/-- A run of this kind with these metrics can be executed. -/
def Executable (targetType : TargetType) (metrics : List String) : Prop :=
  metrics ≠ [] ∧ ∀ m ∈ metrics, m ∈ targetType.available

variable {env} {id projectId : UUID} {run : NewRun F}

/-- **The metrics of a request are checked.** -/
theorem prepareFiltered_ok {targetType : TargetType} {what noneMatch : String}
    {metrics : List String} {rate : F} {model : Option String} {weights : List (String × F)}
    {found : List String} {pick : Pick}
    (h : prepareFiltered env targetType what noneMatch id projectId metrics rate model weights found
      pick = .ok run) :
    run.runId = id ∧ Executable run.targetType run.metricNames := by
  obtain ⟨_, hmetrics, h⟩ := bind_ok h
  split at h
  · cases h
  · cases h
    exact ⟨rfl, checkMetrics_ok hmetrics⟩

theorem prepareBatch_ok {targetType : TargetType} {what noTarget : String}
    {targets metrics : List String} {model : Option String} {weights : List (String × F)}
    (h : prepareBatch env targetType what noTarget id projectId targets metrics model weights =
      .ok run) :
    run.runId = id ∧ Executable run.targetType run.metricNames := by
  obtain ⟨_, hmetrics, h⟩ := bind_ok h
  split at h
  · cases h
  · cases h
    exact ⟨rfl, checkMetrics_ok hmetrics⟩

theorem mem_sortedSet {l : List String} {m : String} : m ∈ sortedSet l ↔ m ∈ l := by
  rw [sortedSet, List.mem_insertionSort, List.mem_dedup]

theorem mem_addMetric {traceId : UUID} {name m : String} (map : List (UUID × List String)) :
    m ∈ (addMetric traceId name map).flatMap (·.2) ↔ m = name ∨ m ∈ map.flatMap (·.2) := by
  induction map with
  | nil => simp [addMetric]
  | cons p rest ih =>
    obtain ⟨t, names⟩ := p
    rw [addMetric]
    split
    · by_cases hname : name ∈ names
      · rw [if_pos hname, List.flatMap_cons]
        constructor
        · exact .inr
        · rintro (rfl | hm)
          · exact List.mem_append_left _ hname
          · exact hm
      · simp only [if_neg hname, List.flatMap_cons, List.mem_append, List.mem_singleton]
        tauto
    · rw [List.flatMap_cons, List.flatMap_cons, List.mem_append, List.mem_append, ih]
      tauto

/-- The names in the map are those of the FAILED scores. -/
theorem mem_failedMetricMap {failed : List TraceScore} {m : String} :
    m ∈ (failedMetricMap failed).flatMap (·.2) ↔ ∃ s ∈ failed, s.name = m := by
  have hfold : ∀ map, m ∈ (failed.foldl (fun map s => addMetric s.traceId s.name map) map).flatMap
      (·.2) ↔ m ∈ map.flatMap (·.2) ∨ ∃ s ∈ failed, s.name = m := by
    induction failed with
    | nil => simp
    | cons s rest ih =>
      intro map
      rw [List.foldl_cons, ih, mem_addMetric, List.exists_mem_cons_iff, eq_comm]
      tauto
  rw [failedMetricMap, hfold]
  simp

/-- **The metrics of a retry** are those of the FAILED scores of the run, whatever the run was. -/
theorem prepareRetryFailedRun_ok {eval : EvalEnv F} {db : EvalDb F} {runId : UUID}
    (h : prepareRetryFailedRun eval db id runId projectId = .ok run) :
    run.runId = id ∧ run.targetType = .trace ∧ run.metricNames ≠ [] ∧
      ∀ m, m ∈ run.metricNames ↔
        ∃ row ∈ db.scores, failedOfRun runId projectId row = true ∧ row.name = m := by
  unfold prepareRetryFailedRun at h
  split at h
  · cases h
  · split at h
    · cases h
    next failed hfailed =>
      split at h
      · cases h
      next hsome =>
        cases h
        have hrows : failed = db.scores.filter (failedOfRun runId projectId) := by
          simp only [getFailedScoresForRun] at hfailed
          split at hfailed
          · exact (Option.some.inj hfailed).symm
          · cases hfailed
        have hmem : ∀ m, m ∈ sortedSet ((failedMetricMap failed).flatMap (·.2)) ↔
            ∃ s ∈ failed, s.name = m := fun m => by rw [mem_sortedSet, mem_failedMetricMap]
        refine ⟨rfl, rfl, fun hnil => ?_, fun m => ?_⟩
        · obtain ⟨s, hs⟩ := List.exists_mem_of_ne_nil failed hsome
          have hname := (hmem s.name).mpr ⟨s, hs, rfl⟩
          rw [show sortedSet ((failedMetricMap failed).flatMap (·.2)) = [] from hnil] at hname
          cases hname
        · refine (hmem m).trans ?_
          simp only [hrows, List.mem_filter, and_assoc]

theorem prepareRetryFailedSessionRun_ok {eval : EvalEnv F} {db : EvalDb F} {runId : UUID}
    (h : prepareRetryFailedSessionRun env eval db id runId projectId = .ok run) :
    run.runId = id ∧ run.targetType = .session ∧ run.metricNames ≠ [] ∧
      ∀ m ∈ run.metricNames, ∃ row ∈ db.sessionScores, row.status = .failed ∧ row.name = m := by
  unfold prepareRetryFailedSessionRun at h
  split at h
  · cases h
  · split at h
    · cases h
    next failed hfailed =>
      split at h
      · cases h
      next hsome =>
        cases h
        have hrows : failed = db.sessionScores.filter (failedSessionOfRun runId projectId) := by
          simp only [getFailedSessionScoresForRun] at hfailed
          split at hfailed
          · exact (Option.some.inj hfailed).symm
          · cases hfailed
        refine ⟨rfl, rfl, fun hnil => ?_, fun m hm => ?_⟩
        · obtain ⟨s, hs⟩ := List.exists_mem_of_ne_nil failed hsome
          have hname := mem_sortedSet.mpr (List.mem_map_of_mem (f := (·.name)) hs)
          rw [show sortedSet (failed.map (·.name)) = [] from hnil] at hname
          cases hname
        · obtain ⟨s, hs, rfl⟩ := List.mem_map.mp (mem_sortedSet.mp hm)
          rw [hrows] at hs
          obtain ⟨hmem, hfail⟩ := List.mem_filter.mp hs
          refine ⟨s, hmem, ?_, rfl⟩
          simpa [failedSessionOfRun] using (Bool.and_eq_true_iff.mp hfail).2

theorem spawnRunForMonitor_ok {monitor : EvalMonitor F} {found : List String} {pick : Pick}
    (h : spawnRunForMonitor env monitor id found pick = .ok run) :
    run.runId = id ∧ run.targetType = monitor.targetType ∧
      run.metricNames = monitor.metricNames := by
  unfold spawnRunForMonitor at h
  split at h
  · cases h
  · cases h
    exact ⟨rfl, rfl, rfl⟩

end Prepare
end PandaProbe
