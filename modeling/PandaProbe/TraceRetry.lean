import PandaProbe.FailedScores
import PandaProbe.Grouping
import PandaProbe.MonitorRetries
import PandaProbe.RunProgress

/-! # What a retry of traces evaluates and charges

The FAILED scores of a run are regrouped into a map from a trace to its metrics.  The map goes
three ways: its keys become the targets of the new run, its lists are counted for the charge, and
the worker looks the metrics of each target up in it.  The metrics of the run itself, which are
those of all traces together, are never used.

All three are the same list of pairs (`Grouping.pairs`), which is that of the FAILED scores with
repetitions dropped.  So a retry evaluates and charges just the pairs that FAILED, each once
(`trace_retry_exact`).
-/
namespace PandaProbe
open Restart

/-- The pairs of a trace and a metric that FAILED, each once. -/
def failedPairs (failed : List TraceScore) : List (UUID × String) :=
  (failed.map fun s => (s.traceId, s.name)).dedup

/-! ## The map -/

theorem addMetric_eq (traceId : UUID) (name : String) (map : List (UUID × List String)) :
    addMetric traceId name map = Grouping.put traceId name map := by
  induction map with
  | nil => rfl
  | cons e rest ih => rw [addMetric, Grouping.put, ih]

theorem failedMetricMap_eq (failed : List TraceScore) :
    failedMetricMap failed = Grouping.group (failed.map fun s => (s.traceId, s.name)) := by
  simp only [failedMetricMap, Grouping.group, List.foldl_map, addMetric_eq]

theorem pairs_failedMetricMap (failed : List TraceScore) :
    (Grouping.pairs (failedMetricMap failed)).Perm (failedPairs failed) := by
  rw [failedMetricMap_eq]
  exact Grouping.pairs_group_perm _

theorem proper_failedMetricMap (failed : List TraceScore) :
    Grouping.Proper (failedMetricMap failed) := by
  rw [failedMetricMap_eq]
  exact Grouping.proper_group _

theorem mem_failedPairs {failed : List TraceScore} {p : UUID × String} :
    p ∈ failedPairs failed ↔ ∃ s ∈ failed, (s.traceId, s.name) = p := by
  rw [failedPairs, List.mem_dedup, List.mem_map]

theorem mem_keys_failedMetricMap {failed : List TraceScore} {traceId : UUID} :
    traceId ∈ (failedMetricMap failed).map (·.1) ↔ ∃ s ∈ failed, s.traceId = traceId := by
  rw [failedMetricMap_eq, Grouping.mem_keys_group]
  simp

theorem failedMetricMap_ne_nil {failed : List TraceScore} (h : failed ≠ []) :
    failedMetricMap failed ≠ [] := by
  intro hnil
  obtain ⟨s, hs⟩ := List.exists_mem_of_ne_nil failed h
  have hmem := (pairs_failedMetricMap failed).mem_iff.mpr (mem_failedPairs.mpr ⟨s, hs, rfl⟩)
  rw [hnil] at hmem
  cases hmem

/-- **The charge** of a retry is the number of pairs. -/
theorem billable_retry {failed : List TraceScore} (h : failed ≠ []) {prepared : PreparedRun}
    (hmap : prepared.traceMetricMap = some (failedMetricMap failed)) :
    EvalRoute.billable .retryFailedEvalRun prepared = (failedPairs failed).length := by
  have hne := failedMetricMap_ne_nil h
  rw [← (pairs_failedMetricMap failed).length_eq, Grouping.length_pairs]
  rw [EvalRoute.billable, hmap]
  cases hm : failedMetricMap failed with
  | nil => exact absurd hm hne
  | cons e rest => rfl

/-! ## The task -/

namespace TraceEval
variable {F : Type} {env : EvalEnv F} {metrics : TraceMetrics F} {task : TraceTask}

/-- The score comes from one evaluation of its metric on its trace. -/
def Evaluated (env : EvalEnv F) (metrics : TraceMetrics F) (task : TraceTask)
    (model : Option String) (db : EvalDb F) (s : TraceScore) : Prop :=
  ∃ tr evaluate tick, db.getTrace task.projectId s.traceId = some tr ∧
    metrics s.name = some evaluate ∧
    s = (outcome env task evaluate model tr s.name tick).1

/-- **What an attempt has added**: scores for these pairs of a trace and a metric, one for each,
in the place of those the run had before, and each from one evaluation. -/
def Adds (env : EvalEnv F) (metrics : TraceMetrics F) (task : TraceTask) (model : Option String)
    (pairs : List (UUID × String)) (db fin : EvalDb F) : Prop :=
  ∃ new : List TraceScore,
    fin.scores =
      db.scores.filter (fun s => !EvalDb.ofRun task.runId task.projectId s) ++ new ∧
    (new.map fun s => (s.traceId, s.name)).Perm pairs ∧
    (∀ s ∈ new, EvalDb.ofRun task.runId task.projectId s = true) ∧
    ∀ s ∈ new, Evaluated env metrics task model db s

theorem metricScores_isSome {model : Option String} {tr : Trace} {names : List String} {tick : Nat}
    (h : ∀ name ∈ names, (metrics name).isSome) :
    (metricScores env metrics task model tr names tick).isSome := by
  induction names generalizing tick with
  | nil => rfl
  | cons name rest ih =>
    obtain ⟨hname, hrest⟩ := List.forall_mem_cons.mp h
    obtain ⟨evaluate, he⟩ := Option.isSome_iff_exists.mp hname
    rw [metricScores, he, Option.bind_some, Option.isSome_map]
    exact ih hrest

/-- With every listed metric registered, the attempt gets to its end. -/
theorem targetScores_isSome {run : EvalRun F} {db : EvalDb F} {ids : List UUID} {tick : Nat}
    (h : ∀ tid ∈ ids, ∀ name ∈ task.metricsFor run.metricNames tid, (metrics name).isSome) :
    (targetScores env metrics task run db ids tick).isSome := by
  induction ids generalizing tick with
  | nil => rfl
  | cons tid rest ih =>
    obtain ⟨htid, hrest⟩ := List.forall_mem_cons.mp h
    rw [targetScores]
    cases db.getTrace task.projectId tid with
    | none => exact ih hrest
    | some tr =>
      obtain ⟨r, hr⟩ := Option.isSome_iff_exists.mp
        (@metricScores_isSome F env metrics task run.model tr _ tick htid)
      dsimp only
      rw [hr, Option.bind_some, Option.isSome_map]
      exact ih hrest

theorem metricScores_evaluated {db : EvalDb F} {model : Option String} {tr : Trace}
    (htr : db.getTrace task.projectId tr.traceId = some tr) {names : List String} {tick : Nat}
    {r : List TraceScore × Nat} (h : metricScores env metrics task model tr names tick = some r) :
    ∀ s ∈ r.1, Evaluated env metrics task model db s := by
  induction names generalizing tick r with
  | nil =>
    obtain rfl := Option.some.inj h
    exact List.forall_mem_nil _
  | cons name rest ih =>
    obtain ⟨evaluate, he, h⟩ := Option.bind_eq_some_iff.mp h
    obtain ⟨t, ht, rfl⟩ := Option.map_eq_some_iff.mp h
    obtain ⟨hid, hname, -⟩ := outcome_spec env task evaluate model tr name tick
    refine List.forall_mem_cons.mpr ⟨⟨tr, evaluate, tick, ?_, ?_, ?_⟩, ih ht⟩
    · rw [hid]
      exact htr
    · rw [hname]
      exact he
    · rw [hname]

theorem targetScores_evaluated {run : EvalRun F} {db : EvalDb F} {ids : List UUID} {tick : Nat}
    {r : List TraceScore × Nat} (h : targetScores env metrics task run db ids tick = some r) :
    ∀ s ∈ r.1, Evaluated env metrics task run.model db s := by
  induction ids generalizing tick r with
  | nil =>
    obtain rfl := Option.some.inj h
    exact List.forall_mem_nil _
  | cons tid rest ih =>
    rw [targetScores] at h
    cases htr : db.getTrace task.projectId tid with
    | none =>
      rw [htr] at h
      exact ih h
    | some tr =>
      rw [htr] at h
      obtain ⟨r₁, h₁, h⟩ := Option.bind_eq_some_iff.mp h
      obtain ⟨r₂, h₂, rfl⟩ := Option.map_eq_some_iff.mp h
      have hid : tr.traceId = tid := by
        have hfound := List.find?_some htr
        simp only [decide_eq_true_eq] at hfound
        exact hfound.1
      exact List.forall_mem_append.mpr ⟨metricScores_evaluated (hid ▸ htr) h₁, ih h₂⟩

/-- **An attempt with registered metrics** completes, with one score for each listed pair whose
trace is there. -/
theorem adds_runEvalRun {db : EvalDb F} {row : EvalRun F}
    (hrow : db.getEvalRun task.runId task.projectId = some row)
    (h : ∀ tid ∈ task.traceIds, ∀ name ∈ task.metricsFor row.metricNames tid,
      (metrics name).isSome) :
    ∃ fin, (runEvalRun env metrics task).complete db db = some fin ∧
      Adds env metrics task row.model (listedPairs task.traceIds
        (fun tid => (db.getTrace task.projectId tid).isSome) (task.metricsFor row.metricNames))
        db fin := by
  have hbegun : (db.beginTraceRun task.runId task.projectId).getEvalRun task.runId
      task.projectId = some (SessionEval.started row) := by
    rw [EvalDb.getEvalRun_beginTraceRun, hrow, Option.map_some]
  obtain ⟨r, hr⟩ := Option.isSome_iff_exists.mp (@targetScores_isSome F env metrics task
    (SessionEval.started row) (db.beginTraceRun task.runId task.projectId) task.traceIds 0 h)
  obtain ⟨hkeys, hof⟩ := targetScores_keys env metrics task hr
  -- the start of the attempt leaves the traces
  have hevaluated : ∀ s ∈ r.1, Evaluated env metrics task (SessionEval.started row).model
      (db.beginTraceRun task.runId task.projectId) s := targetScores_evaluated hr
  rw [complete_runEvalRun, hbegun, Option.bind_some, hr, Option.map_some]
  exact ⟨_, rfl, r.1, rfl, List.Perm.of_eq hkeys, hof, hevaluated⟩

end TraceEval

/-! ## Retries -/

namespace RunDesk
variable {F : Type} {env : DeskEnv F}

/-- **The worker's list** of a map: its pairs, as long as the traces are there. -/
theorem listedPairs_lookup {map : List (UUID × List String)} (hproper : Grouping.Proper map)
    {known : UUID → Bool} {names : List String} (hknown : ∀ tid ∈ map.map (·.1), known tid = true) :
    listedPairs (map.map (·.1)) known (fun tid => (map.lookup tid).getD names) =
      Grouping.pairs map := by
  rw [listedPairs, List.filter_eq_self.mpr hknown, Grouping.pairs_of_lookup hproper names]

/-- The metrics looked up for a target FAILED for it. -/
theorem mem_failedPairs_of_lookup {failed : List TraceScore} {tid : UUID}
    (htid : tid ∈ (failedMetricMap failed).map (·.1)) {names : List String} {name : String}
    (h : name ∈ ((failedMetricMap failed).lookup tid).getD names) :
    (tid, name) ∈ failedPairs failed := by
  rw [← (pairs_failedMetricMap failed).mem_iff,
    ← Grouping.pairs_of_lookup (proper_failedMetricMap failed) names]
  exact List.mem_flatMap.mpr ⟨tid, htid, List.mem_map_of_mem h⟩

/-- **The work** of a retry: the pairs that FAILED, as long as their names are registered and their
traces are there. -/
theorem adds_retry {worker : EvalEnv F} {failed : List TraceScore}
    (hregistered : ∀ s ∈ failed, s.name ∈ registeredMetrics) {id projectId : UUID} {db : EvalDb F}
    {row : EvalRun F} (hrow : db.getEvalRun id projectId = some row)
    (htraces : ∀ pair ∈ failedPairs failed, (db.getTrace projectId pair.1).isSome)
    (evaluate : String → Trace → Option String → Except String (MetricResult F)) :
    let metrics := getMetric fun name => some (evaluate name)
    let task : TraceTask :=
      ⟨id, projectId, (failedMetricMap failed).map (·.1), some (failedMetricMap failed)⟩
    ∃ fin, (TraceEval.runEvalRun worker metrics task).complete db db = some fin ∧
      TraceEval.Adds worker metrics task row.model (failedPairs failed) db fin := by
  intro metrics task
  have hmetrics : ∀ tid ∈ task.traceIds, ∀ name ∈ task.metricsFor row.metricNames tid,
      (metrics name).isSome := by
    intro tid htid name hname
    obtain ⟨score, hscore, heq⟩ := mem_failedPairs.mp (mem_failedPairs_of_lookup htid hname)
    have hname := hregistered score hscore
    rw [(Prod.mk.inj heq).2] at hname
    simp only [metrics, getMetric, if_pos hname, Option.isSome_some]
  have hlisted : listedPairs task.traceIds (fun tid => (db.getTrace projectId tid).isSome)
      (task.metricsFor row.metricNames) = Grouping.pairs (failedMetricMap failed) := by
    refine listedPairs_lookup (proper_failedMetricMap failed) fun tid htid => ?_
    obtain ⟨score, hscore, rfl⟩ := mem_keys_failedMetricMap.mp htid
    exact htraces _ (mem_failedPairs.mpr ⟨score, hscore, rfl⟩)
  obtain ⟨fin, hfin, new, hscores, hkeys, hof, hnew⟩ :=
    @TraceEval.adds_runEvalRun F worker metrics task db row hrow hmetrics
  refine ⟨fin, hfin, new, hscores, ?_, hof, hnew⟩
  exact (hkeys.trans (List.Perm.of_eq hlisted)).trans (pairs_failedMetricMap failed)

/-- **Retries of traces are exact.**  In every state of the system, for every run and whatever
scores of it FAILED: without any there is nothing to retry.  Otherwise a run is prepared such that
  - the route, when it creates the run, charges as many units as there are distinct pairs of a
    trace and a metric that FAILED;
  - the task, on any tables with the row of the run and the traces of these pairs, whatever the
    metrics answer and whatever earlier attempts have left, completes and adds one score for each
    of the pairs, each from one evaluation, and no other. -/
theorem trace_retry_exact {traces : List Trace} {nodup : (traces.map Trace.traceId).Nodup}
    {s : RunDesk F} (hreach : GuardedRun.Reach (step env) GuardedRun.Always (initial traces nodup) s)
    {id runId projectId : UUID} {original : EvalRun F}
    (horiginal : s.scores.db.getEvalRun runId projectId = some original) :
    let failed := s.scores.db.scores.filter (failedOfRun runId projectId)
    let prepared := prepareRetryFailedRun env.eval s.scores.db id runId projectId
    if failed = [] then
      prepared = .error (.validation "No failed scores to retry in this run.")
    else
      ∃ run : NewRun F, prepared = .ok run ∧
        (∀ orgId calls r usage p,
          EvalRoute.retryFailedEvalRun.run orgId (some run.toPreparedRun) calls =
            (.created r usage, p) →
          p = ⟨[id], [id], UsageState.unitsAt orgId usage.visible .traceEvals
            (failedPairs failed).length⟩) ∧
        ∀ (worker : EvalEnv F) (evaluate : String → Trace → Option String →
            Except String (MetricResult F)) (db : EvalDb F) (row : EvalRun F)
          (aborted : List (TraceAbort F)),
          db.getEvalRun id projectId = some row →
          (∀ pair ∈ failedPairs failed, (db.getTrace projectId pair.1).isSome) →
          let metrics := getMetric fun name => some (evaluate name)
          let left := TraceEval.afterAborts run.traceTask aborted db
          ∃ fin, (TraceEval.runEvalRun worker metrics run.traceTask).complete left left = some fin ∧
            TraceEval.Adds worker metrics run.traceTask row.model (failedPairs failed) db fin := by
  have hfailedOk := failedOk_reach hreach
  intro failed prepared
  have hprepared := @prepareRetryFailedRun_eq F _ env.eval id runId projectId hfailedOk original
    horiginal
  split
  next hnone =>
    rw [if_pos hnone] at hprepared
    exact hprepared
  next hsome =>
    rw [if_neg hsome] at hprepared
    refine ⟨_, hprepared, fun orgId calls r usage p hroute => ?_,
      fun worker evaluate db row aborted hrow htraces => ?_⟩
    · obtain ⟨-, -, -, rfl⟩ := EvalRoute.run_created hroute
      rw [billable_retry hsome rfl]
      rfl
    · have hregistered : ∀ score ∈ failed, score.name ∈ registeredMetrics := by
        intro score hscore
        obtain ⟨hmem, hfail⟩ := List.mem_filter.mp hscore
        exact (hfailedOk.scores score hmem (failedOfRun_status hfail)).2
      obtain ⟨fin, hfin, hadds⟩ :=
        @adds_retry F worker failed hregistered id projectId db row hrow htraces evaluate
      exact ⟨fin, (TraceEval.complete_afterAborts worker _ _ aborted db).trans hfin, hadds⟩

/-- Of two metrics and two traces, one FAILED for the one and the other for the other. -/
def crossFailed : List (RunAct ℚ) :=
  [.prepareBatchEvalRun 0 "run" "A" ["t", "u"] ["coherence", "confidence"] none, .dispatchRun 0,
    .runEvalRun 0 (fun name => some fun tr _ =>
      if (tr.traceId, name) = ("t", "coherence") ∨ (tr.traceId, name) = ("u", "confidence") then
        .error "down" else .ok ⟨1, none, fun _ => none⟩) ⟨"run", "A", ["t", "u"], none⟩] ++
  List.replicate 17 (.score (.work 0))

/-- The row of the retry. -/
def retryRow : EvalRun ℚ :=
  ⟨"A", ["coherence", "confidence"], none, none, .pending, 0, 0, none, none⟩

/-- The tables with it. -/
def withRetry (s : RunDesk ℚ) : EvalDb ℚ :=
  { s.scores.db with runs := Function.update s.scores.db.runs "retry" (some retryRow) }

theorem getEvalRun_withRetry (s : RunDesk ℚ) :
    (withRetry s).getEvalRun "retry" "A" = some retryRow := by
  simp [withRetry, EvalDb.getEvalRun, retryRow]

/-- The quota check of the route lets the run pass, for an organization on Pro. -/
def retryAdmitted (run : NewRun ℚ) : Bool :=
  ((sampleCalls .done .done).checkAndIncrement "org" .traceEvals
    (EvalRoute.retryFailedEvalRun.billable run.toPreparedRun)).isOk

theorem created_of_retryAdmitted {run : NewRun ℚ} (h : retryAdmitted run = true) :
    ∃ p, EvalRoute.retryFailedEvalRun.run "org" (some run.toPreparedRun) (sampleCalls .done .done) =
      (.created run.toPreparedRun (proState 0), p) := by
  unfold retryAdmitted at h
  unfold EvalRoute.run EvalRoute.category
  dsimp only
  split
  next hrefused =>
    rw [hrefused] at h
    cases h
  · exact ⟨_, rfl⟩

/-- The retry charges two units and evaluates one metric of each of the two traces, although the
judge is still down. -/
theorem trace_retry_exact_crossed : ∃ s run fin,
    GuardedRun.run (step sampleEnv) sampleDesk crossFailed = some s ∧
    prepareRetryFailedRun sampleEnv.eval s.scores.db "retry" "run" "A" = .ok run ∧
    EvalRoute.retryFailedEvalRun.run "org" (some run.toPreparedRun) (sampleCalls .done .done) =
      (.created run.toPreparedRun (proState 0), ⟨["retry"], ["retry"],
        UsageState.unitsAt "org" (some (proSubscription 0)) .traceEvals 2⟩) ∧
    (TraceEval.runEvalRun sampleEnv.eval (getMetric judgeDown) run.traceTask).complete (withRetry s)
      (withRetry s) = some fin ∧
    TraceEval.Adds sampleEnv.eval (getMetric judgeDown) run.traceTask none
      [("t", "coherence"), ("u", "confidence")] (withRetry s) fin := by
  obtain ⟨s, hs⟩ := Option.isSome_iff_exists.mp (show (GuardedRun.run (step sampleEnv) sampleDesk
    crossFailed).isSome from by decide +kernel)
  have hview : (GuardedRun.run (step sampleEnv) sampleDesk crossFailed).map (fun s =>
      ((s.scores.db.getEvalRun "run" "A").isSome,
        failedPairs (s.scores.db.scores.filter (failedOfRun "run" "A")),
        ["t", "u"].all fun tid => ((withRetry s).getTrace "A" tid).isSome,
        (prepareRetryFailedRun sampleEnv.eval s.scores.db "retry" "run" "A").toOption.map
          retryAdmitted)) =
      some (true, [("t", "coherence"), ("u", "confidence")], true, some true) := by decide +kernel
  rw [hs] at hview
  obtain ⟨horiginal, hpairs, htraces, hadmitted⟩ := by
    simpa only [Prod.mk.injEq] using Option.some.inj hview
  obtain ⟨original, horiginal⟩ := Option.isSome_iff_exists.mp horiginal
  have hexact := @trace_retry_exact ℚ sampleEnv sampleTraces (by decide) s
    (GuardedRun.reach_of_run hs) "retry" "run" "A" original horiginal
  dsimp only at hexact
  split at hexact
  next hnone =>
    rw [hnone] at hpairs
    cases hpairs
  next hsome =>
    obtain ⟨run, hrun, hcharge, hwork⟩ := hexact
    rw [hpairs] at hwork hcharge
    rw [hrun] at hadmitted
    obtain ⟨p, hp⟩ := created_of_retryAdmitted (Option.some.inj hadmitted)
    obtain ⟨fin, hfin, hadds⟩ := hwork sampleEnv.eval (fun _ _ _ => .error "down") (withRetry s)
      retryRow [] (getEvalRun_withRetry s) (by simpa using htraces)
    exact ⟨s, run, fin, hs, hrun, hp.trans (by rw [hcharge _ _ _ _ _ hp]; rfl), hfin, hadds⟩

end RunDesk
end PandaProbe
