import PandaProbe.RunMetrics

/-! # The FAILED scores that retries start from

A retry reads the FAILED scores of its run and takes targets and metrics from them.  A FAILED
score comes from a task: it has no value, and a trace score has the name of a registered metric.
No call changes that, as an edit marks what it touches as SUCCESS.  So in every state of the
system the read goes through (`getFailedScoresForRun_eq`), and a retry of a run that exists
depends on nothing but the FAILED rows (`prepareRetryFailedRun_eq`).
-/
namespace PandaProbe
open Restart

namespace TraceEval
variable {F : Type} {env : EvalEnv F} {task : TraceTask}

theorem value_of_failed {evaluate : Trace → Option String → Except String (MetricResult F)}
    {model : Option String} {tr : Trace} {name : String} {tick : Nat}
    (h : (outcome env task evaluate model tr name tick).1.status = .failed) :
    (outcome env task evaluate model tr name tick).1.value = none := by
  unfold outcome at h ⊢
  cases hres : evaluate tr model with
  | error exc => rfl
  | ok result =>
    simp only [hres] at h ⊢
    split at h
    · cases h
    next hinvalid =>
      rw [if_neg hinvalid]
      rfl

end TraceEval

namespace SessionEval
variable {F : Type} {env : EvalEnv F} {task : SessionTask}

theorem value_of_failed {run : EvalRun F} {sid : String} {traces : List Trace}
    {signals : SessionSignals F} {tick : Nat} {name : String}
    (h : (metricScore env task run sid traces signals tick name).1.status = .failed) :
    (metricScore env task run sid traces signals tick name).1.value = none := by
  unfold metricScore at h ⊢
  cases hres : env.sessionMetric name sid traces run.signalWeights signals with
  | error exc => rfl
  | ok result =>
    simp only [hres] at h ⊢
    split at h
    · cases h
    next hinvalid =>
      rw [if_neg hinvalid]
      rfl

theorem signal_value_of_failed {answers : Answers F} {model : Option String} {tr : Trace}
    {prior : List Trace} {sig : Signal} {tick : Nat} {row : TraceScore}
    (hrow : row ∈ (resolveSignal env answers task model tr prior sig none [] tick).1)
    (h : row.status = .failed) : row.value = none := by
  simp only [resolveSignal] at hrow
  split at hrow
  · split at hrow
    · rw [List.mem_singleton.mp hrow] at h
      cases h
    · rw [List.mem_singleton.mp hrow]
      rfl
  · rw [List.mem_singleton.mp hrow]
    rfl

end SessionEval

/-- A FAILED score has no value and a registered name, and a FAILED session score has no value. -/
structure FailedOk {F : Type} (db : EvalDb F) : Prop where
  scores : ∀ row ∈ db.scores, row.status = .failed → row.value = none ∧ row.name ∈ registeredMetrics
  sessionScores : ∀ row ∈ db.sessionScores, row.status = .failed → row.value = none

namespace RunDesk
variable {F : Type} {env : DeskEnv F} {s s' : RunDesk F} {a : RunAct F} {db db' : EvalDb F}

/-! ## What keeps them in order -/

theorem failedOk_follows (h : FailedOk db) (hdb : Follows db db') : FailedOk db' := by
  refine ⟨fun row' hrow' hfail => ?_, fun row' hrow' hfail => ?_⟩
  · obtain ⟨row, hrow, hfail', hname, hvalue⟩ := hdb.scores row' hrow' hfail
    rw [hname, hvalue]
    exact h.scores row hrow hfail'
  · obtain ⟨row, hrow, hfail', -, hvalue⟩ := hdb.sessionScores row' hrow' hfail
    rw [hvalue]
    exact h.sessionScores row hrow hfail'

theorem failedOk_addTraceScores {rows : List TraceScore} (h : FailedOk db)
    (hrows : ∀ row ∈ rows, row.status = .failed → row.value = none ∧ row.name ∈ registeredMetrics) :
    FailedOk { db with scores := db.scores ++ rows } := by
  refine ⟨fun row hrow => ?_, h.sessionScores⟩
  rcases List.mem_append.mp hrow with hrow | hrow
  · exact h.scores row hrow
  · exact hrows row hrow

/-- A run of traces looks its metrics up in the registry. -/
theorem failedOk_traceTask (eval : EvalEnv F) (metrics : TraceMetrics F) (task : TraceTask) :
    task.Kept eval (getMetric metrics) FailedOk where
  score db name evaluate model tr tick hm h := by
    refine failedOk_addTraceScores h fun row hrow hfail => ?_
    rw [List.mem_singleton.mp hrow] at hfail ⊢
    refine ⟨TraceEval.value_of_failed hfail, ?_⟩
    rw [(TraceEval.outcome_spec ..).2.1]
    unfold getMetric at hm
    split at hm
    next hregistered => exact hregistered
    · cases hm
  run _ _ hf h := failedOk_follows h (follows_updateRun hf)
  delete _ h := failedOk_follows h
    (follows_of_subset rfl List.filter_sublist.subset (List.Subset.refl _))

theorem failedOk_sessionTask (eval : EvalEnv F) (answers : Answers F) (task : SessionTask) :
    task.Kept eval answers FailedOk where
  signal db model tr prior sig tick h := by
    refine failedOk_addTraceScores h fun row hrow hfail => ?_
    refine ⟨SessionEval.signal_value_of_failed hrow hfail, ?_⟩
    rw [(SessionEval.resolveSignal_spec eval answers task model tr prior sig tick row hrow).1]
    exact mem_registeredMetrics sig
  metric db run sid traces signals name tick _ _ h := by
    refine ⟨h.scores, fun row hrow hfail => ?_⟩
    rcases List.mem_append.mp hrow with hrow | hrow
    · exact h.sessionScores row hrow hfail
    · rw [List.mem_singleton.mp hrow] at hfail ⊢
      exact SessionEval.value_of_failed hfail
  run _ _ hf h := failedOk_follows h (follows_updateRun hf)
  delete _ h := failedOk_follows h
    (follows_of_subset rfl List.filter_sublist.subset (List.Subset.refl _))
  deleteSession _ h := failedOk_follows h
    (follows_of_subset rfl (List.Subset.refl _) List.filter_sublist.subset)

/-! ## Runs -/

theorem scores_of_prepare {p : Nat} {id : UUID} {result : Except EvalError (NewRun F)}
    (hs : s.prepare p id result = some s') : s'.scores = s.scores := by
  unfold prepare at hs
  split at hs
  · cases hs
    rfl
  · cases hs
    rfl
  · cases hs

theorem failedOk_start {t : ScoreRun F} {w : Nat} {prog : Prog (EvalDb F)}
    (h : ScoreRun.Holds FailedOk t) (hprog : prog.Preserves FailedOk) :
    ScoreRun.Holds FailedOk (t.setWorker w (some (Worker.start prog))) := by
  refine ScoreRun.holds_setWorker h h.db fun y hy => ?_
  cases hy
  exact ⟨hprog, fun f hf => by cases hf⟩

/-- A step of a task, or a call about scores or runs. -/
theorem failedOk_scores {eval : EvalEnv F} {t t' : ScoreRun F} {b : ScoreAct F}
    (h : ScoreRun.Holds FailedOk t) (hcall : isCall b = true) (hs : t.step eval b = some t') :
    ScoreRun.Holds FailedOk t' := by
  obtain ⟨hworker, hdb⟩ | ⟨w, x, hx, rfl⟩ | ⟨w, rfl⟩ := scores_step hcall hs
  · refine ⟨failedOk_follows h.db hdb, ?_⟩
    rw [hworker]
    exact h.workers
  · obtain ⟨hdb, hgoes⟩ := Worker.step_preserves (h.workers w x hx) h.db
    exact ScoreRun.holds_setWorker h hdb hgoes
  · exact ScoreRun.holds_setWorker h h.db fun y hy => by cases hy

/-- **One step keeps the FAILED scores in order**, in turn or not. -/
theorem failedOk_step (h : ScoreRun.Holds FailedOk s.scores) (hs : s.step env a = some s') :
    ScoreRun.Holds FailedOk s'.scores := by
  have hfollows : ∀ db', Follows s.scores.db db' →
      ScoreRun.Holds FailedOk (s.write db').scores :=
    fun db' hdb => ⟨failedOk_follows h.db hdb, h.workers⟩
  cases a with
  | prepareEvalRun => exact scores_of_prepare hs ▸ h
  | prepareBatchEvalRun => exact scores_of_prepare hs ▸ h
  | prepareSessionEvalRun => exact scores_of_prepare hs ▸ h
  | prepareBatchSessionEvalRun => exact scores_of_prepare hs ▸ h
  | prepareRetryFailedRun => exact scores_of_prepare hs ▸ h
  | prepareRetryFailedSessionRun => exact scores_of_prepare hs ▸ h
  | spawnRunForMonitor p id monitorId projectId found pick =>
    simp only [step] at hs
    split at hs
    · cases hs
      exact h
    · exact scores_of_prepare hs ▸ h
  | dispatchRun p =>
    simp only [step, dispatchRun] at hs
    split at hs
    · cases hs
    · cases hs
      exact ⟨⟨h.db.scores, h.db.sessionScores⟩, h.workers⟩
  | abandon p =>
    cases hs
    exact h
  | runEvalRun w metrics task =>
    simp only [step, scoreStep, ScoreRun.step] at hs
    split at hs
    · split at hs
      · cases hs
      · cases hs
        exact failedOk_start h (TraceEval.preserves_runEvalRun (failedOk_traceTask ..))
    · cases hs
  | runSessionEval w answers task =>
    simp only [step, scoreStep, ScoreRun.step] at hs
    split at hs
    · split at hs
      · cases hs
      · cases hs
        exact failedOk_start h (SessionEval.preserves_sessionEvalProg (failedOk_sessionTask ..))
    · cases hs
  | failEvalRun runId error now =>
    cases hs
    obtain ⟨f, hf, heq⟩ := s.scores.db.updateRunStatus_eq runId .failed (some error) now
    rw [heq]
    exact hfollows _ (follows_updateRun hf)
  | deleteSessionScore scoreId projectId =>
    cases hs
    exact hfollows _ (follows_of_subset rfl (List.Subset.refl _) List.filter_sublist.subset)
  | ingest traces nodup =>
    cases hs
    exact hfollows _ (follows_of_subset rfl (List.Subset.refl _) (List.Subset.refl _))
  | score b =>
    simp only [step] at hs
    split at hs
    next hcall =>
      obtain ⟨t, ht, rfl⟩ := Option.map_eq_some_iff.mp hs
      exact failedOk_scores h hcall ht
    · cases hs
  | monitor b =>
    obtain ⟨t, -, rfl⟩ := Option.map_eq_some_iff.mp hs
    exact h

/-- **In every state of the system the FAILED scores are in order.** -/
theorem failedOk_reach {ok : RunDesk F → RunAct F → Prop} {traces : List Trace}
    {nodup : (traces.map Trace.traceId).Nodup}
    (h : GuardedRun.Reach (step env) ok (initial traces nodup) s) : FailedOk s.scores.db := by
  have hstart : ScoreRun.Holds FailedOk (initial traces nodup : RunDesk F).scores :=
    ⟨⟨fun _ hrow => absurd hrow List.not_mem_nil, fun _ hrow => absurd hrow List.not_mem_nil⟩,
      fun _ _ hx => by cases hx⟩
  have hholds : ScoreRun.Holds FailedOk s.scores :=
    h.invariant (I := fun s => ScoreRun.Holds FailedOk s.scores) hstart
      fun _ _ _ h _ hs => failedOk_step h hs
  exact hholds.db

/-! ## Preparing a retry -/

variable {eval : EvalEnv F} {runs : RunEnv F} {id runId projectId : UUID}

theorem getFailedScoresForRun_eq (h : FailedOk db) :
    getFailedScoresForRun eval db runId projectId =
      some (db.scores.filter (failedOfRun runId projectId)) := by
  unfold getFailedScoresForRun
  refine if_pos (List.all_eq_true.mpr fun row hrow => ?_)
  obtain ⟨hmem, hfail⟩ := List.mem_filter.mp hrow
  rw [(h.scores row hmem (failedOfRun_status hfail)).1]
  rfl

theorem failedSessionOfRun_status {row : SessionScore}
    (h : failedSessionOfRun runId projectId row = true) : row.status = .failed := by
  simpa using (Bool.and_eq_true_iff.mp h).2

theorem getFailedSessionScoresForRun_eq (h : FailedOk db) :
    getFailedSessionScoresForRun eval db runId projectId =
      some (db.sessionScores.filter (failedSessionOfRun runId projectId)) := by
  unfold getFailedSessionScoresForRun
  refine if_pos (List.all_eq_true.mpr fun row hrow => ?_)
  obtain ⟨hmem, hfail⟩ := List.mem_filter.mp hrow
  rw [h.sessionScores row hmem (failedSessionOfRun_status hfail)]
  rfl

/-- **The retry of a run of either kind as a run of traces.** -/
theorem prepareRetryFailedRun_eq (h : FailedOk db) {original : EvalRun F}
    (horiginal : db.getEvalRun runId projectId = some original) :
    prepareRetryFailedRun eval db id runId projectId =
      let failed := db.scores.filter (failedOfRun runId projectId)
      let map := failedMetricMap failed
      if failed = [] then .error (.validation "No failed scores to retry in this run.")
      else .ok (newRun id projectId .trace (sortedSet (map.flatMap (·.2))) none original.model
        (map.map (·.1)) (some map)) := by
  simp only [prepareRetryFailedRun, horiginal, getFailedScoresForRun_eq h]

/-- **The retry of a run as a run of sessions.** -/
theorem prepareRetryFailedSessionRun_eq (h : FailedOk db) {original : EvalRun F}
    (horiginal : db.getEvalRun runId projectId = some original) :
    prepareRetryFailedSessionRun runs eval db id runId projectId =
      let failed := db.sessionScores.filter (failedSessionOfRun runId projectId)
      let weights := original.signalWeights.getD []
      if failed = [] then .error (.validation "No failed scores to retry in this run.")
      else .ok (newRun id projectId .session (sortedSet (failed.map (·.name)))
        (if weights = [] then none else some weights) (some (runs.resolveModel original.model))
        (sortedSet (failed.map (·.sessionId))) none) := by
  simp only [prepareRetryFailedSessionRun, horiginal, getFailedSessionScoresForRun_eq h]

end RunDesk
end PandaProbe
