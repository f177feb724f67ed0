import PandaProbe.SessionEvalTask
import PandaProbe.SessionIsolation

/-! # Retried eval runs

The worker executes a run of traces or of sessions again and again until one attempt
completes.  An aborted attempt ends at any statement: a raised exception, the time limit, a
killed worker.  It leaves what it had committed, and the worker may then have marked the run
as failed (`_fail_eval_run`).

Whatever the aborted attempts did and whatever their metrics answered, the attempt that
completes leaves exactly what it would have left as the only one; and what it leaves is a
completed run.
-/
namespace PandaProbe
open Restart

/-- How an attempt was aborted: the number of statements it executed, and the message and
time the run was marked as failed with, if it was. -/
structure Abort where
  stop : Nat
  failure : Option (String × DateTime)

/-- `_fail_eval_run`. -/
def EvalDb.failEvalRun {F : Type} (runId : UUID) (failure : Option (String × DateTime))
    (db : EvalDb F) : EvalDb F :=
  match failure with
  | none => db
  | some f => db.updateRunStatus runId .failed (some f.1) f.2

/-- An aborted attempt at a run of traces. -/
structure TraceAbort (F : Type) extends Abort where
  env : EvalEnv F
  metrics : TraceMetrics F

/-- An aborted attempt at a run of sessions. -/
structure SessionAbort (F : Type) extends Abort where
  env : EvalEnv F
  answers : Answers F

namespace TraceEval
variable {F : Type} (env : EvalEnv F) (metrics : TraceMetrics F) (task : TraceTask)

/-- The aborted attempt. -/
def attempt (a : TraceAbort F) : Attempt (EvalDb F) :=
  ⟨runEvalRun a.env a.metrics task, a.stop, EvalDb.failEvalRun task.runId a.failure⟩

/-- The tables after aborted attempts, one after another. -/
def afterAborts (aborted : List (TraceAbort F)) (db : EvalDb F) : EvalDb F :=
  after db (aborted.map (attempt task))

theorem keeps_attempt (a : TraceAbort F) :
    (attempt task a).prog.Keeps (EvalDb.beginTraceRun task.runId task.projectId) ∧
      ∀ db, ((attempt task a).note db).beginTraceRun task.runId task.projectId =
        db.beginTraceRun task.runId task.projectId := by
  refine ⟨keeps_runEvalRun a.env a.metrics task, fun db => ?_⟩
  show (db.failEvalRun task.runId a.failure).beginTraceRun task.runId task.projectId = _
  rcases a.failure with _ | f
  · rfl
  · exact db.beginTraceRun_updateRunStatus _ _ _ _ _

theorem complete_afterAborts (aborted : List (TraceAbort F)) (db : EvalDb F) :
    (runEvalRun env metrics task).complete (afterAborts task aborted db)
      (afterAborts task aborted db) = (runEvalRun env metrics task).complete db db := by
  exact complete_after (List.forall_mem_map.mpr fun a _ => keeps_attempt task a) (fun _ => rfl) db

end TraceEval

namespace SessionEval
variable {F : Type} (env : EvalEnv F) (answers : Answers F) (task : SessionTask)

/-- The aborted attempt. -/
def attempt (a : SessionAbort F) : Attempt (EvalDb F) :=
  ⟨sessionEvalProg a.env a.answers task, a.stop, EvalDb.failEvalRun task.runId a.failure⟩

/-- The tables after aborted attempts, one after another. -/
def afterAborts (aborted : List (SessionAbort F)) (db : EvalDb F) : EvalDb F :=
  after db (aborted.map (attempt task))

theorem keeps_attempt (a : SessionAbort F) :
    (attempt task a).prog.Keeps (EvalDb.beginSessionRun task.runId task.projectId) ∧
      ∀ db, ((attempt task a).note db).beginSessionRun task.runId task.projectId =
        db.beginSessionRun task.runId task.projectId := by
  refine ⟨keeps_sessionEvalProg a.env a.answers task, fun db => ?_⟩
  show (db.failEvalRun task.runId a.failure).beginSessionRun task.runId task.projectId = _
  rcases a.failure with _ | f
  · rfl
  · exact db.beginSessionRun_updateRunStatus _ _ _ _ _

theorem complete_afterAborts (aborted : List (SessionAbort F)) (db : EvalDb F) :
    (sessionEvalProg env answers task).complete (afterAborts task aborted db)
      (afterAborts task aborted db) = (sessionEvalProg env answers task).complete db db := by
  exact complete_after (List.forall_mem_map.mpr fun a _ => keeps_attempt task a) (fun _ => rfl) db

end SessionEval

/-- **Retried runs equal one clean run.**  An attempt that completes leaves, after any aborted
attempts, exactly what it leaves without them; and what it leaves is a completed run: of
traces with their trace scores, of sessions with their session scores. -/
theorem EvalDb.retried_eq_clean {F : Type} (db : EvalDb F) :
    (∀ (task : TraceTask) (env : EvalEnv F) (metrics : TraceMetrics F)
      (aborted : List (TraceAbort F)),
      let left := TraceEval.afterAborts task aborted db
      let prog := TraceEval.runEvalRun env metrics task
      prog.complete left left = prog.complete db db ∧
      ∀ fin, prog.complete left left = some fin → task.traceIds.Nodup →
        (∀ run, db.getEvalRun task.runId task.projectId = some run →
          ∀ tid ∈ task.traceIds, (task.metricsFor run.metricNames tid).Nodup) →
        ∃ run, fin.getEvalRun task.runId task.projectId = some run ∧
          CompletedRun run task.traceIds (fun tid => (fin.getTrace task.projectId tid).isSome)
            (task.metricsFor run.metricNames)
            ((fin.getScoresForRun task.runId task.projectId).map TraceScore.entry)) ∧
    (∀ (task : SessionTask) (env : EvalEnv F) (answers : Answers F)
      (aborted : List (SessionAbort F)),
      let left := SessionEval.afterAborts task aborted db
      let prog := SessionEval.sessionEvalProg env answers task
      prog.complete left left = prog.complete db db ∧
      ∀ fin, prog.complete left left = some fin →
        (∀ run, db.getEvalRun task.runId task.projectId = some run → run.metricNames.Nodup) →
        ∃ run, fin.getEvalRun task.runId task.projectId = some run ∧
          CompletedRun run task.sessionIds (SessionEval.hasTraces task fin.traces)
            (fun _ => run.metricNames)
            ((fin.getSessionScoresForRun task.runId task.projectId).map SessionScore.entry)) := by
  constructor
  · intro task env metrics aborted left prog
    have hsame := TraceEval.complete_afterAborts env metrics task aborted db
    refine ⟨hsame, fun fin hfin ht hn => ?_⟩
    exact TraceEval.completed_runEvalRun env metrics task (hsame.symm.trans hfin) ht hn
  · intro task env answers aborted left prog
    have hsame := SessionEval.complete_afterAborts env answers task aborted db
    refine ⟨hsame, fun fin hfin hn => ?_⟩
    exact SessionEval.completed_sessionEvalProg env answers task (hsame.symm.trans hfin) hn

/-- The sample run on its trace and on one that is gone. -/
def TraceEval.sampleTask : TraceTask := ⟨"run", "A", ["t", "gone"], none⟩

/-- The sample project with a run of `coherence` on its trace. -/
def TraceEval.sampleDb : EvalDb ℚ :=
  { SessionEval.sampleDb with
    runs := fun i => if i = "run" then
      some ⟨"A", ["coherence"], none, none, .pending, 0, 0, none, none⟩ else none }

/-- The run's metric, with a fixed outcome. -/
def TraceEval.sampleMetrics (answer : Except String (MetricResult ℚ)) : TraceMetrics ℚ :=
  fun name => if name = "coherence" then some fun _ _ => answer else none

/-- The first attempt stores a good score and is stopped at the second trace; in the second
attempt, the metric fails.  Of a session, the first attempt is stopped when its signals are
stored. -/
theorem EvalDb.retried_eq_clean_stopped :
    (∃ fin run, (TraceEval.runEvalRun SessionEval.sampleEnv
          (TraceEval.sampleMetrics (.error "down")) TraceEval.sampleTask).complete
        TraceEval.sampleDb TraceEval.sampleDb = some fin ∧
      fin.getEvalRun "run" "A" = some run ∧
      CompletedRun run ["t", "gone"] (fun tid => (fin.getTrace "A" tid).isSome)
        (TraceEval.sampleTask.metricsFor run.metricNames)
        ((fin.getScoresForRun "run" "A").map TraceScore.entry)) ∧
    (∃ fin run, (SessionEval.sessionEvalProg SessionEval.sampleEnv SessionEval.pleased
          SessionEval.sampleTask).complete SessionEval.sampleDb SessionEval.sampleDb = some fin ∧
      fin.getEvalRun "run" "A" = some run ∧
      CompletedRun run ["s"] (SessionEval.hasTraces SessionEval.sampleTask fin.traces)
        (fun _ => run.metricNames)
        ((fin.getSessionScoresForRun "run" "A").map SessionScore.entry)) := by
  obtain ⟨htraces, -⟩ := EvalDb.retried_eq_clean TraceEval.sampleDb
  obtain ⟨-, hsessions⟩ := EvalDb.retried_eq_clean SessionEval.sampleDb
  constructor
  · obtain ⟨hsame, hdone⟩ := htraces TraceEval.sampleTask SessionEval.sampleEnv
      (TraceEval.sampleMetrics (.error "down"))
      [⟨⟨9, some ("timeout", 3)⟩, SessionEval.sampleEnv,
        TraceEval.sampleMetrics (.ok ⟨1, none, fun _ => none⟩)⟩]
    obtain ⟨fin, hfin⟩ := Option.isSome_iff_exists.mp
      (show ((TraceEval.runEvalRun SessionEval.sampleEnv
          (TraceEval.sampleMetrics (.error "down")) TraceEval.sampleTask).complete
            TraceEval.sampleDb TraceEval.sampleDb).isSome by decide +kernel)
    obtain ⟨run, hrun⟩ := hdone fin (hsame.trans hfin) (by decide) fun run hrun tid _ => by
      obtain rfl := Option.some.inj hrun
      exact List.nodup_singleton _
    exact ⟨fin, run, hfin, hrun⟩
  · obtain ⟨hsame, hdone⟩ := hsessions SessionEval.sampleTask SessionEval.sampleEnv
      SessionEval.pleased [⟨⟨16, none⟩, SessionEval.sampleEnv, SessionEval.silent⟩]
    obtain ⟨fin, hfin⟩ := Option.isSome_iff_exists.mp
      (show ((SessionEval.sessionEvalProg SessionEval.sampleEnv SessionEval.pleased
          SessionEval.sampleTask).complete SessionEval.sampleDb SessionEval.sampleDb).isSome by
        decide +kernel)
    obtain ⟨run, hrun⟩ := hdone fin (hsame.trans hfin) fun run hrun => by
      obtain rfl := Option.some.inj hrun
      exact List.nodup_singleton _
    exact ⟨fin, run, hfin, hrun⟩

end PandaProbe
