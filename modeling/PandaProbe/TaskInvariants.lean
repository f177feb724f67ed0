import PandaProbe.RetryEquivalence

/-! # What the run tasks write

A table invariant is kept by a run task if each kind of write of the task keeps it
(`TraceTask.Kept`, `SessionTask.Kept`): a score or a session score that is stored, a change of
the run's own row, and the deletion of the run's scores at the start.  The two theorems lead
such an invariant through the whole program of the task.
-/
namespace PandaProbe
open Restart

/-- Each kind of write of a run of traces keeps `I`. -/
structure TraceTask.Kept {F : Type} (env : EvalEnv F) (metrics : TraceMetrics F) (task : TraceTask)
    (I : EvalDb F → Prop) : Prop where
  score : ∀ db name evaluate model tr tick, metrics name = some evaluate → I db →
    I (db.addScore (TraceEval.outcome env task evaluate model tr name tick).1)
  run : ∀ db f, (∀ r, (f r).metricNames = r.metricNames) → I db → I (db.updateRun task.runId f)
  delete : ∀ db, I db → I (db.deleteScoresForRun task.runId task.projectId)

/-- Each kind of write of a run of sessions keeps `I`. -/
structure SessionTask.Kept {F : Type} (env : EvalEnv F) (answers : Answers F) (task : SessionTask)
    (I : EvalDb F → Prop) : Prop where
  signal : ∀ db model tr prior sig tick, I db → I { db with scores := db.scores ++
    (SessionEval.resolveSignal env answers task model tr prior sig none [] tick).1 }
  metric : ∀ db run sid traces signals name tick,
    (∃ seen, I seen ∧ seen.getEvalRun task.runId task.projectId = some run) →
    name ∈ run.metricNames → I db →
    I (db.addSessionScore (SessionEval.metricScore env task run sid traces signals tick name).1)
  run : ∀ db f, (∀ r, (f r).metricNames = r.metricNames) → I db → I (db.updateRun task.runId f)
  delete : ∀ db, I db → I (db.deleteScoresForRun task.runId task.projectId)
  deleteSession : ∀ db, I db → I (db.deleteSessionScoresForRun task.runId task.projectId)

/-- A change of status leaves the metrics. -/
theorem EvalDb.updateRunStatus_eq {F : Type} (db : EvalDb F) (runId : UUID)
    (status : EvaluationStatus) (error : Option String) (now : DateTime) :
    ∃ f : EvalRun F → EvalRun F, (∀ r, (f r).metricNames = r.metricNames) ∧
      db.updateRunStatus runId status error now = db.updateRun runId f := by
  refine ⟨_, fun r => ?_, rfl⟩
  cases status <;> rfl

namespace TraceEval
variable {F : Type} {env : EvalEnv F} {metrics : TraceMetrics F} {task : TraceTask}
  {I : EvalDb F → Prop}

theorem preserves_metricsProg (h : task.Kept env metrics I) (model : Option String) (tr : Trace)
    {next : Nat → Prog (EvalDb F)} (hnext : ∀ tick, (next tick).Preserves I) (names : List String)
    (tick : Nat) : (metricsProg env metrics task model tr names tick next).Preserves I := by
  induction names generalizing tick with
  | nil => exact hnext tick
  | cons name rest ih =>
    rw [metricsProg]
    cases hm : metrics name with
    | none => exact .raise
    | some evaluate =>
      dsimp only
      split
      · exact .write (fun db hdb => h.score db name evaluate model tr tick hm hdb)
          (.write (fun db hdb => h.run db _ (fun _ => rfl) hdb) (ih _))
      · exact .write (fun db hdb => h.score db name evaluate model tr tick hm hdb) (ih _)

theorem preserves_targetsProg (h : task.Kept env metrics I) (run : EvalRun F) (ids : List UUID)
    (tick : Nat) : (targetsProg env metrics task run ids tick).Preserves I := by
  have hdone : ∀ db, I db → I (db.incrementProgress task.runId) :=
    fun db hdb => h.run db _ (fun _ => rfl) hdb
  induction ids generalizing tick with
  | nil =>
    refine .write (fun db hdb => ?_) (.commit .done)
    obtain ⟨f, hf, heq⟩ := db.updateRunStatus_eq task.runId .completed none (env.clock tick)
    rw [heq]
    exact h.run db f hf hdb
  | cons traceId rest ih =>
    refine .read fun db _ => ?_
    split
    · exact .write hdone (.commit (ih tick))
    · exact preserves_metricsProg h _ _
        (fun tick => .write hdone (.commit (ih tick))) _ _

/-- **A run of traces keeps what each of its writes keeps.** -/
theorem preserves_runEvalRun (h : task.Kept env metrics I) :
    (runEvalRun env metrics task).Preserves I := by
  refine .write h.delete (.write (fun db hdb => h.run db _ (fun _ => rfl) hdb)
    (.write (fun db hdb => ?_) (.commit (.read fun db _ => ?_))))
  · obtain ⟨f, hf, heq⟩ := db.updateRunStatus_eq task.runId .running none 0
    rw [heq]
    exact h.run db f hf hdb
  · split
    · exact .raise
    · exact preserves_targetsProg h _ _ _

end TraceEval

namespace SessionEval
variable {F : Type} {env : EvalEnv F} {answers : Answers F} {task : SessionTask}
  {I : EvalDb F → Prop}

theorem preserves_signalsProg (h : task.Kept env answers I) (model : Option String) (tr : Trace)
    (prior : List Trace) {next : Nat → Signals F → Prog (EvalDb F)}
    (hnext : ∀ tick acc, (next tick acc).Preserves I) (l : List Signal) (tick : Nat)
    (acc : Signals F) :
    (signalsProg env answers task model tr prior l tick acc next).Preserves I := by
  induction l generalizing tick acc with
  | nil => exact hnext tick acc
  | cons sig rest ih =>
    refine .read fun db _ => ?_
    split
    · exact .raise
    · exact ih _ _
    · exact .write (fun db hdb => h.signal db model tr prior sig tick hdb) (ih _ _)

theorem preserves_tracesProg (h : task.Kept env answers I) (model : Option String)
    {next : Nat → SessionSignals F → Prog (EvalDb F)}
    (hnext : ∀ tick acc, (next tick acc).Preserves I) (prior l : List Trace) (tick : Nat)
    (acc : SessionSignals F) :
    (tracesProg env answers task model prior l tick acc next).Preserves I := by
  induction l generalizing prior tick acc with
  | nil => exact hnext tick acc
  | cons tr rest ih => exact preserves_signalsProg h model tr prior (fun _ _ => ih _ _ _) _ _ _

theorem preserves_sessionMetricsProg (h : task.Kept env answers I) {run : EvalRun F}
    (hrun : ∃ seen, I seen ∧ seen.getEvalRun task.runId task.projectId = some run) (sid : String)
    (traces : List Trace) (signals : SessionSignals F) {next : Nat → Prog (EvalDb F)}
    (hnext : ∀ tick, (next tick).Preserves I) {names : List String}
    (hnames : ∀ name ∈ names, name ∈ run.metricNames) (tick : Nat) :
    (sessionMetricsProg env task run sid traces signals names tick next).Preserves I := by
  induction names generalizing tick with
  | nil => exact hnext tick
  | cons name rest ih =>
    obtain ⟨hname, hrest⟩ := List.forall_mem_cons.mp hnames
    have hscore : ∀ db, I db →
        I (db.addSessionScore (metricScore env task run sid traces signals tick name).1) :=
      fun db hdb => h.metric db run sid traces signals name tick hrun hname hdb
    rw [sessionMetricsProg]
    split
    · exact .write hscore (.write (fun db hdb => h.run db _ (fun _ => rfl) hdb) (ih hrest _))
    · exact .write hscore (ih hrest _)

theorem preserves_sessionsProg (h : task.Kept env answers I) {run : EvalRun F}
    (hrun : ∃ seen, I seen ∧ seen.getEvalRun task.runId task.projectId = some run)
    (sids : List String) (tick : Nat) :
    (sessionsProg env answers task run sids tick).Preserves I := by
  have hdone : ∀ db, I db → I (db.incrementProgress task.runId) :=
    fun db hdb => h.run db _ (fun _ => rfl) hdb
  induction sids generalizing tick with
  | nil =>
    refine .write (fun db hdb => ?_) (.commit .done)
    obtain ⟨f, hf, heq⟩ := db.updateRunStatus_eq task.runId .completed none (env.clock tick)
    rw [heq]
    exact h.run db f hf hdb
  | cons sid rest ih =>
    refine .read fun db _ => ?_
    split
    · exact .write hdone (.commit (ih tick))
    · refine preserves_tracesProg h _ (fun tick signals => .commit ?_) _ _ _ _
      exact preserves_sessionMetricsProg h hrun _ _ _
        (fun tick => .write hdone (.commit (ih tick)))
        (fun _ hname => hname) _

/-- **A run of sessions keeps what each of its writes keeps.** -/
theorem preserves_sessionEvalProg (h : task.Kept env answers I) :
    (sessionEvalProg env answers task).Preserves I := by
  refine .write h.deleteSession (.write h.delete (.write (fun db hdb => h.run db _ (fun _ => rfl) hdb)
    (.write (fun db hdb => ?_) (.commit (.read fun db hdb => ?_)))))
  · obtain ⟨f, hf, heq⟩ := db.updateRunStatus_eq task.runId .running none 0
    rw [heq]
    exact h.run db f hf hdb
  · split
    · exact .raise
    next run hrun => exact preserves_sessionsProg h ⟨db, hdb, hrun⟩ _ _

end SessionEval
end PandaProbe
