import PandaProbe.Restart
import PandaProbe.SessionEval

/-! # Executing an eval run of traces

`_run_eval_run` as a program of single statements (`Restart.Prog`), over the same tables as
the session runs: it deletes the scores of the run's earlier attempts, resets the counters and
marks the run running, and then goes through the traces, one transaction for each.  A metric
that fails is stored as a FAILED score and counted; only a trace that does not exist is
skipped.

All a run writes after its start is adding scores and adding to its two counters
(`EvalDb.advance`).
-/
namespace PandaProbe
open Restart

namespace EvalDb
variable {F : Type} (runId projectId : UUID) (db : EvalDb F)

/-- `UPDATE eval_runs SET … WHERE id = run_id`. -/
def updateRun (f : EvalRun F → EvalRun F) : EvalDb F :=
  { db with runs := Function.update db.runs runId ((db.runs runId).map f) }

/-- Persist a single trace score. -/
def addScore (s : TraceScore) : EvalDb F := { db with scores := db.scores ++ [s] }

/-- Persist a single session score. -/
def addSessionScore (s : SessionScore) : EvalDb F :=
  { db with sessionScores := db.sessionScores ++ [s] }

/-- A score of the run. -/
def ofRun (s : TraceScore) : Bool := s.evalRunId == some runId && s.projectId == projectId

/-- A session score of the run. -/
def sessionOfRun (s : SessionScore) : Bool :=
  s.evalRunId == some runId && s.projectId == projectId

/-- Delete all trace scores belonging to a specific eval run. -/
def deleteScoresForRun : EvalDb F :=
  { db with scores := db.scores.filter (fun s => !ofRun runId projectId s) }

/-- Delete all session scores belonging to a specific eval run. -/
def deleteSessionScoresForRun : EvalDb F :=
  { db with sessionScores := db.sessionScores.filter (fun s => !sessionOfRun runId projectId s) }

/-- Reset progress counters to zero (used before a retry). -/
def resetRunCounters : EvalDb F :=
  db.updateRun runId (fun r => { r with evaluatedCount := 0, failedCount := 0 })

/-- Update the status of an eval run.  A run that is running or completed has no error. -/
def updateRunStatus (status : EvaluationStatus) (error : Option String) (now : DateTime) :
    EvalDb F :=
  db.updateRun runId (fun r =>
    match status with
    | .failed => { r with status := .failed, errorMessage := error, completedAt := some now }
    | .completed => { r with status := .completed, errorMessage := none, completedAt := some now }
    | .running => { r with status := .running, errorMessage := none, completedAt := none }
    | .pending => { r with status := .pending })

/-- Increment the evaluated count on a run. -/
def incrementProgress : EvalDb F :=
  db.updateRun runId (fun r => { r with evaluatedCount := r.evaluatedCount + 1 })

/-- Increment the failed metric count on a run. -/
def incrementFailed : EvalDb F :=
  db.updateRun runId (fun r => { r with failedCount := r.failedCount + 1 })

/-- Fetch an eval run by ID. -/
def getEvalRun : Option (EvalRun F) := (db.runs runId).filter (fun r => r.projectId = projectId)

/-- Fetch a trace of a project. -/
def getTrace (traceId : UUID) : Option Trace :=
  db.traces.find? (fun t => t.traceId = traceId ∧ t.projectId = projectId)

/-- New scores, and additions to the two counters. -/
def advance (scores : List TraceScore) (sessionScores : List SessionScore) (done failed : Int) :
    EvalDb F :=
  { db with
    scores := db.scores ++ scores
    sessionScores := db.sessionScores ++ sessionScores
    runs := Function.update db.runs runId ((db.runs runId).map fun r =>
      { r with
        evaluatedCount := r.evaluatedCount + done
        failedCount := r.failedCount + failed }) }

theorem advance_advance (s₁ s₂ : List TraceScore) (t₁ t₂ : List SessionScore) (d₁ d₂ f₁ f₂ : Int) :
    (db.advance runId s₁ t₁ d₁ f₁).advance runId s₂ t₂ d₂ f₂ =
      db.advance runId (s₁ ++ s₂) (t₁ ++ t₂) (d₁ + d₂) (f₁ + f₂) := by
  simp [advance, Option.map_map, Function.comp_def, add_assoc]

theorem advance_zero : db.advance runId [] [] 0 0 = db := by
  simp [advance]

theorem addScore_eq (s : TraceScore) : db.addScore s = db.advance runId [s] [] 0 0 := by
  simp [advance, addScore]

theorem addSessionScore_eq (s : SessionScore) :
    db.addSessionScore s = db.advance runId [] [s] 0 0 := by
  simp [advance, addSessionScore]

theorem incrementProgress_eq : db.incrementProgress runId = db.advance runId [] [] 1 0 := by
  simp [advance, incrementProgress, updateRun]

theorem incrementFailed_eq : db.incrementFailed runId = db.advance runId [] [] 0 1 := by
  simp [advance, incrementFailed, updateRun]

/-- The start of an attempt at a run of traces. -/
def beginTraceRun (db : EvalDb F) : EvalDb F :=
  ((db.deleteScoresForRun runId projectId).resetRunCounters runId).updateRunStatus runId
    .running none 0

/-- The start of an attempt at a run of sessions. -/
def beginSessionRun (db : EvalDb F) : EvalDb F :=
  (((db.deleteSessionScoresForRun runId projectId).deleteScoresForRun runId
    projectId).resetRunCounters runId).updateRunStatus runId .running none 0

end EvalDb

/-- The registered trace metrics: `get_metric(name)`, and what evaluating it on a trace with
the run's model gives. -/
abbrev TraceMetrics (F : Type) :=
  String → Option (Trace → Option String → Except String (MetricResult F))

/-- A task execution: the run, its project, its target traces and the metrics of a retry. -/
structure TraceTask where
  runId : UUID
  projectId : UUID
  traceIds : List UUID
  traceMetricMap : Option (List (UUID × List String))

/-- `trace_metric_map.get(tid, run.metric_names)`, if there is a map. -/
def TraceTask.metricsFor (task : TraceTask) (names : List String) (traceId : UUID) :
    List String :=
  ((task.traceMetricMap.getD []).lookup traceId).getD names

namespace TraceEval
variable {F : Type} (env : EvalEnv F) (metrics : TraceMetrics F) (task : TraceTask)

/-- The score stored for a metric of a trace. -/
def metricScore (tr : Trace) (name : String) (now : DateTime) (id : UUID) (value : Option String)
    (status : ScoreStatus) (reason : Option String) (metadata : JsonDict) : TraceScore where
  id := id
  traceId := tr.traceId
  projectId := task.projectId
  name := name
  dataType := .numeric
  value := value
  source := .automated
  status := status
  evalRunId := some task.runId
  authorUserId := none
  reason := reason
  environment := tr.environment
  configId := none
  metadata := metadata
  createdAt := now
  updatedAt := now

/-- The score stored for a metric that failed. -/
def failedScore (tr : Trace) (name : String) (now : DateTime) (id : UUID) (exc : String) :
    TraceScore :=
  metricScore task tr name now id none .failed (some ("Metric execution failed: " ++ exc))
    (fun _ => none)

/-- One metric on a trace: the score, and the readings of the clock afterwards. -/
def outcome (evaluate : Trace → Option String → Except String (MetricResult F))
    (model : Option String) (tr : Trace) (name : String) (tick : Nat) : TraceScore × Nat :=
  let now := env.clock tick
  match evaluate tr model with
  | .ok result =>
    let value := env.render result.score
    if validateScoreValue env value .numeric then
      (metricScore task tr name now (env.freshId tick) (some value) .success result.reason
        result.metadata, tick + 1)
    else (failedScore task tr name now (env.freshId (tick + 1)) (env.invalidText value), tick + 2)
  | .error exc => (failedScore task tr name now (env.freshId tick) exc, tick + 1)

/-- The loop over the metrics of a trace.  An unknown metric raises. -/
def metricsProg (model : Option String) (tr : Trace) :
    List String → Nat → (Nat → Prog (EvalDb F)) → Prog (EvalDb F)
  | [], tick, next => next tick
  | name :: rest, tick, next =>
    match metrics name with
    | none => .raise
    | some evaluate =>
      let r := outcome env task evaluate model tr name tick
      -- `increment_failed` stands in the handler that stores the FAILED score
      if r.1.status = .failed then
        .write (fun db => db.addScore r.1) (.write (fun db => db.incrementFailed task.runId)
          (metricsProg model tr rest r.2 next))
      else .write (fun db => db.addScore r.1) (metricsProg model tr rest r.2 next)

/-- The loop over the target traces, and the end of the run. -/
def targetsProg (run : EvalRun F) : List UUID → Nat → Prog (EvalDb F)
  | [], tick =>
    .write (fun db => db.updateRunStatus task.runId .completed none (env.clock tick))
      (.commit .done)
  | traceId :: rest, tick =>
    .read fun db =>
      match db.getTrace task.projectId traceId with
      -- a trace that is gone counts as evaluated
      | none =>
        .write (fun db => db.incrementProgress task.runId) (.commit (targetsProg run rest tick))
      | some tr =>
        metricsProg env metrics task run.model tr (task.metricsFor run.metricNames traceId) tick
          fun tick => .write (fun db => db.incrementProgress task.runId)
            (.commit (targetsProg run rest tick))

/-- `_run_eval_run`. -/
def runEvalRun : Prog (EvalDb F) :=
  .write (fun db => db.deleteScoresForRun task.runId task.projectId)
    (.write (fun db => db.resetRunCounters task.runId)
      (.write (fun db => db.updateRunStatus task.runId .running none 0)
        (.commit
          (.read fun db =>
            match db.getEvalRun task.runId task.projectId with
            | none => .raise
            | some run => targetsProg env metrics task run task.traceIds 0))))

/-! ## What an attempt leaves -/

/-- The scores of the metrics of a trace; `none` if one is unknown. -/
def metricScores (model : Option String) (tr : Trace) :
    List String → Nat → Option (List TraceScore × Nat)
  | [], tick => some ([], tick)
  | name :: rest, tick =>
    (metrics name).bind fun evaluate =>
      let r := outcome env task evaluate model tr name tick
      (metricScores model tr rest r.2).map fun t => (r.1 :: t.1, t.2)

/-- The scores of all the targets. -/
def targetScores (run : EvalRun F) (db : EvalDb F) : List UUID → Nat → Option (List TraceScore × Nat)
  | [], tick => some ([], tick)
  | traceId :: rest, tick =>
    match db.getTrace task.projectId traceId with
    | none => targetScores run db rest tick
    | some tr =>
      (metricScores env metrics task run.model tr (task.metricsFor run.metricNames traceId)
        tick).bind fun r => (targetScores run db rest r.2).map fun t => (r.1 ++ t.1, t.2)

end TraceEval

/-- How many of the scores FAILED. -/
def failedScores (l : List TraceScore) : Nat := l.countP (fun s => s.status = .failed)

theorem failedScores_append (l m : List TraceScore) :
    failedScores (l ++ m) = failedScores l + failedScores m := List.countP_append

namespace EvalDb
variable {F : Type} (runId projectId : UUID) (db : EvalDb F)

theorem updateRun_updateRun (f g : EvalRun F → EvalRun F) :
    (db.updateRun runId f).updateRun runId g = db.updateRun runId (fun r => g (f r)) := by
  simp [updateRun, Option.map_map, Function.comp_def]

theorem beginTraceRun_eq : db.beginTraceRun runId projectId =
    (db.deleteScoresForRun runId projectId).updateRun runId SessionEval.started := by
  rw [beginTraceRun, resetRunCounters, updateRunStatus, updateRun_updateRun]
  rfl

/-- An update of the run that its start forgets. -/
theorem beginTraceRun_updateRun {f : EvalRun F → EvalRun F}
    (hf : ∀ r, SessionEval.started (f r) = SessionEval.started r) :
    (db.updateRun runId f).beginTraceRun runId projectId = db.beginTraceRun runId projectId := by
  simp [beginTraceRun_eq, updateRun, deleteScoresForRun, Option.map_map, Function.comp_def, hf]

theorem beginTraceRun_updateRunStatus (status : EvaluationStatus) (error : Option String)
    (now : DateTime) : (db.updateRunStatus runId status error now).beginTraceRun runId projectId =
      db.beginTraceRun runId projectId := by
  apply beginTraceRun_updateRun
  intro r
  cases status <;> rfl

theorem beginTraceRun_resetRunCounters : (db.resetRunCounters runId).beginTraceRun runId projectId =
    db.beginTraceRun runId projectId :=
  beginTraceRun_updateRun runId projectId db fun _ => rfl

theorem beginTraceRun_deleteScoresForRun :
    (db.deleteScoresForRun runId projectId).beginTraceRun runId projectId =
      db.beginTraceRun runId projectId := by
  simp [beginTraceRun_eq, deleteScoresForRun, updateRun]

theorem beginTraceRun_advance {scores : List TraceScore} (h : ∀ s ∈ scores, ofRun runId projectId s)
    (done failed : Int) : (db.advance runId scores [] done failed).beginTraceRun runId projectId =
      db.beginTraceRun runId projectId := by
  have hnew : scores.filter (fun s => !ofRun runId projectId s) = [] := by
    simpa [List.filter_eq_nil_iff] using h
  have hrun : ∀ r : EvalRun F, SessionEval.started { r with
      evaluatedCount := r.evaluatedCount + done, failedCount := r.failedCount + failed } =
      SessionEval.started r := fun r => rfl
  simp [beginTraceRun_eq, advance, updateRun, deleteScoresForRun, Option.map_map,
    Function.comp_def, hnew, hrun]

end EvalDb

namespace TraceEval
variable {F : Type} (env : EvalEnv F) (metrics : TraceMetrics F) (task : TraceTask)

/-- **A metric's score, whether it failed or not, is one of the run, for the trace and the
metric.** -/
theorem outcome_spec (evaluate : Trace → Option String → Except String (MetricResult F))
    (model : Option String) (tr : Trace) (name : String) (tick : Nat) :
    let s := (outcome env task evaluate model tr name tick).1
    s.traceId = tr.traceId ∧ s.name = name ∧ EvalDb.ofRun task.runId task.projectId s = true := by
  have hscore : ∀ now id value status reason metadata,
      let s := metricScore task tr name now id value status reason metadata
      s.traceId = tr.traceId ∧ s.name = name ∧ EvalDb.ofRun task.runId task.projectId s = true := by
    intro now id value status reason metadata
    exact ⟨rfl, rfl, by simp [metricScore, EvalDb.ofRun]⟩
  rw [outcome]
  cases evaluate tr model with
  | error exc => exact hscore ..
  | ok result =>
    dsimp only
    split
    · exact hscore ..
    · exact hscore ..

/-! ## Stopped attempts -/

theorem keeps_metricsProg (model : Option String) (tr : Trace) {next : Nat → Prog (EvalDb F)}
    (hnext : ∀ tick, (next tick).Keeps (EvalDb.beginTraceRun task.runId task.projectId))
    (names : List String) (tick : Nat) :
    (metricsProg env metrics task model tr names tick next).Keeps
      (EvalDb.beginTraceRun task.runId task.projectId) := by
  induction names generalizing tick with
  | nil => exact hnext tick
  | cons name rest ih =>
    rw [metricsProg]
    cases hm : metrics name with
    | none => exact .raise
    | some evaluate =>
      -- the next attempt starts by deleting the scores of the run, this one among them
      have hscore : ∀ db : EvalDb F,
          (db.addScore (outcome env task evaluate model tr name tick).1).beginTraceRun task.runId
            task.projectId = db.beginTraceRun task.runId task.projectId := by
        intro db
        rw [db.addScore_eq task.runId]
        apply EvalDb.beginTraceRun_advance
        simpa using (outcome_spec env task evaluate model tr name tick).2.2
      dsimp only
      split
      · refine .write hscore (.write (fun db => ?_) (ih _))
        exact EvalDb.beginTraceRun_updateRun _ _ db fun _ => rfl
      · exact .write hscore (ih _)

theorem keeps_targetsProg (run : EvalRun F) (ids : List UUID) (tick : Nat) :
    (targetsProg env metrics task run ids tick).Keeps
      (EvalDb.beginTraceRun task.runId task.projectId) := by
  have hdone : ∀ db : EvalDb F, (db.incrementProgress task.runId).beginTraceRun task.runId
      task.projectId = db.beginTraceRun task.runId task.projectId := fun db =>
    EvalDb.beginTraceRun_updateRun _ _ db fun _ => rfl
  induction ids generalizing tick with
  | nil => exact .write (fun db => db.beginTraceRun_updateRunStatus _ _ _ _ _) (.commit .done)
  | cons traceId rest ih =>
    refine .read fun db => ?_
    split
    · exact .write hdone (.commit (ih tick))
    · exact keeps_metricsProg env metrics task _ _ (fun tick => .write hdone (.commit (ih tick))) _ _

/-- **A stopped attempt at a run of traces is undone by the next one's start.** -/
theorem keeps_runEvalRun : (runEvalRun env metrics task).Keeps
    (EvalDb.beginTraceRun task.runId task.projectId) := by
  refine .write (fun db => db.beginTraceRun_deleteScoresForRun _ _)
    (.write (fun db => db.beginTraceRun_resetRunCounters _ _)
      (.write (fun db => db.beginTraceRun_updateRunStatus _ _ _ _ _) (.commit (.read fun db => ?_))))
  split
  · exact .raise
  · exact keeps_targetsProg env metrics task _ _ _

/-! ## An attempt that completes -/

theorem complete_metricsProg (model : Option String) (tr : Trace) (next : Nat → Prog (EvalDb F))
    (names : List String) (tick : Nat) (c w : EvalDb F) :
    (metricsProg env metrics task model tr names tick next).complete c w =
      (metricScores env metrics task model tr names tick).bind fun r =>
        (next r.2).complete c (w.advance task.runId r.1 [] 0 (failedScores r.1)) := by
  induction names generalizing tick w with
  | nil => simp [metricsProg, metricScores, failedScores, EvalDb.advance_zero]
  | cons name rest ih =>
    rw [metricsProg, metricScores]
    cases hm : metrics name with
    | none => rfl
    | some evaluate =>
      dsimp only
      split
      next hfail =>
        simp only [Prog.complete_write, ih, EvalDb.addScore_eq task.runId, EvalDb.incrementFailed_eq,
          EvalDb.advance_advance, Option.bind_some, Option.bind_map, Function.comp_def]
        simp [failedScores, hfail, add_comm]
      next hok =>
        simp only [Prog.complete_write, ih, EvalDb.addScore_eq task.runId,
          EvalDb.advance_advance, Option.bind_some, Option.bind_map, Function.comp_def]
        simp [failedScores, hok]

theorem targetScores_advance (run : EvalRun F) (db : EvalDb F) (s : List TraceScore)
    (t : List SessionScore) (d f : Int) (ids : List UUID) (tick : Nat) :
    targetScores env metrics task run (db.advance task.runId s t d f) ids tick =
      targetScores env metrics task run db ids tick := by
  induction ids generalizing tick with
  | nil => rfl
  | cons traceId rest ih =>
    simp only [targetScores, ih]
    rfl

theorem complete_targetsProg (run : EvalRun F) (ids : List UUID) (tick : Nat) (w : EvalDb F) :
    (targetsProg env metrics task run ids tick).complete w w =
      (targetScores env metrics task run w ids tick).map fun r =>
        (w.advance task.runId r.1 [] ids.length (failedScores r.1)).updateRunStatus task.runId
          .completed none (env.clock r.2) := by
  induction ids generalizing tick w with
  | nil => simp [targetsProg, targetScores, failedScores, EvalDb.advance_zero, Prog.complete]
  | cons traceId rest ih =>
    rw [targetsProg, Prog.complete_read, targetScores]
    cases htr : w.getTrace task.projectId traceId with
    | none =>
      simp only [Prog.complete_write, Prog.complete_commit, ih, EvalDb.incrementProgress_eq,
        targetScores_advance, EvalDb.advance_advance]
      simp [add_comm]
    | some tr =>
      simp only [complete_metricsProg, Prog.complete_write, Prog.complete_commit, ih,
        EvalDb.incrementProgress_eq, targetScores_advance, EvalDb.advance_advance,
        Option.map_bind, Option.map_map, Function.comp_def]
      simp [failedScores_append, add_comm]

/-- **What an attempt at a run of traces leaves.** -/
theorem complete_runEvalRun (db : EvalDb F) :
    (runEvalRun env metrics task).complete db db =
      ((db.beginTraceRun task.runId task.projectId).getEvalRun task.runId task.projectId).bind
        fun run =>
          (targetScores env metrics task run (db.beginTraceRun task.runId task.projectId)
            task.traceIds 0).map fun r =>
            ((db.beginTraceRun task.runId task.projectId).advance task.runId r.1 []
              task.traceIds.length (failedScores r.1)).updateRunStatus task.runId .completed none
                (env.clock r.2) := by
  show (match (db.beginTraceRun task.runId task.projectId).getEvalRun task.runId task.projectId with
    | none => Prog.raise
    | some run => targetsProg env metrics task run task.traceIds 0).complete
      (db.beginTraceRun task.runId task.projectId) (db.beginTraceRun task.runId task.projectId) = _
  cases (db.beginTraceRun task.runId task.projectId).getEvalRun task.runId task.projectId with
  | none => rfl
  | some run => exact complete_targetsProg env metrics task run task.traceIds 0 _

end TraceEval
/-! ## Completed runs -/

section Listed
variable {T : Type} [DecidableEq T]

/-- The existing targets, each with the metrics listed for it. -/
def listedPairs (targets : List T) (known : T → Bool) (names : T → List String) :
    List (T × String) :=
  (targets.filter known).flatMap fun t => (names t).map (Prod.mk t)

omit [DecidableEq T] in
theorem listedPairs_cons (t : T) (rest : List T) (known : T → Bool) (names : T → List String) :
    listedPairs (t :: rest) known names =
      (if known t then (names t).map (Prod.mk t) else []) ++ listedPairs rest known names := by
  cases h : known t <;> simp [listedPairs, h]

omit [DecidableEq T] in
theorem mem_listedPairs {targets : List T} {known : T → Bool} {names : T → List String} {t : T}
    {m : String} : (t, m) ∈ listedPairs targets known names ↔
      t ∈ targets ∧ known t ∧ m ∈ names t := by
  simp [listedPairs, and_assoc]

omit [DecidableEq T] in
theorem nodup_listedPairs {targets : List T} {known : T → Bool} {names : T → List String}
    (ht : targets.Nodup) (hn : ∀ t ∈ targets, (names t).Nodup) :
    (listedPairs targets known names).Nodup := by
  rw [listedPairs, List.nodup_flatMap]
  constructor
  · intro t h
    exact (hn t (List.mem_of_mem_filter h)).map (fun a b hab => (Prod.mk.inj hab).2)
  · refine (ht.filter known).imp fun hne => ?_
    simp only [List.disjoint_left, List.mem_map]
    rintro _ ⟨m, -, rfl⟩ ⟨m', -, heq⟩
    exact hne (Prod.mk.inj heq).1.symm

/-- **Every listed pair is there once.** -/
theorem count_listedPairs {targets : List T} {known : T → Bool} {names : T → List String}
    (ht : targets.Nodup) (hn : ∀ t ∈ targets, (names t).Nodup) (t : T) (m : String) :
    (listedPairs targets known names).count (t, m) =
      if t ∈ targets ∧ known t ∧ m ∈ names t then 1 else 0 := by
  rw [(nodup_listedPairs ht hn).count]
  simp only [mem_listedPairs]

end Listed

/-- A score by its target, its metric and its status. -/
abbrev ScoreEntry (T : Type) := T × String × ScoreStatus

/-- A completed run: its row, and its scores. -/
structure CompletedRun {F T : Type} [DecidableEq T] (run : EvalRun F) (targets : List T)
    (known : T → Bool) (names : T → List String) (scores : List (ScoreEntry T)) : Prop where
  status : run.status = .completed
  no_error : run.errorMessage = none
  evaluated : run.evaluatedCount = targets.length
  failed : run.failedCount = scores.countP (fun s => s.2.2 = .failed)
  once : ∀ t m, scores.countP (fun s => s.1 = t ∧ s.2.1 = m) =
    if t ∈ targets ∧ known t ∧ m ∈ names t then 1 else 0

/-- **Scores for the listed pairs, in any order of theirs, are there once for each.** -/
theorem once_of_listed {T : Type} [DecidableEq T] {targets : List T} {known : T → Bool}
    {names : T → List String} {scores : List (ScoreEntry T)}
    (h : scores.map (fun s => (s.1, s.2.1)) = listedPairs targets known names)
    (ht : targets.Nodup) (hn : ∀ t ∈ targets, (names t).Nodup) (t : T) (m : String) :
    scores.countP (fun s => s.1 = t ∧ s.2.1 = m) =
      if t ∈ targets ∧ known t ∧ m ∈ names t then 1 else 0 := by
  rw [← count_listedPairs ht hn t m, ← h, List.count, List.countP_map]
  congr 1
  funext s
  rw [Function.comp_apply, Bool.beq_eq_decide_eq]
  simp

/-- A trace score's entry. -/
def TraceScore.entry (s : TraceScore) : ScoreEntry UUID := (s.traceId, s.name, s.status)

/-- A session score's entry. -/
def SessionScore.entry (s : SessionScore) : ScoreEntry String := (s.sessionId, s.name, s.status)

namespace EvalDb
variable {F : Type} (runId projectId : UUID) (db : EvalDb F)

/-- Fetch all scores belonging to a specific eval run. -/
def getScoresForRun : List TraceScore := db.scores.filter (ofRun runId projectId)

/-- Fetch all session scores belonging to a specific eval run. -/
def getSessionScoresForRun : List SessionScore := db.sessionScores.filter (sessionOfRun runId projectId)

theorem getEvalRun_beginTraceRun : (db.beginTraceRun runId projectId).getEvalRun runId projectId =
    (db.getEvalRun runId projectId).map SessionEval.started := by
  simp only [getEvalRun, beginTraceRun_eq, updateRun, deleteScoresForRun, Function.update_self]
  cases db.runs runId with
  | none => rfl
  | some run =>
    simp only [Option.map_some, Option.filter_some]
    by_cases h : run.projectId = projectId <;> simp [h, SessionEval.started]

/-- The row of a run once it has advanced and is completed. -/
def completedRow (run : EvalRun F) (done failed : Int) (now : DateTime) : EvalRun F :=
  { run with
    status := .completed
    errorMessage := none
    completedAt := some now
    evaluatedCount := run.evaluatedCount + done
    failedCount := run.failedCount + failed }

theorem getEvalRun_completed {run : EvalRun F} (h : db.getEvalRun runId projectId = some run)
    (s : List TraceScore) (t : List SessionScore) (done failed : Int) (now : DateTime) :
    ((db.advance runId s t done failed).updateRunStatus runId .completed none now).getEvalRun runId
      projectId = some (completedRow run done failed now) := by
  obtain ⟨hrow, hproject⟩ := Option.filter_eq_some_iff.mp h
  simp only [decide_eq_true_eq] at hproject
  simp [getEvalRun, updateRunStatus, updateRun, advance, hrow, completedRow, hproject]

end EvalDb

namespace TraceEval
variable {F : Type} (env : EvalEnv F) (metrics : TraceMetrics F) (task : TraceTask)

theorem metricScores_keys {model : Option String} {tr : Trace} {names : List String} {tick : Nat}
    {r : List TraceScore × Nat} (h : metricScores env metrics task model tr names tick = some r) :
    r.1.map (fun s => (s.traceId, s.name)) = names.map (Prod.mk tr.traceId) ∧
      ∀ s ∈ r.1, EvalDb.ofRun task.runId task.projectId s = true := by
  induction names generalizing tick r with
  | nil =>
    obtain rfl := Option.some.inj h
    simp
  | cons name rest ih =>
    obtain ⟨evaluate, -, h⟩ := Option.bind_eq_some_iff.mp h
    obtain ⟨t, ht, rfl⟩ := Option.map_eq_some_iff.mp h
    obtain ⟨hkeys, hrun⟩ := ih ht
    obtain ⟨htr, hname, hof⟩ := outcome_spec env task evaluate model tr name tick
    constructor
    · simp only [List.map_cons, hkeys, htr, hname]
    · exact List.forall_mem_cons.mpr ⟨hof, hrun⟩

theorem targetScores_keys {run : EvalRun F} {db : EvalDb F} {ids : List UUID} {tick : Nat}
    {r : List TraceScore × Nat} (h : targetScores env metrics task run db ids tick = some r) :
    r.1.map (fun s => (s.traceId, s.name)) =
        listedPairs ids (fun tid => (db.getTrace task.projectId tid).isSome)
          (task.metricsFor run.metricNames) ∧
      ∀ s ∈ r.1, EvalDb.ofRun task.runId task.projectId s = true := by
  induction ids generalizing tick r with
  | nil =>
    obtain rfl := Option.some.inj h
    simp [listedPairs]
  | cons traceId rest ih =>
    rw [targetScores] at h
    rw [listedPairs_cons]
    cases htr : db.getTrace task.projectId traceId with
    | none =>
      rw [htr] at h
      simpa using ih h
    | some tr =>
      -- the trace found is the target, so its scores are keyed by the target's id
      rw [htr] at h
      obtain ⟨r₁, h₁, h⟩ := Option.bind_eq_some_iff.mp h
      obtain ⟨r₂, h₂, rfl⟩ := Option.map_eq_some_iff.mp h
      obtain ⟨hkeys₁, hrun₁⟩ := metricScores_keys env metrics task h₁
      obtain ⟨hkeys₂, hrun₂⟩ := ih h₂
      have hid : tr.traceId = traceId := by
        have := List.find?_some htr
        simp only [decide_eq_true_eq] at this
        exact this.1
      constructor
      · rw [List.map_append, hkeys₁, hkeys₂, hid]
        simp
      · exact List.forall_mem_append.mpr ⟨hrun₁, hrun₂⟩

/-- **A completed attempt leaves a completed run.** -/
theorem completed_runEvalRun {db fin : EvalDb F}
    (h : (runEvalRun env metrics task).complete db db = some fin)
    (ht : task.traceIds.Nodup)
    (hn : ∀ run, db.getEvalRun task.runId task.projectId = some run →
      ∀ tid ∈ task.traceIds, (task.metricsFor run.metricNames tid).Nodup) :
    ∃ run, fin.getEvalRun task.runId task.projectId = some run ∧
      CompletedRun run task.traceIds (fun tid => (fin.getTrace task.projectId tid).isSome)
        (task.metricsFor run.metricNames)
        ((fin.getScoresForRun task.runId task.projectId).map TraceScore.entry) := by
  rw [complete_runEvalRun, EvalDb.getEvalRun_beginTraceRun] at h
  obtain ⟨_, hrun, h⟩ := Option.bind_eq_some_iff.mp h
  obtain ⟨run, hrow, rfl⟩ := Option.map_eq_some_iff.mp hrun
  obtain ⟨r, hr, rfl⟩ := Option.map_eq_some_iff.mp h
  obtain ⟨hkeys, hof⟩ := targetScores_keys env metrics task hr
  have hbegun : (db.beginTraceRun task.runId task.projectId).getEvalRun task.runId task.projectId =
      some (SessionEval.started run) := by
    rw [EvalDb.getEvalRun_beginTraceRun, hrow]
    rfl
  refine ⟨_, EvalDb.getEvalRun_completed _ _ _ hbegun .., ?_⟩
  -- the scores of the run are those of this attempt
  have hscores : EvalDb.getScoresForRun task.runId task.projectId
      (((db.beginTraceRun task.runId task.projectId).advance task.runId r.1 []
        task.traceIds.length (failedScores r.1)).updateRunStatus task.runId .completed none
          (env.clock r.2)) = r.1 := by
    show List.filter _ (db.scores.filter _ ++ r.1) = r.1
    rw [List.filter_append, List.filter_eq_self.mpr hof, List.filter_filter]
    simp
  rw [hscores]
  exact
    { status := rfl
      no_error := rfl
      evaluated := by simp [EvalDb.completedRow, SessionEval.started]
      failed := by
        rw [List.countP_map]
        exact Int.zero_add _
      once := once_of_listed (by rw [List.map_map]; exact hkeys) ht (hn run hrow) }

end TraceEval
end PandaProbe
