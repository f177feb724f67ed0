import PandaProbe.EvalRuns
import PandaProbe.GuardedRun
import PandaProbe.RetryEquivalence

/-! # The progress of an eval run

The dashboard shows `evaluated_count + failed_count` out of `total_targets`.  The first counter
advances once for every target, whether its metrics fail or not; the second once for every metric
that fails.  A target with a failed metric is therefore counted twice, or more often.

A run is executed by one attempt after another, each of which may stop anywhere; what the dashboard
sees is what the attempt has committed.  `progress_shown` is the main result: as long as no metric
fails the progress is bounded by the targets at every moment and equal to them on completion, and
an attempt that completes shows this only if no metric has failed.
-/
namespace PandaProbe
open Restart GuardedRun

/-- `formatProgress`: what is shown as done. -/
def EvalRun.progress {F : Type} (run : EvalRun F) : Int := run.evaluatedCount + run.failedCount

/-- The progress is within the targets, and all of them once the run is COMPLETED. -/
structure EvalRun.Bounded {F : Type} (total : Nat) (run : EvalRun F) : Prop where
  le : run.progress ≤ total
  eq : run.status = .completed → run.progress = total

/-- The row of the run, if there is one, shows bounded progress. -/
def EvalDb.ShowsBounded {F : Type} (runId : UUID) (total : Nat) (db : EvalDb F) : Prop :=
  ∀ run, db.runs runId = some run → run.Bounded total

/-- Some targets are done, without a failure, and the run goes on. -/
structure EvalRun.Counting {F : Type} (done : Nat) (run : EvalRun F) : Prop where
  evaluated : run.evaluatedCount = done
  failed : run.failedCount = 0
  running : run.status = .running

theorem EvalRun.Counting.bounded {F : Type} {run : EvalRun F} {done total : Nat}
    (h : run.Counting done) (hle : done ≤ total) : run.Bounded total where
  le := by
    rw [progress, h.evaluated, h.failed]
    omega
  eq hc := by
    rw [h.running] at hc
    cases hc

/-! ## Runs of traces -/

namespace TraceEval
variable {F : Type} (env : EvalEnv F) (metrics : TraceMetrics F) (task : TraceTask)

/-- A metric gives a score that can be stored. -/
def Succeeds (evaluate : Trace → Option String → Except String (MetricResult F))
    (model : Option String) (tr : Trace) : Prop :=
  ∃ result, evaluate tr model = .ok result ∧
    validateScoreValue env (env.render result.score) .numeric = true

theorem outcome_status (evaluate : Trace → Option String → Except String (MetricResult F))
    (model : Option String) (tr : Trace) (name : String) (tick : Nat) :
    (outcome env task evaluate model tr name tick).1.status ≠ .failed ↔
      Succeeds env evaluate model tr := by
  simp only [outcome, Succeeds]
  cases evaluate tr model with
  | error exc => simp [failedScore, metricScore]
  | ok result =>
    dsimp only
    split
    next hvalid => simp [metricScore, hvalid]
    next hinvalid => simp [failedScore, metricScore, hinvalid]

/-- Every known metric of the list gives a score on the trace. -/
def AllSucceed (model : Option String) (tr : Trace) (names : List String) : Prop :=
  ∀ name ∈ names, ∀ evaluate, metrics name = some evaluate → Succeeds env evaluate model tr

/-- No metric of the run fails on a target. -/
def NoMetricFails (run : EvalRun F) (db : EvalDb F) : Prop :=
  ∀ traceId ∈ task.traceIds, ∀ tr, db.getTrace task.projectId traceId = some tr →
    AllSucceed env metrics run.model tr (task.metricsFor run.metricNames traceId)

theorem failedScores_eq_zero {model : Option String} {tr : Trace} {names : List String} {tick : Nat}
    {r : List TraceScore × Nat} (h : metricScores env metrics task model tr names tick = some r) :
    failedScores r.1 = 0 ↔ AllSucceed env metrics model tr names := by
  induction names generalizing tick r with
  | nil =>
    cases h
    simp [failedScores, AllSucceed]
  | cons name rest ih =>
    obtain ⟨evaluate, heval, h⟩ := Option.bind_eq_some_iff.mp h
    obtain ⟨t, ht, rfl⟩ := Option.map_eq_some_iff.mp h
    have hrest := ih ht
    have hone := outcome_status env task evaluate model tr name tick
    simp only [failedScores, List.countP_cons, Nat.add_eq_zero_iff, AllSucceed,
      List.forall_mem_cons, decide_eq_true_eq] at hrest ⊢
    rw [hrest, and_comm]
    refine and_congr_left' ?_
    constructor
    · intro h evaluate' heval'
      rw [heval, Option.some.injEq] at heval'
      subst heval'
      exact hone.mp (by simpa using h)
    · intro h
      simpa using hone.mpr (h evaluate heval)

theorem failedScores_targets_eq_zero {run : EvalRun F} {db : EvalDb F} {ids : List UUID} {tick : Nat}
    {r : List TraceScore × Nat} (h : targetScores env metrics task run db ids tick = some r) :
    failedScores r.1 = 0 ↔ ∀ traceId ∈ ids, ∀ tr, db.getTrace task.projectId traceId = some tr →
      AllSucceed env metrics run.model tr (task.metricsFor run.metricNames traceId) := by
  induction ids generalizing tick r with
  | nil =>
    cases h
    simp [failedScores]
  | cons traceId rest ih =>
    rw [targetScores] at h
    rw [List.forall_mem_cons]
    cases htr : db.getTrace task.projectId traceId with
    | none =>
      rw [htr] at h
      rw [ih h]
      simp
    | some tr =>
      rw [htr] at h
      obtain ⟨r₁, h₁, h⟩ := Option.bind_eq_some_iff.mp h
      obtain ⟨r₂, h₂, rfl⟩ := Option.map_eq_some_iff.mp h
      rw [failedScores_append, Nat.add_eq_zero_iff, failedScores_eq_zero env metrics task h₁, ih h₂]
      simp

/-! ### The moments of an attempt -/

variable {P : EvalDb F → Prop}

theorem shows_metricsProg (model : Option String) (tr : Trace) (next : Nat → Prog (EvalDb F))
    (names : List String) (tick : Nat) (c w : EvalDb F) :
    (metricsProg env metrics task model tr names tick next).Shows P c w ↔
      P c ∧ ∀ r, metricScores env metrics task model tr names tick = some r →
        (next r.2).Shows P c (w.advance task.runId r.1 [] 0 (failedScores r.1)) := by
  induction names generalizing tick w with
  | nil =>
    simp only [metricsProg, metricScores, Option.some.injEq, forall_eq', failedScores,
      List.countP_nil, Int.natCast_zero, EvalDb.advance_zero]
    exact ⟨fun h => ⟨h.committed, h⟩, And.right⟩
  | cons name rest ih =>
    rw [metricsProg, metricScores]
    cases hm : metrics name with
    | none => simp
    | some evaluate =>
      dsimp only
      split
      next hfail =>
        simp only [Prog.shows_write, ih, EvalDb.addScore_eq task.runId, EvalDb.incrementFailed_eq,
          EvalDb.advance_advance, Option.bind_some, Option.map_eq_some_iff,
          forall_exists_index, and_imp, forall_apply_eq_imp_iff₂]
        simp [failedScores, hfail, add_comm]
      next hok =>
        simp only [Prog.shows_write, ih, EvalDb.addScore_eq task.runId,
          EvalDb.advance_advance, Option.bind_some, Option.map_eq_some_iff,
          forall_exists_index, and_imp, forall_apply_eq_imp_iff₂]
        simp [failedScores, hok]

/-- The row of a run after an advance without failures. -/
theorem counting_advance {db : EvalDb F} {scores : List TraceScore} {k d : Nat}
    (h : ∀ run, db.runs task.runId = some run → run.Counting k) :
    ∀ run, (db.advance task.runId scores [] d 0).runs task.runId = some run →
      run.Counting (k + d) := by
  intro run hrun
  simp only [EvalDb.advance, Function.update_self, Option.map_eq_some_iff] at hrun
  obtain ⟨old, hold, rfl⟩ := hrun
  have := h old hold
  exact ⟨by simp [this.evaluated], by simp [this.failed], this.running⟩

/-- Without failures the targets are counted one by one. -/
theorem shows_targetsProg {run : EvalRun F} {ids : List UUID} {k total : Nat} {w : EvalDb F}
    (tick : Nat) (htotal : k + ids.length = total)
    (hw : ∀ row, w.runs task.runId = some row → row.Counting k)
    (hok : ∀ traceId ∈ ids, ∀ tr, w.getTrace task.projectId traceId = some tr →
      AllSucceed env metrics run.model tr (task.metricsFor run.metricNames traceId)) :
    (targetsProg env metrics task run ids tick).Shows (EvalDb.ShowsBounded task.runId total) w w := by
  induction ids generalizing tick k w with
  | nil =>
    simp only [List.length_nil, Nat.add_zero] at htotal
    subst htotal
    simp only [targetsProg, Prog.shows_write, Prog.shows_commit, Prog.shows_done]
    refine ⟨fun row hrow => (hw row hrow).bounded (Nat.le_refl _), ?_⟩
    intro row hrow
    simp only [EvalDb.updateRunStatus, EvalDb.updateRun, Function.update_self,
      Option.map_eq_some_iff] at hrow
    obtain ⟨old, hold, rfl⟩ := hrow
    have := hw old hold
    constructor <;> simp [EvalRun.progress, this.evaluated, this.failed]
  | cons traceId rest ih =>
    rw [List.length_cons] at htotal
    have hbounded : EvalDb.ShowsBounded task.runId total w :=
      fun row hrow => (hw row hrow).bounded (by omega)
    have hrest := (List.forall_mem_cons.mp hok).2
    rw [targetsProg, Prog.shows_read]
    cases htr : w.getTrace task.projectId traceId with
    | none =>
      simp only [Prog.shows_write, Prog.shows_commit, EvalDb.incrementProgress_eq]
      refine ⟨hbounded, ih tick (by omega : k + 1 + rest.length = total) ?_ hrest⟩
      exact counting_advance task hw
    | some tr =>
      simp only [shows_metricsProg, Prog.shows_write, Prog.shows_commit, EvalDb.incrementProgress_eq,
        EvalDb.advance_advance]
      refine ⟨hbounded, fun r hr => ⟨hbounded, ?_⟩⟩
      have hzero : failedScores r.1 = 0 :=
        (failedScores_eq_zero env metrics task hr).mpr (hok traceId (List.mem_cons_self ..) tr htr)
      refine ih r.2 (by omega : k + 1 + rest.length = total) ?_ hrest
      rw [hzero]
      exact counting_advance task hw

/-- An attempt starts counting afresh. -/
theorem counting_begin {runId projectId : UUID} (db : EvalDb F) {row : EvalRun F}
    (hrow : (db.beginTraceRun runId projectId).runs runId = some row) : row.Counting 0 := by
  rw [EvalDb.beginTraceRun_eq] at hrow
  simp only [EvalDb.updateRun, Function.update_self, Option.map_eq_some_iff] at hrow
  obtain ⟨old, -, rfl⟩ := hrow
  exact ⟨rfl, rfl, rfl⟩

/-- **At every moment of an attempt in which no metric fails.** -/
theorem shows_runEvalRun {db : EvalDb F} (hdb : db.ShowsBounded task.runId task.traceIds.length)
    (hok : ∀ run, db.getEvalRun task.runId task.projectId = some run →
      NoMetricFails env metrics task run db) :
    (runEvalRun env metrics task).Shows
      (EvalDb.ShowsBounded task.runId task.traceIds.length) db db := by
  have hbegin : ∀ row, (db.beginTraceRun task.runId task.projectId).runs task.runId = some row →
      row.Counting 0 := fun row hrow => counting_begin db hrow
  rw [runEvalRun]
  simp only [Prog.shows_write, Prog.shows_commit, Prog.shows_read]
  refine ⟨hdb, ?_⟩
  have hbegun : ((db.deleteScoresForRun task.runId task.projectId).resetRunCounters
      task.runId).updateRunStatus task.runId .running none 0 =
    db.beginTraceRun task.runId task.projectId := rfl
  simp only [hbegun, EvalDb.getEvalRun_beginTraceRun]
  cases hrun : db.getEvalRun task.runId task.projectId with
  | none =>
    simp only [Option.map_none, Prog.shows_raise]
    exact fun row hrow => (hbegin row hrow).bounded (Nat.zero_le _)
  | some run => exact shows_targetsProg env metrics task 0 (Nat.zero_add _) hbegin (hok run hrun)

/-- **An attempt that completes shows its failures.** -/
theorem noMetricFails_of_shows {run : EvalRun F} {db fin : EvalDb F}
    (hrun : db.getEvalRun task.runId task.projectId = some run)
    (hfin : (runEvalRun env metrics task).complete db db = some fin)
    (h : fin.ShowsBounded task.runId task.traceIds.length) :
    NoMetricFails env metrics task run db := by
  rw [complete_runEvalRun, EvalDb.getEvalRun_beginTraceRun, hrun] at hfin
  obtain ⟨r, hr, rfl⟩ := Option.map_eq_some_iff.mp hfin
  refine (failedScores_targets_eq_zero env metrics task hr).mp ?_
  have hstarted : (db.beginTraceRun task.runId task.projectId).getEvalRun task.runId
      task.projectId = some (SessionEval.started run) := by
    rw [EvalDb.getEvalRun_beginTraceRun, hrun]
    rfl
  have hrow := EvalDb.getEvalRun_completed task.runId task.projectId _ hstarted r.1 []
    task.traceIds.length (failedScores r.1) (env.clock r.2)
  have heq := (h _ (Option.filter_eq_some_iff.mp hrow).1).eq rfl
  simpa [EvalRun.progress, EvalDb.completedRow, SessionEval.started] using heq

end TraceEval

/-! ## Runs of sessions -/

namespace SessionEval
variable {F : Type} (env : EvalEnv F) (answers : Answers F) (task : SessionTask)

/-- A session metric gives a score that can be stored. -/
def Succeeds (weights : Option (List (String × F))) (sid : String) (traces : List Trace)
    (signals : SessionSignals F) (name : String) : Prop :=
  ∃ result, env.sessionMetric name sid traces weights signals = .ok result ∧
    validateScoreValue env (env.render result.score) .numeric = true

theorem metricScore_failed (run : EvalRun F) (sid : String) (traces : List Trace)
    (signals : SessionSignals F) (tick : Nat) (name : String) :
    (metricScore env task run sid traces signals tick name).2 = false ↔
      Succeeds env run.signalWeights sid traces signals name := by
  simp only [metricScore, Succeeds]
  cases env.sessionMetric name sid traces run.signalWeights signals with
  | error exc => simp
  | ok result =>
    dsimp only
    split
    next hvalid => simp [hvalid]
    next hinvalid => simp [hinvalid]

/-- Every metric of the run gives a score on a session with its numbers. -/
def AllSucceed (run : EvalRun F) (table : List Trace) (x : String × SessionSignals F) : Prop :=
  ∀ name ∈ run.metricNames,
    Succeeds env run.signalWeights x.1 (sessionTraces table task.projectId x.1) x.2 name

/-- No metric of the run fails on a session and the numbers it is handed for it. -/
def NoMetricFails (run : EvalRun F) (db : EvalDb F) : Prop :=
  ∀ x ∈ (attemptLoop env answers task db run).1.signals, AllSucceed env task run db.traces x

/-- The metrics of a session count their failures. -/
theorem metricLoop_failed (sid : String) (traces : List Trace) (signals : SessionSignals F)
    (names : List String) (p : EvalProgress F) :
    p.run.failedCount ≤ (metricLoop env task sid traces signals names p).run.failedCount ∧
      ((metricLoop env task sid traces signals names p).run.failedCount = p.run.failedCount ↔
        ∀ name ∈ names, Succeeds env p.run.signalWeights sid traces signals name) := by
  induction names generalizing p with
  | nil => simp [metricLoop]
  | cons name rest ih =>
    rw [metricLoop, List.forall_mem_cons, ← metricScore_failed env task p.run sid traces signals
      p.tick name]
    cases hfail : (metricScore env task p.run sid traces signals p.tick name).2 with
    | true =>
      obtain ⟨hle, -⟩ := ih { p with
        sessionScores := p.sessionScores ++
          [(metricScore env task p.run sid traces signals p.tick name).1]
        run := { p.run with failedCount := p.run.failedCount + 1 }
        tick := p.tick + 1 }
      simp only [if_true, Bool.true_eq_false, false_and, iff_false]
      dsimp only at hle
      constructor <;> omega
    | false => simpa using ih _

theorem metricLoop_signals (sid : String) (traces : List Trace) (signals : SessionSignals F)
    (names : List String) (p : EvalProgress F) :
    (metricLoop env task sid traces signals names p).signals = p.signals := by
  induction names generalizing p with
  | nil => rfl
  | cons name rest ih =>
    rw [metricLoop, ih]

/-- One session counts the failures of its metrics, and hands them its numbers. -/
theorem processSession_failed {read : Reader F} {table : List Trace} {p p' : EvalProgress F}
    {sid : String} (h : processSession env answers task read table p sid = some p') :
    p.run.failedCount ≤ p'.run.failedCount ∧ ∃ new, p'.signals = p.signals ++ new ∧
      (p'.run.failedCount = p.run.failedCount ↔ ∀ x ∈ new, AllSucceed env task p.run table x) := by
  rw [processSession] at h
  split at h
  · cases h
    exact ⟨le_refl _, [], by simp [incrementProgress], by simp [incrementProgress]⟩
  next tr rest htraces =>
    obtain ⟨r, hr, rfl⟩ := Option.map_eq_some_iff.mp h
    obtain ⟨hle, hiff⟩ := metricLoop_failed env task sid (tr :: rest) r.2.2 p.run.metricNames
      { p with created := r.1, tick := r.2.1, signals := p.signals ++ [(sid, r.2.2)] }
    refine ⟨hle, [(sid, r.2.2)], metricLoop_signals .., ?_⟩
    simpa [AllSucceed, htraces, incrementProgress] using hiff

/-- The failures of the whole loop. -/
theorem sessionLoop_failed (read : Reader F) (table : List Trace) {run : EvalRun F}
    (sids : List String) {p : EvalProgress F} (hp : started p.run = started run) :
    p.run.failedCount ≤ (sessionLoop env answers task read table sids p).1.run.failedCount ∧
      ∃ new, (sessionLoop env answers task read table sids p).1.signals = p.signals ++ new ∧
        ((sessionLoop env answers task read table sids p).1.run.failedCount = p.run.failedCount ↔
          ∀ x ∈ new, AllSucceed env task run table x) := by
  induction sids generalizing p with
  | nil => exact ⟨le_refl _, [], by simp [sessionLoop], by simp [sessionLoop]⟩
  | cons sid rest ih =>
    rw [sessionLoop]
    cases hone : processSession env answers task read table p sid with
    | none => exact ⟨le_refl _, [], by simp, by simp⟩
    | some p' =>
      obtain ⟨hle, new, hnew, hiff⟩ := processSession_failed env answers task hone
      have hp' : started p'.run = started run :=
        (processSession_grows env answers task hone).started_run.trans hp
      obtain ⟨hle', new', hnew', hiff'⟩ := ih hp'
      refine ⟨le_trans hle hle', new ++ new', by rw [hnew', hnew, List.append_assoc], ?_⟩
      have hsame : ∀ x, AllSucceed env task p.run table x ↔ AllSucceed env task run table x := by
        intro x
        have hnames := congrArg EvalRun.metricNames hp
        have hweights := congrArg EvalRun.signalWeights hp
        simp only [started] at hnames hweights
        simp only [AllSucceed, hnames, hweights]
      rw [List.forall_mem_append, ← hiff']
      simp only [← hsame, ← hiff]
      constructor
      · intro h
        constructor <;> omega
      · rintro ⟨h, h'⟩
        omega

/-! ### The moments of an attempt -/

variable {P : EvalDb F → Prop}

theorem shows_signalsProg (model : Option String) (tr : Trace) (prior : List Trace)
    (next : Nat → Signals F → Prog (EvalDb F)) (stored : List TraceScore) (c db : EvalDb F)
    (l : List Signal) (created : List TraceScore) (tick : Nat) (acc : Signals F) :
    (signalsProg env answers task model tr prior l tick acc next).Shows P c
        { db with scores := stored ++ created } ↔
      P c ∧ ∀ r, signalLoop env answers task (fun created => readSignal env (stored ++ created))
        model tr prior l created tick acc = some r →
          (next r.2.1 r.2.2).Shows P c { db with scores := stored ++ r.1 } := by
  induction l generalizing created tick acc with
  | nil =>
    simp only [signalsProg, signalLoop, Option.some.injEq, forall_eq']
    exact ⟨fun h => ⟨h.committed, h⟩, And.right⟩
  | cons s rest ih =>
    rw [signalsProg, Prog.shows_read, signalLoop]
    dsimp only
    rcases readSignal env (stored ++ created) tr.traceId s with _ | (_ | x)
    · simp
    · dsimp only [Option.bind_some]
      rw [Prog.shows_write, resolveSignal_append env answers task model tr prior s created tick,
        List.append_assoc]
      exact ih _ _ _
    · exact ih _ _ _

theorem shows_tracesProg (model : Option String)
    (next : Nat → SessionSignals F → Prog (EvalDb F)) (stored : List TraceScore) (c db : EvalDb F)
    (prior l : List Trace) (created : List TraceScore) (tick : Nat) (acc : SessionSignals F) :
    (tracesProg env answers task model prior l tick acc next).Shows P c
        { db with scores := stored ++ created } ↔
      P c ∧ ∀ r, traceLoop env answers task (fun created => readSignal env (stored ++ created))
        model prior l created tick acc = some r →
          (next r.2.1 r.2.2).Shows P c { db with scores := stored ++ r.1 } := by
  induction l generalizing prior created tick acc with
  | nil =>
    simp only [tracesProg, traceLoop, Option.some.injEq, forall_eq']
    exact ⟨fun h => ⟨h.committed, h⟩, And.right⟩
  | cons tr rest ih =>
    rw [tracesProg, shows_signalsProg, traceLoop]
    simp only [ih, Option.bind_eq_some_iff, forall_exists_index, and_imp]
    constructor
    · rintro ⟨hc, h⟩
      exact ⟨hc, fun r t ht hr => (h t ht).2 r hr⟩
    · rintro ⟨hc, h⟩
      exact ⟨hc, fun t ht => ⟨hc, fun r hr => h r t ht hr⟩⟩

theorem shows_sessionMetricsProg {run : EvalRun F} (sid : String) (traces : List Trace)
    (signals : SessionSignals F) (next : Nat → Prog (EvalDb F)) (stored : List TraceScore)
    (c db : EvalDb F) (names : List String) {p : EvalProgress F} (hp : started p.run = started run) :
    (sessionMetricsProg env task run sid traces signals names p.tick next).Shows P c
        (db.withProgress task.runId stored p) ↔
      (next (metricLoop env task sid traces signals names p).tick).Shows P c
        (db.withProgress task.runId stored (metricLoop env task sid traces signals names p)) := by
  induction names generalizing p with
  | nil => rfl
  | cons name rest ih =>
    rw [sessionMetricsProg, metricLoop, metricScore_congr env task hp]
    cases hfail : (metricScore env task run sid traces signals p.tick name).2 with
    | true =>
      simp only [if_true, Prog.shows_write]
      rw [← ih (by exact hp)]
      simp [EvalDb.withProgress, EvalDb.addSessionScore, EvalDb.incrementFailed, EvalDb.updateRun]
    | false =>
      simp only [Bool.false_eq_true, if_false, Prog.shows_write]
      rw [← ih (by exact hp)]
      rfl

/-- Metrics that succeed leave the counters alone. -/
theorem counting_metricLoop {sid : String} {traces : List Trace} {signals : SessionSignals F}
    {names : List String} {p : EvalProgress F} {k : Nat} (hk : p.run.Counting k)
    (hok : ∀ name ∈ names, Succeeds env p.run.signalWeights sid traces signals name) :
    (metricLoop env task sid traces signals names p).run.Counting k := by
  obtain ⟨new, -, -, -, hrun⟩ := metricLoop_grows env task sid traces signals names p
  have hfailed := (metricLoop_failed env task sid traces signals names p).2.mpr hok
  refine ⟨?_, hfailed.trans hk.failed, ?_⟩
  · rw [hrun]
    simp [hk.evaluated]
  · rw [hrun]
    exact hk.running

theorem counting_incrementProgress {p : EvalProgress F} {k : Nat} (hk : p.run.Counting k) :
    (incrementProgress p).run.Counting (k + 1) :=
  ⟨by simp [incrementProgress, hk.evaluated], hk.failed, hk.running⟩

/-- Without failures the sessions are counted one by one. -/
theorem shows_sessionsProg (run : EvalRun F) (stored : List TraceScore) (db : EvalDb F)
    {sids : List String} {p : EvalProgress F} {k total : Nat} (hp : started p.run = started run)
    (htotal : k + sids.length = total) (hk : p.run.Counting k)
    (hok : ∀ x ∈ (sessionLoop env answers task (fun created => readSignal env (stored ++ created))
      db.traces sids p).1.signals, AllSucceed env task run db.traces x) :
    (sessionsProg env answers task run sids p.tick).Shows (EvalDb.ShowsBounded task.runId total)
      (db.withProgress task.runId stored p) (db.withProgress task.runId stored p) := by
  have hbounded : ∀ (q : EvalProgress F) (k : Nat), q.run.Counting k → k ≤ total →
      EvalDb.ShowsBounded task.runId total (db.withProgress task.runId stored q) := by
    intro q k hq hle row hrow
    simp only [EvalDb.withProgress, Function.update_self, Option.some.injEq] at hrow
    subst hrow
    exact hq.bounded hle
  induction sids generalizing p k with
  | nil =>
    simp only [List.length_nil, Nat.add_zero] at htotal
    subst htotal
    simp only [sessionsProg, Prog.shows_write, Prog.shows_commit, Prog.shows_done]
    refine ⟨hbounded p k hk (le_refl _), ?_⟩
    rw [withProgress_completed]
    intro row hrow
    simp only [EvalDb.withProgress, Function.update_self, Option.some.injEq] at hrow
    subst hrow
    constructor <;> simp [EvalRun.progress, EvalProgress.completed, hk.evaluated, hk.failed]
  | cons sid rest ih =>
    rw [List.length_cons] at htotal
    have hmodel := congrArg EvalRun.model hp
    have hnames := congrArg EvalRun.metricNames hp
    have hweights := congrArg EvalRun.signalWeights hp
    simp only [started] at hmodel hnames hweights
    rw [sessionLoop, processSession] at hok
    rw [sessionsProg, Prog.shows_read]
    have htraces : (db.withProgress task.runId stored p).traces = db.traces := rfl
    simp only [htraces]
    cases htr : sessionTraces db.traces task.projectId sid with
    | nil =>
      rw [htr] at hok
      simp only [Prog.shows_write, Prog.shows_commit]
      refine ⟨hbounded p k hk (by omega), ?_⟩
      have hrest := ih (p := incrementProgress p) (k := k + 1) hp (by omega)
        (counting_incrementProgress hk) hok
      simpa [EvalDb.withProgress, EvalDb.incrementProgress, EvalDb.updateRun, incrementProgress]
        using hrest
    | cons tr more =>
      refine (shows_tracesProg env answers task run.model _ stored _
        (db.withProgress task.runId stored p) [] (tr :: more) p.created p.tick []).mpr
        ⟨hbounded p k hk (by omega), fun r hr => ?_⟩
      rw [htr, hmodel] at hok
      dsimp only at hok
      rw [hr, Option.map_some, hnames] at hok
      -- `q` is what is recorded at the commit of the signals, `q'` after the metrics
      let q : EvalProgress F :=
        { p with created := r.1, tick := r.2.1, signals := p.signals ++ [(sid, r.2.2)] }
      let q' := metricLoop env task sid (tr :: more) r.2.2 run.metricNames q
      have hq' : started (incrementProgress q').run = started run :=
        ((metricLoop_grows env task sid (tr :: more) r.2.2 run.metricNames q).started_run).trans hp
      have hall : ∀ name ∈ run.metricNames,
          Succeeds env p.run.signalWeights sid (tr :: more) r.2.2 name := by
        obtain ⟨-, new, hsignals, -⟩ := sessionLoop_failed env answers task
          (fun created => readSignal env (stored ++ created)) db.traces rest hq'
        have hq : (incrementProgress q').signals = p.signals ++ [(sid, r.2.2)] :=
          metricLoop_signals ..
        have hthis := hok (sid, r.2.2) (by
          show _ ∈ (sessionLoop _ _ _ _ _ rest (incrementProgress q')).1.signals
          rw [hsignals, hq]
          simp)
        rw [AllSucceed, htr] at hthis
        rw [hweights]
        exact hthis
      have hcount : q'.run.Counting k := counting_metricLoop env task (p := q) hk hall
      have hrest := ih (p := incrementProgress q') (k := k + 1) hq' (by omega)
        (counting_incrementProgress hcount) hok
      rw [Prog.shows_commit]
      refine ⟨hbounded p k hk (by omega), ?_⟩
      refine (shows_sessionMetricsProg env task sid (tr :: more) r.2.2 _ stored _ db
        run.metricNames (p := q) hp).mpr ?_
      rw [Prog.shows_write, Prog.shows_commit]
      refine ⟨hbounded q k hk (by omega), ?_⟩
      simpa [EvalDb.withProgress, EvalDb.incrementProgress, EvalDb.updateRun, incrementProgress, q']
        using hrest

/-- **At every moment of an attempt in which no metric fails.** -/
theorem shows_sessionEvalProg {db : EvalDb F}
    (hdb : db.ShowsBounded task.runId task.sessionIds.length)
    (hok : ∀ run, db.getEvalRun task.runId task.projectId = some run →
      NoMetricFails env answers task run db) :
    (sessionEvalProg env answers task).Shows
      (EvalDb.ShowsBounded task.runId task.sessionIds.length) db db := by
  rw [sessionEvalProg]
  simp only [Prog.shows_write, Prog.shows_commit, Prog.shows_read]
  refine ⟨hdb, ?_⟩
  have hbegun : (((db.deleteSessionScoresForRun task.runId task.projectId).deleteScoresForRun
      task.runId task.projectId).resetRunCounters task.runId).updateRunStatus task.runId .running
        none 0 = db.beginSessionRun task.runId task.projectId := rfl
  simp only [hbegun, getEvalRun_beginSessionRun]
  cases hrun : db.getEvalRun task.runId task.projectId with
  | none =>
    simp only [Option.map_none, Prog.shows_raise]
    exact fun row hrow => (TraceEval.counting_begin
      (db.deleteSessionScoresForRun task.runId task.projectId) hrow).bounded (Nat.zero_le _)
  | some run =>
    rw [beginSessionRun_eq task (Option.filter_eq_some_iff.mp hrun).1]
    exact shows_sessionsProg env answers task (started run) (keptScores task db.scores) db
      (p := begun task db run) (k := 0) rfl (Nat.zero_add _) ⟨rfl, rfl, rfl⟩ (hok run hrun)

/-- **An attempt that completes shows its failures.** -/
theorem noMetricFails_of_shows {run : EvalRun F} {db fin : EvalDb F}
    (hrun : db.getEvalRun task.runId task.projectId = some run)
    (hfin : (sessionEvalProg env answers task).complete db db = some fin)
    (h : fin.ShowsBounded task.runId task.sessionIds.length) :
    NoMetricFails env answers task run db := by
  rw [complete_sessionEvalProg, hrun, Option.bind_some] at hfin
  dsimp only at hfin
  split at hfin
  · cases hfin
  next hdone =>
    cases hfin
    rw [withProgress_completed] at h
    obtain ⟨new, -, -, -, hrow⟩ :=
      sessionLoop_grows env answers task (Bool.eq_false_of_not_eq_true hdone)
    obtain ⟨-, signals, hsignals, hiff⟩ := sessionLoop_failed env answers task
      (fun created => readSignal env (keptScores task db.scores ++ created)) db.traces
      task.sessionIds (show started (begun task db run).run = started run from rfl)
    -- every session is counted, so the rest of the progress is the failures
    have heq := (h (EvalProgress.completed env (attemptLoop env answers task db run).1).run
      (by simp [EvalDb.withProgress])).eq rfl
    have hevaluated : (attemptLoop env answers task db run).1.run.evaluatedCount =
        task.sessionIds.length := by
      rw [attemptLoop, hrow]
      exact Int.zero_add _
    have hfailed : (attemptLoop env answers task db run).1.run.failedCount = 0 := by
      simp only [EvalRun.progress, EvalProgress.completed, hevaluated] at heq
      omega
    intro x hx
    rw [attemptLoop, hsignals] at hx
    exact hiff.mp hfailed x hx

end SessionEval

/-! ## Runs with retries -/

section Retries
variable {F : Type}

/-- The row of a new run shows no progress. -/
theorem bounded_row (run : NewRun F) (total : Nat) : run.row.Bounded total where
  le := Int.natCast_nonneg total
  eq h := by cases h

/-- Marking the run as failed leaves its progress. -/
theorem showsBounded_failEvalRun {runId : UUID} {total : Nat} {db : EvalDb F}
    (h : db.ShowsBounded runId total) (failure : Option (String × DateTime)) :
    (db.failEvalRun runId failure).ShowsBounded runId total := by
  cases failure with
  | none => exact h
  | some f =>
    intro row hrow
    simp only [EvalDb.failEvalRun, EvalDb.updateRunStatus, EvalDb.updateRun, Function.update_self,
      Option.map_eq_some_iff] at hrow
    obtain ⟨old, hold, rfl⟩ := hrow
    exact ⟨(h old hold).le, fun hc => by cases hc⟩

/-- An attempt that stops somewhere, and the run may be marked as failed.  A moment of an attempt
is one that stops there and is not marked. -/
def attempted (db : EvalDb F) (a : Attempt (EvalDb F)) : Option (EvalDb F) :=
  some (a.note (a.prog.stopped a.stop db db))

/-- The arguments of the task of a run of traces. -/
def NewRun.traceTask (run : NewRun F) : TraceTask :=
  ⟨run.runId, run.projectId, run.targetIds, run.traceMetricMap⟩

/-- The arguments of the task of a run of sessions. -/
def NewRun.sessionTask (run : NewRun F) (h : run.targetIds.Nodup) : SessionTask :=
  ⟨run.runId, run.projectId, run.targetIds, h⟩

variable {db₀ db : EvalDb F}

theorem showsBounded_traces (task : TraceTask)
    (h₀ : db₀.ShowsBounded task.runId task.traceIds.length)
    (h : Reach (fun db a => attempted db (TraceEval.attempt task a))
      (fun db a => ∀ row, db.getEvalRun task.runId task.projectId = some row →
        TraceEval.NoMetricFails a.env a.metrics task row db) db₀ db) :
    db.ShowsBounded task.runId task.traceIds.length := by
  refine h.invariant h₀ ?_
  rintro db a db' hdb hok hs
  cases hs
  exact showsBounded_failEvalRun
    (TraceEval.shows_runEvalRun a.env a.metrics task hdb hok a.stop) a.failure

theorem showsBounded_sessions (task : SessionTask)
    (h₀ : db₀.ShowsBounded task.runId task.sessionIds.length)
    (h : Reach (fun db a => attempted db (SessionEval.attempt task a))
      (fun db a => ∀ row, db.getEvalRun task.runId task.projectId = some row →
        SessionEval.NoMetricFails a.env a.answers task row db) db₀ db) :
    db.ShowsBounded task.runId task.sessionIds.length := by
  refine h.invariant h₀ ?_
  rintro db a db' hdb hok hs
  cases hs
  exact showsBounded_failEvalRun
    (SessionEval.shows_sessionEvalProg a.env a.answers task hdb hok a.stop) a.failure

/-- **The progress of a run.**  Whatever attempts are made at a new run, each of which stops
anywhere: as long as no metric fails, its progress is within the targets at every moment, and all
of them when it is COMPLETED.  And an attempt that completes shows this at every moment only if no
metric fails in it. -/
theorem progress_shown (run : NewRun F) (htotal : run.totalTargets = run.targetIds.length)
    (hrow : db₀.runs run.runId = some run.row) :
    (∀ db, Reach (fun db a => attempted db (TraceEval.attempt run.traceTask a))
        (fun db a => ∀ row, db.getEvalRun run.runId run.projectId = some row →
          TraceEval.NoMetricFails a.env a.metrics run.traceTask row db) db₀ db →
      db.ShowsBounded run.runId run.totalTargets ∧
      ∀ env metrics row fin, db.getEvalRun run.runId run.projectId = some row →
        (TraceEval.runEvalRun env metrics run.traceTask).complete db db = some fin →
        ((TraceEval.runEvalRun env metrics run.traceTask).Shows
            (EvalDb.ShowsBounded run.runId run.totalTargets) db db ↔
          TraceEval.NoMetricFails env metrics run.traceTask row db)) ∧
    ∀ hnodup db, Reach (fun db a => attempted db (SessionEval.attempt (run.sessionTask hnodup) a))
        (fun db a => ∀ row, db.getEvalRun run.runId run.projectId = some row →
          SessionEval.NoMetricFails a.env a.answers (run.sessionTask hnodup) row db) db₀ db →
      db.ShowsBounded run.runId run.totalTargets ∧
      ∀ env answers row fin, db.getEvalRun run.runId run.projectId = some row →
        (SessionEval.sessionEvalProg env answers (run.sessionTask hnodup)).complete db db =
          some fin →
        ((SessionEval.sessionEvalProg env answers (run.sessionTask hnodup)).Shows
            (EvalDb.ShowsBounded run.runId run.totalTargets) db db ↔
          SessionEval.NoMetricFails env answers (run.sessionTask hnodup) row db) := by
  have h₀ : db₀.ShowsBounded run.runId run.targetIds.length := by
    intro row h
    rw [hrow] at h
    cases h
    exact bounded_row run _
  rw [htotal]
  constructor
  · intro db h
    have hdb := showsBounded_traces run.traceTask h₀ h
    refine ⟨hdb, fun env metrics row fin hget hfin => ⟨fun hshows => ?_, fun hok => ?_⟩⟩
    · exact TraceEval.noMetricFails_of_shows env metrics run.traceTask hget hfin
        (hshows.complete hfin)
    · refine TraceEval.shows_runEvalRun env metrics run.traceTask hdb (fun row' hget' => ?_)
      rw [show db.getEvalRun run.runId run.projectId = some row' from hget'] at hget
      cases hget
      exact hok
  · intro hnodup db h
    have hdb := showsBounded_sessions (run.sessionTask hnodup) h₀ h
    refine ⟨hdb, fun env answers row fin hget hfin => ⟨fun hshows => ?_, fun hok => ?_⟩⟩
    · exact SessionEval.noMetricFails_of_shows env answers (run.sessionTask hnodup) hget hfin
        (hshows.complete hfin)
    · refine SessionEval.shows_sessionEvalProg env answers (run.sessionTask hnodup) hdb
        (fun row' hget' => ?_)
      rw [show db.getEvalRun run.runId run.projectId = some row' from hget'] at hget
      cases hget
      exact hok

/-- A new run of the sample trace. -/
def sampleRun : NewRun ℚ :=
  newRun "run" "A" .trace ["coherence"] none none ["t"] none

/-- The metric gives a score: the run is shown as done. -/
theorem progress_shown_scored : ∃ fin : EvalDb ℚ,
    (TraceEval.runEvalRun SessionEval.sampleEnv
      (TraceEval.sampleMetrics (.ok ⟨1, none, fun _ => none⟩)) sampleRun.traceTask).complete
        TraceEval.sampleDb TraceEval.sampleDb = some fin ∧
      fin.ShowsBounded "run" 1 := by
  obtain ⟨fin, hfin⟩ := Option.isSome_iff_exists.mp
    (show ((TraceEval.runEvalRun SessionEval.sampleEnv
      (TraceEval.sampleMetrics (.ok ⟨1, none, fun _ => none⟩)) sampleRun.traceTask).complete
        TraceEval.sampleDb TraceEval.sampleDb).isSome by decide +kernel)
  have hok : TraceEval.NoMetricFails SessionEval.sampleEnv
      (TraceEval.sampleMetrics (.ok ⟨1, none, fun _ => none⟩)) sampleRun.traceTask
      sampleRun.row TraceEval.sampleDb := by
    intro traceId _ tr _ name hname evaluate heval
    obtain rfl : name = "coherence" := List.mem_singleton.mp hname
    cases heval
    exact ⟨_, rfl, by decide +kernel⟩
  refine ⟨fin, hfin, ?_⟩
  have hshown := (@progress_shown ℚ TraceEval.sampleDb sampleRun rfl rfl).1
    TraceEval.sampleDb .initial
  exact ((hshown.2 _ _ sampleRun.row fin rfl hfin).mpr hok).complete hfin

/-- The metric fails, and the run is shown as done twice over. -/
theorem failed_metric_counted_twice : ¬ ∀ (F : Type) (env : EvalEnv F) (metrics : TraceMetrics F)
    (run : NewRun F) (db : EvalDb F), run.totalTargets = run.targetIds.length →
    db.runs run.runId = some run.row →
    (TraceEval.runEvalRun env metrics run.traceTask).Shows
      (EvalDb.ShowsBounded run.runId run.totalTargets) db db := by
  intro h
  have hshows := h ℚ SessionEval.sampleEnv (TraceEval.sampleMetrics (.error "down")) sampleRun
    TraceEval.sampleDb rfl rfl
  obtain ⟨fin, hfin⟩ := Option.isSome_iff_exists.mp
    (show ((TraceEval.runEvalRun SessionEval.sampleEnv
      (TraceEval.sampleMetrics (.error "down")) sampleRun.traceTask).complete
        TraceEval.sampleDb TraceEval.sampleDb).isSome by decide +kernel)
  have hprogress : ((TraceEval.runEvalRun SessionEval.sampleEnv
      (TraceEval.sampleMetrics (.error "down")) sampleRun.traceTask).complete
        TraceEval.sampleDb TraceEval.sampleDb).bind (fun db => (db.runs "run").map
          EvalRun.progress) = some 2 := by decide +kernel
  rw [hfin] at hprogress
  obtain ⟨row, hrow, htwo⟩ := Option.map_eq_some_iff.mp hprogress
  have hle : row.progress ≤ (1 : Nat) := (hshows.complete hfin row hrow).le
  rw [htwo] at hle
  exact absurd hle (by decide)

end Retries
end PandaProbe
