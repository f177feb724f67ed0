import PandaProbe.TraceStore

/-! # Session evaluation runs

`_run_session_eval`: for each target session, the traces of the session are read, a
number is found or computed for every trace and signal, and the session metrics are
run on these numbers.  A number is reused from the most recent successful score
stored for the trace under the signal's name; otherwise the signal's metric is asked,
and its answer or failure is stored as a new score.

The numbers are Python floats.  Their type `F`, the conversions from and to text and
the session metrics are parameters (`EvalEnv`), as are the LLM's answers and failures
(`Answers`): nothing here depends on them.

A stored score whose text is no valid number raises outside any `try`: the run is
aborted and the session's transaction rolled back.
-/
namespace PandaProbe

/-- Data type of a score value. -/
inductive ScoreDataType
  | numeric | boolean | categorical
  deriving DecidableEq, Repr

/-- Who produced a score. -/
inductive ScoreSource
  | automated | annotation | programmatic
  deriving DecidableEq, Repr

/-- Outcome of a scoring attempt. -/
inductive ScoreStatus
  | success | failed | pending
  deriving DecidableEq, Repr

/-- Status of an evaluation run. -/
inductive EvaluationStatus
  | pending | running | completed | failed
  deriving DecidableEq, Repr

/-- A row of `trace_scores`. -/
structure TraceScore where
  id : UUID
  traceId : UUID
  projectId : UUID
  name : String
  dataType : ScoreDataType
  value : Option String
  source : ScoreSource
  status : ScoreStatus
  evalRunId : Option UUID
  authorUserId : Option String
  reason : Option String
  environment : Option String
  configId : Option String
  metadata : JsonDict
  createdAt : DateTime
  updatedAt : DateTime

/-- A row of `session_scores`. -/
structure SessionScore where
  id : UUID
  sessionId : String
  projectId : UUID
  name : String
  dataType : ScoreDataType
  value : Option String
  source : ScoreSource
  status : ScoreStatus
  evalRunId : Option UUID
  authorUserId : Option String
  reason : Option String
  environment : Option String
  configId : Option String
  metadata : JsonDict
  createdAt : DateTime
  updatedAt : DateTime

/-- What a metric returns. -/
structure MetricResult (F : Type) where
  score : F
  reason : Option String
  metadata : JsonDict

/-- A row of `eval_runs`, as far as a session run reads and writes it. -/
structure EvalRun (F : Type) where
  projectId : UUID
  metricNames : List String
  signalWeights : Option (List (String × F))
  model : Option String
  status : EvaluationStatus
  evaluatedCount : Int
  failedCount : Int
  errorMessage : Option String
  completedAt : Option DateTime

/-- The trace-level metrics a session run computes. -/
inductive Signal
  | confidence | coherence | loopDetection | toolCorrectness
  deriving DecidableEq, Repr

/-- The registered name of a signal's metric. -/
def Signal.name : Signal → String
  | .confidence => "confidence"
  | .coherence => "coherence"
  | .loopDetection => "loop_detection"
  | .toolCorrectness => "tool_correctness"

theorem Signal.name_injective : Function.Injective Signal.name := by
  intro a b h
  cases a <;> cases b <;> first | rfl | exact absurd h (by decide)

/-- `SIGNAL_METRICS`. -/
def signalMetrics : List Signal := [.confidence, .coherence, .loopDetection, .toolCorrectness]

theorem mem_signalMetrics (s : Signal) : s ∈ signalMetrics := by
  cases s <;> decide

theorem signalMetrics_nodup : signalMetrics.Nodup := by decide

/-- The numbers of one trace, by signal. -/
abbrev Signals (F : Type) := Signal → Option F

/-- `precomputed_signals` of a session, in trace order. -/
abbrev SessionSignals (F : Type) := List (UUID × Signals F)

/-- What a run needs from outside: Python's floats, the registered session metrics, the
clock and `uuid4`. -/
structure EvalEnv (F : Type) where
  /-- `float(s)`, `none` for a `ValueError`. -/
  float : String → Option F
  /-- `0.0 <= x <= 1.0`. -/
  inUnit : F → Bool
  /-- `str(round(x, 4))`. -/
  render : F → String
  /-- The text of the error raised for an invalid score value. -/
  invalidText : String → String
  /-- `get_session_metric(name)().evaluate(...)`, with its failures. -/
  sessionMetric : String → String → List Trace → Option (List (String × F)) → SessionSignals F →
    Except String (MetricResult F)
  clock : Nat → DateTime
  freshId : Nat → UUID

/-- The LLM's side of the trace-level metrics: the result or failure of each, on a trace
and the traces before it in its session, for the run's model. -/
abbrev Answers (F : Type) := Signal → Trace → Option String → List Trace →
  Except String (MetricResult F)

section Repository
variable {F : Type} (env : EvalEnv F)

/-- Whether a score value is valid for its data type. -/
def validateScoreValue (value : String) : ScoreDataType → Bool
  | .numeric => (env.float value).any env.inUnit
  | .boolean => value.toLower == "true" || value.toLower == "false"
  | .categorical => true

/-- `ORDER BY created_at DESC LIMIT 1`. -/
def latest (l : List TraceScore) : Option TraceScore :=
  (l.insertionSort (fun a b => b.createdAt ≤ a.createdAt)).head?

/-- The most recent successful trace score for a trace and a metric. -/
def findExistingTraceScore (scores : List TraceScore) (traceId : UUID) (name : String) :
    Option TraceScore :=
  latest (scores.filter (fun r => r.traceId == traceId && r.name == name && r.status == .success))

/-- The number a stored score gives for a signal: `some none` when the signal must be
computed, `none` when reading the score raises. -/
def readSignal (scores : List TraceScore) (traceId : UUID) (s : Signal) : Option (Option F) :=
  match findExistingTraceScore scores traceId s.name with
  | none => some none
  | some row =>
    match row.value with
    | none => some none
    | some v => if validateScoreValue env v row.dataType then (env.float v).map some else none

/-- The traces of a session of a project, in order of their start. -/
def sessionTraces (traces : List Trace) (projectId : UUID) (sessionId : String) : List Trace :=
  (traces.filter (fun t => t.projectId == projectId && t.sessionId == some sessionId)).insertionSort
    (fun a b => a.startedAt ≤ b.startedAt)

end Repository

/-- The tables a session run works on. -/
structure EvalDb (F : Type) where
  traces : List Trace
  scores : List TraceScore
  sessionScores : List SessionScore
  runs : UUID → Option (EvalRun F)
  traces_nodup : (traces.map Trace.traceId).Nodup

/-- `EvalService.create_score`, for a score of a project on a trace named by the client:
`none` when the value is invalid or the trace does not exist. -/
def EvalDb.createScore {F : Type} (env : EvalEnv F) (db : EvalDb F) (projectId traceId : UUID)
    (name value : String) (dataType : ScoreDataType) (source : ScoreSource)
    (reason : Option String) (metadata : JsonDict) (id : UUID) (now : DateTime) :
    Option (EvalDb F) :=
  if validateScoreValue env value dataType && db.traces.any (fun t => t.traceId == traceId) then
    some { db with scores := db.scores ++
      [⟨id, traceId, projectId, name, dataType, some value, source, .success, none, none, reason,
        none, none, metadata, now, now⟩] }
  else none

/-- A task execution: the run, its project and its target sessions.  Every path that
prepares a session run drops repeated session ids. -/
structure SessionTask where
  runId : UUID
  projectId : UUID
  sessionIds : List String
  sessionIds_nodup : sessionIds.Nodup

/-- What a run has written so far: the scores it created, the session scores, its own
row; the readings of the clock; and the numbers handed to the session metrics. -/
structure EvalProgress (F : Type) where
  created : List TraceScore
  sessionScores : List SessionScore
  run : EvalRun F
  tick : Nat
  signals : List (String × SessionSignals F)

namespace SessionEval
variable {F : Type} (env : EvalEnv F) (answers : Answers F) (task : SessionTask)

/-- The score stored for a computed signal. -/
def signalScore (tr : Trace) (s : Signal) (tick : Nat) (value : Option String)
    (status : ScoreStatus) (reason : Option String) (metadata : JsonDict) : TraceScore where
  id := env.freshId tick
  traceId := tr.traceId
  projectId := task.projectId
  name := s.name
  dataType := .numeric
  value := value
  source := .automated
  status := status
  evalRunId := some task.runId
  authorUserId := none
  reason := reason
  environment := tr.environment
  configId := none
  metadata := metadata
  createdAt := env.clock tick
  updatedAt := env.clock tick

/-- The score stored for a signal that could not be computed. -/
def failedSignal (tr : Trace) (s : Signal) (tick : Nat) (exc : String) : TraceScore :=
  signalScore env task tr s tick none .failed (some ("Signal computation failed: " ++ exc))
    (fun _ => none)

/-- One signal of a trace, given the number a stored score offers: the created scores
and clock readings afterwards, and the number if there is one. -/
def resolveSignal (model : Option String) (tr : Trace) (prior : List Trace) (s : Signal)
    (reused : Option F) (created : List TraceScore) (tick : Nat) :
    List TraceScore × Nat × Option F :=
  match reused with
  | some x => (created, tick, some x)
  | none =>
    match answers s tr model prior with
    | .ok result =>
      let value := env.render result.score
      if validateScoreValue env value .numeric then
        (created ++ [signalScore env task tr s tick (some value) .success result.reason
          result.metadata], tick + 1, some result.score)
      else (created ++ [failedSignal env task tr s (tick + 1) (env.invalidText value)], tick + 2, none)
    | .error exc => (created ++ [failedSignal env task tr s tick exc], tick + 1, none)

/-- How signals are looked up: in the table with the scores created so far. -/
abbrev Reader (F : Type) := List TraceScore → UUID → Signal → Option (Option F)

/-- The loop over `SIGNAL_METRICS` of one trace. -/
def signalLoop (read : Reader F) (model : Option String) (tr : Trace) (prior : List Trace) :
    List Signal → List TraceScore → Nat → Signals F → Option (List TraceScore × Nat × Signals F)
  | [], created, tick, acc => some (created, tick, acc)
  | s :: rest, created, tick, acc =>
    (read created tr.traceId s).bind fun reused =>
      let r := resolveSignal env answers task model tr prior s reused created tick
      signalLoop read model tr prior rest r.1 r.2.1
        (if r.2.2.isSome then Function.update acc s r.2.2 else acc)

/-- The loop over the traces of one session. -/
def traceLoop (read : Reader F) (model : Option String) :
    List Trace → List Trace → List TraceScore → Nat → SessionSignals F →
      Option (List TraceScore × Nat × SessionSignals F)
  | _, [], created, tick, acc => some (created, tick, acc)
  | prior, tr :: rest, created, tick, acc =>
    (signalLoop env answers task read model tr prior signalMetrics created tick (fun _ => none)).bind
      fun r => traceLoop read model (prior ++ [tr]) rest r.1 r.2.1 (acc ++ [(tr.traceId, r.2.2)])

/-- A session score of the run. -/
def sessionScore (sessionId name : String) (tick : Nat) (value : Option String)
    (status : ScoreStatus) (reason : Option String) (metadata : JsonDict) : SessionScore where
  id := env.freshId tick
  sessionId := sessionId
  projectId := task.projectId
  name := name
  dataType := .numeric
  value := value
  source := .automated
  status := status
  evalRunId := some task.runId
  authorUserId := none
  reason := reason
  environment := none
  configId := none
  metadata := metadata
  createdAt := env.clock tick
  updatedAt := env.clock tick

/-- One session metric: its score, and whether it failed. -/
def metricScore (run : EvalRun F) (sessionId : String) (traces : List Trace)
    (signals : SessionSignals F) (tick : Nat) (name : String) : SessionScore × Bool :=
  let failedWith := fun (exc : String) =>
    (sessionScore env task sessionId name tick none .failed
      (some ("Session metric failed: " ++ exc)) (fun _ => none), true)
  match env.sessionMetric name sessionId traces run.signalWeights signals with
  | .ok result =>
    let value := env.render result.score
    if validateScoreValue env value .numeric then
      (sessionScore env task sessionId name tick (some value) .success result.reason
        result.metadata, false)
    else failedWith (env.invalidText value)
  | .error exc => failedWith exc

/-- The loop over the run's metrics. -/
def metricLoop (sessionId : String) (traces : List Trace) (signals : SessionSignals F) :
    List String → EvalProgress F → EvalProgress F
  | [], p => p
  | name :: rest, p =>
    let r := metricScore env task p.run sessionId traces signals p.tick name
    metricLoop sessionId traces signals rest
      { p with
        sessionScores := p.sessionScores ++ [r.1]
        run := if r.2 then { p.run with failedCount := p.run.failedCount + 1 } else p.run
        tick := p.tick + 1 }

/-- `increment_progress`. -/
def incrementProgress (p : EvalProgress F) : EvalProgress F :=
  { p with run := { p.run with evaluatedCount := p.run.evaluatedCount + 1 } }

/-- One target session; `none` when reading a stored score raises. -/
def processSession (read : Reader F) (table : List Trace) (p : EvalProgress F)
    (sessionId : String) : Option (EvalProgress F) :=
  match sessionTraces table task.projectId sessionId with
  | [] => some (incrementProgress p)
  | tr :: rest =>
    (traceLoop env answers task read p.run.model [] (tr :: rest) p.created p.tick []).map fun r =>
      incrementProgress (metricLoop env task sessionId (tr :: rest) r.2.2 p.run.metricNames
        { p with
          created := r.1
          tick := r.2.1
          signals := p.signals ++ [(sessionId, r.2.2)] })

/-- The loop over the target sessions, and whether it was aborted: a session that raises
leaves what the sessions before it have committed. -/
def sessionLoop (read : Reader F) (table : List Trace) :
    List String → EvalProgress F → EvalProgress F × Bool
  | [], p => (p, false)
  | sid :: rest, p =>
    match processSession env answers task read table p sid with
    | none => (p, true)
    | some p' => sessionLoop read table rest p'

/-- The scores left once those of the run's earlier attempts are deleted. -/
def keptScores (scores : List TraceScore) : List TraceScore :=
  scores.filter (fun r => !(r.evalRunId == some task.runId && r.projectId == task.projectId))

/-- The session scores left, likewise. -/
def keptSessionScores (scores : List SessionScore) : List SessionScore :=
  scores.filter (fun r => !(r.evalRunId == some task.runId && r.projectId == task.projectId))

/-- The run's row once its counters are reset and it is running. -/
def started (run : EvalRun F) : EvalRun F :=
  { run with
    evaluatedCount := 0
    failedCount := 0
    status := .running
    errorMessage := none
    completedAt := none }

/-- What a run records: everything it wrote, and whether it was aborted. -/
structure Records (F : Type) where
  progress : EvalProgress F
  aborted : Bool

/-- `_run_session_eval`; `none` when the project has no such run, where the worker raises
before it reads a session. -/
def runSessionEval (db : EvalDb F) : Option (Records F) :=
  match db.runs task.runId with
  | none => none
  | some run =>
    if run.projectId = task.projectId then
      let stored := keptScores task db.scores
      let r := sessionLoop env answers task (fun created => readSignal env (stored ++ created))
        db.traces task.sessionIds ⟨[], keptSessionScores task db.sessionScores, started run, 0, []⟩
      let done := r.1.run
      some ⟨if r.2 then r.1 else
        { r.1 with run := { done with
            status := .completed, errorMessage := none, completedAt := some (env.clock r.1.tick) } },
        r.2⟩
    else none

end SessionEval
end PandaProbe
