import PandaProbe.EvalRunTask

/-! # Executing an eval run of sessions, statement by statement

`_run_session_eval` as a program of single statements, with the two commits of each session:
one after its signals are stored and one after its metrics.  `SessionEval.runSessionEval`
computes what a whole attempt records; an attempt of the program that is not interrupted
leaves exactly that (`complete_sessionEvalProg`).
-/
namespace PandaProbe
open Restart

namespace SessionEval
variable {F : Type} (env : EvalEnv F) (answers : Answers F) (task : SessionTask)

/-- The loop over `SIGNAL_METRICS` of one trace.  A number that is not reused is asked for,
and the answer or failure is stored. -/
def signalsProg (model : Option String) (tr : Trace) (prior : List Trace) :
    List Signal → Nat → Signals F → (Nat → Signals F → Prog (EvalDb F)) → Prog (EvalDb F)
  | [], tick, acc, next => next tick acc
  | s :: rest, tick, acc, next =>
    .read fun db =>
      match readSignal env db.scores tr.traceId s with
      -- the stored text is no number: `float` raises outside the `try`
      | none => .raise
      | some (some x) =>
        signalsProg model tr prior rest tick (Function.update acc s (some x)) next
      | some none =>
        let r := resolveSignal env answers task model tr prior s none [] tick
        .write (fun db => { db with scores := db.scores ++ r.1 })
          (signalsProg model tr prior rest r.2.1
            (if r.2.2.isSome then Function.update acc s r.2.2 else acc) next)

/-- The loop over the traces of one session. -/
def tracesProg (model : Option String) :
    List Trace → List Trace → Nat → SessionSignals F →
      (Nat → SessionSignals F → Prog (EvalDb F)) → Prog (EvalDb F)
  | _, [], tick, acc, next => next tick acc
  | prior, tr :: rest, tick, acc, next =>
    signalsProg env answers task model tr prior signalMetrics tick (fun _ => none)
      fun tick signals =>
        tracesProg model (prior ++ [tr]) rest tick (acc ++ [(tr.traceId, signals)]) next

/-- The loop over the run's metrics. -/
def sessionMetricsProg (run : EvalRun F) (sessionId : String) (traces : List Trace)
    (signals : SessionSignals F) :
    List String → Nat → (Nat → Prog (EvalDb F)) → Prog (EvalDb F)
  | [], tick, next => next tick
  | name :: rest, tick, next =>
    let r := metricScore env task run sessionId traces signals tick name
    if r.2 then
      .write (fun db => db.addSessionScore r.1) (.write (fun db => db.incrementFailed task.runId)
        (sessionMetricsProg run sessionId traces signals rest (tick + 1) next))
    else
      .write (fun db => db.addSessionScore r.1)
        (sessionMetricsProg run sessionId traces signals rest (tick + 1) next)

/-- The loop over the target sessions, and the end of the run. -/
def sessionsProg (run : EvalRun F) : List String → Nat → Prog (EvalDb F)
  | [], tick =>
    .write (fun db => db.updateRunStatus task.runId .completed none (env.clock tick))
      (.commit .done)
  | sid :: rest, tick =>
    .read fun db =>
      match sessionTraces db.traces task.projectId sid with
      | [] =>
        .write (fun db => db.incrementProgress task.runId) (.commit (sessionsProg run rest tick))
      | tr :: more =>
        tracesProg env answers task run.model [] (tr :: more) tick [] fun tick signals =>
          -- Step C commits the signals before the metrics run
          .commit (sessionMetricsProg env task run sid (tr :: more) signals run.metricNames tick
            fun tick => .write (fun db => db.incrementProgress task.runId)
              (.commit (sessionsProg run rest tick)))

/-- `_run_session_eval`. -/
def sessionEvalProg : Prog (EvalDb F) :=
  .write (fun db => db.deleteSessionScoresForRun task.runId task.projectId)
    (.write (fun db => db.deleteScoresForRun task.runId task.projectId)
      (.write (fun db => db.resetRunCounters task.runId)
        (.write (fun db => db.updateRunStatus task.runId .running none 0)
          (.commit
            (.read fun db =>
              match db.getEvalRun task.runId task.projectId with
              | none => .raise
              | some run => sessionsProg env answers task run task.sessionIds 0)))))

end SessionEval

/-! ## Stopped attempts -/

namespace EvalDb
variable {F : Type} (runId projectId : UUID) (db : EvalDb F)

theorem beginSessionRun_updateRun {f : EvalRun F → EvalRun F}
    (hf : ∀ r, SessionEval.started (f r) = SessionEval.started r) :
    (db.updateRun runId f).beginSessionRun runId projectId = db.beginSessionRun runId projectId :=
  beginTraceRun_updateRun runId projectId (db.deleteSessionScoresForRun runId projectId) hf

theorem beginSessionRun_updateRunStatus (status : EvaluationStatus) (error : Option String)
    (now : DateTime) : (db.updateRunStatus runId status error now).beginSessionRun runId projectId =
      db.beginSessionRun runId projectId :=
  beginTraceRun_updateRunStatus runId projectId (db.deleteSessionScoresForRun runId projectId) ..

theorem beginSessionRun_deleteScoresForRun :
    (db.deleteScoresForRun runId projectId).beginSessionRun runId projectId =
      db.beginSessionRun runId projectId :=
  beginTraceRun_deleteScoresForRun runId projectId (db.deleteSessionScoresForRun runId projectId)

theorem beginSessionRun_deleteSessionScoresForRun :
    (db.deleteSessionScoresForRun runId projectId).beginSessionRun runId projectId =
      db.beginSessionRun runId projectId := by
  have h : (db.deleteSessionScoresForRun runId projectId).deleteSessionScoresForRun runId projectId =
      db.deleteSessionScoresForRun runId projectId := by
    simp [deleteSessionScoresForRun]
  simp only [beginSessionRun, h]

theorem beginSessionRun_advance {scores : List TraceScore} {sessionScores : List SessionScore}
    (h : ∀ s ∈ scores, ofRun runId projectId s)
    (hs : ∀ s ∈ sessionScores, sessionOfRun runId projectId s) (done failed : Int) :
    (db.advance runId scores sessionScores done failed).beginSessionRun runId projectId =
      db.beginSessionRun runId projectId := by
  have hnew : sessionScores.filter (fun s => !sessionOfRun runId projectId s) = [] := by
    simpa [List.filter_eq_nil_iff] using hs
  have hdelete : (db.advance runId scores sessionScores done failed).deleteSessionScoresForRun runId
      projectId = (db.deleteSessionScoresForRun runId projectId).advance runId scores [] done
        failed := by
    simp [advance, deleteSessionScoresForRun, hnew]
  show ((db.advance runId scores sessionScores done failed).deleteSessionScoresForRun runId
    projectId).beginTraceRun runId projectId = _
  rw [hdelete]
  exact beginTraceRun_advance runId projectId _ h done failed

end EvalDb

namespace SessionEval
variable {F : Type} (env : EvalEnv F) (answers : Answers F) (task : SessionTask)

/-- The scores stored for a signal are of the run and have the signal's name. -/
theorem resolveSignal_spec (model : Option String) (tr : Trace) (prior : List Trace) (s : Signal)
    (tick : Nat) : ∀ row ∈ (resolveSignal env answers task model tr prior s none [] tick).1,
      row.name = s.name ∧ EvalDb.ofRun task.runId task.projectId row = true := by
  have hscore : ∀ tick value status reason metadata, ∀ row ∈
      [signalScore env task tr s tick value status reason metadata],
      row.name = s.name ∧ EvalDb.ofRun task.runId task.projectId row = true := by
    simp [signalScore, EvalDb.ofRun]
  simp only [resolveSignal]
  split
  · split
    · exact hscore _ _ _ _ _
    · exact hscore _ _ _ _ _
  · exact hscore _ _ _ _ _

/-- **A metric's score, whether it failed or not, is one of the run, for the session and the
metric; it is marked FAILED exactly when the failure is counted.** -/
theorem metricScore_spec (run : EvalRun F) (sid : String) (traces : List Trace)
    (signals : SessionSignals F) (tick : Nat) (name : String) :
    let r := metricScore env task run sid traces signals tick name
    r.1.sessionId = sid ∧ r.1.name = name ∧ (r.1.status = .failed ↔ r.2 = true) ∧
      EvalDb.sessionOfRun task.runId task.projectId r.1 = true := by
  simp only [metricScore]
  split
  · split
    · simp [sessionScore, EvalDb.sessionOfRun]
    · simp [sessionScore, EvalDb.sessionOfRun]
  · simp [sessionScore, EvalDb.sessionOfRun]

theorem keeps_signalsProg (model : Option String) (tr : Trace) (prior : List Trace)
    {next : Nat → Signals F → Prog (EvalDb F)}
    (hnext : ∀ tick acc, (next tick acc).Keeps (EvalDb.beginSessionRun task.runId task.projectId))
    (l : List Signal) (tick : Nat) (acc : Signals F) :
    (signalsProg env answers task model tr prior l tick acc next).Keeps
      (EvalDb.beginSessionRun task.runId task.projectId) := by
  induction l generalizing tick acc with
  | nil => exact hnext tick acc
  | cons s rest ih =>
    refine .read fun db => ?_
    split
    · exact .raise
    · exact ih _ _
    · refine .write (fun db => ?_) (ih _ _)
      have h := EvalDb.beginSessionRun_advance task.runId task.projectId db
        (fun row hrow => (resolveSignal_spec env answers task model tr prior s tick row hrow).2)
        (List.forall_mem_nil _) 0 0
      simpa [EvalDb.advance] using h

theorem keeps_tracesProg (model : Option String) {next : Nat → SessionSignals F → Prog (EvalDb F)}
    (hnext : ∀ tick acc, (next tick acc).Keeps (EvalDb.beginSessionRun task.runId task.projectId))
    (prior l : List Trace) (tick : Nat) (acc : SessionSignals F) :
    (tracesProg env answers task model prior l tick acc next).Keeps
      (EvalDb.beginSessionRun task.runId task.projectId) := by
  induction l generalizing prior tick acc with
  | nil => exact hnext tick acc
  | cons tr rest ih =>
    exact keeps_signalsProg env answers task model tr prior (fun _ _ => ih _ _ _) _ _ _

theorem keeps_sessionMetricsProg (run : EvalRun F) (sid : String) (traces : List Trace)
    (signals : SessionSignals F) {next : Nat → Prog (EvalDb F)}
    (hnext : ∀ tick, (next tick).Keeps (EvalDb.beginSessionRun task.runId task.projectId))
    (names : List String) (tick : Nat) :
    (sessionMetricsProg env task run sid traces signals names tick next).Keeps
      (EvalDb.beginSessionRun task.runId task.projectId) := by
  induction names generalizing tick with
  | nil => exact hnext tick
  | cons name rest ih =>
    -- the session scores of the run are deleted by the next start
    have hscore : ∀ db : EvalDb F, (db.addSessionScore
        (metricScore env task run sid traces signals tick name).1).beginSessionRun task.runId
          task.projectId = db.beginSessionRun task.runId task.projectId := by
      intro db
      rw [db.addSessionScore_eq task.runId]
      apply EvalDb.beginSessionRun_advance
      · exact List.forall_mem_nil _
      · simpa using (metricScore_spec env task run sid traces signals tick name).2.2.2
    rw [sessionMetricsProg]
    split
    · refine .write hscore (.write (fun db => ?_) (ih _))
      exact EvalDb.beginSessionRun_updateRun _ _ db fun _ => rfl
    · exact .write hscore (ih _)

theorem keeps_sessionsProg (run : EvalRun F) (sids : List String) (tick : Nat) :
    (sessionsProg env answers task run sids tick).Keeps
      (EvalDb.beginSessionRun task.runId task.projectId) := by
  have hdone : ∀ db : EvalDb F, (db.incrementProgress task.runId).beginSessionRun task.runId
      task.projectId = db.beginSessionRun task.runId task.projectId := fun db =>
    EvalDb.beginSessionRun_updateRun _ _ db fun _ => rfl
  induction sids generalizing tick with
  | nil => exact .write (fun db => db.beginSessionRun_updateRunStatus _ _ _ _ _) (.commit .done)
  | cons sid rest ih =>
    refine .read fun db => ?_
    split
    · exact .write hdone (.commit (ih tick))
    · refine keeps_tracesProg env answers task _ (fun tick signals => .commit ?_) _ _ _ _
      exact keeps_sessionMetricsProg env task run _ _ _
        (fun tick => .write hdone (.commit (ih tick))) _ _

/-- **A stopped attempt at a run of sessions is undone by the next one's start.** -/
theorem keeps_sessionEvalProg : (sessionEvalProg env answers task).Keeps
    (EvalDb.beginSessionRun task.runId task.projectId) := by
  refine .write (fun db => db.beginSessionRun_deleteSessionScoresForRun _ _)
    (.write (fun db => db.beginSessionRun_deleteScoresForRun _ _)
      (.write (fun db => EvalDb.beginSessionRun_updateRun _ _ db fun _ => rfl)
        (.write (fun db => db.beginSessionRun_updateRunStatus _ _ _ _ _)
          (.commit (.read fun db => ?_)))))
  split
  · exact .raise
  · exact keeps_sessionsProg env answers task _ _ _

end SessionEval

/-! ## An attempt that completes -/

/-- The tables with what an attempt has recorded so far. -/
def EvalDb.withProgress {F : Type} (db : EvalDb F) (runId : UUID) (stored : List TraceScore)
    (p : EvalProgress F) : EvalDb F :=
  { db with
    scores := stored ++ p.created
    sessionScores := p.sessionScores
    runs := Function.update db.runs runId (some p.run) }

namespace SessionEval
variable {F : Type} (env : EvalEnv F) (answers : Answers F) (task : SessionTask)

theorem resolveSignal_append (model : Option String) (tr : Trace) (prior : List Trace) (s : Signal)
    (created : List TraceScore) (tick : Nat) :
    resolveSignal env answers task model tr prior s none created tick =
      (created ++ (resolveSignal env answers task model tr prior s none [] tick).1,
        (resolveSignal env answers task model tr prior s none [] tick).2) := by
  simp only [resolveSignal]
  split
  · split
    · rfl
    · rfl
  · rfl

theorem complete_signalsProg (model : Option String) (tr : Trace) (prior : List Trace)
    (next : Nat → Signals F → Prog (EvalDb F)) (stored : List TraceScore) (c db : EvalDb F)
    (l : List Signal) (created : List TraceScore) (tick : Nat) (acc : Signals F) :
    (signalsProg env answers task model tr prior l tick acc next).complete c
        { db with scores := stored ++ created } =
      (signalLoop env answers task (fun created => readSignal env (stored ++ created)) model tr prior
        l created tick acc).bind fun r =>
          (next r.2.1 r.2.2).complete c { db with scores := stored ++ r.1 } := by
  induction l generalizing created tick acc with
  | nil => rfl
  | cons s rest ih =>
    rw [signalsProg, Prog.complete_read, signalLoop]
    dsimp only
    -- the stored score does not parse, there is none, or it is reused
    rcases readSignal env (stored ++ created) tr.traceId s with _ | (_ | x)
    · rfl
    · dsimp only [Option.bind_some]
      rw [Prog.complete_write, resolveSignal_append env answers task model tr prior s created tick,
        List.append_assoc]
      exact ih _ _ _
    · exact ih _ _ _

theorem complete_tracesProg (model : Option String)
    (next : Nat → SessionSignals F → Prog (EvalDb F)) (stored : List TraceScore) (c db : EvalDb F)
    (prior l : List Trace) (created : List TraceScore) (tick : Nat) (acc : SessionSignals F) :
    (tracesProg env answers task model prior l tick acc next).complete c
        { db with scores := stored ++ created } =
      (traceLoop env answers task (fun created => readSignal env (stored ++ created)) model prior
        l created tick acc).bind fun r =>
          (next r.2.1 r.2.2).complete c { db with scores := stored ++ r.1 } := by
  induction l generalizing prior created tick acc with
  | nil => rfl
  | cons tr rest ih =>
    rw [tracesProg, complete_signalsProg, traceLoop, Option.bind_assoc]
    simp only [ih]

theorem metricScore_congr {run run' : EvalRun F} (h : started run' = started run) (sid : String)
    (traces : List Trace) (signals : SessionSignals F) (tick : Nat) (name : String) :
    metricScore env task run' sid traces signals tick name =
      metricScore env task run sid traces signals tick name := by
  have hw := congrArg EvalRun.signalWeights h
  simp only [started] at hw
  simp only [metricScore, hw]

theorem complete_sessionMetricsProg {run : EvalRun F} (sid : String) (traces : List Trace)
    (signals : SessionSignals F) (next : Nat → Prog (EvalDb F)) (stored : List TraceScore)
    (c db : EvalDb F) (names : List String) {p : EvalProgress F} (hp : started p.run = started run) :
    (sessionMetricsProg env task run sid traces signals names p.tick next).complete c
        (db.withProgress task.runId stored p) =
      (next (metricLoop env task sid traces signals names p).tick).complete c
        (db.withProgress task.runId stored (metricLoop env task sid traces signals names p)) := by
  induction names generalizing p with
  | nil => rfl
  | cons name rest ih =>
    rw [sessionMetricsProg, metricLoop, metricScore_congr env task hp]
    cases hfail : (metricScore env task run sid traces signals p.tick name).2 with
    | true =>
      simp only [if_true, Prog.complete_write]
      rw [← ih (by exact hp)]
      simp [EvalDb.withProgress, EvalDb.addSessionScore, EvalDb.incrementFailed, EvalDb.updateRun]
    | false =>
      simp only [Bool.false_eq_true, if_false, Prog.complete_write]
      rw [← ih (by exact hp)]
      rfl

/-- From one progress to another: session scores for the given pairs of a session and a
metric, the failed ones counted, and a number of sessions done. -/
def Grows (pairs : List (String × String)) (done : Nat) (p p' : EvalProgress F) : Prop :=
  ∃ new : List SessionScore,
    p'.sessionScores = p.sessionScores ++ new ∧
    new.map (fun s => (s.sessionId, s.name)) = pairs ∧
    (∀ s ∈ new, EvalDb.sessionOfRun task.runId task.projectId s = true) ∧
    p'.run = { p.run with
      evaluatedCount := p.run.evaluatedCount + done
      failedCount := p.run.failedCount + new.countP (fun s => s.status = .failed) }

theorem Grows.trans {pairs₁ pairs₂ : List (String × String)} {d₁ d₂ : Nat}
    {p p' p'' : EvalProgress F} (h₁ : Grows task pairs₁ d₁ p p') (h₂ : Grows task pairs₂ d₂ p' p'') :
    Grows task (pairs₁ ++ pairs₂) (d₁ + d₂) p p'' := by
  obtain ⟨new₁, hscores₁, rfl, hof₁, hrun₁⟩ := h₁
  obtain ⟨new₂, hscores₂, rfl, hof₂, hrun₂⟩ := h₂
  refine ⟨new₁ ++ new₂, ?_, List.map_append, List.forall_mem_append.mpr ⟨hof₁, hof₂⟩, ?_⟩
  · rw [hscores₂, hscores₁, List.append_assoc]
  · rw [hrun₂, hrun₁]
    simp [add_assoc]

theorem Grows.started_run {pairs : List (String × String)} {done : Nat} {p p' : EvalProgress F}
    (h : Grows task pairs done p p') : started p'.run = started p.run := by
  obtain ⟨new, -, -, -, hrun⟩ := h
  rw [hrun]
  rfl

theorem Grows.metricNames {pairs : List (String × String)} {done : Nat} {p p' : EvalProgress F}
    (h : Grows task pairs done p p') : p'.run.metricNames = p.run.metricNames := by
  obtain ⟨new, -, -, -, hrun⟩ := h
  rw [hrun]

theorem metricLoop_grows (sid : String) (traces : List Trace) (signals : SessionSignals F)
    (names : List String) (p : EvalProgress F) :
    Grows task (names.map (Prod.mk sid)) 0 p (metricLoop env task sid traces signals names p) := by
  induction names generalizing p with
  | nil => exact ⟨[], by simp [metricLoop]⟩
  | cons name rest ih =>
    rw [metricLoop, List.map_cons]
    refine Grows.trans task (?_ : Grows task [(sid, name)] 0 p _) (ih _)
    obtain ⟨hsid, hname, hfailed, hof⟩ :=
      metricScore_spec env task p.run sid traces signals p.tick name
    refine ⟨_, rfl, by simp only [List.map_cons, List.map_nil, hsid, hname], by simpa using hof, ?_⟩
    cases h : (metricScore env task p.run sid traces signals p.tick name).2 with
    | true => simp [hfailed.mpr h]
    | false =>
      have hok : ¬ (metricScore env task p.run sid traces signals p.tick name).1.status = .failed := by
        rw [hfailed, h]
        decide
      simp [hok]

/-- Whether a project has traces of a session. -/
def hasTraces (table : List Trace) (sid : String) : Bool :=
  !(sessionTraces table task.projectId sid).isEmpty

theorem processSession_grows {read : Reader F} {table : List Trace} {p p' : EvalProgress F}
    {sid : String} (h : processSession env answers task read table p sid = some p') :
    Grows task (if hasTraces task table sid then p.run.metricNames.map (Prod.mk sid) else []) 1
      p p' := by
  rw [processSession] at h
  cases htr : sessionTraces table task.projectId sid with
  | nil =>
    rw [htr] at h
    obtain rfl := Option.some.inj h
    exact ⟨[], by simp [hasTraces, htr, incrementProgress]⟩
  | cons tr more =>
    rw [htr] at h
    obtain ⟨r, -, rfl⟩ := Option.map_eq_some_iff.mp h
    obtain ⟨new, hscores, hkeys, hof, hrun⟩ := metricLoop_grows env task sid (tr :: more) r.2.2
      p.run.metricNames
      { p with created := r.1, tick := r.2.1, signals := p.signals ++ [(sid, r.2.2)] }
    refine ⟨new, hscores, by simpa [hasTraces, htr] using hkeys, hof, ?_⟩
    rw [incrementProgress, hrun]
    simp

theorem sessionLoop_grows {read : Reader F} {table : List Trace} {sids : List String}
    {p : EvalProgress F} (h : (sessionLoop env answers task read table sids p).2 = false) :
    Grows task (listedPairs sids (hasTraces task table) (fun _ => p.run.metricNames)) sids.length
      p (sessionLoop env answers task read table sids p).1 := by
  induction sids generalizing p with
  | nil => exact ⟨[], by simp [sessionLoop, listedPairs]⟩
  | cons sid rest ih =>
    rw [sessionLoop] at h ⊢
    cases hone : processSession env answers task read table p sid with
    | none => simp [hone] at h
    | some p' =>
      rw [hone] at h
      have hstep := processSession_grows env answers task hone
      have hrest := ih h
      rw [hstep.metricNames] at hrest
      rw [listedPairs_cons, List.length_cons, Nat.add_comm]
      exact Grows.trans task hstep hrest

theorem complete_sessionsProg {run : EvalRun F} (stored : List TraceScore) (db : EvalDb F)
    (sids : List String) {p : EvalProgress F} (hp : started p.run = started run) :
    (sessionsProg env answers task run sids p.tick).complete (db.withProgress task.runId stored p)
        (db.withProgress task.runId stored p) =
      let r := sessionLoop env answers task (fun created => readSignal env (stored ++ created))
        db.traces sids p
      if r.2 then none else
        some ((db.withProgress task.runId stored r.1).updateRunStatus task.runId .completed none
          (env.clock r.1.tick)) := by
  induction sids generalizing p with
  | nil => rfl
  | cons sid rest ih =>
    have hmodel := congrArg EvalRun.model hp
    have hnames := congrArg EvalRun.metricNames hp
    simp only [started] at hmodel hnames
    rw [sessionsProg, Prog.complete_read, sessionLoop, processSession]
    show (match sessionTraces db.traces task.projectId sid with
      | [] => _
      | tr :: more => _ : Prog (EvalDb F)).complete _ _ = _
    cases htr : sessionTraces db.traces task.projectId sid with
    | nil =>
      dsimp only
      rw [Prog.complete_write, Prog.complete_commit, ← ih (p := incrementProgress p) hp]
      simp [EvalDb.withProgress, EvalDb.incrementProgress, EvalDb.updateRun, incrementProgress]
    | cons tr more =>
      refine (complete_tracesProg env answers task run.model _ stored _
        (db.withProgress task.runId stored p) [] (tr :: more) p.created p.tick []).trans ?_
      rw [hmodel]
      dsimp only
      cases traceLoop env answers task (fun created => readSignal env (stored ++ created)) run.model
          [] (tr :: more) p.created p.tick [] with
      | none => rfl
      | some r =>
        -- `q` is what is recorded at the commit of the signals, `q'` after the metrics
        let q : EvalProgress F :=
          { p with created := r.1, tick := r.2.1, signals := p.signals ++ [(sid, r.2.2)] }
        let q' := metricLoop env task sid (tr :: more) r.2.2 run.metricNames q
        have hq' : started (incrementProgress q').run = started run :=
          ((metricLoop_grows env task sid (tr :: more) r.2.2 run.metricNames q).started_run).trans hp
        rw [Option.bind_some, Option.map_some, hnames, Prog.complete_commit]
        refine (complete_sessionMetricsProg env task sid (tr :: more) r.2.2 _ stored _ db
          run.metricNames (p := q) hp).trans ?_
        rw [Prog.complete_write, Prog.complete_commit]
        refine Eq.trans ?_ (ih (p := incrementProgress q') hq')
        simp [EvalDb.withProgress, EvalDb.incrementProgress, EvalDb.updateRun, incrementProgress, q']

/-- What an attempt has recorded at its start. -/
def begun (db : EvalDb F) (run : EvalRun F) : EvalProgress F :=
  ⟨[], keptSessionScores task db.sessionScores, started run, 0, []⟩

theorem beginSessionRun_eq {db : EvalDb F} {run : EvalRun F} (h : db.runs task.runId = some run) :
    db.beginSessionRun task.runId task.projectId =
      db.withProgress task.runId (keptScores task db.scores) (begun task db run) := by
  show (db.deleteSessionScoresForRun task.runId task.projectId).beginTraceRun task.runId
    task.projectId = _
  rw [EvalDb.beginTraceRun_eq]
  simp [EvalDb.withProgress, EvalDb.updateRun, EvalDb.deleteScoresForRun,
    EvalDb.deleteSessionScoresForRun, EvalDb.ofRun, EvalDb.sessionOfRun, keptScores,
    keptSessionScores, begun, h]

theorem getEvalRun_beginSessionRun (db : EvalDb F) :
    (db.beginSessionRun task.runId task.projectId).getEvalRun task.runId task.projectId =
      (db.getEvalRun task.runId task.projectId).map started :=
  EvalDb.getEvalRun_beginTraceRun task.runId task.projectId
    (db.deleteSessionScoresForRun task.runId task.projectId)

/-- The loop of an attempt on the tables as it finds them. -/
def attemptLoop (db : EvalDb F) (run : EvalRun F) : EvalProgress F × Bool :=
  sessionLoop env answers task
    (fun created => readSignal env (keptScores task db.scores ++ created)) db.traces
    task.sessionIds (begun task db run)

/-- **What an attempt at a run of sessions leaves.** -/
theorem complete_sessionEvalProg (db : EvalDb F) :
    (sessionEvalProg env answers task).complete db db =
      (db.getEvalRun task.runId task.projectId).bind fun run =>
        let r := attemptLoop env answers task db run
        if r.2 then none else
          some ((db.withProgress task.runId (keptScores task db.scores) r.1).updateRunStatus
            task.runId .completed none (env.clock r.1.tick)) := by
  show (match (db.beginSessionRun task.runId task.projectId).getEvalRun task.runId
      task.projectId with
    | none => Prog.raise
    | some run => sessionsProg env answers task run task.sessionIds 0).complete
      (db.beginSessionRun task.runId task.projectId)
      (db.beginSessionRun task.runId task.projectId) = _
  rw [getEvalRun_beginSessionRun]
  cases hrun : db.getEvalRun task.runId task.projectId with
  | none => rfl
  | some run =>
    obtain ⟨hrow, -⟩ := Option.filter_eq_some_iff.mp hrun
    rw [beginSessionRun_eq task hrow]
    exact @complete_sessionsProg F env answers task (started run) (keptScores task db.scores) db
      task.sessionIds (begun task db run) rfl

/-- The records of an attempt that is completed. -/
def EvalProgress.completed (p : EvalProgress F) : EvalProgress F :=
  { p with run := { p.run with
      status := .completed, errorMessage := none, completedAt := some (env.clock p.tick) } }

theorem runSessionEval_eq (db : EvalDb F) : runSessionEval env answers task db =
    (db.getEvalRun task.runId task.projectId).map fun run =>
      let r := attemptLoop env answers task db run
      ⟨if r.2 then r.1 else EvalProgress.completed env r.1, r.2⟩ := by
  rw [EvalDb.getEvalRun, runSessionEval]
  cases hrow : db.runs task.runId with
  | none => rfl
  | some run =>
    by_cases hproject : run.projectId = task.projectId
    · simp only [Option.filter_some, hproject, decide_true, if_true, Option.map_some]
      rfl
    · simp [hproject]

theorem withProgress_completed (db : EvalDb F) (stored : List TraceScore) (p : EvalProgress F) :
    (db.withProgress task.runId stored p).updateRunStatus task.runId .completed none
      (env.clock p.tick) = db.withProgress task.runId stored (EvalProgress.completed env p) := by
  simp [EvalDb.withProgress, EvalDb.updateRunStatus, EvalDb.updateRun, EvalProgress.completed]

/-- **An uninterrupted attempt of the program leaves what `runSessionEval` records.** -/
theorem complete_eq_runSessionEval (db : EvalDb F) :
    (sessionEvalProg env answers task).complete db db =
      (runSessionEval env answers task db).bind fun r =>
        if r.aborted then none else
          some (db.withProgress task.runId (keptScores task db.scores) r.progress) := by
  rw [complete_sessionEvalProg, runSessionEval_eq, Option.bind_map]
  congr 1
  funext run
  simp only [withProgress_completed, Function.comp_apply]
  split
  · rfl
  · rfl

/-- The start has deleted the run's older session scores: what is there of the run is new. -/
theorem filter_sessionScores {db : EvalDb F} {run : EvalRun F} {p : EvalProgress F}
    {new : List SessionScore} (hscores : p.sessionScores = (begun task db run).sessionScores ++ new)
    (hof : ∀ s ∈ new, EvalDb.sessionOfRun task.runId task.projectId s = true) :
    p.sessionScores.filter (EvalDb.sessionOfRun task.runId task.projectId) = new := by
  rw [hscores, List.filter_append, List.filter_eq_self.mpr hof]
  simp [begun, keptSessionScores, EvalDb.sessionOfRun]

/-- What a loop over all the sessions has recorded, from the start of the attempt, is a
completed run. -/
theorem Grows.completedRun {db : EvalDb F} {run : EvalRun F} {known : String → Bool}
    {p : EvalProgress F} (hn : run.metricNames.Nodup)
    (h : Grows task (listedPairs task.sessionIds known (fun _ => run.metricNames))
      task.sessionIds.length (begun task db run) p) :
    CompletedRun (EvalProgress.completed env p).run task.sessionIds known
      (fun _ => run.metricNames)
      ((p.sessionScores.filter (EvalDb.sessionOfRun task.runId task.projectId)).map
        SessionScore.entry) := by
  obtain ⟨new, hscores, hkeys, hof, hrun⟩ := h
  rw [filter_sessionScores task hscores hof]
  exact
    { status := rfl
      no_error := rfl
      evaluated := by
        rw [EvalProgress.completed, hrun]
        exact Int.zero_add _
      failed := by
        rw [EvalProgress.completed, hrun, List.countP_map]
        exact Int.zero_add _
      once := once_of_listed (by rw [List.map_map]; exact hkeys) task.sessionIds_nodup
        (fun _ _ => hn) }

/-- **A completed attempt leaves a completed run.** -/
theorem completed_sessionEvalProg {db fin : EvalDb F}
    (h : (sessionEvalProg env answers task).complete db db = some fin)
    (hn : ∀ run, db.getEvalRun task.runId task.projectId = some run → run.metricNames.Nodup) :
    ∃ run, fin.getEvalRun task.runId task.projectId = some run ∧
      CompletedRun run task.sessionIds (hasTraces task fin.traces) (fun _ => run.metricNames)
        ((fin.getSessionScoresForRun task.runId task.projectId).map SessionScore.entry) := by
  rw [complete_sessionEvalProg] at h
  obtain ⟨run, hrun, h⟩ := Option.bind_eq_some_iff.mp h
  obtain ⟨hrow, hproject⟩ := Option.filter_eq_some_iff.mp hrun
  simp only [decide_eq_true_eq] at hproject
  dsimp only at h
  split at h
  · cases h
  next hdone =>
    obtain rfl := Option.some.inj h
    rw [withProgress_completed]
    -- the whole loop went through, so it recorded every listed pair
    have hgrows : Grows task _ _ (begun task db run) (attemptLoop env answers task db run).1 :=
      sessionLoop_grows env answers task (Bool.eq_false_of_not_eq_true hdone)
    have hnames : (attemptLoop env answers task db run).1.run.metricNames = run.metricNames :=
      hgrows.metricNames
    have hof : (attemptLoop env answers task db run).1.run.projectId = task.projectId :=
      (congrArg EvalRun.projectId hgrows.started_run : _).trans hproject
    refine ⟨(EvalProgress.completed env (attemptLoop env answers task db run).1).run, ?_, ?_⟩
    · simp [EvalDb.getEvalRun, EvalDb.withProgress, EvalProgress.completed, hof]
    · have hcompleted := hgrows.completedRun env task (hn run hrun)
      rw [← hnames] at hcompleted
      exact hcompleted

end SessionEval
end PandaProbe
