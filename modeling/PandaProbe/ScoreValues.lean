import PandaProbe.TaskInvariants
import PandaProbe.GuardedRun

/-! # Scores marked successful

Who writes trace scores: `create_score` and `update_score` of the service, the two run tasks,
and deletions.  A row that is marked SUCCESS should hold a value that is valid for its data
type; one that FAILED holds none.

Every writer keeps that but one: an edit marks the score SUCCESS whatever it changes, so an
edit of the reason of a FAILED score leaves a SUCCESS without a value.  The rows are in order in
every run in which an edit gives a value to a score that has none (`InTurn`).

The run tasks are the programs of `EvalRunTask` and `SessionEvalTask`, any number of them side
by side, with the calls of the service between any two of their statements.
-/
namespace PandaProbe
open Restart

/-- The row after an edit; what is not given stays. -/
def TraceScore.edited (row : TraceScore) (value reason : Option String)
    (metadata : Option JsonDict) (now : DateTime) : TraceScore :=
  { row with
    value := value.or row.value
    reason := reason.or row.reason
    metadata := metadata.getD row.metadata
    status := .success
    source := ScoreSource.annotation
    updatedAt := now }

namespace EvalDb
variable {F : Type} (env : EvalEnv F) (db : EvalDb F)

/-- The row is the score of this id and project. -/
def isScore (scoreId projectId : UUID) (row : TraceScore) : Bool :=
  row.id == scoreId && row.projectId == projectId

/-- `get_score_by_id`: there must be one row, and `TraceScore` must accept its value. -/
def getScoreById (scoreId projectId : UUID) : Option TraceScore :=
  match db.scores.filter (isScore scoreId projectId) with
  | [row] => if row.value.all (validateScoreValue env · row.dataType) then some row else none
  | _ => none

/-- `EvalService.update_score`; `none` when it raises. -/
def updateScore (scoreId projectId : UUID) (value reason : Option String)
    (metadata : Option JsonDict) (now : DateTime) : Option (EvalDb F) :=
  match db.getScoreById env scoreId projectId with
  | none => none
  | some existing =>
    if value.all (validateScoreValue env · existing.dataType) then
      some { db with
        scores := db.scores.map fun row =>
          if isScore scoreId projectId row then row.edited value reason metadata now else row }
    else none

/-- `delete_score`. -/
def deleteScore (scoreId projectId : UUID) : EvalDb F :=
  { db with scores := db.scores.filter (fun row => !isScore scoreId projectId row) }

/-- Deleting a run, with its scores or without; scores that stay lose their run. -/
def deleteEvalRun (runId projectId : UUID) (session deleteScores : Bool) : EvalDb F :=
  let db := if deleteScores && session then db.deleteSessionScoresForRun runId projectId else db
  let db := if deleteScores then db.deleteScoresForRun runId projectId else db
  { db with
    scores := db.scores.map fun row =>
      if row.evalRunId = some runId then { row with evalRunId := none } else row
    sessionScores := db.sessionScores.map fun row =>
      if row.evalRunId = some runId then { row with evalRunId := none } else row
    runs := Function.update db.runs runId none }

/-- Deleting traces; their scores go with them. -/
def deleteTraces (p : Trace → Bool) : EvalDb F where
  traces := db.traces.filter (fun t => !p t)
  scores := db.scores.filter
    (fun row => !db.traces.any (fun t => p t && t.traceId == row.traceId))
  sessionScores := db.sessionScores
  runs := db.runs
  traces_nodup := db.traces_nodup.sublist (List.filter_sublist.map _)

end EvalDb

/-- The database, and the run tasks under way. -/
structure ScoreRun (F : Type) where
  db : EvalDb F
  worker : Nat → Option (Worker (EvalDb F))

/-- What can happen next.  `elsewhere` is any change of the other tables. -/
inductive ScoreAct (F : Type)
  | createScore (projectId traceId : UUID) (name value : String) (dataType : ScoreDataType)
      (source : ScoreSource) (reason : Option String) (metadata : JsonDict) (id : UUID)
      (now : DateTime)
  | updateScore (scoreId projectId : UUID) (value reason : Option String)
      (metadata : Option JsonDict) (now : DateTime)
  | deleteScore (scoreId projectId : UUID)
  | deleteEvalRun (runId projectId : UUID) (session deleteScores : Bool)
  | deleteTraces (p : Trace → Bool)
  | runEvalRun (w : Nat) (metrics : TraceMetrics F) (task : TraceTask)
  | runSessionEval (w : Nat) (answers : Answers F) (task : SessionTask)
  | work (w : Nat)
  | crash (w : Nat)
  | elsewhere (traces : List Trace) (sessionScores : List SessionScore)
      (runs : UUID → Option (EvalRun F)) (nodup : (traces.map Trace.traceId).Nodup)

namespace ScoreRun
open EvalDb
variable {F : Type} (env : EvalEnv F) (s : ScoreRun F)

/-- The worker goes on, or is gone. -/
def setWorker (w : Nat) (x : Option (Worker (EvalDb F))) : ScoreRun F :=
  { s with worker := Function.update s.worker w x }

/-- A call of the service that raises changes nothing. -/
def called (db : Option (EvalDb F)) : ScoreRun F := { s with db := db.getD s.db }

/-- One step. -/
def step : ScoreAct F → Option (ScoreRun F)
  | .createScore projectId traceId name value dataType source reason metadata id now =>
    some (s.called (s.db.createScore env projectId traceId name value dataType source reason
      metadata id now))
  | .updateScore scoreId projectId value reason metadata now =>
    some (s.called (s.db.updateScore env scoreId projectId value reason metadata now))
  | .deleteScore scoreId projectId => some { s with db := s.db.deleteScore scoreId projectId }
  | .deleteEvalRun runId projectId session deleteScores =>
    some { s with db := s.db.deleteEvalRun runId projectId session deleteScores }
  | .deleteTraces p => some { s with db := s.db.deleteTraces p }
  | .runEvalRun w metrics task =>
    match s.worker w with
    | some _ => none
    | none => some (s.setWorker w (some (Worker.start (TraceEval.runEvalRun env metrics task))))
  | .runSessionEval w answers task =>
    match s.worker w with
    | some _ => none
    | none =>
      some (s.setWorker w (some (Worker.start (SessionEval.sessionEvalProg env answers task))))
  | .work w =>
    match s.worker w with
    | none => none
    | some worker =>
      let r := worker.step s.db
      some { s.setWorker w r.2 with db := r.1 }
  | .crash w => some (s.setWorker w none)
  | .elsewhere traces sessionScores runs nodup =>
    some { s with db := ⟨traces, s.db.scores, sessionScores, runs, nodup⟩ }

/-- No run task is under way. -/
def initial (db : EvalDb F) : ScoreRun F := ⟨db, fun _ => none⟩

/-! ## The property and the condition -/

/-- **A score marked SUCCESS** has a value, valid for its data type. -/
def SuccessOk (row : TraceScore) : Prop :=
  row.status = .success → ∃ v, row.value = some v ∧ validateScoreValue env v row.dataType = true

/-- Every stored score that is marked SUCCESS is valid. -/
def Valid (s : ScoreRun F) : Prop := ∀ row ∈ s.db.scores, SuccessOk env row

/-- An edit of a score that has no value gives it one. -/
def InTurn (s : ScoreRun F) : ScoreAct F → Prop
  | .updateScore scoreId projectId value _ _ _ => value = none →
      ∀ existing, s.db.getScoreById env scoreId projectId = some existing → existing.value ≠ none
  | _ => True

/-! ## Rows -/

/-- What every row keeps: a value that is there is valid, and a SUCCESS has one. -/
def RowOk (row : TraceScore) : Prop :=
  row.value.all (validateScoreValue env · row.dataType) = true ∧
    (row.status = .success → row.value ≠ none)

/-- The rows are in order. -/
def Ok (db : EvalDb F) : Prop := ∀ row ∈ db.scores, RowOk env row

variable {env} {s} {s' : ScoreRun F} {db db' : EvalDb F} {row : TraceScore}

theorem successOk_of_rowOk (h : RowOk env row) : SuccessOk env row := by
  intro hstatus
  obtain ⟨v, hv⟩ := Option.ne_none_iff_exists'.mp (h.2 hstatus)
  refine ⟨v, hv, ?_⟩
  simpa [hv] using h.1

theorem rowOk_failed (hvalue : row.value = none) (hstatus : row.status = .failed) :
    RowOk env row := by
  simp [RowOk, hvalue, hstatus]

theorem rowOk_value {v : String} (hvalue : row.value = some v)
    (hvalid : validateScoreValue env v row.dataType = true) : RowOk env row := by
  simp [RowOk, hvalue, hvalid]

theorem ok_append {rows : List TraceScore} (h : Ok env db) (hrows : ∀ row ∈ rows, RowOk env row) :
    Ok env { db with scores := db.scores ++ rows } := by
  intro row hrow
  rcases List.mem_append.mp hrow with hrow | hrow
  · exact h row hrow
  · exact hrows row hrow

theorem ok_of_subset (h : Ok env db) (hsub : ∀ row ∈ db'.scores, row ∈ db.scores) : Ok env db' :=
  fun row hrow => h row (hsub row hrow)

/-! ## The calls of the service -/

theorem ok_createScore {projectId traceId : UUID} {name value : String} {dataType : ScoreDataType}
    {source : ScoreSource} {reason : Option String} {metadata : JsonDict} {id : UUID}
    {now : DateTime} (h : Ok env db)
    (hdb : db.createScore env projectId traceId name value dataType source reason metadata id now =
      some db') : Ok env db' := by
  unfold createScore at hdb
  split at hdb
  next hok =>
    cases hdb
    refine ok_append h fun row hrow => ?_
    rw [List.mem_singleton.mp hrow]
    exact rowOk_value rfl (Bool.and_eq_true_iff.mp hok).1
  · cases hdb

/-- The one row an edit found. -/
theorem getScoreById_spec {scoreId projectId : UUID} {existing : TraceScore}
    (h : db.getScoreById env scoreId projectId = some existing) :
    ∀ row ∈ db.scores, isScore scoreId projectId row = true → row = existing := by
  intro row hrow hscore
  unfold getScoreById at h
  split at h
  next found hfilter =>
    split at h
    · cases h
      have hmem := List.mem_filter.mpr ⟨hrow, hscore⟩
      rw [hfilter] at hmem
      exact List.mem_singleton.mp hmem
    · cases h
  · cases h

theorem mem_of_getScoreById {scoreId projectId : UUID} {existing : TraceScore}
    (h : db.getScoreById env scoreId projectId = some existing) :
    existing ∈ db.scores ∧ isScore scoreId projectId existing = true := by
  unfold getScoreById at h
  split at h
  next found hfilter =>
    split at h
    · cases h
      apply List.mem_filter.mp
      rw [hfilter]
      exact List.mem_singleton_self _
    · cases h
  · cases h

theorem ok_updateScore {scoreId projectId : UUID} {value reason : Option String}
    {metadata : Option JsonDict} {now : DateTime} (h : Ok env db)
    (hvalue : value = none →
      ∀ existing, db.getScoreById env scoreId projectId = some existing → existing.value ≠ none)
    (hdb : db.updateScore env scoreId projectId value reason metadata now = some db') :
    Ok env db' := by
  unfold updateScore at hdb
  split at hdb
  · cases hdb
  next existing hget =>
    split at hdb
    next hvalid =>
      cases hdb
      intro row hrow
      obtain ⟨old, hold, rfl⟩ := List.mem_map.mp hrow
      split
      next hscore =>
        obtain rfl := getScoreById_spec hget old hold hscore
        cases hv : value with
        | none =>
          -- the value stays, and the condition says that there is one
          exact ⟨(h old hold).1, fun _ => hvalue hv old hget⟩
        | some v =>
          have hv' : validateScoreValue env v old.dataType = true := by simpa [hv] using hvalid
          exact rowOk_value (v := v) rfl hv'
      · exact h old hold
    · cases hdb

theorem ok_deleteEvalRun {runId projectId : UUID} {session deleteScores : Bool} (h : Ok env db) :
    Ok env (db.deleteEvalRun runId projectId session deleteScores) := by
  intro row hrow
  obtain ⟨old, hold, rfl⟩ := List.mem_map.mp hrow
  have hmem : old ∈ db.scores := by
    cases deleteScores with
    | false => exact hold
    | true =>
      cases session with
      | false => exact (List.mem_filter.mp hold).1
      | true => exact (List.mem_filter.mp hold).1
  split
  · exact h old hmem
  · exact h old hmem

/-! ## The run tasks -/

theorem rowOk_outcome (task : TraceTask)
    (evaluate : Trace → Option String → Except String (MetricResult F)) (model : Option String)
    (tr : Trace) (name : String) (tick : Nat) :
    RowOk env (TraceEval.outcome env task evaluate model tr name tick).1 := by
  rw [TraceEval.outcome]
  cases evaluate tr model with
  | error exc => exact rowOk_failed rfl rfl
  | ok result =>
    dsimp only
    split
    next hvalid => exact rowOk_value rfl hvalid
    · exact rowOk_failed rfl rfl

theorem rowOk_resolveSignal (answers : Answers F) (task : SessionTask) (model : Option String)
    (tr : Trace) (prior : List Trace) (sig : Signal) (tick : Nat) :
    ∀ row ∈ (SessionEval.resolveSignal env answers task model tr prior sig none [] tick).1,
      RowOk env row := by
  simp only [SessionEval.resolveSignal]
  split
  · split
    next hvalid =>
      intro row hrow
      rw [List.mem_singleton.mp hrow]
      exact rowOk_value rfl hvalid
    · intro row hrow
      rw [List.mem_singleton.mp hrow]
      exact rowOk_failed rfl rfl
  · intro row hrow
    rw [List.mem_singleton.mp hrow]
    exact rowOk_failed rfl rfl

theorem ok_deleteScoresForRun {runId projectId : UUID} (h : Ok env db) :
    Ok env (db.deleteScoresForRun runId projectId) :=
  ok_of_subset h fun _ hrow => (List.mem_filter.mp hrow).1

/-- A run of traces keeps the rows in order. -/
theorem kept_traceTask (metrics : TraceMetrics F) (task : TraceTask) :
    task.Kept env metrics (Ok env) where
  score db name evaluate model tr tick _ h := by
    refine ok_append h fun row hrow => ?_
    rw [List.mem_singleton.mp hrow]
    exact rowOk_outcome task evaluate model tr name tick
  run _ _ _ h := h
  delete _ h := ok_deleteScoresForRun h

/-- A run of sessions keeps the rows in order. -/
theorem kept_sessionTask (answers : Answers F) (task : SessionTask) :
    task.Kept env answers (Ok env) where
  signal _ model tr prior sig tick h :=
    ok_append h (rowOk_resolveSignal answers task model tr prior sig tick)
  metric _ _ _ _ _ _ _ _ _ h := h
  run _ _ _ h := h
  delete _ h := ok_deleteScoresForRun h
  deleteSession _ h := h

/-! ## Runs -/

/-- The tables after a call of the service that goes through; the other steps are those of the
run tasks. -/
def callDb (env : EvalEnv F) (s : ScoreRun F) : ScoreAct F → Option (EvalDb F)
  | .createScore projectId traceId name value dataType source reason metadata id now =>
    s.db.createScore env projectId traceId name value dataType source reason metadata id now
  | .updateScore scoreId projectId value reason metadata now =>
    s.db.updateScore env scoreId projectId value reason metadata now
  | .deleteScore scoreId projectId => some (s.db.deleteScore scoreId projectId)
  | .deleteEvalRun runId projectId session deleteScores =>
    some (s.db.deleteEvalRun runId projectId session deleteScores)
  | .deleteTraces p => some (s.db.deleteTraces p)
  | .elsewhere traces sessionScores runs nodup =>
    some ⟨traces, s.db.scores, sessionScores, runs, nodup⟩
  | _ => none

/-- The tables meet `I`, and no task is about to change that. -/
structure Holds (I : EvalDb F → Prop) (s : ScoreRun F) : Prop where
  db : I s.db
  workers : ∀ w x, s.worker w = some x → x.Preserves I

section Holds
variable {I : EvalDb F → Prop} {a : ScoreAct F}

theorem holds_setWorker {w : Nat} {x : Option (Worker (EvalDb F))} (h : Holds I s) (hdb : I db)
    (hx : ∀ y, x = some y → y.Preserves I) : Holds I { s.setWorker w x with db := db } := by
  refine ⟨hdb, fun u y hy => ?_⟩
  by_cases hu : u = w
  · subst hu
    exact hx y (by simpa [setWorker] using hy)
  · exact h.workers u y (by simpa [setWorker, hu] using hy)

theorem holds_called {db : Option (EvalDb F)} (h : Holds I s) (hdb : ∀ db', db = some db' → I db') :
    Holds I (s.called db) := by
  refine ⟨?_, h.workers⟩
  cases db with
  | none => exact h.db
  | some db' => exact hdb db' rfl

/-- **One step keeps** what the calls of the service and the writes of the run tasks keep. -/
theorem holds_step (h : Holds I s) (htrace : ∀ metrics (task : TraceTask), task.Kept env metrics I)
    (hsession : ∀ answers (task : SessionTask), task.Kept env answers I)
    (hcall : ∀ db', callDb env s a = some db' → I db') (hs : s.step env a = some s') :
    Holds I s' := by
  cases a with
  | createScore projectId traceId name value dataType source reason metadata id now =>
    cases hs
    exact holds_called h hcall
  | updateScore scoreId projectId value reason metadata now =>
    cases hs
    exact holds_called h hcall
  | deleteScore scoreId projectId =>
    cases hs
    exact ⟨hcall _ rfl, h.workers⟩
  | deleteEvalRun runId projectId session deleteScores =>
    cases hs
    exact ⟨hcall _ rfl, h.workers⟩
  | deleteTraces p =>
    cases hs
    exact ⟨hcall _ rfl, h.workers⟩
  | runEvalRun w metrics task =>
    simp only [step] at hs
    split at hs
    · cases hs
    · cases hs
      refine holds_setWorker h h.db fun y hy => ?_
      cases hy
      exact ⟨TraceEval.preserves_runEvalRun (htrace metrics task), fun f hf => by cases hf⟩
  | runSessionEval w answers task =>
    simp only [step] at hs
    split at hs
    · cases hs
    · cases hs
      refine holds_setWorker h h.db fun y hy => ?_
      cases hy
      exact ⟨SessionEval.preserves_sessionEvalProg (hsession answers task), fun f hf => by cases hf⟩
  | work w =>
    simp only [step] at hs
    split at hs
    · cases hs
    next x hx =>
      cases hs
      obtain ⟨hdb, hgoes⟩ := Worker.step_preserves (h.workers w x hx) h.db
      exact holds_setWorker h hdb hgoes
  | crash w =>
    cases hs
    exact holds_setWorker h h.db fun y hy => by cases hy
  | elsewhere traces sessionScores runs nodup =>
    cases hs
    exact ⟨hcall _ rfl, h.workers⟩

end Holds

/-- The rows are in order, and no task is about to change that. -/
structure Sound (env : EvalEnv F) (s : ScoreRun F) : Prop where
  rows : Ok env s.db
  workers : ∀ w x, s.worker w = some x → x.Preserves (Ok env)

theorem sound_step {a : ScoreAct F} (h : Sound env s) (ha : s.InTurn env a)
    (hs : s.step env a = some s') : Sound env s' := by
  have hcall : ∀ db', callDb env s a = some db' → Ok env db' := by
    intro db' hdb
    cases a with
    | createScore projectId traceId name value dataType source reason metadata id now =>
      exact ok_createScore h.rows hdb
    | updateScore scoreId projectId value reason metadata now =>
      exact ok_updateScore h.rows ha hdb
    | deleteScore scoreId projectId =>
      cases hdb
      exact ok_of_subset h.rows fun _ hrow => (List.mem_filter.mp hrow).1
    | deleteEvalRun runId projectId session deleteScores =>
      cases hdb
      exact ok_deleteEvalRun h.rows
    | deleteTraces p =>
      cases hdb
      exact ok_of_subset h.rows fun _ hrow => (List.mem_filter.mp hrow).1
    | elsewhere traces sessionScores runs nodup =>
      cases hdb
      exact h.rows
    | runEvalRun w metrics task => cases hdb
    | runSessionEval w answers task => cases hdb
    | work w => cases hdb
    | crash w => cases hdb
  obtain ⟨hrows, hworkers⟩ := holds_step ⟨h.rows, h.workers⟩ kept_traceTask kept_sessionTask hcall hs
  exact ⟨hrows, hworkers⟩

/-- An edit that gives no value to a score that has none leaves a SUCCESS without a value. -/
theorem not_valid_of_edit {a : ScoreAct F} (ha : ¬ InTurn env s a)
    (hs : s.step env a = some s') : ¬ Valid env s' := by
  cases a with
  | updateScore scoreId projectId value reason metadata now =>
    simp only [InTurn, not_forall, not_not] at ha
    obtain ⟨hvalue, existing, hget, hnone⟩ := ha
    obtain ⟨hmem, hscore⟩ := mem_of_getScoreById hget
    have hdb : s.db.updateScore env scoreId projectId value reason metadata now = some
        { s.db with scores := s.db.scores.map fun row => if isScore scoreId projectId row then
          row.edited value reason metadata now else row } := by
      simp only [updateScore, hget, hvalue, Option.all_none, if_true]
    cases hs
    intro hvalid
    have hrow : existing.edited value reason metadata now ∈
        (s.called (s.db.updateScore env scoreId projectId value reason metadata now)).db.scores := by
      rw [hdb]
      exact List.mem_map.mpr ⟨existing, hmem, if_pos hscore⟩
    obtain ⟨v, hv, -⟩ := hvalid _ hrow rfl
    simp [TraceScore.edited, hvalue, hnone] at hv
  | createScore projectId traceId name value dataType source reason metadata id now =>
    exact absurd trivial ha
  | deleteScore scoreId projectId => exact absurd trivial ha
  | deleteEvalRun runId projectId session deleteScores => exact absurd trivial ha
  | deleteTraces p => exact absurd trivial ha
  | runEvalRun w metrics task => exact absurd trivial ha
  | runSessionEval w answers task => exact absurd trivial ha
  | work w => exact absurd trivial ha
  | crash w => exact absurd trivial ha
  | elsewhere traces sessionScores runs nodup => exact absurd trivial ha

/-- **Scores marked SUCCESS are valid exactly while edits are in turn.**  From a database
without scores: in every run whose edits are in turn, every stored SUCCESS has a value valid for
its data type; and an edit that is not, in whatever state, leaves one that has not. -/
theorem success_scores_valid {db₀ : EvalDb F} (hstart : db₀.scores = []) :
    (∀ s, GuardedRun.Reach (step env) (InTurn env) (initial db₀) s → Valid env s) ∧
    ∀ (s : ScoreRun F) a s', s.step env a = some s' → ¬ InTurn env s a → ¬ Valid env s' := by
  have hsound : Sound env (initial db₀) := by
    refine ⟨fun row hrow => ?_, fun w x hx => by cases hx⟩
    simp [initial, hstart] at hrow
  constructor
  · intro s hreach row hrow
    have h : Sound env s := hreach.invariant hsound fun _ _ _ h ha hs => sound_step h ha hs
    exact successOk_of_rowOk (h.rows row hrow)
  · exact fun s a s' hs ha => not_valid_of_edit ha hs

/-- A run whose metric fails, up to the commit of its FAILED score. -/
def failedMetric : List (ScoreAct ℚ) :=
  .runEvalRun 0 (TraceEval.sampleMetrics (.error "down")) ⟨"run", "A", ["t"], none⟩ ::
    List.replicate 10 (.work 0)

/-- An edit of the FAILED score. -/
def edit (value reason : Option String) : ScoreAct ℚ :=
  .updateScore (SessionEval.sampleEnv.freshId 0) "A" value reason none 5

/-- The score is given a value by hand. -/
theorem success_scores_valid_edited : ∃ s,
    GuardedRun.run (step SessionEval.sampleEnv) (initial TraceEval.sampleDb)
      (failedMetric ++ [edit (some "1.0") none]) = some s ∧
    Valid SessionEval.sampleEnv s ∧ s.db.scores.map (·.value) = [some "1.0"] := by
  obtain ⟨s, hs⟩ := Option.isSome_iff_exists.mp
    (show (GuardedRun.run (step SessionEval.sampleEnv) (initial TraceEval.sampleDb)
      (failedMetric ++ [edit (some "1.0") none])).isSome from by decide +kernel)
  have hreach : GuardedRun.Reach (step SessionEval.sampleEnv) (InTurn SessionEval.sampleEnv)
      (initial TraceEval.sampleDb) s := by
    refine GuardedRun.Reach.run_from .initial (fun a ha s => ?_) hs
    rcases List.mem_append.mp ha with ha | ha
    · rcases List.mem_cons.mp ha with rfl | ha
      · trivial
      · rw [List.eq_of_mem_replicate ha]
        trivial
    · rw [List.mem_singleton.mp ha]
      intro hnone
      cases hnone
  refine ⟨s, hs, (success_scores_valid rfl).1 s hreach, ?_⟩
  have hvalues : (GuardedRun.run (step SessionEval.sampleEnv) (initial TraceEval.sampleDb)
      (failedMetric ++ [edit (some "1.0") none])).map (fun s => s.db.scores.map (·.value)) =
      some [some "1.0"] := by decide +kernel
  rw [hs] at hvalues
  exact Option.some.inj hvalues

/-- Only the reason is edited, and the score is a SUCCESS without a value. -/
theorem success_without_value : ¬ ∀ (F : Type) (env : EvalEnv F) (db₀ : EvalDb F) (s : ScoreRun F),
    db₀.scores = [] → GuardedRun.Reach (step env) GuardedRun.Always (initial db₀) s →
    Valid env s := by
  intro h
  obtain ⟨s, hs⟩ := Option.isSome_iff_exists.mp
    (show (GuardedRun.run (step SessionEval.sampleEnv) (initial TraceEval.sampleDb)
      (failedMetric ++ [edit none (some "retried by hand")])).isSome from by decide +kernel)
  have hvalid := h ℚ SessionEval.sampleEnv TraceEval.sampleDb s rfl (GuardedRun.reach_of_run hs)
  have hrows : (GuardedRun.run (step SessionEval.sampleEnv) (initial TraceEval.sampleDb)
      (failedMetric ++ [edit none (some "retried by hand")])).map
        (fun s => s.db.scores.map fun row => (row.status, row.value)) =
      some [(.success, none)] := by decide +kernel
  rw [hs] at hrows
  have hone : (s.db.scores.map fun row => (row.status, row.value)) = [(.success, none)] :=
    Option.some.inj hrows
  have hrow : (ScoreStatus.success, (none : Option String)) ∈
      s.db.scores.map fun row => (row.status, row.value) := by
    rw [hone]
    exact List.mem_singleton_self _
  obtain ⟨row, hmem, heq⟩ := List.mem_map.mp hrow
  obtain ⟨v, hv, -⟩ := hvalid row hmem (congrArg Prod.fst heq)
  exact absurd (hv.symm.trans (congrArg Prod.snd heq)) (by simp)

end ScoreRun
end PandaProbe
