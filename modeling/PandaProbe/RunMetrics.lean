import PandaProbe.EvalRuns
import PandaProbe.MonitorSchedule
import PandaProbe.ScoreValues

/-! # The metrics of eval runs

A run is worth its task only if it has a metric and all its metrics are available for its kind
of target.  The paths that take metrics from a request check this.  The others rely on what is
stored: a retry on the names of FAILED scores, a monitor on its own metrics.

Three facts carry the argument.  A FAILED score comes from a task, and a task looks each metric of
a trace up in the registry, which holds the available metrics and `loop_detection`.  A FAILED
session score has the name of a metric of its run, and that run was one of sessions.  A monitor
only ever gets metrics of its kind.

What is missing are the two ways out (`InTurn`): a run of sessions whose `loop_detection` FAILED is
retried as a run of traces, and a monitor has lost all its metrics to a PATCH.
-/
namespace PandaProbe
open Restart

/-- The names of the trace metrics in the registry; the last needs the session around it and is
not available by itself. -/
def registeredMetrics : List String := listMetrics ++ ["loop_detection"]

/-- `get_metric`: only registered names are found. -/
def getMetric {F : Type} (metrics : TraceMetrics F) : TraceMetrics F :=
  fun name => if name ∈ registeredMetrics then metrics name else none

/-- What the parts take from outside. -/
structure DeskEnv (F : Type) where
  runs : RunEnv F
  eval : EvalEnv F
  monitors : MonitorEnv F

/-- The tables and the tasks at work, the monitors, the `target_type` of every run id drawn so
far, the runs in open transactions, and the runs handed to the broker. -/
structure RunDesk (F : Type) where
  scores : ScoreRun F
  monitors : ScheduleRun F
  target : UUID → Option TargetType
  prepared : Nat → Option (NewRun F)
  queue : List (NewRun F)

/-- What can happen next.  `score` is a call about scores or runs, or a statement of a task;
`monitor` is a step of the monitors. -/
inductive RunAct (F : Type)
  | prepareEvalRun (p : Nat) (id projectId : UUID) (metrics : List String) (rate : F)
      (model : Option String) (found : List String) (pick : Pick)
  | prepareBatchEvalRun (p : Nat) (id projectId : UUID) (traceIds metrics : List String)
      (model : Option String)
  | prepareSessionEvalRun (p : Nat) (id projectId : UUID) (metrics : List String) (rate : F)
      (model : Option String) (weights : List (String × F)) (found : List String) (pick : Pick)
  | prepareBatchSessionEvalRun (p : Nat) (id projectId : UUID) (sessionIds metrics : List String)
      (model : Option String) (weights : List (String × F))
  | prepareRetryFailedRun (p : Nat) (id runId projectId : UUID)
  | prepareRetryFailedSessionRun (p : Nat) (id runId projectId : UUID)
  | spawnRunForMonitor (p : Nat) (id monitorId projectId : UUID) (found : List String) (pick : Pick)
  | dispatchRun (p : Nat)
  | abandon (p : Nat)
  | runEvalRun (w : Nat) (metrics : TraceMetrics F) (task : TraceTask)
  | runSessionEval (w : Nat) (answers : Answers F) (task : SessionTask)
  | failEvalRun (runId : UUID) (error : String) (now : DateTime)
  | deleteSessionScore (scoreId projectId : UUID)
  | ingest (traces : List Trace) (nodup : (traces.map Trace.traceId).Nodup)
  | score (a : ScoreAct F)
  | monitor (a : MonitorAct F)

namespace RunDesk
variable {F : Type} (env : DeskEnv F) (s : RunDesk F)

/-- A path that prepares a run under a new id, or raises. -/
def prepare (p : Nat) (id : UUID) (result : Except EvalError (NewRun F)) : Option (RunDesk F) :=
  match s.prepared p, s.target id, result with
  | none, none, .ok run =>
    some { s with
      target := Function.update s.target id (some run.targetType)
      prepared := Function.update s.prepared p (some run) }
  | none, none, .error _ => some s
  | _, _, _ => none

/-- Commit the prepared run and hand it to the broker. -/
def dispatchRun (p : Nat) : Option (RunDesk F) :=
  match s.prepared p with
  | none => none
  | some run =>
    some { s with
      scores.db.runs := Function.update s.scores.db.runs run.runId (some run.row)
      prepared := Function.update s.prepared p none
      queue := run :: s.queue }

/-- The run of traces that the task is about has been handed to the broker. -/
def queued (task : TraceTask) (run : NewRun F) : Bool :=
  run.targetType = .trace ∧ run.runId = task.runId ∧ run.projectId = task.projectId ∧
    run.targetIds = task.traceIds ∧ run.traceMetricMap = task.traceMetricMap

/-- The run of sessions that the task is about has been handed to the broker. -/
def queuedSession (task : SessionTask) (run : NewRun F) : Bool :=
  run.targetType = .session ∧ run.runId = task.runId ∧ run.projectId = task.projectId ∧
    run.targetIds = task.sessionIds

/-- The calls about scores and runs, and the statements of tasks. -/
def isCall : ScoreAct F → Bool
  | .runEvalRun .. | .runSessionEval .. | .elsewhere .. => false
  | _ => true

/-- A step of the tables and the tasks. -/
def scoreStep (a : ScoreAct F) : Option (RunDesk F) :=
  (s.scores.step env.eval a).map fun scores => { s with scores := scores }

/-- The tables change. -/
def write (db : EvalDb F) : RunDesk F := { s with scores.db := db }

/-- One step. -/
def step : RunAct F → Option (RunDesk F)
  | .prepareEvalRun p id projectId metrics rate model found pick =>
    s.prepare p id (prepareEvalRun env.runs id projectId metrics rate model found pick)
  | .prepareBatchEvalRun p id projectId traceIds metrics model =>
    s.prepare p id (prepareBatchEvalRun env.runs id projectId traceIds metrics model)
  | .prepareSessionEvalRun p id projectId metrics rate model weights found pick =>
    s.prepare p id
      (prepareSessionEvalRun env.runs id projectId metrics rate model weights found pick)
  | .prepareBatchSessionEvalRun p id projectId sessionIds metrics model weights =>
    s.prepare p id
      (prepareBatchSessionEvalRun env.runs id projectId sessionIds metrics model weights)
  | .prepareRetryFailedRun p id runId projectId =>
    s.prepare p id (prepareRetryFailedRun env.eval s.scores.db id runId projectId)
  | .prepareRetryFailedSessionRun p id runId projectId =>
    s.prepare p id
      (prepareRetryFailedSessionRun env.runs env.eval s.scores.db id runId projectId)
  | .spawnRunForMonitor p id monitorId projectId found pick =>
    match s.monitors.getMonitor env.monitors monitorId projectId with
    | none => some s
    | some monitor => s.prepare p id (spawnRunForMonitor env.runs monitor id found pick)
  | .dispatchRun p => s.dispatchRun p
  | .abandon p => some { s with prepared := Function.update s.prepared p none }
  | .runEvalRun w metrics task =>
    if s.queue.any (queued task) then s.scoreStep env (.runEvalRun w (getMetric metrics) task)
    else none
  | .runSessionEval w answers task =>
    if s.queue.any (queuedSession task) then s.scoreStep env (.runSessionEval w answers task)
    else none
  | .failEvalRun runId error now =>
    some (s.write (s.scores.db.updateRunStatus runId .failed (some error) now))
  | .deleteSessionScore scoreId projectId =>
    some (s.write { s.scores.db with
      sessionScores := s.scores.db.sessionScores.filter
        (fun row => !(row.id == scoreId && row.projectId == projectId)) })
  | .ingest traces nodup =>
    some (s.write { s.scores.db with traces := traces, traces_nodup := nodup })
  | .score a => if isCall a then s.scoreStep env a else none
  | .monitor a =>
    (s.monitors.step env.monitors a).map fun monitors => { s with monitors := monitors }

/-- Tables without runs and scores, and nothing else. -/
def initial (traces : List Trace) (nodup : (traces.map Trace.traceId).Nodup) : RunDesk F :=
  ⟨.initial ⟨traces, [], [], fun _ => none, nodup⟩, .initial, fun _ => none, fun _ => none, []⟩

/-! ## The property and the condition -/

/-- **Every run that has been created can be executed**, those still in an open transaction
included. -/
structure AllExecutable (s : RunDesk F) : Prop where
  prepared : ∀ p run, s.prepared p = some run → Executable run.targetType run.metricNames
  stored : ∀ id r, s.scores.db.runs id = some r →
    ∃ t, s.target id = some t ∧ Executable t r.metricNames

/-- **The condition on a step.**  No score of a run that is retried as a run of traces FAILED for
`loop_detection`, and a monitor that spawns a run has a metric. -/
def InTurn (s : RunDesk F) : RunAct F → Prop
  | .prepareRetryFailedRun _ id runId projectId =>
    ∀ run, prepareRetryFailedRun env.eval s.scores.db id runId projectId = .ok run →
      ∀ row ∈ s.scores.db.scores, failedOfRun runId projectId row = true →
        row.name ≠ "loop_detection"
  | .spawnRunForMonitor _ id monitorId projectId found pick =>
    ∀ monitor run, s.monitors.getMonitor env.monitors monitorId projectId = some monitor →
      spawnRunForMonitor env.runs monitor id found pick = .ok run → monitor.metricNames ≠ []
  | _ => True

/-! ## The tables -/

/-- Every run can be executed, a FAILED score has a registered name, and a FAILED session score
that of a session metric. -/
structure TablesOk (target : UUID → Option TargetType) (db : EvalDb F) : Prop where
  runs : ∀ id r, db.runs id = some r → ∃ t, target id = some t ∧ Executable t r.metricNames
  scores : ∀ row ∈ db.scores, row.status = .failed → row.name ∈ registeredMetrics
  sessionScores : ∀ row ∈ db.sessionScores, row.status = .failed → row.name ∈ listSessionMetrics

/-- No run and no FAILED score comes in, and no run changes its metrics, nor a FAILED score its
name or value. -/
structure Follows (db db' : EvalDb F) : Prop where
  runs : ∀ id r', db'.runs id = some r' → ∃ r, db.runs id = some r ∧ r'.metricNames = r.metricNames
  scores : ∀ row' ∈ db'.scores, row'.status = .failed →
    ∃ row ∈ db.scores, row.status = .failed ∧ row'.name = row.name ∧ row'.value = row.value
  sessionScores : ∀ row' ∈ db'.sessionScores, row'.status = .failed →
    ∃ row ∈ db.sessionScores, row.status = .failed ∧ row'.name = row.name ∧ row'.value = row.value

variable {env} {s} {s' : RunDesk F} {a : RunAct F} {db db' : EvalDb F}
  {target target' : UUID → Option TargetType}

theorem Follows.refl (db : EvalDb F) : Follows db db :=
  ⟨fun _ r hr => ⟨r, hr, rfl⟩, fun row hrow hfail => ⟨row, hrow, hfail, rfl, rfl⟩,
    fun row hrow hfail => ⟨row, hrow, hfail, rfl, rfl⟩⟩

theorem TablesOk.follows (h : TablesOk target db) (hdb : Follows db db') : TablesOk target db' := by
  refine ⟨fun id r' hr' => ?_, fun row' hrow' hfail => ?_, fun row' hrow' hfail => ?_⟩
  · obtain ⟨r, hr, hnames⟩ := hdb.runs id r' hr'
    rw [hnames]
    exact h.runs id r hr
  · obtain ⟨row, hrow, hfail', hname, -⟩ := hdb.scores row' hrow' hfail
    rw [hname]
    exact h.scores row hrow hfail'
  · obtain ⟨row, hrow, hfail', hname, -⟩ := hdb.sessionScores row' hrow' hfail
    rw [hname]
    exact h.sessionScores row hrow hfail'

theorem follows_updateRun {runId : UUID} {f : EvalRun F → EvalRun F}
    (hf : ∀ r, (f r).metricNames = r.metricNames) : Follows db (db.updateRun runId f) := by
  refine ⟨fun id r' hr' => ?_, (Follows.refl db).scores, (Follows.refl db).sessionScores⟩
  by_cases hid : id = runId
  · subst hid
    have hr' : (db.runs id).map f = some r' := by simpa [EvalDb.updateRun] using hr'
    obtain ⟨r, hr, rfl⟩ := Option.map_eq_some_iff.mp hr'
    exact ⟨r, hr, hf r⟩
  · exact ⟨r', by simpa [EvalDb.updateRun, hid] using hr', rfl⟩

/-- Fewer scores. -/
theorem follows_of_subset (hruns : db'.runs = db.runs) (hscores : db'.scores ⊆ db.scores)
    (hsession : db'.sessionScores ⊆ db.sessionScores) : Follows db db' := by
  refine ⟨fun id r hr => ⟨r, by rw [← hruns]; exact hr, rfl⟩, fun row hrow hfail => ?_,
    fun row hrow hfail => ?_⟩
  · exact ⟨row, hscores hrow, hfail, rfl, rfl⟩
  · exact ⟨row, hsession hrow, hfail, rfl, rfl⟩

/-! ## The tasks -/

theorem kept_traceTask (metrics : TraceMetrics F) (task : TraceTask) (eval : EvalEnv F) :
    task.Kept eval (getMetric metrics) (TablesOk target) where
  score db name evaluate model tr tick hm h := by
    refine ⟨h.runs, fun row hrow hfail => ?_, h.sessionScores⟩
    rcases List.mem_append.mp hrow with hrow | hrow
    · exact h.scores row hrow hfail
    · rw [List.mem_singleton.mp hrow, (TraceEval.outcome_spec ..).2.1]
      unfold getMetric at hm
      split at hm
      next hregistered => exact hregistered
      · cases hm
  run _ _ hf h := h.follows (follows_updateRun hf)
  delete _ h := h.follows
    (follows_of_subset rfl List.filter_sublist.subset (List.Subset.refl _))

theorem mem_registeredMetrics (sig : Signal) : sig.name ∈ registeredMetrics := by
  cases sig <;> decide

/-- A run of sessions stores a FAILED session score only for a metric of its run. -/
theorem kept_sessionTask (answers : Answers F) (task : SessionTask) (eval : EvalEnv F)
    (htarget : target task.runId = some .session) :
    task.Kept eval answers (TablesOk target) where
  signal db model tr prior sig tick h := by
    refine ⟨h.runs, fun row hrow hfail => ?_, h.sessionScores⟩
    rcases List.mem_append.mp hrow with hrow | hrow
    · exact h.scores row hrow hfail
    · rw [(SessionEval.resolveSignal_spec eval answers task model tr prior sig tick row hrow).1]
      exact mem_registeredMetrics sig
  metric db run sid traces signals name tick hseen hname h := by
    refine ⟨h.runs, h.scores, fun row hrow hfail => ?_⟩
    rcases List.mem_append.mp hrow with hrow | hrow
    · exact h.sessionScores row hrow hfail
    · rw [List.mem_singleton.mp hrow, (SessionEval.metricScore_spec ..).2.1]
      obtain ⟨seen, hok, hrun⟩ := hseen
      obtain ⟨t, ht, -, havailable⟩ :=
        hok.runs task.runId run (Option.filter_eq_some_iff.mp hrun).1
      obtain rfl : t = .session := Option.some.inj (ht.symm.trans htarget)
      exact havailable name hname
  run _ _ hf h := h.follows (follows_updateRun hf)
  delete _ h := h.follows
    (follows_of_subset rfl List.filter_sublist.subset (List.Subset.refl _))
  deleteSession _ h := h.follows
    (follows_of_subset rfl (List.Subset.refl _) List.filter_sublist.subset)

/-! ## The calls about scores and runs -/

theorem follows_createScore {eval : EvalEnv F} {projectId traceId : UUID} {name value : String}
    {dataType : ScoreDataType} {source : ScoreSource} {reason : Option String} {metadata : JsonDict}
    {id : UUID} {now : DateTime}
    (h : db.createScore eval projectId traceId name value dataType source reason metadata id now =
      some db') : Follows db db' := by
  unfold EvalDb.createScore at h
  split at h
  · cases h
    refine ⟨(Follows.refl db).runs, fun row hrow hfail => ?_, (Follows.refl db).sessionScores⟩
    rcases List.mem_append.mp hrow with hrow | hrow
    · exact ⟨row, hrow, hfail, rfl, rfl⟩
    · rw [List.mem_singleton.mp hrow] at hfail
      cases hfail
  · cases h

theorem follows_updateScore {eval : EvalEnv F} {scoreId projectId : UUID}
    {value reason : Option String} {metadata : Option JsonDict} {now : DateTime}
    (h : db.updateScore eval scoreId projectId value reason metadata now = some db') :
    Follows db db' := by
  unfold EvalDb.updateScore at h
  split at h
  · cases h
  · split at h
    · cases h
      refine ⟨(Follows.refl db).runs, fun row' hrow' hfail => ?_, (Follows.refl db).sessionScores⟩
      obtain ⟨row, hrow, rfl⟩ := List.mem_map.mp hrow'
      split at hfail
      · cases hfail
      next hother =>
        rw [if_neg hother]
        exact ⟨row, hrow, hfail, rfl, rfl⟩
    · cases h

/-- A deleted run is taken away from its scores, which keep their names. -/
theorem follows_detached {runId : UUID} (h : Follows db db') :
    Follows db { db' with
      scores := db'.scores.map fun row =>
        if row.evalRunId = some runId then { row with evalRunId := none } else row
      sessionScores := db'.sessionScores.map fun row =>
        if row.evalRunId = some runId then { row with evalRunId := none } else row
      runs := Function.update db'.runs runId none } := by
  refine ⟨fun id r hr => ?_, fun row' hrow' hfail => ?_, fun row' hrow' hfail => ?_⟩
  · by_cases hid : id = runId
    · subst hid
      simp at hr
    · exact h.runs id r (by simpa [hid] using hr)
  · obtain ⟨row, hrow, rfl⟩ := List.mem_map.mp hrow'
    split at hfail
    next hof =>
      rw [if_pos hof]
      exact h.scores row hrow hfail
    next hof =>
      rw [if_neg hof]
      exact h.scores row hrow hfail
  · obtain ⟨row, hrow, rfl⟩ := List.mem_map.mp hrow'
    split at hfail
    next hof =>
      rw [if_pos hof]
      exact h.sessionScores row hrow hfail
    next hof =>
      rw [if_neg hof]
      exact h.sessionScores row hrow hfail

theorem follows_deleteEvalRun {runId projectId : UUID} {session deleteScores : Bool} :
    Follows db (db.deleteEvalRun runId projectId session deleteScores) := by
  cases deleteScores with
  | false => exact follows_detached (.refl db)
  | true =>
    cases session with
    | false =>
      exact follows_detached
        (follows_of_subset rfl List.filter_sublist.subset (List.Subset.refl _))
    | true =>
      exact follows_detached
        (follows_of_subset rfl List.filter_sublist.subset List.filter_sublist.subset)

/-- **What a call does to the tables and the tasks**: nothing comes in, or a task makes a step or
is gone. -/
theorem scores_step {eval : EvalEnv F} {t t' : ScoreRun F} {b : ScoreAct F} (hcall : isCall b = true)
    (h : t.step eval b = some t') :
    (t'.worker = t.worker ∧ Follows t.db t'.db) ∨
    (∃ w x, t.worker w = some x ∧
      t' = { t.setWorker w (x.step t.db).2 with db := (x.step t.db).1 }) ∨
    ∃ w, t' = t.setWorker w none := by
  have hcalled : ∀ r : Option (EvalDb F), (∀ db', r = some db' → Follows t.db db') →
      Follows t.db (t.called r).db := by
    intro r hr
    cases r with
    | none => exact .refl t.db
    | some db' => exact hr db' rfl
  cases b with
  | createScore projectId traceId name value dataType source reason metadata id now =>
    cases h
    exact .inl ⟨rfl, hcalled _ fun _ hdb => follows_createScore hdb⟩
  | updateScore scoreId projectId value reason metadata now =>
    cases h
    exact .inl ⟨rfl, hcalled _ fun _ hdb => follows_updateScore hdb⟩
  | deleteScore scoreId projectId =>
    cases h
    exact .inl ⟨rfl, follows_of_subset rfl List.filter_sublist.subset (List.Subset.refl _)⟩
  | deleteEvalRun runId projectId session deleteScores =>
    cases h
    exact .inl ⟨rfl, follows_deleteEvalRun⟩
  | deleteTraces p =>
    cases h
    exact .inl ⟨rfl, follows_of_subset rfl List.filter_sublist.subset (List.Subset.refl _)⟩
  | work w =>
    simp only [ScoreRun.step] at h
    split at h
    · cases h
    next x hx =>
      cases h
      exact .inr (.inl ⟨w, x, hx, rfl⟩)
  | crash w =>
    cases h
    exact .inr (.inr ⟨w, rfl⟩)
  | runEvalRun w metrics task => cases hcall
  | runSessionEval w answers task => cases hcall
  | elsewhere traces sessionScores runs nodup => cases hcall

/-! ## The monitors -/

/-- The metrics of the monitor are available for its kind. -/
def Named (row : MonitorRow F) : Prop := ∀ m ∈ row.metricNames, m ∈ row.targetType.available

/-- So are those that a write sets. -/
def NamesOk (kind : TargetType) (v : MonitorValues F) : Prop :=
  ∀ names, v.metricNames = some names → ∀ m ∈ names, m ∈ kind.available

theorem namesOk_of_none {kind : TargetType} {v : MonitorValues F} (h : v.metricNames = none) :
    NamesOk kind v := by
  intro names hnames
  rw [h] at hnames
  cases hnames

theorem namesOk_planned {menv : MonitorEnv F} {b : MonitorAct F} {w : Nat} {id projectId : UUID}
    {now : DateTime} {m : EvalMonitor F} {v : MonitorValues F}
    (h : ScheduleRun.Planned menv b w id projectId now m v) : NamesOk m.targetType v := by
  cases h with
  | update hv =>
    intro names hnames
    have hmetrics := (updateMonitor_ok hv).metrics
    rw [hnames] at hmetrics
    exact (patchedMetrics_ok hmetrics).2
  | pause hv =>
    unfold pauseMonitor at hv
    split at hv
    · cases hv
    · cases hv
      exact namesOk_of_none rfl
  | resume hv =>
    unfold resumeMonitor at hv
    split at hv
    · cases hv
    · obtain ⟨t, -, rfl⟩ := Option.map_eq_some_iff.mp hv
      exact namesOk_of_none rfl
  | trigger hv =>
    obtain ⟨t, -, rfl⟩ := Option.map_eq_some_iff.mp hv
    exact namesOk_of_none rfl
  | process => exact namesOk_of_none rfl

/-- **A monitor only gets metrics of its kind**, whatever happens to it. -/
theorem named_step {menv : MonitorEnv F} {t t' : ScheduleRun F} {b : MonitorAct F}
    (h : ScheduleRun.Table Named NamesOk t) (hs : t.step menv b = some t') :
    ScheduleRun.Table Named NamesOk t' := by
  refine ScheduleRun.table_step h ?_ hs
  constructor
  case created =>
    intro id projectId req now row _ hok
    exact (createMonitor_ok hok).metrics.2
  case planned =>
    intro w id projectId now m v _ hplan _ row _ hdecode _
    have hnames := namesOk_planned hplan
    rw [(toMonitor_some hdecode).1] at hnames
    exact hnames
  case written =>
    intro w id v now row _ _ _ _ _ hold hv
    show ∀ m ∈ v.metricNames.getD row.metricNames, m ∈ row.targetType.available
    cases hm : v.metricNames with
    | none => exact hold
    | some names => exact hv names hm
  case rescheduled =>
    intro w next now t row _ _ _ _ hold
    exact hold

/-! ## Runs -/

/-- Ids that have been drawn keep their kind. -/
def Extends (target target' : UUID → Option TargetType) : Prop :=
  ∀ id t, target id = some t → target' id = some t

/-- The tables are in order and no task at work changes that, whatever runs are still to come; the
runs on their way are recorded as what they are; and the monitors have metrics of their kind. -/
structure Sound (s : RunDesk F) : Prop where
  tables : TablesOk s.target s.scores.db
  workers : ∀ w x, s.scores.worker w = some x →
    ∀ target, Extends s.target target → x.Preserves (TablesOk target)
  prepared : ∀ p run, s.prepared p = some run →
    Executable run.targetType run.metricNames ∧ s.target run.runId = some run.targetType
  queue : ∀ run ∈ s.queue, s.target run.runId = some run.targetType
  monitors : ScheduleRun.Table Named NamesOk s.monitors

theorem sound_initial {traces : List Trace} {nodup : (traces.map Trace.traceId).Nodup} :
    Sound (initial traces nodup : RunDesk F) where
  tables := ⟨(fun _ _ hr => by cases hr), fun _ hrow => absurd hrow List.not_mem_nil,
    fun _ hrow => absurd hrow List.not_mem_nil⟩
  workers _ _ hx := by cases hx
  prepared _ _ hp := by cases hp
  queue _ hrun := absurd hrun List.not_mem_nil
  monitors := ScheduleRun.table_initial

theorem TablesOk.extends (h : TablesOk target db) (hext : Extends target target') :
    TablesOk target' db := by
  refine ⟨fun id r hr => ?_, h.scores, h.sessionScores⟩
  obtain ⟨t, ht, hexec⟩ := h.runs id r hr
  exact ⟨t, hext id t ht, hexec⟩

theorem extends_update {id : UUID} {t : TargetType} (hid : target id = none) :
    Extends target (Function.update target id (some t)) := by
  intro id' t' ht'
  have hne : id' ≠ id := by
    rintro rfl
    rw [hid] at ht'
    cases ht'
  rw [Function.update_of_ne hne]
  exact ht'

/-- A path that prepares runs that can be executed. -/
theorem sound_prepare {p : Nat} {id : UUID} {result : Except EvalError (NewRun F)} (h : Sound s)
    (hs : s.prepare p id result = some s')
    (hrun : ∀ run, result = .ok run →
      run.runId = id ∧ Executable run.targetType run.metricNames) : Sound s' := by
  unfold prepare at hs
  split at hs
  next run hp hid =>
    cases hs
    obtain ⟨rfl, hexec⟩ := hrun run rfl
    have hext : Extends s.target (Function.update s.target run.runId (some run.targetType)) :=
      extends_update hid
    refine ⟨h.tables.extends hext, fun w x hx target htarget => ?_, fun q other hq => ?_,
      fun other hother => hext _ _ (h.queue other hother), h.monitors⟩
    · exact h.workers w x hx target fun i t ht => htarget i t (hext i t ht)
    · by_cases hqp : q = p
      · subst hqp
        obtain rfl : run = other := by simpa using hq
        exact ⟨hexec, Function.update_self ..⟩
      · obtain ⟨hother, hkind⟩ := h.prepared q other (by simpa [hqp] using hq)
        exact ⟨hother, hext _ _ hkind⟩
  · cases hs
    exact h
  · cases hs

theorem sound_write (h : Sound s) (hdb : Follows s.scores.db db) : Sound (s.write db) :=
  ⟨h.tables.follows hdb, h.workers, h.prepared, h.queue, h.monitors⟩

theorem workers_setWorker {w : Nat} {x : Option (Worker (EvalDb F))} {P : Worker (EvalDb F) → Prop}
    {t : ScoreRun F} (h : ∀ u y, t.worker u = some y → P y) (hx : ∀ y, x = some y → P y) :
    ∀ u y, (t.setWorker w x).worker u = some y → P y := by
  intro u y hy
  by_cases hu : u = w
  · subst hu
    exact hx y (by simpa [ScoreRun.setWorker] using hy)
  · exact h u y (by simpa [ScoreRun.setWorker, hu] using hy)

/-- A task that starts, with writes that keep the tables in order. -/
theorem sound_start {w : Nat} {prog : Prog (EvalDb F)} (h : Sound s)
    (hprog : ∀ target, Extends s.target target → prog.Preserves (TablesOk target)) :
    Sound { s with scores := s.scores.setWorker w (some (Worker.start prog)) } := by
  refine ⟨h.tables, ?_, h.prepared, h.queue, h.monitors⟩
  refine workers_setWorker h.workers fun y hy => ?_
  cases hy
  exact fun target hext => ⟨hprog target hext, fun f hf => by cases hf⟩

theorem sound_score {b : ScoreAct F} (h : Sound s) (hcall : isCall b = true)
    (hs : s.scoreStep env b = some s') : Sound s' := by
  obtain ⟨t, ht, rfl⟩ := Option.map_eq_some_iff.mp hs
  obtain ⟨hworker, hdb⟩ | ⟨w, x, hx, rfl⟩ | ⟨w, rfl⟩ := scores_step hcall ht
  · refine ⟨h.tables.follows hdb, ?_, h.prepared, h.queue, h.monitors⟩
    rw [hworker]
    exact h.workers
  · have hstep : ∀ target, Extends s.target target → TablesOk target (x.step s.scores.db).1 ∧
        ∀ y, (x.step s.scores.db).2 = some y → y.Preserves (TablesOk target) :=
      fun target hext =>
        Worker.step_preserves (h.workers w x hx target hext) (h.tables.extends hext)
    refine ⟨(hstep s.target fun _ _ ht => ht).1, ?_, h.prepared, h.queue, h.monitors⟩
    exact workers_setWorker h.workers fun y hy target hext => (hstep target hext).2 y hy
  · refine ⟨h.tables, ?_, h.prepared, h.queue, h.monitors⟩
    exact workers_setWorker h.workers fun y hy => by cases hy

theorem sound_dispatchRun {p : Nat} (h : Sound s) (hs : s.dispatchRun p = some s') : Sound s' := by
  unfold dispatchRun at hs
  split at hs
  · cases hs
  next run hp =>
    cases hs
    obtain ⟨hexec, hkind⟩ := h.prepared p run hp
    refine ⟨⟨fun id r hr => ?_, h.tables.scores, h.tables.sessionScores⟩, h.workers,
      fun q other hq => ?_, ?_, h.monitors⟩
    · by_cases hid : id = run.runId
      · subst hid
        obtain rfl : run.row = r := by simpa using hr
        exact ⟨run.targetType, hkind, hexec⟩
      · exact h.tables.runs id r (by simpa [hid] using hr)
    · by_cases hqp : q = p
      · subst hqp
        simp at hq
      · exact h.prepared q other (by simpa [hqp] using hq)
    · exact List.forall_mem_cons.mpr ⟨hkind, h.queue⟩

theorem failedOfRun_status {runId projectId : UUID} {row : TraceScore}
    (h : failedOfRun runId projectId row = true) : row.status = .failed := by
  simpa using (Bool.and_eq_true_iff.mp h).2

theorem sound_step (h : Sound s) (ha : s.InTurn env a) (hs : s.step env a = some s') :
    Sound s' := by
  cases a with
  | prepareEvalRun p id projectId metrics rate model found pick =>
    exact sound_prepare h hs fun run hrun => prepareFiltered_ok hrun
  | prepareBatchEvalRun p id projectId traceIds metrics model =>
    exact sound_prepare h hs fun run hrun => prepareBatch_ok hrun
  | prepareSessionEvalRun p id projectId metrics rate model weights found pick =>
    exact sound_prepare h hs fun run hrun => prepareFiltered_ok hrun
  | prepareBatchSessionEvalRun p id projectId sessionIds metrics model weights =>
    exact sound_prepare h hs fun run hrun => prepareBatch_ok hrun
  | prepareRetryFailedRun p id runId projectId =>
    refine sound_prepare h hs fun run hrun => ?_
    obtain ⟨hid, hkind, hne, hnames⟩ := prepareRetryFailedRun_ok hrun
    refine ⟨hid, hne, fun m hm => ?_⟩
    rw [hkind]
    obtain ⟨row, hrow, hfail, rfl⟩ := (hnames m).mp hm
    have hregistered := h.tables.scores row hrow (failedOfRun_status hfail)
    rcases List.mem_append.mp hregistered with hlisted | hloop
    · exact hlisted
    · exact absurd (List.mem_singleton.mp hloop) (ha run hrun row hrow hfail)
  | prepareRetryFailedSessionRun p id runId projectId =>
    refine sound_prepare h hs fun run hrun => ?_
    obtain ⟨hid, hkind, hne, hnames⟩ := prepareRetryFailedSessionRun_ok hrun
    refine ⟨hid, hne, fun m hm => ?_⟩
    rw [hkind]
    obtain ⟨row, hrow, hfail, rfl⟩ := hnames m hm
    exact h.tables.sessionScores row hrow hfail
  | spawnRunForMonitor p id monitorId projectId found pick =>
    simp only [step] at hs
    split at hs
    · cases hs
      exact h
    next monitor hm =>
      refine sound_prepare h hs fun run hrun => ?_
      obtain ⟨hid, hkind, hnames⟩ := spawnRunForMonitor_ok hrun
      obtain ⟨row, hrow, -, hdecode⟩ := ScheduleRun.getMonitor_some hm
      rw [hkind, hnames]
      refine ⟨hid, ha monitor run hm hrun, ?_⟩
      rw [(toMonitor_some hdecode).1]
      exact h.monitors.rows row hrow
  | dispatchRun p => exact sound_dispatchRun h hs
  | abandon p =>
    cases hs
    refine ⟨h.tables, h.workers, fun q run hq => ?_, h.queue, h.monitors⟩
    by_cases hqp : q = p
    · subst hqp
      simp at hq
    · exact h.prepared q run (by simpa [hqp] using hq)
  | runEvalRun w metrics task =>
    simp only [step, scoreStep, ScoreRun.step] at hs
    split at hs
    · split at hs
      · cases hs
      · cases hs
        exact sound_start h fun target _ => TraceEval.preserves_runEvalRun (kept_traceTask ..)
    · cases hs
  | runSessionEval w answers task =>
    simp only [step, scoreStep, ScoreRun.step] at hs
    split at hs
    next hqueue =>
      split at hs
      · cases hs
      · cases hs
        -- the task is about a run of sessions
        obtain ⟨run, hrun, hqueued⟩ := List.any_eq_true.mp hqueue
        simp only [queuedSession, decide_eq_true_eq] at hqueued
        have hkind := h.queue run hrun
        rw [hqueued.1, hqueued.2.1] at hkind
        exact sound_start h fun target hext =>
          SessionEval.preserves_sessionEvalProg (kept_sessionTask answers task _ (hext _ _ hkind))
    · cases hs
  | failEvalRun runId error now =>
    cases hs
    refine sound_write h ?_
    obtain ⟨f, hf, heq⟩ := s.scores.db.updateRunStatus_eq runId .failed (some error) now
    rw [heq]
    exact follows_updateRun hf
  | deleteSessionScore scoreId projectId =>
    cases hs
    exact sound_write h
      (follows_of_subset rfl (List.Subset.refl _) List.filter_sublist.subset)
  | ingest traces nodup =>
    cases hs
    exact sound_write h (follows_of_subset rfl (List.Subset.refl _) (List.Subset.refl _))
  | score b =>
    simp only [step] at hs
    split at hs
    next hcall => exact sound_score h hcall hs
    · cases hs
  | monitor b =>
    obtain ⟨t, ht, rfl⟩ := Option.map_eq_some_iff.mp hs
    exact ⟨h.tables, h.workers, h.prepared, h.queue, named_step h.monitors ht⟩

theorem allExecutable_of_sound (h : Sound s) : AllExecutable s :=
  ⟨fun p run hp => (h.prepared p run hp).1, h.tables.runs⟩

/-! ## A step out of turn -/

theorem prepare_ok {p : Nat} {id : UUID} {run : NewRun F}
    (hs : s.prepare p id (.ok run) = some s') : s'.prepared p = some run := by
  unfold prepare at hs
  split at hs
  next hp hid heq =>
    cases heq
    cases hs
    exact Function.update_self ..
  next heq => cases heq
  · cases hs

theorem not_allExecutable (ha : ¬ s.InTurn env a) (hs : s.step env a = some s') :
    ¬ AllExecutable s' := by
  intro hall
  cases a with
  | prepareRetryFailedRun p id runId projectId =>
    simp only [InTurn, not_forall, not_not] at ha
    obtain ⟨run, hrun, row, hrow, hfail, hloop⟩ := ha
    simp only [step, hrun] at hs
    obtain ⟨-, havailable⟩ := hall.prepared p run (prepare_ok hs)
    obtain ⟨-, hkind, -, hnames⟩ := prepareRetryFailedRun_ok hrun
    have hmem := havailable "loop_detection" ((hnames _).mpr ⟨row, hrow, hfail, hloop⟩)
    rw [hkind] at hmem
    exact absurd hmem (by decide)
  | spawnRunForMonitor p id monitorId projectId found pick =>
    simp only [InTurn, not_forall, not_not] at ha
    obtain ⟨monitor, run, hm, hrun, hempty⟩ := ha
    simp only [step, hm, hrun] at hs
    obtain ⟨hne, -⟩ := hall.prepared p run (prepare_ok hs)
    rw [(spawnRunForMonitor_ok hrun).2.2] at hne
    exact hne hempty
  | _ => exact ha trivial

/-- **Every run can be executed, exactly while every step is in turn.**  In every run of the system
whose steps are in turn, with any tasks, calls and monitors at work, every eval run that has been
created has a metric and only metrics available for its kind; and a step that is not in turn, in
whatever state, creates one that has not. -/
theorem runs_executable {traces : List Trace} {nodup : (traces.map Trace.traceId).Nodup} :
    (∀ s, GuardedRun.Reach (step env) (InTurn env) (initial traces nodup) s → AllExecutable s) ∧
    ∀ (s : RunDesk F) a s', s.step env a = some s' → ¬ s.InTurn env a → ¬ AllExecutable s' := by
  constructor
  · intro s hreach
    have h : Sound s :=
      hreach.invariant sound_initial fun _ _ _ h ha hs => sound_step h ha hs
    exact allExecutable_of_sound h
  · exact fun s a s' hs ha => not_allExecutable ha hs

/-! ## Runs in and out of turn -/

/-- Rational numbers for floats, and a default model. -/
def sampleEnv : DeskEnv ℚ where
  runs :=
    { resolveModel := fun model => model.getD "vertex_ai/gemini-3.5-flash-lite"
      belowOne := fun rate => rate < 1
      positive := fun rate => 0 < rate
      share := fun rate n => ⌊n * rate⌋.toNat
      weightsOf := fun _ => none }
  eval := SessionEval.sampleEnv
  monitors := ScheduleRun.sampleEnv

/-- Two traces of one session. -/
def sampleTraces : List Trace :=
  [⟨"t", "A", "agent", .completed, .str "question", .str "answer", fun _ => none, 0, none, some "s",
      none, [], none, none, []⟩,
    ⟨"u", "A", "agent", .completed, .str "question", .str "answer", fun _ => none, 1, none, some "s",
      none, [], none, none, []⟩]

/-- The two traces, and nothing else. -/
def sampleDesk : RunDesk ℚ := initial sampleTraces (by decide)

/-- A test that is enough for a step to be in turn. -/
def turnTest (s : RunDesk ℚ) : RunAct ℚ → Bool
  | .prepareRetryFailedRun .. => s.scores.db.scores.all (·.name != "loop_detection")
  | .spawnRunForMonitor .. => false
  | _ => true

theorem inTurn_of_test {s : RunDesk ℚ} {a : RunAct ℚ} (h : turnTest s a = true) :
    s.InTurn sampleEnv a := by
  cases a with
  | prepareRetryFailedRun p id runId projectId =>
    intro run _ row hrow _
    simpa using List.all_eq_true.mp h row hrow
  | spawnRunForMonitor p id monitorId projectId found pick => cases h
  | _ => trivial

/-- The judge is down, and every metric fails. -/
def judgeDown : TraceMetrics ℚ := fun _ => some fun _ _ => .error "down"

/-- A run of traces whose metric fails, and its retry. -/
def traceRetried : List (RunAct ℚ) :=
  [.prepareBatchEvalRun 0 "run" "A" ["t"] ["coherence"] none, .dispatchRun 0,
    .runEvalRun 0 judgeDown ⟨"run", "A", ["t"], none⟩] ++
  List.replicate 10 (.score (.work 0)) ++ [.prepareRetryFailedRun 1 "retry" "run" "A"]

/-- The retry can be executed. -/
theorem runs_executable_retried : ∃ s,
    GuardedRun.run (GuardedRun.checked (step sampleEnv) turnTest) sampleDesk traceRetried = some s ∧
    AllExecutable s ∧ (s.prepared 1).map (·.metricNames) = some ["coherence"] := by
  obtain ⟨s, hs⟩ := Option.isSome_iff_exists.mp (show (GuardedRun.run
    (GuardedRun.checked (step sampleEnv) turnTest) sampleDesk traceRetried).isSome from
    by decide +kernel)
  have hreach : GuardedRun.Reach (step sampleEnv) (InTurn sampleEnv) sampleDesk s :=
    GuardedRun.Reach.run_checked .initial (fun _ _ => inTurn_of_test) hs
  refine ⟨s, hs, runs_executable.1 s hreach, ?_⟩
  have hretry : (GuardedRun.run (GuardedRun.checked (step sampleEnv) turnTest) sampleDesk
      traceRetried).map (fun s => (s.prepared 1).map (·.metricNames)) =
      some (some ["coherence"]) := by decide +kernel
  rw [hs] at hretry
  exact Option.some.inj hretry

/-- The embeddings are down: `loop_detection`, which needs them once there is a trace before,
fails. -/
def embeddingsDown : Answers ℚ
  | .loopDetection, _, _, _ :: _ => .error "embedding provider unavailable"
  | _, _, _, _ => .ok ⟨1, none, fun _ => none⟩

/-- A run of the session, up to the commit of its signals. -/
def sessionRun : List (RunAct ℚ) :=
  [.prepareBatchSessionEvalRun 0 "run" "A" ["s"] ["agent_reliability"] none [], .dispatchRun 0,
    .runSessionEval 0 embeddingsDown ⟨"run", "A", ["s"], List.nodup_singleton "s"⟩] ++
  List.replicate 24 (.score (.work 0))

/-- The run is retried as a run of traces, with `loop_detection` as its only metric. -/
theorem loop_detection_retried : ¬ ∀ (F : Type) (env : DeskEnv F) (traces : List Trace)
    (nodup : (traces.map Trace.traceId).Nodup) (s : RunDesk F),
    GuardedRun.Reach (step env) GuardedRun.Always (initial traces nodup) s → AllExecutable s := by
  intro h
  obtain ⟨s, hs⟩ := Option.isSome_iff_exists.mp (show (GuardedRun.run (step sampleEnv) sampleDesk
    (sessionRun ++ [.prepareRetryFailedRun 1 "retry" "run" "A"])).isSome from by decide +kernel)
  have hall := h ℚ sampleEnv sampleTraces (by decide) s (GuardedRun.reach_of_run hs)
  have hretry : (GuardedRun.run (step sampleEnv) sampleDesk
      (sessionRun ++ [.prepareRetryFailedRun 1 "retry" "run" "A"])).map (fun s =>
        (s.prepared 1).map fun run => (run.targetType, run.metricNames)) =
      some (some (.trace, ["loop_detection"])) := by decide +kernel
  rw [hs] at hretry
  obtain ⟨run, hrun, heq⟩ := Option.map_eq_some_iff.mp (Option.some.inj hretry)
  obtain ⟨hkind, hnames⟩ := Prod.mk.inj heq
  have hexec := (hall.prepared 1 run hrun).2 "loop_detection" (by rw [hnames]; decide)
  rw [hkind] at hexec
  exact absurd hexec (by decide)

end RunDesk
end PandaProbe
