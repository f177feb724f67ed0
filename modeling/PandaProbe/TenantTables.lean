import PandaProbe.EvalDispatch
import PandaProbe.ForeignKeys
import PandaProbe.GuardedRun

/-! # The tables and their foreign keys

What the rows of the database refer to: a row stands in its table under its id and is kept with
its foreign keys, and with what the deletions ask of it.  The steps are the writes of the
repositories that add a row, change a reference or delete rows, by any number of requests and
workers in any order.

Deleting an organization is left to the ORM, which deletes what belongs to it, and to
`ON DELETE CASCADE`; deleting a project or a trace to the latter alone.  `deletions_exact` says
what is gone then, and that every other row is as it was.  It holds because what a deletion would
set to `NULL` lies in the project that is deleted: an eval run, the monitor it comes from and the
scores it writes are of one project.  A score somebody adds by hand need not be of the project of
its trace; it goes with either.

A write is one step here.  The ORM selects what belongs to an organization before it deletes it,
and a membership, an invitation, a project or a key that is committed in between makes the
deletion of the organization fail on its foreign key, as a whole.

A worker reads the run before it writes the scores, and the run may be deleted in between; then
the foreign key refuses the score.  Ids of runs and monitors are drawn anew, so one that is still
there is the one that was read.
-/
namespace PandaProbe
open ForeignKeys

/-- The tables. -/
inductive TableName
  | users | organizations | memberships | invitations | projects | apiKeys | traces | spans
  | evalMonitors | evalRuns | traceScores | sessionScores | subscriptions | usageRecords
  | billingReports
  deriving DecidableEq, Repr

/-- A table and an id. -/
abbrev RowKey := TableName × UUID

/-- A row: its foreign keys, the session of a trace, and what a monitor and a run are for. -/
inductive StoredRow
  | user
  | organization
  | membership (userId orgId : UUID)
  | invitation (orgId invitedBy : UUID)
  | project (orgId : UUID)
  | apiKey (orgId : UUID) (createdBy : Option UUID)
  | trace (projectId : UUID) (sessionId : Option String)
  | span (traceId : UUID)
  | evalMonitor (projectId : UUID) (targetType : TargetType) (lastRunId : Option UUID)
  | evalRun (projectId : UUID) (targetType : TargetType) (monitorId : Option UUID)
  | traceScore (traceId projectId : UUID) (evalRunId : Option UUID)
  | sessionScore (projectId : UUID) (evalRunId : Option UUID)
  | subscription (orgId : UUID)
  | usageRecord (orgId : UUID)
  | billingReport (usageRecordId : UUID)
  deriving DecidableEq, Repr

/-- The rows of all tables. -/
abbrev Tables := List (RowKey × StoredRow)

namespace StoredRow

/-- The table of a row. -/
def table : StoredRow → TableName
  | user => .users
  | organization => .organizations
  | membership .. => .memberships
  | invitation .. => .invitations
  | project _ => .projects
  | apiKey .. => .apiKeys
  | trace .. => .traces
  | span _ => .spans
  | evalMonitor .. => .evalMonitors
  | evalRun .. => .evalRuns
  | traceScore .. => .traceScores
  | sessionScore .. => .sessionScores
  | subscription _ => .subscriptions
  | usageRecord _ => .usageRecords
  | billingReport _ => .billingReports

/-- The `org_id` of a row. -/
def orgId : StoredRow → Option UUID
  | membership _ o | invitation o _ | project o | apiKey o _ | subscription o | usageRecord o =>
    some o
  | _ => none

/-- The `project_id` of a row. -/
def projectId : StoredRow → Option UUID
  | trace p _ | evalMonitor p _ _ | evalRun p _ _ | traceScore _ p _ | sessionScore p _ => some p
  | _ => none

/-- The `trace_id` of a row. -/
def traceId : StoredRow → Option UUID
  | span t | traceScore t _ _ => some t
  | _ => none

/-- The `usage_record_id` of a row. -/
def usageRecordId : StoredRow → Option UUID
  | billingReport u => some u
  | _ => none

/-- A reference that may be `NULL`. -/
def optional (t : TableName) (action : OnDelete) (id : Option UUID) : List (RowKey × OnDelete) :=
  id.toList.map fun i => ((t, i), action)

/-- The foreign keys of a row.  Where the ORM deletes the children itself the action is
`cascade`. -/
def refs : StoredRow → List (RowKey × OnDelete)
  | user | organization => []
  | membership u o => [((.users, u), .cascade), ((.organizations, o), .cascade)]
  | invitation o u => [((.organizations, o), .cascade), ((.users, u), .cascade)]
  | project o => [((.organizations, o), .cascade)]
  | apiKey o u => ((.organizations, o), .cascade) :: optional .users .restrict u
  | trace p _ => [((.projects, p), .cascade)]
  | span t => [((.traces, t), .cascade)]
  | evalMonitor p _ r => ((.projects, p), .cascade) :: optional .evalRuns .setNull r
  | evalRun p _ m => ((.projects, p), .cascade) :: optional .evalMonitors .setNull m
  | traceScore t p r =>
    ((.traces, t), .cascade) :: ((.projects, p), .cascade) :: optional .evalRuns .setNull r
  | sessionScore p r => ((.projects, p), .cascade) :: optional .evalRuns .setNull r
  | subscription o => [((.organizations, o), .cascade)]
  | usageRecord o => [((.organizations, o), .cascade)]
  | billingReport u => [((.usageRecords, u), .cascade)]

/-- The row with its references to dead rows set to `NULL`. -/
def clear (dead : RowKey → Bool) : StoredRow → StoredRow
  | evalMonitor p t r => evalMonitor p t (r.filter fun i => !dead (.evalRuns, i))
  | evalRun p t m => evalRun p t (m.filter fun i => !dead (.evalMonitors, i))
  | traceScore t p r => traceScore t p (r.filter fun i => !dead (.evalRuns, i))
  | sessionScore p r => sessionScore p (r.filter fun i => !dead (.evalRuns, i))
  | row => row

variable {dead : RowKey → Bool} {row : StoredRow}

@[simp] theorem table_clear : (row.clear dead).table = row.table := by cases row <;> rfl

@[simp] theorem projectId_clear : (row.clear dead).projectId = row.projectId := by cases row <;> rfl

/-- **What a row refers to.** -/
theorem refs_cases {r : RowKey × OnDelete} (h : r ∈ row.refs) :
    (r.1.1 = .organizations ∧ row.orgId = some r.1.2) ∨
      (r.1.1 = .projects ∧ row.projectId = some r.1.2) ∨
      (r.1.1 = .traces ∧ row.traceId = some r.1.2) ∨
      (r.1.1 = .usageRecords ∧ row.usageRecordId = some r.1.2) ∨ r.1.1 = .users ∨
      ((r.1.1 = .evalRuns ∨ r.1.1 = .evalMonitors) ∧ r.2 = .setNull) := by
  obtain ⟨⟨t, i⟩, action⟩ := r
  cases row <;> simp [refs, optional] at h <;>
    simp [orgId, projectId, traceId, usageRecordId] <;> aesop

theorem orgId_ref {o : UUID} (h : row.orgId = some o) : ((.organizations, o), .cascade) ∈ row.refs := by
  cases row <;> simp_all [orgId, refs]

theorem projectId_ref {p : UUID} (h : row.projectId = some p) :
    ((.projects, p), .cascade) ∈ row.refs := by
  cases row <;> simp_all [projectId, refs]

theorem traceId_ref {t : UUID} (h : row.traceId = some t) : ((.traces, t), .cascade) ∈ row.refs := by
  cases row <;> simp_all [traceId, refs]

theorem usageRecordId_ref {u : UUID} (h : row.usageRecordId = some u) :
    ((.usageRecords, u), .cascade) ∈ row.refs := by
  cases row <;> simp_all [usageRecordId, refs]

/-- Where the rows of a project are. -/
theorem table_of_projectId {p : UUID} (h : row.projectId = some p) :
    row.table = .traces ∨ row.table = .evalMonitors ∨ row.table = .evalRuns ∨
      row.table = .traceScores ∨ row.table = .sessionScores := by
  cases row <;> simp_all [projectId, table]

/-- Where the rows of a trace are. -/
theorem table_of_traceId {t : UUID} (h : row.traceId = some t) :
    row.table = .spans ∨ row.table = .traceScores := by
  cases row <;> simp_all [traceId, table]

/-- Where the rows of an organization are. -/
theorem table_of_orgId {o : UUID} (h : row.orgId = some o) :
    row.table = .memberships ∨ row.table = .invitations ∨ row.table = .projects ∨
      row.table = .apiKeys ∨ row.table = .subscriptions ∨ row.table = .usageRecords := by
  cases row <;> simp_all [orgId, table]

theorem table_of_usageRecordId {u : UUID} (h : row.usageRecordId = some u) :
    row.table = .billingReports := by
  cases row <;> simp_all [usageRecordId, table]

theorem optional_filter (t : TableName) (dead : RowKey → Bool) (id : Option UUID) :
    optional t .setNull (id.filter fun i => !dead (t, i)) =
      (optional t .setNull id).filter fun r => !(r.2 = .setNull && dead r.1) := by
  cases id with
  | none => rfl
  | some i => cases h : dead (t, i) <;> simp [optional, Option.filter, h]

theorem optional_restrict (t : TableName) (dead : RowKey → Bool) (id : Option UUID) :
    (optional t .restrict id).filter (fun r => !(r.2 = .setNull && dead r.1)) =
      optional t .restrict id := by
  cases id <;> simp [optional]

theorem refs_clear (dead : RowKey → Bool) (row : StoredRow) : (row.clear dead).refs =
    row.refs.filter fun r => !(r.2 = .setNull && dead r.1) := by
  cases row with
  | apiKey o u =>
    change refs (apiKey o u) = _
    rw [refs, List.filter_cons_of_pos rfl, optional_restrict]
  | _ => simp [clear, refs, optional_filter]

theorem clear_eq_self (dead : RowKey → Bool) (row : StoredRow)
    (h : ∀ r ∈ row.refs, r.2 = .setNull → dead r.1 = false) : row.clear dead = row := by
  have hkept : ∀ t id, (∀ r ∈ optional t .setNull id, r.2 = .setNull → dead r.1 = false) →
      id.filter (fun i => !dead (t, i)) = id := by
    intro t id hid
    cases id with
    | none => rfl
    | some i => simp [Option.filter, hid ((t, i), .setNull) (by simp [optional]) rfl]
  cases row with
  | evalMonitor p t r => rw [clear, hkept _ r fun x hx => h x (List.mem_cons_of_mem _ hx)]
  | evalRun p t m => rw [clear, hkept _ m fun x hx => h x (List.mem_cons_of_mem _ hx)]
  | traceScore t p r =>
    rw [clear, hkept _ r fun x hx => h x (List.mem_cons_of_mem _ (List.mem_cons_of_mem _ hx))]
  | sessionScore p r => rw [clear, hkept _ r fun x hx => h x (List.mem_cons_of_mem _ hx)]
  | _ => rfl

end StoredRow

/-- The foreign keys of `models.py`. -/
def models : RowSchema RowKey StoredRow where
  refs := StoredRow.refs
  clear := StoredRow.clear
  refs_clear := StoredRow.refs_clear
  clear_eq_self := StoredRow.clear_eq_self

@[simp] theorem models_refs (row : StoredRow) : models.refs row = row.refs := rfl

@[simp] theorem models_clear (dead : RowKey → Bool) (row : StoredRow) :
    models.clear dead row = row.clear dead := rfl

namespace Tables
variable (s : Tables)

/-- Add a row to its table. -/
def add (id : UUID) (row : StoredRow) : Option Tables :=
  insert models (row.table, id) row s

/-- The row of a key. -/
def get (k : RowKey) : Option StoredRow := s.lookup k

/-- Change the row of a key. -/
def change (k : RowKey) (f : StoredRow → StoredRow) : Option Tables :=
  update models (fun k' row => if k' = k then f row else row) s

/-- `DELETE FROM … WHERE …`. -/
def deleteWhere (p : RowKey → StoredRow → Bool) : Option Tables :=
  delete models (keys (s.filter fun e => p e.1 e.2)) s

/-! ## Traces -/

/-- `_upsert_span`: a span stays with its trace. -/
def upsertSpan (spanId traceId : UUID) : Option Tables :=
  match s.get (.spans, spanId) with
  | some _ => some s
  | none => s.add spanId (.span traceId)

/-- `upsert_trace`: a trace stays with its project, and keeps its session if none comes in. -/
def upsertTrace (traceId projectId : UUID) (sessionId : Option String)
    (spans : List (UUID × UUID)) : Option Tables :=
  let upserted :=
    match s.get (.traces, traceId) with
    | some _ => s.change (.traces, traceId) fun row =>
        match row with
        | .trace p old => .trace p (sessionId <|> old)
        | row => row
    | none => s.add traceId (.trace projectId sessionId)
  upserted.bind fun (s : Tables) => spans.foldlM (fun (s : Tables) e => s.upsertSpan e.1 e.2) s

/-- `add_spans`. -/
def addSpans (traceId projectId : UUID) (spans : List UUID) : Option Tables :=
  match s.get (.traces, traceId) with
  | some (.trace p _) =>
    if p = projectId then spans.foldlM (fun (s : Tables) i => s.upsertSpan i traceId) s else some s
  | _ => some s

/-- `update_trace`, as far as the session is concerned. -/
def updateTrace (traceId projectId : UUID) (sessionId : Option String) : Option Tables :=
  s.change (.traces, traceId) fun row =>
    match row with
    | .trace p old => .trace p (if p = projectId then sessionId else old)
    | row => row

/-- `delete_trace` and `batch_delete_traces`. -/
def batchDeleteTraces (projectId : UUID) (traceIds : List UUID) : Option Tables :=
  s.deleteWhere fun k row =>
    match row with
    | .trace p _ => p = projectId && k.2 ∈ traceIds
    | _ => false

/-- `delete_session`. -/
def deleteSession (projectId : UUID) (sessionId : String) : Option Tables :=
  s.deleteWhere fun _ row =>
    match row with
    | .trace p session => p = projectId && session = some sessionId
    | _ => false

/-! ## Evaluations -/

/-- `_spawn_run_for_monitor` and `advance_monitor`, in one transaction. -/
def spawnRun (runId monitorId : UUID) : Option Tables :=
  match s.get (.evalMonitors, monitorId) with
  | some (.evalMonitor p t _) =>
    (s.add runId (.evalRun p t (some monitorId))).bind fun (s : Tables) =>
      s.change (.evalMonitors, monitorId) fun row =>
        match row with
        | .evalMonitor p t _ => .evalMonitor p t (some runId)
        | row => row
  | _ => none

/-- `create_score` in a worker: the score is of the run's project. -/
def createRunScore (id traceId runId : UUID) : Option Tables :=
  match s.get (.evalRuns, runId) with
  | some (.evalRun p _ _) => s.add id (.traceScore traceId p (some runId))
  | _ => none

/-- `create_session_score`, which only the worker of a session run calls. -/
def createSessionScore (id runId : UUID) : Option Tables :=
  match s.get (.evalRuns, runId) with
  | some (.evalRun p .session _) => s.add id (.sessionScore p (some runId))
  | _ => none

/-- `delete_scores_for_run`. -/
def deleteScoresForRun (runId projectId : UUID) : Option Tables :=
  s.deleteWhere fun _ row =>
    match row with
    | .traceScore _ p r => p = projectId && r = some runId
    | _ => false

/-- `delete_session_scores_for_run`. -/
def deleteSessionScoresForRun (runId projectId : UUID) : Option Tables :=
  s.deleteWhere fun _ row =>
    match row with
    | .sessionScore p r => p = projectId && r = some runId
    | _ => false

/-- A row of one of the tables of a project, by its id: `delete_monitor`, `delete_score`,
`delete_session_score` and the last step of `delete_eval_run`. -/
def deleteOne (table : TableName) (id projectId : UUID) : Option Tables :=
  s.deleteWhere fun k row => k = (table, id) && row.projectId = some projectId

/-- `EvalService.delete_eval_run`. -/
def deleteEvalRun (runId projectId : UUID) (deleteScores : Bool) : Option Tables :=
  match s.get (.evalRuns, runId) with
  | some (.evalRun p t _) =>
    if p ≠ projectId then none
    else
      let cleared :=
        if deleteScores then
          (if t = .session then s.deleteSessionScoresForRun runId projectId else some s).bind
            fun (s : Tables) => s.deleteScoresForRun runId projectId
        else some s
      cleared.bind fun (s : Tables) => s.deleteOne .evalRuns runId projectId
  | _ => none

/-! ## Identity -/

/-- `delete_project`. -/
def deleteProject (projectId : UUID) : Option Tables :=
  s.deleteWhere fun k _ => k = (.projects, projectId)

/-- `delete_organization`, with nothing committed between the selects of the ORM and its deletes. -/
def deleteOrganization (orgId : UUID) : Option Tables :=
  s.deleteWhere fun k _ => k = (.organizations, orgId)

/-- `delete_membership`. -/
def deleteMembership (userId orgId : UUID) : Option Tables :=
  s.deleteWhere fun _ row => row = .membership userId orgId

/-- `delete_api_key`. -/
def deleteApiKey (id : UUID) : Option Tables := s.deleteWhere fun k _ => k = (.apiKeys, id)

end Tables

/-- The writes.  `create` stands for those that add a row as it comes: `create_organization`,
`create_membership`, `create_project`, `create_api_key`, `create_monitor`, `create_eval_run`
without a monitor, `create_score` of the API, and the rows of users, invitations and billing. -/
inductive TableAct
  | create (id : UUID) (row : StoredRow)
  | upsertTrace (traceId projectId : UUID) (sessionId : Option String) (spans : List (UUID × UUID))
  | addSpans (traceId projectId : UUID) (spans : List UUID)
  | updateTrace (traceId projectId : UUID) (sessionId : Option String)
  | batchDeleteTraces (projectId : UUID) (traceIds : List UUID)
  | deleteSession (projectId : UUID) (sessionId : String)
  | spawnRun (runId monitorId : UUID)
  | createRunScore (id traceId runId : UUID)
  | createSessionScore (id runId : UUID)
  | deleteScoresForRun (runId projectId : UUID)
  | deleteSessionScoresForRun (runId projectId : UUID)
  | deleteEvalRun (runId projectId : UUID) (deleteScores : Bool)
  | deleteOne (table : TableName) (id projectId : UUID)
  | deleteProject (projectId : UUID)
  | deleteOrganization (orgId : UUID)
  | deleteMembership (userId orgId : UUID)
  | deleteApiKey (id : UUID)

/-- A row that `create` may add: what may be `NULL` in it and leads to a run or a monitor is. -/
def StoredRow.plain (row : StoredRow) : Bool := row.refs.all fun r => r.2 ≠ .setNull

/-- One write. -/
def Tables.step (s : Tables) : TableAct → Option Tables
  | .create id row => if row.plain then s.add id row else none
  | .upsertTrace t p session spans => s.upsertTrace t p session spans
  | .addSpans t p spans => s.addSpans t p spans
  | .updateTrace t p session => s.updateTrace t p session
  | .batchDeleteTraces p ts => s.batchDeleteTraces p ts
  | .deleteSession p session => s.deleteSession p session
  | .spawnRun r m => s.spawnRun r m
  | .createRunScore i t r => s.createRunScore i t r
  | .createSessionScore i r => s.createSessionScore i r
  | .deleteScoresForRun r p => s.deleteScoresForRun r p
  | .deleteSessionScoresForRun r p => s.deleteSessionScoresForRun r p
  | .deleteEvalRun r p scores => s.deleteEvalRun r p scores
  | .deleteOne table i p => s.deleteOne table i p
  | .deleteProject p => s.deleteProject p
  | .deleteOrganization o => s.deleteOrganization o
  | .deleteMembership u o => s.deleteMembership u o
  | .deleteApiKey i => s.deleteApiKey i

/-! ## What every write keeps -/

/-- The references are intact, a row is in its table, and a reference that a deletion sets to
`NULL` stays in its project. -/
structure Tables.Sound (s : Tables) : Prop where
  intact : Intact models s
  tables : ∀ e ∈ s, e.1.1 = e.2.table
  sameProject : ∀ e ∈ s, ∀ e' ∈ s, (e'.1, .setNull) ∈ e.2.refs → e'.2.projectId = e.2.projectId

namespace Tables
variable {s s' : Tables} {id : UUID} {row : StoredRow}

theorem sound_nil : Sound [] :=
  ⟨⟨List.nodup_nil, by simp⟩, by simp, by simp⟩

/-- The rows after a row is added. -/
theorem add_eq_some (h : s.add id row = some s') :
    (row.table, id) ∉ keys s ∧ s' = s ++ [((row.table, id), row)] := by
  unfold Tables.add ForeignKeys.insert at h
  split at h
  next hok => exact ⟨hok.1, (Option.some.inj h).symm⟩
  · cases h

/-- A row that is added keeps soundness if its own references stay in its project. -/
theorem Sound.add (hs : s.Sound) (h : s.add id row = some s')
    (hrow : ∀ e ∈ s, (e.1, .setNull) ∈ row.refs → e.2.projectId = row.projectId) : s'.Sound := by
  have hintact : Intact models s' := hs.intact.insert h
  obtain ⟨hnew, rfl⟩ := add_eq_some h
  refine ⟨hintact, fun e he => ?_, fun e he e' he' href => ?_⟩
  · rcases List.mem_append.mp he with he | he
    · exact hs.tables e he
    · rw [List.mem_singleton.mp he]
  · rcases List.mem_append.mp he with he | he
    · rcases List.mem_append.mp he' with he' | he'
      · exact hs.sameProject e he e' he' href
      · -- nothing refers to a key that was not there
        rw [List.mem_singleton.mp he'] at href
        exact absurd (hs.intact.resolves e he _ href) hnew
    · rw [List.mem_singleton.mp he] at href ⊢
      rcases List.mem_append.mp he' with he' | he'
      · exact hrow e' he' href
      · rw [List.mem_singleton.mp he']

/-- The rows after a change. -/
theorem mem_change {k : RowKey} {f : StoredRow → StoredRow} (h : s.change k f = some s')
    {e : RowKey × StoredRow} :
    e ∈ s' ↔ ∃ row, (e.1, row) ∈ s ∧ e.2 = if e.1 = k then f row else row := by
  unfold change update at h
  dsimp only at h
  split at h
  · cases h
    rw [List.mem_map]
    constructor
    · rintro ⟨e', he', rfl⟩
      exact ⟨e'.2, he', rfl⟩
    · rintro ⟨row, hrow, heq⟩
      exact ⟨(e.1, row), hrow, Prod.ext rfl heq.symm⟩
  · cases h

/-- A change keeps soundness if it keeps the table and the project of a row and what it refers
to then stays in the project. -/
theorem Sound.change (hs : s.Sound) {k : RowKey} {f : StoredRow → StoredRow}
    (h : s.change k f = some s') (hf : ∀ row, (f row).table = row.table ∧
      (f row).projectId = row.projectId)
    (hrefs : ∀ row, (k, row) ∈ s → ∀ e ∈ s, (e.1, .setNull) ∈ (f row).refs →
      e.2.projectId = row.projectId) : s'.Sound := by
  have hmem : ∀ e, e ∈ s' ↔ _ := fun e => mem_change h
  have hsame : ∀ (e : RowKey × StoredRow) row, e.2 = (if e.1 = k then f row else row) →
      e.2.table = row.table ∧ e.2.projectId = row.projectId := by
    intro e row heq
    rw [heq]
    split
    · exact hf row
    · exact ⟨rfl, rfl⟩
  refine ⟨hs.intact.update h, fun e he => ?_, fun e he e' he' href => ?_⟩
  · obtain ⟨row, hrow, heq⟩ := (hmem e).mp he
    rw [(hsame e row heq).1]
    exact hs.tables _ hrow
  · obtain ⟨row, hrow, heq⟩ := (hmem e).mp he
    obtain ⟨row', hrow', heq'⟩ := (hmem e').mp he'
    rw [(hsame e row heq).2, (hsame e' row' heq').2]
    rw [heq] at href
    split at href
    next hk => exact hrefs row (hk ▸ hrow) _ hrow' href
    · exact hs.sameProject _ hrow _ hrow' href

/-- **A deletion keeps soundness.** -/
theorem Sound.deleteWhere (hs : s.Sound) {p : RowKey → StoredRow → Bool}
    (h : s.deleteWhere p = some s') : s'.Sound := by
  have hkept : ∀ e ∈ s', ∃ row, (e.1, row) ∈ s ∧ e.2.table = row.table ∧
      e.2.projectId = row.projectId ∧ ∀ r ∈ e.2.refs, r ∈ row.refs := by
    intro e he
    obtain ⟨row, hrow, -, heq⟩ := (mem_delete h).mp he
    rw [heq, models_clear]
    refine ⟨row, hrow, StoredRow.table_clear, StoredRow.projectId_clear, fun r hr => ?_⟩
    rw [StoredRow.refs_clear] at hr
    exact (List.mem_filter.mp hr).1
  refine ⟨hs.intact.delete h, fun e he => ?_, fun e he e' he' href => ?_⟩
  · obtain ⟨row, hrow, htable, -⟩ := hkept e he
    rw [htable]
    exact hs.tables _ hrow
  · obtain ⟨row, hrow, -, hproject, hrefs⟩ := hkept e he
    obtain ⟨row', hrow', -, hproject', -⟩ := hkept e' he'
    rw [hproject, hproject']
    exact hs.sameProject _ hrow _ hrow' (hrefs _ href)

theorem get_mem {k : RowKey} (h : s.get k = some row) : (k, row) ∈ s := by
  obtain ⟨front, back, rfl, -⟩ := List.lookup_eq_some_iff.mp h
  exact List.mem_append_right _ List.mem_cons_self

/-- A row without references to runs and monitors. -/
theorem Sound.add_plain (hs : s.Sound) (hplain : row.plain = true) (h : s.add id row = some s') :
    s'.Sound := by
  refine hs.add h fun e _ href => ?_
  have hne := List.all_eq_true.mp hplain _ href
  simp at hne

theorem Sound.upsertSpan (hs : s.Sound) {traceId : UUID} (h : s.upsertSpan id traceId = some s') :
    s'.Sound := by
  unfold Tables.upsertSpan at h
  split at h
  · cases h
    exact hs
  · exact hs.add_plain rfl h

/-- A list of writes that each keep soundness. -/
theorem Sound.foldlM {α : Type} {f : Tables → α → Option Tables}
    (hf : ∀ s a s', Sound s → f s a = some s' → s'.Sound) {l : List α} (hs : s.Sound)
    (h : l.foldlM f s = some s') : s'.Sound := by
  induction l generalizing s with
  | nil =>
    cases h
    exact hs
  | cons a l ih =>
    obtain ⟨t, ht, hrest⟩ := Option.bind_eq_some_iff.mp h
    exact ih (hf s a t hs ht) hrest

/-- A change that leaves the references alone. -/
theorem Sound.change_plain (hs : s.Sound) {k : RowKey} {f : StoredRow → StoredRow}
    (h : s.change k f = some s') (hf : ∀ row, (f row).table = row.table ∧
      (f row).projectId = row.projectId ∧ (f row).refs = row.refs) : s'.Sound := by
  refine hs.change h (fun row => ⟨(hf row).1, (hf row).2.1⟩) fun row hrow e he href => ?_
  rw [(hf row).2.2] at href
  exact hs.sameProject _ hrow e he href

theorem Sound.upsertTrace (hs : s.Sound) {projectId : UUID} {sessionId : Option String}
    {spans : List (UUID × UUID)} (h : s.upsertTrace id projectId sessionId spans = some s') :
    s'.Sound := by
  obtain ⟨t, ht, hspans⟩ := Option.bind_eq_some_iff.mp h
  refine Sound.foldlM (fun s e s' hs h => hs.upsertSpan h) ?_ hspans
  split at ht
  · refine hs.change_plain ht fun row => ?_
    cases row <;> exact ⟨rfl, rfl, rfl⟩
  · exact hs.add_plain rfl ht

theorem Sound.updateTrace (hs : s.Sound) {projectId : UUID} {sessionId : Option String}
    (h : s.updateTrace id projectId sessionId = some s') : s'.Sound := by
  refine hs.change_plain h fun row => ?_
  cases row <;> exact ⟨rfl, rfl, rfl⟩

theorem Sound.addSpans (hs : s.Sound) {projectId : UUID} {spans : List UUID}
    (h : s.addSpans id projectId spans = some s') : s'.Sound := by
  unfold Tables.addSpans at h
  split at h
  · split at h
    · exact Sound.foldlM (fun s i s' hs h => hs.upsertSpan h) hs h
    · cases h
      exact hs
  · cases h
    exact hs

/-- A run that comes from a monitor is of its project, and so is the run the monitor names. -/
theorem Sound.spawnRun (hs : s.Sound) {monitorId : UUID} (h : s.spawnRun id monitorId = some s') :
    s'.Sound := by
  unfold Tables.spawnRun at h
  split at h
  next p t last hget =>
    obtain ⟨s₁, hadd, hchange⟩ := Option.bind_eq_some_iff.mp h
    have hmonitor := get_mem hget
    have hs₁ : s₁.Sound := by
      refine hs.add hadd fun ⟨k, row⟩ he href => ?_
      obtain rfl : k = (.evalMonitors, monitorId) := by
        simpa [StoredRow.refs, StoredRow.optional] using href
      rw [hs.intact.unique he hmonitor]
      rfl
    obtain ⟨-, hrows⟩ := add_eq_some hadd
    refine hs₁.change hchange (fun row => ?_) fun row hrow ⟨k, row'⟩ he href => ?_
    · cases row <;> exact ⟨rfl, rfl⟩
    · have hold : ((.evalMonitors, monitorId), .evalMonitor p t last) ∈ s₁ := by
        rw [hrows]
        exact List.mem_append_left _ hmonitor
      have hrun : ((.evalRuns, id), .evalRun p t (some monitorId)) ∈ s₁ := by
        rw [hrows]
        exact List.mem_append_right _ (List.mem_singleton_self _)
      rw [hs₁.intact.unique hrow hold] at href ⊢
      obtain rfl : k = (.evalRuns, id) := by
        simpa [StoredRow.refs, StoredRow.optional] using href
      rw [hs₁.intact.unique he hrun]
      rfl
  · cases h

theorem Sound.createRunScore (hs : s.Sound) {traceId runId : UUID}
    (h : s.createRunScore id traceId runId = some s') : s'.Sound := by
  unfold Tables.createRunScore at h
  split at h
  next p t m hget =>
    refine hs.add h fun ⟨k, row⟩ he href => ?_
    obtain rfl : k = (.evalRuns, runId) := by
      simpa [StoredRow.refs, StoredRow.optional] using href
    rw [hs.intact.unique he (get_mem hget)]
    rfl
  · cases h

theorem Sound.createSessionScore (hs : s.Sound) {runId : UUID}
    (h : s.createSessionScore id runId = some s') : s'.Sound := by
  unfold Tables.createSessionScore at h
  split at h
  next p m hget =>
    refine hs.add h fun ⟨k, row⟩ he href => ?_
    obtain rfl : k = (.evalRuns, runId) := by
      simpa [StoredRow.refs, StoredRow.optional] using href
    rw [hs.intact.unique he (get_mem hget)]
    rfl
  · cases h

theorem Sound.deleteEvalRun (hs : s.Sound) {projectId : UUID} {deleteScores : Bool}
    (h : s.deleteEvalRun id projectId deleteScores = some s') : s'.Sound := by
  unfold Tables.deleteEvalRun at h
  split at h
  · split at h
    · cases h
    · obtain ⟨s₁, hscores, hrun⟩ := Option.bind_eq_some_iff.mp h
      refine Sound.deleteWhere ?_ hrun
      split at hscores
      · obtain ⟨s₂, hsession, htrace⟩ := Option.bind_eq_some_iff.mp hscores
        refine Sound.deleteWhere ?_ htrace
        split at hsession
        · exact hs.deleteWhere hsession
        · cases hsession
          exact hs
      · cases hscores
        exact hs
  · cases h

/-- **Every write keeps soundness.** -/
theorem sound_step {a : TableAct} (hs : s.Sound) (h : s.step a = some s') : s'.Sound := by
  cases a with
  | create id row =>
    dsimp only [step] at h
    split at h
    next hplain => exact hs.add_plain hplain h
    · cases h
  | upsertTrace t p session spans => exact hs.upsertTrace h
  | addSpans t p spans => exact hs.addSpans h
  | updateTrace t p session => exact hs.updateTrace h
  | batchDeleteTraces p ts =>
    rw [step, batchDeleteTraces] at h
    exact hs.deleteWhere h
  | deleteSession p session =>
    rw [step, deleteSession] at h
    exact hs.deleteWhere h
  | spawnRun r m => exact hs.spawnRun h
  | createRunScore i t r => exact hs.createRunScore h
  | createSessionScore i r => exact hs.createSessionScore h
  | deleteScoresForRun r p =>
    rw [step, deleteScoresForRun] at h
    exact hs.deleteWhere h
  | deleteSessionScoresForRun r p =>
    rw [step, deleteSessionScoresForRun] at h
    exact hs.deleteWhere h
  | deleteEvalRun r p scores => exact hs.deleteEvalRun h
  | deleteOne table i p =>
    rw [step, deleteOne] at h
    exact hs.deleteWhere h
  | deleteProject p =>
    rw [step, deleteProject] at h
    exact hs.deleteWhere h
  | deleteOrganization o =>
    rw [step, deleteOrganization] at h
    exact hs.deleteWhere h
  | deleteMembership u o =>
    rw [step, deleteMembership] at h
    exact hs.deleteWhere h
  | deleteApiKey i =>
    rw [step, deleteApiKey] at h
    exact hs.deleteWhere h

/-! ## What a deletion takes away -/

section
variable (s)

/-- The rows that are selected, and the spans and scores of the traces among them. -/
def withTraces (q : RowKey × StoredRow → Bool) (e : RowKey × StoredRow) : Bool :=
  q e || e.2.traceId.any fun t => s.any fun e' => e'.1 = (.traces, t) && q e'

/-- A project, its rows, and the spans and scores of its traces. -/
def ofProject (projectId : UUID) (e : RowKey × StoredRow) : Bool :=
  e.1 = (.projects, projectId) || s.withTraces (fun e => e.2.projectId = some projectId) e

/-- An organization, its rows, the reports on its usage, and what belongs to its projects. -/
def ofOrganization (orgId : UUID) (e : RowKey × StoredRow) : Bool :=
  e.1 = (.organizations, orgId) || e.2.orgId = some orgId ||
    (e.2.usageRecordId.any fun u =>
      s.any fun e' => e'.1 = (.usageRecords, u) && e'.2.orgId = some orgId) ||
    s.any fun e' => e'.1.1 = .projects && e'.2.orgId = some orgId && s.ofProject e'.1.2 e

end

theorem withTraces_iff {q : RowKey × StoredRow → Bool} {e : RowKey × StoredRow} :
    s.withTraces q e ↔ q e ∨ ∃ t row, e.2.traceId = some t ∧ ((.traces, t), row) ∈ s ∧
      q ((.traces, t), row) := by
  simp only [withTraces, Bool.or_eq_true, Option.any_eq_true, List.any_eq_true, Bool.and_eq_true,
    decide_eq_true_eq, Prod.exists]
  aesop

theorem ofProject_iff {p : UUID} {e : RowKey × StoredRow} :
    s.ofProject p e ↔ e.1 = (.projects, p) ∨ e.2.projectId = some p ∨
      ∃ t row, e.2.traceId = some t ∧ ((.traces, t), row) ∈ s ∧ row.projectId = some p := by
  simp only [ofProject, Bool.or_eq_true, withTraces_iff, decide_eq_true_eq]

theorem ofOrganization_iff {o : UUID} {e : RowKey × StoredRow} :
    s.ofOrganization o e ↔ e.1 = (.organizations, o) ∨ e.2.orgId = some o ∨
      (∃ u row, e.2.usageRecordId = some u ∧ ((.usageRecords, u), row) ∈ s ∧ row.orgId = some o) ∨
      ∃ p row, ((.projects, p), row) ∈ s ∧ row.orgId = some o ∧ s.ofProject p e := by
  simp only [ofOrganization, Bool.or_eq_true, Option.any_eq_true, List.any_eq_true,
    Bool.and_eq_true, decide_eq_true_eq, Prod.exists, or_assoc]
  aesop

/-- The row that a reference leads to. -/
theorem Sound.target (hs : s.Sound) {e : RowKey × StoredRow} (he : e ∈ s) {r : RowKey × OnDelete}
    (hr : r ∈ e.2.refs) : ∃ row, (r.1, row) ∈ s ∧ r.1.1 = row.table := by
  obtain ⟨row, hrow⟩ := mem_keys.mp (hs.intact.resolves e he r hr)
  exact ⟨row, hrow, hs.tables _ hrow⟩

/-- A row that is selected is a root of its deletion. -/
theorem Sound.root (hs : s.Sound) {p : RowKey → StoredRow → Bool} {e : RowKey × StoredRow}
    (he : e ∈ s) : e.1 ∈ keys (s.filter fun e => p e.1 e.2) ↔ p e.1 e.2 = true := by
  rw [mem_keys]
  constructor
  · rintro ⟨row, hrow⟩
    obtain ⟨hrow, hp⟩ := List.mem_filter.mp hrow
    rwa [hs.intact.unique (k := e.1) he hrow]
  · exact fun hp => ⟨e.2, List.mem_filter.mpr ⟨he, hp⟩⟩

theorem Sound.root_key (hs : s.Sound) {e : RowKey × StoredRow} (he : e ∈ s) (k : RowKey) :
    e.1 ∈ keys (s.filter fun e => decide (e.1 = k)) ↔ e.1 = k := by
  rw [hs.root (p := fun k' _ => decide (k' = k)) he, decide_eq_true_eq]

/-- **Deleting traces** takes their spans and scores along, and nothing else. -/
theorem Sound.deleteTraces (hs : s.Sound) {p : RowKey → StoredRow → Bool}
    (hp : ∀ k row, p k row = true → row.table = .traces) :
    s.deleteWhere p = some (s.filter fun e => !s.withTraces (fun e => p e.1 e.2) e) := by
  refine delete_eq_filter (fun e he hroot => ?_) (fun e he hgone => ?_)
    (fun e he e' he' hgone action href => ?_) hs.intact
  · exact withTraces_iff.mpr (.inl ((hs.root he).mp hroot))
  · rcases withTraces_iff.mp hgone with hq | ⟨t, row, ht, hrow, hq⟩
    · exact .root ((hs.root he).mpr hq)
    · exact .child he (StoredRow.traceId_ref ht) (.root ((hs.root hrow).mpr hq))
  · have htable : e'.1.1 = e'.2.table := hs.tables _ he'
    have hcases := StoredRow.refs_cases href
    rcases withTraces_iff.mp hgone with hq | ⟨t, row, ht, -, -⟩
    · -- only what is of a trace refers to a trace
      have htraces := hp _ _ hq
      rw [htable, htraces] at hcases
      simp only [reduceCtorEq, false_and, true_and, false_or, or_false] at hcases
      refine withTraces_iff.mpr (.inr ⟨e'.1.2, e'.2, hcases, ?_, ?_⟩)
      · rwa [← htraces, ← htable]
      · rwa [← htraces, ← htable]
    · -- and nothing refers to a span or a score
      rw [htable] at hcases
      rcases StoredRow.table_of_traceId ht with htable | htable <;> simp [htable] at hcases

/-- Nothing outside a project refers into it. -/
theorem Sound.ofProject_closed (hs : s.Sound) {p : UUID} {e e' : RowKey × StoredRow} (he : e ∈ s)
    (he' : e' ∈ s) (hgone : s.ofProject p e' = true) {action : OnDelete}
    (href : (e'.1, action) ∈ e.2.refs) : s.ofProject p e = true := by
  have htable : e'.1.1 = e'.2.table := hs.tables _ he'
  have hcases := StoredRow.refs_cases href
  rw [ofProject_iff] at hgone ⊢
  rcases hgone with hkey | hproject | ⟨t, row, ht, -, -⟩
  · rw [hkey] at hcases
    simp only [reduceCtorEq, false_and, true_and, false_or, or_false] at hcases
    exact .inr (.inl hcases)
  · rw [htable] at hcases
    rcases StoredRow.table_of_projectId hproject with h | h | h | h | h
    · rw [h] at hcases
      simp only [reduceCtorEq, false_and, true_and, false_or, or_false] at hcases
      refine .inr (.inr ⟨e'.1.2, e'.2, hcases, ?_, hproject⟩)
      rwa [← h, ← htable]
    · obtain rfl : action = .setNull := by simpa [h] using hcases
      exact .inr (.inl ((hs.sameProject e he e' he' href).symm.trans hproject))
    · obtain rfl : action = .setNull := by simpa [h] using hcases
      exact .inr (.inl ((hs.sameProject e he e' he' href).symm.trans hproject))
    · simp [h] at hcases
    · simp [h] at hcases
  · rw [htable] at hcases
    rcases StoredRow.table_of_traceId ht with htable | htable <;> simp [htable] at hcases

/-- What belongs to a project is under it. -/
theorem Sound.under_project (hs : s.Sound) {p : UUID} {roots : List RowKey}
    (hproject : ∀ row, ((.projects, p), row) ∈ s → Under models s roots (.projects, p))
    {e : RowKey × StoredRow} (he : e ∈ s) (h : s.ofProject p e = true) :
    Under models s roots e.1 := by
  have hrow : ∀ e ∈ s, e.2.projectId = some p → Under models s roots e.1 := by
    intro e he hp
    have href := StoredRow.projectId_ref hp
    obtain ⟨row, hrow, -⟩ := hs.target he href
    exact .child he href (hproject row hrow)
  rcases ofProject_iff.mp h with hkey | hp | ⟨t, row, ht, htrace, hp⟩
  · rw [hkey]
    exact hproject e.2 (hkey ▸ he)
  · exact hrow e he hp
  · exact .child he (StoredRow.traceId_ref ht) (hrow _ htrace hp)

/-- **Deleting a project** takes what belongs to it, and nothing else. -/
theorem Sound.deleteProject (hs : s.Sound) (p : UUID) :
    s.deleteProject p = some (s.filter fun e => !s.ofProject p e) := by
  refine delete_eq_filter (fun e he hroot => ?_) (fun e he hgone => ?_)
    (fun e he e' he' hgone action href => hs.ofProject_closed he he' hgone href) hs.intact
  · exact ofProject_iff.mpr (.inl ((hs.root_key he _).mp hroot))
  · exact hs.under_project (fun row hrow => .root ((hs.root_key hrow _).mpr rfl)) he hgone

/-- **Deleting an organization** takes what belongs to it, and nothing else. -/
theorem Sound.deleteOrganization (hs : s.Sound) (o : UUID) :
    s.deleteOrganization o = some (s.filter fun e => !s.ofOrganization o e) := by
  refine delete_eq_filter (fun e he hroot => ?_) (fun e he hgone => ?_)
    (fun e he e' he' hgone action href => ?_) hs.intact
  · exact ofOrganization_iff.mpr (.inl ((hs.root_key he _).mp hroot))
  · have horg : ∀ e ∈ s, e.2.orgId = some o → Under models s
        (keys (s.filter fun e => (e.1 = (.organizations, o) : Bool))) e.1 := by
      intro e he ho
      have href := StoredRow.orgId_ref ho
      obtain ⟨row, hrow, -⟩ := hs.target he href
      exact .child he href (.root ((hs.root_key hrow _).mpr rfl))
    rcases ofOrganization_iff.mp hgone with hkey | ho | ⟨u, row, hu, hrow, ho⟩ |
      ⟨p, row, hrow, ho, hp⟩
    · exact .root ((hs.root_key he _).mpr hkey)
    · exact horg e he ho
    · exact .child he (StoredRow.usageRecordId_ref hu) (horg _ hrow ho)
    · exact hs.under_project (fun row' hrow' => horg _ hrow' (hs.intact.unique hrow hrow' ▸ ho)) he hp
  · have htable : e'.1.1 = e'.2.table := hs.tables _ he'
    have hcases := StoredRow.refs_cases href
    rw [ofOrganization_iff] at hgone ⊢
    rcases hgone with hkey | ho | ⟨u, row, hu, -, -⟩ | ⟨p, row, hrow, ho, hp⟩
    · rw [hkey] at hcases
      simp only [reduceCtorEq, false_and, true_and, or_false] at hcases
      exact .inr (.inl hcases)
    · rw [htable] at hcases
      rcases StoredRow.table_of_orgId ho with h | h | h | h | h | h
      · simp [h] at hcases
      · simp [h] at hcases
      · -- a project of the organization
        rw [h] at hcases
        simp only [reduceCtorEq, false_and, true_and, false_or, or_false] at hcases
        refine .inr (.inr (.inr ⟨e'.1.2, e'.2, ?_, ho, ofProject_iff.mpr (.inr (.inl hcases))⟩))
        rwa [← h, ← htable]
      · simp [h] at hcases
      · simp [h] at hcases
      · -- a usage record of it
        rw [h] at hcases
        simp only [reduceCtorEq, false_and, true_and, false_or, or_false] at hcases
        refine .inr (.inr (.inl ⟨e'.1.2, e'.2, hcases, ?_, ho⟩))
        rwa [← h, ← htable]
    · rw [htable, StoredRow.table_of_usageRecordId hu] at hcases
      simp at hcases
    · exact .inr (.inr (.inr ⟨p, row, hrow, ho, hs.ofProject_closed he he' hp href⟩))

/-- **Deleting a run or a monitor** leaves every other row, with its references to it cleared. -/
theorem Sound.deleteOne (hs : s.Sound) {t : TableName} (ht : t = .evalRuns ∨ t = .evalMonitors)
    {p : UUID} (hrow : ((t, id), row) ∈ s) (hp : row.projectId = some p) :
    ∃ s', s.deleteOne t id p = some s' ∧ ∀ e, e ∈ s' ↔ ∃ row, (e.1, row) ∈ s ∧ e.1 ≠ (t, id) ∧
      e.2 = row.clear fun k => k = (t, id) := by
  let selected : RowKey → StoredRow → Bool := fun k row => k = (t, id) && row.projectId = some p
  let roots := keys (s.filter fun e => selected e.1 e.2)
  have hroot : (t, id) ∈ roots := (hs.root (p := selected) hrow).mpr (by simp [selected, hp])
  have hsetNull : ∀ e ∈ s, ∀ action, ((t, id), action) ∈ e.2.refs → action = .setNull := by
    intro e _ action href
    have hcases := StoredRow.refs_cases href
    rcases ht with rfl | rfl <;> simpa using hcases
  have hunder : ∀ k, Under models s roots k ↔ k = (t, id) := by
    intro k
    constructor
    · intro h
      induction h with
      | root hk =>
        obtain ⟨row', hrow'⟩ := mem_keys.mp hk
        have hboth := (List.mem_filter.mp hrow').2
        simp only [selected, Bool.and_eq_true, decide_eq_true_eq] at hboth
        exact hboth.1
      | child hrow' href _ ih =>
        rw [ih] at href
        cases hsetNull _ hrow' _ href
    · rintro rfl
      exact .root hroot
  obtain ⟨s', hs'⟩ : ∃ s', delete models roots s = some s' := by
    refine exists_delete fun e he r hr hrestrict hu => ?_
    obtain ⟨k, action⟩ := r
    rw [(hunder k).mp hu] at hr
    rw [hsetNull e he action hr] at hrestrict
    cases hrestrict
  refine ⟨s', hs', fun e => ?_⟩
  rw [mem_delete hs']
  refine exists_congr fun row => ?_
  rw [hunder, models_clear]
  have hdead : ∀ k, k ∈ dead models s roots ↔ k = (t, id) := fun k => mem_dead.trans (hunder k)
  simp only [hdead, ne_eq]

/-- **What the deletions take away.**  After any writes the references are intact, and a
reference that is set to `NULL` stays in its project.  Deleting an organization, a project, traces
or a session, with no other write in between, always succeeds, takes what belongs to it, and
leaves every other row as it was; deleting a run or a monitor leaves every other row, less its
reference to it. -/
theorem deletions_exact (h : GuardedRun.Reach Tables.step GuardedRun.Always [] s) :
    s.Sound ∧
    (∀ o, s.deleteOrganization o = some (s.filter fun e => !s.ofOrganization o e)) ∧
    (∀ p, s.deleteProject p = some (s.filter fun e => !s.ofProject p e)) ∧
    (∀ p ids, s.batchDeleteTraces p ids = some (s.filter fun e => !s.withTraces (fun e =>
      e.2.table = .traces && e.1.2 ∈ ids && e.2.projectId = some p) e)) ∧
    (∀ p session, s.deleteSession p session = some (s.filter fun e =>
      !s.withTraces (fun e => e.2 = .trace p (some session)) e)) ∧
    ∀ t, t = .evalRuns ∨ t = .evalMonitors → ∀ id p row, ((t, id), row) ∈ s →
      row.projectId = some p → ∃ s', s.deleteOne t id p = some s' ∧
        ∀ e, e ∈ s' ↔ ∃ row, (e.1, row) ∈ s ∧ e.1 ≠ (t, id) ∧
          e.2 = row.clear fun k => k = (t, id) := by
  have hs : s.Sound := h.invariant sound_nil fun _ _ _ hs _ => sound_step hs
  refine ⟨hs, hs.deleteOrganization, hs.deleteProject, fun p ids => ?_, fun p session => ?_,
    fun t ht id p row hrow hp => hs.deleteOne ht hrow hp⟩
  · have hq : (fun (k : RowKey) (row : StoredRow) =>
        row.table = .traces && k.2 ∈ ids && row.projectId = some p) = fun k row =>
          match row with
          | .trace p' _ => p' = p && k.2 ∈ ids
          | _ => false := by
      funext k row
      cases row <;> simp [StoredRow.table, StoredRow.projectId, Bool.and_comm]
    rw [batchDeleteTraces, ← hq]
    exact hs.deleteTraces fun k row hrow => by simp_all
  · have hq : (fun (_ : RowKey) (row : StoredRow) => decide (row = .trace p (some session))) =
        fun _ row =>
          match row with
          | .trace p' session' => p' = p && session' = some session
          | _ => false := by
      funext k row
      cases row <;> simp
    rw [deleteSession, ← hq]
    exact hs.deleteTraces fun k row hrow => by rw [of_decide_eq_true hrow]; rfl

/-- Two organizations with a project each.  The monitor of the first spawns a run, whose worker
scores a trace; the second project scores the trace of the first. -/
def twoOrganizations : List TableAct :=
  [.create "ann" .user, .create "o1" .organization, .create "o2" .organization,
    .create "m1" (.membership "ann" "o1"), .create "p1" (.project "o1"),
    .create "p2" (.project "o2"), .upsertTrace "t1" "p1" (some "s") [("x", "t1")],
    .create "w" (.evalMonitor "p1" .trace none), .spawnRun "r" "w",
    .createRunScore "c" "t1" "r", .create "d" (.traceScore "t1" "p2" none)]

/-- Deleting the run leaves its score and the monitor; deleting the first project takes the score
of the second along. -/
theorem deletions_exact_two_organizations : ∃ s, GuardedRun.run step [] twoOrganizations = some s ∧
    (s.deleteProject "p1" = some [((.users, "ann"), .user), ((.organizations, "o1"), .organization),
      ((.organizations, "o2"), .organization), ((.memberships, "m1"), .membership "ann" "o1"),
      ((.projects, "p2"), .project "o2")]) ∧
    ∃ s', s.deleteOne .evalRuns "r" "p1" = some s' ∧
      ((.traceScores, "c"), .traceScore "t1" "p1" none) ∈ s' ∧
      ((.evalMonitors, "w"), .evalMonitor "p1" .trace none) ∈ s' := by
  obtain ⟨s, hs⟩ : ∃ s, GuardedRun.run step [] twoOrganizations = some s := ⟨_, rfl⟩
  obtain ⟨-, -, hproject, -, -, hone⟩ := deletions_exact (GuardedRun.reach_of_run hs)
  cases hs
  refine ⟨_, rfl, (hproject "p1").trans (by decide), ?_⟩
  obtain ⟨s', hs', hrows⟩ := hone .evalRuns (.inl rfl) "r" "p1" (.evalRun "p1" .trace (some "w"))
    (by decide) rfl
  exact ⟨s', hs', (hrows _).mpr ⟨.traceScore "t1" "p1" (some "r"), by decide⟩,
    (hrows _).mpr ⟨.evalMonitor "p1" .trace (some "r"), by decide⟩⟩

end Tables

end PandaProbe
