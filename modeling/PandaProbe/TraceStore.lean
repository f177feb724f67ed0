import Mathlib.Data.List.Dedup
import Mathlib.Data.List.Sort
import PandaProbe.Registry

/-! # The trace and span tables

The rows of `traces` and `spans` and the writes of `TraceRepository`.  Both tables
are keyed by their primary key alone; a span row names its trace, which exists
(`span_trace`, the foreign key), and the project is a column of the trace row.

A nullable JSONB column is an `Option Json`: `none` is SQL `NULL`, `some .null` the
JSON value `null`.  SQLAlchemy binds Python's `None` to the latter (`jsonb`).
-/
namespace PandaProbe

/-- A JSON value; `num coeff scale` is the number `coeff / 10 ^ scale`. -/
inductive Json
  | null
  | bool (b : Bool)
  | num (coeff : Int) (scale : Nat)
  | str (s : String)
  | arr (l : List Json)
  | obj (l : List (String × Json))

/-- A JSON object, by its keys. -/
abbrev JsonDict := String → Option Json

/-- `existing || incoming` on JSON objects: a shallow merge. -/
def JsonDict.merge (existing incoming : JsonDict) : JsonDict :=
  fun k => incoming k <|> existing k

/-- The column value a Python value is bound to. -/
def jsonb (v : Json) : Option Json := some v

/-- SQL `COALESCE` of two values. -/
def coalesce {α : Type} (a b : Option α) : Option α := a <|> b

/-- `array_agg(DISTINCT x)` over an unnested array, which PostgreSQL sorts. -/
def arrayAggDistinct (l : List String) : List String := l.dedup.insertionSort (· ≤ ·)

/-- High-level status of a trace. -/
inductive TraceStatus
  | pending | running | completed | error
  deriving DecidableEq, Repr

/-- What a span represents in an agentic workflow. -/
inductive SpanKind
  | agent | tool | llm | retriever | chain | embedding | other
  deriving DecidableEq, Repr

/-- A span's outcome. -/
inductive SpanStatusCode
  | unset | ok | error
  deriving DecidableEq, Repr

/-- A single unit of work inside a trace.  `input`, `output`, `tokenUsage`,
`modelParameters` and `cost` are `.null` where Python has `None`. -/
structure Span where
  spanId : UUID
  traceId : UUID
  parentSpanId : Option UUID
  name : String
  kind : SpanKind
  status : SpanStatusCode
  input : Json
  output : Json
  model : Option String
  tokenUsage : Json
  metadata : JsonDict
  startedAt : DateTime
  endedAt : Option DateTime
  error : Option String
  completionStartTime : Option DateTime
  modelParameters : Json
  cost : Json

/-- A complete execution trace. -/
structure Trace where
  traceId : UUID
  projectId : UUID
  name : String
  status : TraceStatus
  input : Json
  output : Json
  metadata : JsonDict
  startedAt : DateTime
  endedAt : Option DateTime
  sessionId : Option String
  userId : Option String
  tags : List String
  environment : Option String
  release : Option String
  spans : List Span

/-- A row of `traces`, less its key. -/
structure TraceRow where
  projectId : UUID
  name : String
  status : TraceStatus
  input : Option Json
  output : Option Json
  metadata : JsonDict
  startedAt : DateTime
  endedAt : Option DateTime
  sessionId : Option String
  userId : Option String
  tags : List String
  environment : Option String
  release : Option String
  createdAt : DateTime

/-- A row of `spans`, less its key. -/
structure SpanRow where
  traceId : UUID
  parentSpanId : Option UUID
  name : String
  kind : SpanKind
  status : SpanStatusCode
  input : Option Json
  output : Option Json
  model : Option String
  tokenUsage : Option Json
  metadata : JsonDict
  startedAt : DateTime
  endedAt : Option DateTime
  error : Option String
  completionStartTime : Option DateTime
  modelParameters : Option Json
  cost : Option Json

/-- The row a new trace is inserted as. -/
def Trace.row (t : Trace) (now : DateTime) : TraceRow where
  projectId := t.projectId
  name := t.name
  status := t.status
  input := jsonb t.input
  output := jsonb t.output
  metadata := t.metadata
  startedAt := t.startedAt
  endedAt := t.endedAt
  sessionId := t.sessionId
  userId := t.userId
  tags := t.tags
  environment := t.environment
  release := t.release
  createdAt := now

/-- The row a new span is inserted as. -/
def Span.row (s : Span) : SpanRow where
  traceId := s.traceId
  parentSpanId := s.parentSpanId
  name := s.name
  kind := s.kind
  status := s.status
  input := jsonb s.input
  output := jsonb s.output
  model := s.model
  tokenUsage := jsonb s.tokenUsage
  metadata := s.metadata
  startedAt := s.startedAt
  endedAt := s.endedAt
  error := s.error
  completionStartTime := s.completionStartTime
  modelParameters := jsonb s.modelParameters
  cost := jsonb s.cost

/-- The `DO UPDATE SET` of `upsert_trace`.  The project, the key and the creation
time are not in the list. -/
def TraceRow.merge (row : TraceRow) (t : Trace) : TraceRow :=
  { row with
    name := t.name
    status := t.status
    input := coalesce (jsonb t.input) row.input
    output := coalesce (jsonb t.output) row.output
    metadata := row.metadata.merge t.metadata
    startedAt := t.startedAt
    endedAt := coalesce t.endedAt row.endedAt
    sessionId := coalesce t.sessionId row.sessionId
    userId := coalesce t.userId row.userId
    -- the aggregate over no rows is `NULL`, and both lists are then empty
    tags := arrayAggDistinct (row.tags ++ t.tags)
    environment := coalesce t.environment row.environment
    release := coalesce t.release row.release }

/-- The `DO UPDATE SET` of `_upsert_span`.  The trace and the parent are not in the
list. -/
def SpanRow.merge (row : SpanRow) (s : Span) : SpanRow :=
  { row with
    name := s.name
    kind := s.kind
    status := s.status
    input := coalesce (jsonb s.input) row.input
    output := coalesce (jsonb s.output) row.output
    model := coalesce s.model row.model
    tokenUsage := coalesce (jsonb s.tokenUsage) row.tokenUsage
    metadata := row.metadata.merge s.metadata
    startedAt := s.startedAt
    endedAt := coalesce s.endedAt row.endedAt
    error := coalesce s.error row.error
    completionStartTime := coalesce s.completionStartTime row.completionStartTime
    modelParameters := coalesce (jsonb s.modelParameters) row.modelParameters
    cost := coalesce (jsonb s.cost) row.cost }

/-- A field of a partial update: left out of the request (`none`), or sent with a
value or an explicit `null`. -/
abbrev Patch (α : Type) := Option (Option α)

/-- A nullable column takes whatever was sent. -/
def Patch.set {α : Type} (p : Patch α) (old : Option α) : Option α := p.getD old

/-- A `NOT NULL` column ignores an explicit `null`. -/
def Patch.setNotNull {α : Type} (p : Patch α) (old : α) : α := (p.join).getD old

/-- A JSONB column stores an explicit `null` as the JSON value. -/
def Patch.setJson (p : Patch Json) (old : Option Json) : Option Json :=
  match p with
  | none => old
  | some v => jsonb (v.getD .null)

/-- `{**existing, **(value or {})}`. -/
def Patch.setMetadata (p : Patch JsonDict) (old : JsonDict) : JsonDict :=
  match p with
  | none => old
  | some v => old.merge (v.getD (fun _ => none))

/-- The fields of `TraceUpdate`. -/
structure TraceUpdate where
  name : Patch String
  status : Patch TraceStatus
  input : Patch Json
  output : Patch Json
  metadata : Patch JsonDict
  endedAt : Patch DateTime
  sessionId : Patch String
  userId : Patch String
  tags : Patch (List String)
  environment : Patch String
  release : Patch String

/-- The fields of `SpanUpdate`. -/
structure SpanUpdate where
  name : Patch String
  kind : Patch SpanKind
  status : Patch SpanStatusCode
  input : Patch Json
  output : Patch Json
  model : Patch String
  tokenUsage : Patch Json
  metadata : Patch JsonDict
  endedAt : Patch DateTime
  error : Patch String
  completionStartTime : Patch DateTime
  modelParameters : Patch Json
  cost : Patch Json

/-- The assignments of `update_trace`. -/
def TraceRow.patch (row : TraceRow) (u : TraceUpdate) : TraceRow :=
  { row with
    name := u.name.setNotNull row.name
    status := u.status.setNotNull row.status
    input := u.input.setJson row.input
    output := u.output.setJson row.output
    metadata := u.metadata.setMetadata row.metadata
    endedAt := u.endedAt.set row.endedAt
    sessionId := u.sessionId.set row.sessionId
    userId := u.userId.set row.userId
    tags := u.tags.setNotNull row.tags
    environment := u.environment.set row.environment
    release := u.release.set row.release }

/-- The assignments of `update_span`. -/
def SpanRow.patch (row : SpanRow) (u : SpanUpdate) : SpanRow :=
  { row with
    name := u.name.setNotNull row.name
    kind := u.kind.setNotNull row.kind
    status := u.status.setNotNull row.status
    input := u.input.setJson row.input
    output := u.output.setJson row.output
    model := u.model.set row.model
    tokenUsage := u.tokenUsage.setJson row.tokenUsage
    metadata := u.metadata.setMetadata row.metadata
    endedAt := u.endedAt.set row.endedAt
    error := u.error.set row.error
    completionStartTime := u.completionStartTime.set row.completionStartTime
    modelParameters := u.modelParameters.setJson row.modelParameters
    cost := u.cost.setJson row.cost }

/-- The new tags of `batch_update_tags`: removals first, then the added tags with
duplicates dropped. -/
def retag (add remove : List String) (tags : List String) : List String :=
  let kept := remove.foldl (fun l tag => l.filter (· ≠ tag)) tags
  if add = [] then kept else arrayAggDistinct (kept ++ add)

/-- The two tables. -/
structure TraceDb where
  traces : UUID → Option TraceRow
  spans : UUID → Option SpanRow
  span_trace : ∀ i row, spans i = some row → (traces row.traceId).isSome

namespace TraceDb

/-- No rows. -/
def empty : TraceDb := ⟨fun _ => none, fun _ => none, by intro i row h; cases h⟩

/-- Write a trace row. -/
def putTrace (db : TraceDb) (id : UUID) (row : TraceRow) : TraceDb where
  traces := Function.update db.traces id (some row)
  spans := db.spans
  span_trace i r h := by
    by_cases he : r.traceId = id
    · simp [he]
    · rw [Function.update_of_ne he]
      exact db.span_trace i r h

/-- Write a span row whose trace exists. -/
def putSpan (db : TraceDb) (id : UUID) (row : SpanRow) (hrow : (db.traces row.traceId).isSome) :
    TraceDb where
  traces := db.traces
  spans := Function.update db.spans id (some row)
  span_trace i r h := by
    by_cases he : i = id
    · subst he
      rw [Function.update_self] at h
      cases h
      exact hrow
    · rw [Function.update_of_ne he] at h
      exact db.span_trace i r h

/-- `DELETE FROM traces WHERE p`, which cascades to the spans. -/
def deleteWhere (db : TraceDb) (p : UUID → TraceRow → Bool) : TraceDb where
  traces i := (db.traces i).filter (fun row => !p i row)
  spans i := (db.spans i).filter (fun row =>
    ((db.traces row.traceId).filter (fun t => !p row.traceId t)).isSome)
  span_trace i row h := by
    rw [Option.filter_eq_some_iff] at h
    exact h.2

/-- `UPDATE traces SET f WHERE p`. -/
def updateWhere (db : TraceDb) (p : UUID → TraceRow → Bool) (f : TraceRow → TraceRow) :
    TraceDb where
  traces i := (db.traces i).map (fun row => if p i row then f row else row)
  spans := db.spans
  span_trace i row h := by
    rw [Option.isSome_map]
    exact db.span_trace i row h

/-- Insert or merge a single span; a new span of a missing trace violates the
foreign key. -/
def upsertSpan (db : TraceDb) (span : Span) : Option TraceDb :=
  match h : db.spans span.spanId with
  | some row => some (db.putSpan span.spanId (row.merge span) (db.span_trace _ row h))
  | none =>
    if ht : (db.traces span.traceId).isSome then some (db.putSpan span.spanId span.row ht)
    else none

/-- Insert or merge each span of a list. -/
def upsertSpans (db : TraceDb) : List Span → Option TraceDb
  | [] => some db
  | span :: rest => (db.upsertSpan span).bind (fun db => upsertSpans db rest)

/-- Insert or merge a trace and its spans; `none` is a violated constraint. -/
def upsertTrace (db : TraceDb) (now : DateTime) (trace : Trace) : Option TraceDb :=
  let row := match db.traces trace.traceId with
    | some row => row.merge trace
    | none => trace.row now
  (db.putTrace trace.traceId row).upsertSpans trace.spans

/-- The trace exists in the project. -/
def owns (db : TraceDb) (projectId traceId : UUID) : Bool :=
  (db.traces traceId).any (fun row => row.projectId == projectId)

/-- Bulk-upsert spans onto an existing trace.  `false` if the trace is not found. -/
def addSpans (db : TraceDb) (traceId projectId : UUID) (spans : List Span) :
    Option (TraceDb × Bool) :=
  if db.owns projectId traceId then (db.upsertSpans spans).map (fun db => (db, true))
  else some (db, false)

/-- Selectively update trace fields. -/
def updateTrace (db : TraceDb) (traceId projectId : UUID) (fields : TraceUpdate) : TraceDb :=
  db.updateWhere (fun i row => i == traceId && row.projectId == projectId) (fun row =>
    row.patch fields)

/-- Selectively update span fields, through a join on the trace's project. -/
def updateSpan (db : TraceDb) (spanId traceId projectId : UUID) (fields : SpanUpdate) : TraceDb :=
  match h : db.spans spanId with
  | some row =>
    if row.traceId = traceId ∧ db.owns projectId row.traceId then
      db.putSpan spanId (row.patch fields) (db.span_trace _ row h)
    else db
  | none => db

/-- Hard-delete a trace. -/
def deleteTrace (db : TraceDb) (traceId projectId : UUID) : TraceDb :=
  db.deleteWhere (fun i row => i == traceId && row.projectId == projectId)

/-- Delete multiple traces. -/
def batchDeleteTraces (db : TraceDb) (projectId : UUID) (traceIds : List UUID) : TraceDb :=
  db.deleteWhere (fun i row => row.projectId == projectId && traceIds.contains i)

/-- Add and/or remove tags on multiple traces. -/
def batchUpdateTags (db : TraceDb) (projectId : UUID) (traceIds : List UUID)
    (addTags removeTags : List String) : TraceDb :=
  db.updateWhere (fun i row => row.projectId == projectId && traceIds.contains i)
    (fun row => { row with tags := retag addTags removeTags row.tags })

/-- Delete all traces of a session. -/
def deleteSession (db : TraceDb) (projectId : UUID) (sessionId : String) : TraceDb :=
  db.deleteWhere (fun _ row => row.projectId == projectId && row.sessionId == some sessionId)

end TraceDb
end PandaProbe
