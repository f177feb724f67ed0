import PandaProbe.TraceStore

/-! # Token and cost statistics of a project

The aggregations of `TraceRepository` over the spans of a project: `_span_stats_subquery`,
on which the trace and session lists rest, and `get_token_cost_analytics`.  Both read
`prompt_tokens` and `completion_tokens` out of an arbitrary JSON object as text, cast each to
a 32-bit integer and add the two; a missing one counts as 0.  A cast or an addition that
fails is an error of the whole query, so every function here returns an `Option`.

What is not in the source is `Postgres`: which integer a text is a literal of, the text of a
JSON array or object, and double-precision numbers, whose addition fails on overflow.

The module `ProjectViews` says exactly when a project's views are there and count what they
say.
-/
namespace PandaProbe

/-- Time-bucket granularity for analytics queries. -/
inductive AnalyticsGranularity
  | hour | day | week
  deriving DecidableEq, Repr

/-- What is taken from Postgres: the integer a text is a literal of, the text of an array or
an object, the double a text is read as, doubles and their addition, `ILIKE '%…%'` and
`date_trunc`. -/
structure Postgres (D : Type) where
  literal : String → Option Int
  render : Json → String
  double : String → Option D
  zero : D
  add : D → D → Option D
  contains : String → String → Bool
  dateTrunc : AnalyticsGranularity → DateTime → DateTime

/-- What is assumed of it: the decimal text of an integer is a literal of it. -/
structure Postgres.Lawful {D : Type} (pg : Postgres D) : Prop where
  decimal : ∀ n : Int, pg.literal (toString n) = some n

/-- The text of a JSON number, with all the digits of its scale. -/
def Json.numText (coeff : Int) (scale : Nat) : String :=
  if scale = 0 then toString coeff
  else
    let frac := toString (coeff.natAbs % 10 ^ scale)
    (if coeff < 0 then "-" else "") ++ toString (coeff.natAbs / 10 ^ scale) ++ "." ++
      String.ofList (List.replicate (scale - frac.length) '0') ++ frac

/-- The range of `integer`. -/
def InInt4 (n : Int) : Prop := -2147483648 ≤ n ∧ n ≤ 2147483647

instance : DecidablePred InInt4 := fun _ => inferInstanceAs (Decidable (_ ∧ _))

/-- `integer + integer`. -/
def addInt4 (a b : Int) : Option Int := if InInt4 (a + b) then some (a + b) else none

/-- `column -> key`, which is `NULL` on anything but an object that has the key. -/
def jsonField (column : Option Json) (key : String) : Option Json :=
  match column with
  | some (.obj l) => l.lookup key
  | _ => none

namespace Postgres
variable {D : Type} (pg : Postgres D)

/-- `column ->> key` of a value that is there; JSON `null` is `NULL`. -/
def astext : Json → Option String
  | .null => none
  | .bool b => some (if b then "true" else "false")
  | .num coeff scale => some (Json.numText coeff scale)
  | .str s => some s
  | .arr l => some (pg.render (.arr l))
  | .obj l => some (pg.render (.obj l))

/-- `column[key].astext`. -/
def fieldText (column : Option Json) (key : String) : Option String :=
  (jsonField column key).bind pg.astext

/-- `cast(text, Integer)`. -/
def castInteger (t : String) : Option Int := (pg.literal t).filter (fun n => InInt4 n)

/-- `coalesce(cast(token_usage[key].astext, Integer), 0)`. -/
def tokenField (s : SpanRow) (key : String) : Option Int :=
  match pg.fieldText s.tokenUsage key with
  | none => some 0
  | some t => pg.castInteger t

/-- The summand of `total_tokens`. -/
def spanTokens (s : SpanRow) : Option Int :=
  (pg.tokenField s "prompt_tokens").bind fun p =>
    (pg.tokenField s "completion_tokens").bind fun c => addInt4 p c

/-- `coalesce(cast(cost["total"].astext, Float), 0)`. -/
def spanCost (s : SpanRow) : Option D :=
  match pg.fieldText s.cost "total" with
  | none => some pg.zero
  | some t => pg.double t

/-- `sum` of doubles, with 0 for no rows. -/
def sumDouble : List D → Option D
  | [] => some pg.zero
  | x :: xs => xs.foldlM pg.add x

/-- `sum(coalesce(cast(cost["total"].astext, Float), 0))`. -/
def sumCosts (spans : List SpanRow) : Option D := (spans.mapM pg.spanCost).bind pg.sumDouble

end Postgres

/-- The statistics of a group of spans. -/
structure SpanStats (D : Type) where
  spanCount : Nat
  totalTokens : Int
  totalCost : D

/-- The aggregates of `_span_stats_subquery` on one group. -/
def Postgres.statsOf {D : Type} (pg : Postgres D) (spans : List SpanRow) : Option (SpanStats D) :=
  (spans.mapM pg.spanTokens).bind fun tokens =>
    (pg.sumCosts spans).map fun cost => ⟨spans.length, tokens.sum, cost⟩

/-- The rows of a project in the order they are read: its traces, and the spans of its
traces. -/
structure ProjectRows (db : TraceDb) (projectId : UUID) where
  traces : List (UUID × TraceRow)
  spans : List (UUID × SpanRow)
  traces_nodup : (traces.map Prod.fst).Nodup
  spans_nodup : (spans.map Prod.fst).Nodup
  mem_traces : ∀ i row, (i, row) ∈ traces ↔ db.traces i = some row ∧ row.projectId = projectId
  mem_spans : ∀ i row, (i, row) ∈ spans ↔ db.spans i = some row ∧
    ∃ t, db.traces row.traceId = some t ∧ t.projectId = projectId

/-- The filters of `list_traces`. -/
structure TraceFilters where
  sessionId : Option String
  status : Option TraceStatus
  userId : Option String
  tags : List String
  name : Option String
  startedAfter : Option DateTime
  startedBefore : Option DateTime

/-- `tags.overlap(wanted)`, unless nothing is wanted. -/
def overlaps (tags wanted : List String) : Bool := wanted = [] || wanted.any (· ∈ tags)

/-- `_apply_trace_filters`. -/
def TraceFilters.keeps {D : Type} (pg : Postgres D) (f : TraceFilters) (row : TraceRow) : Bool :=
  f.sessionId.all (fun s => row.sessionId = some s) &&
  f.status.all (fun s => row.status = s) &&
  f.userId.all (fun u => row.userId = some u) &&
  overlaps row.tags f.tags &&
  f.name.all (fun n => n = "" || pg.contains row.name n) &&
  f.startedAfter.all (fun t => t ≤ row.startedAt) &&
  f.startedBefore.all (fun t => row.startedAt < t)

/-- The filters of `list_sessions`. -/
structure SessionFilters where
  userId : Option String
  hasError : Option Bool
  startedAfter : Option DateTime
  startedBefore : Option DateTime
  tags : List String
  query : Option String

/-- The `WHERE` of `list_sessions` on a trace of the project. -/
def SessionFilters.keeps {D : Type} (pg : Postgres D) (f : SessionFilters) (row : TraceRow) : Bool :=
  row.sessionId.any (fun s => f.query.all (fun q => q = "" || pg.contains s q)) &&
  f.startedAfter.all (fun t => t ≤ row.startedAt) &&
  f.startedBefore.all (fun t => row.startedAt < t) &&
  f.userId.all (fun u => row.userId = some u) &&
  overlaps row.tags f.tags

/-- A row of `list_traces`. -/
structure TraceListing (D : Type) where
  traceId : UUID
  row : TraceRow
  stats : SpanStats D

/-- A row of `list_sessions`, as far as the spans decide it. -/
structure SessionListing (D : Type) where
  sessionId : String
  traceCount : Nat
  hasError : Bool
  stats : SpanStats D

/-- A row of `get_token_cost_analytics`. -/
structure TokenCostBucket (D : Type) where
  bucket : DateTime
  totalTokens : Int
  promptTokens : Int
  completionTokens : Int
  totalCost : D

namespace ProjectRows
variable {D : Type} (pg : Postgres D) {db : TraceDb} {projectId : UUID}
  (rows : ProjectRows db projectId)

/-- The spans of a trace. -/
def spansOf (traceId : UUID) : List SpanRow :=
  (rows.spans.map Prod.snd).filter (fun s => s.traceId = traceId)

/-- `_span_stats_subquery`: one row for each trace that has spans. -/
def spanStatsSubquery : Option (List (UUID × SpanStats D)) :=
  ((rows.spans.map (fun s => s.2.traceId)).dedup).mapM fun i =>
    (pg.statsOf (rows.spansOf i)).map fun st => (i, st)

/-- The statistics a trace is joined to: none of its own counts as 0. -/
def joined (stats : List (UUID × SpanStats D)) (i : UUID) : SpanStats D :=
  (stats.lookup i).getD ⟨0, 0, pg.zero⟩

/-- `list_traces`: a page and the number of rows. -/
def listTraces (f : TraceFilters) (order : List (TraceListing D) → List (TraceListing D))
    (limit offset : Nat) : Option (List (TraceListing D) × Nat) :=
  (rows.spanStatsSubquery pg).map fun stats =>
    let listed := (rows.traces.filter (fun t => f.keeps pg t.2)).map fun t =>
      ⟨t.1, t.2, joined pg stats t.1⟩
    (((order listed).drop offset).take limit, listed.length)

/-- One group of `list_sessions`. -/
def sessionListing (stats : List (UUID × SpanStats D)) (traces : List (UUID × TraceRow))
    (sessionId : String) : Option (SessionListing D) :=
  let own := traces.filter (fun t => t.2.sessionId = some sessionId)
  let joined := own.filterMap (fun t => stats.lookup t.1)
  (pg.sumDouble (joined.map SpanStats.totalCost)).map fun cost =>
    { sessionId := sessionId
      traceCount := own.length
      hasError := own.any (fun t => t.2.status = .error)
      stats := ⟨(joined.map SpanStats.spanCount).sum, (joined.map SpanStats.totalTokens).sum, cost⟩ }

/-- `list_sessions`: a page and the number of sessions. -/
def listSessions (f : SessionFilters) (order : List (SessionListing D) → List (SessionListing D))
    (limit offset : Nat) : Option (List (SessionListing D) × Nat) :=
  (rows.spanStatsSubquery pg).bind fun stats =>
    let kept := rows.traces.filter (fun t => f.keeps pg t.2)
    let sessionIds := (kept.filterMap (fun t => t.2.sessionId)).dedup
    (sessionIds.mapM (sessionListing pg stats kept)).map fun listed =>
      let shown := listed.filter (fun s => f.hasError.all (· = s.hasError))
      (((order shown).drop offset).take limit, shown.length)

/-- The spans of an analytics bucket. -/
def bucketSpans (g : AnalyticsGranularity) (startedAfter startedBefore bucket : DateTime) :
    List SpanRow :=
  (rows.spans.map Prod.snd).filter (fun s => startedAfter ≤ s.startedAt ∧
    s.startedAt < startedBefore ∧ pg.dateTrunc g s.startedAt = bucket)

/-- The aggregates of `get_token_cost_analytics` on one bucket. -/
def bucketOf (spans : List SpanRow) (bucket : DateTime) : Option (TokenCostBucket D) :=
  (spans.mapM pg.spanTokens).bind fun tokens =>
    (spans.mapM (pg.tokenField · "prompt_tokens")).bind fun prompt =>
      (spans.mapM (pg.tokenField · "completion_tokens")).bind fun completion =>
        (pg.sumCosts spans).map fun cost => ⟨bucket, tokens.sum, prompt.sum, completion.sum, cost⟩

/-- `get_token_cost_analytics`. -/
def getTokenCostAnalytics (g : AnalyticsGranularity) (startedAfter startedBefore : DateTime) :
    Option (List (TokenCostBucket D)) :=
  let spans := (rows.spans.map Prod.snd).filter (fun s => startedAfter ≤ s.startedAt ∧
    s.startedAt < startedBefore)
  let buckets := ((spans.map (fun s => pg.dateTrunc g s.startedAt)).dedup).insertionSort (· ≤ ·)
  buckets.mapM fun b => bucketOf pg (rows.bucketSpans pg g startedAfter startedBefore b) b

end ProjectRows
end PandaProbe
