import PandaProbe.Aggregation
import PandaProbe.Pagination
import PandaProbe.Percentiles

/-! # The analytics of a project

`get_trace_analytics` and `get_session_analytics` put the traces, and the sessions, of a window
into hours, days or weeks.  A trace is in the bucket in which it started; a session is in that of
the first of its traces in the window, and what it counts are its traces in the window.

`trace_analytics_add_up` and `session_analytics_add_up` say what the charts have to do with the
lists.  The counts add up to the totals of `list_traces` and `list_sessions` for the window.  The
traces of a window that is cut in two are those of its parts; a session with traces in both parts
counts twice.  A coarse chart is the fine one added up, where the coarse truncation does not see
the fine one.  And the average and the percentiles of a bucket are those of its latencies.

Averages and percentiles are computed exactly, in a field; the database computes them in `numeric`
and in doubles, and rounds.
-/
namespace PandaProbe
open Aggregation Percentiles

/-- A row of `get_trace_analytics`. -/
structure AnalyticsBucket (K : Type) where
  bucket : DateTime
  traceCount : Nat
  errorCount : Nat
  avgLatencyMs : Option K
  p50LatencyMs : Option K
  p90LatencyMs : Option K
  p99LatencyMs : Option K

/-- A row of `session_cte`.  The duration is in microseconds. -/
structure SessionInWindow where
  sessionId : String
  firstTraceAt : DateTime
  traceCount : Nat
  duration : Option Int

/-- A row of `get_session_analytics`. -/
structure SessionAnalyticsBucket (K : Type) where
  bucket : DateTime
  sessionCount : Nat
  avgTracesPerSession : Option K
  avgSessionDurationMs : Option K

section
variable {K : Type} [Field K]

/-- `avg`, which is `NULL` for no values. -/
def average [DecidableEq K] (values : List K) : Option K :=
  if values = [] then none else some (values.sum / (values.length : K))

/-- `extract("epoch", ended_at - started_at)`, in seconds. -/
def TraceRow.latencySecs (row : TraceRow) : Option K :=
  row.latency.map fun (us : Int) => (us : K) / 1000000

end

/-- `started_at >= started_after AND started_at < started_before`. -/
def TraceRow.inWindow (startedAfter startedBefore : DateTime) (row : TraceRow) : Bool :=
  startedAfter ≤ row.startedAt && row.startedAt < startedBefore

namespace ProjectRows
variable {D K : Type} [Field K] [LinearOrder K] [FloorSemiring K] (pg : Postgres D)
  {db : TraceDb} {projectId : UUID} (rows : ProjectRows db projectId)

/-- The traces of a window. -/
def inWindow (startedAfter startedBefore : DateTime) : List (UUID × TraceRow) :=
  rows.traces.filter fun t => t.2.inWindow startedAfter startedBefore

/-- The bucket of a trace. -/
def traceBucket (g : AnalyticsGranularity) (t : UUID × TraceRow) : DateTime :=
  pg.dateTrunc g t.2.startedAt

/-- The aggregates of `get_trace_analytics` on one bucket. -/
def analyticsBucket (bucket : DateTime) (traces : List (UUID × TraceRow)) : AnalyticsBucket K :=
  let latencySecs := traces.filterMap fun t => t.2.latencySecs
  { bucket := bucket
    traceCount := traces.length
    errorCount := traces.countP fun t => t.2.status = .error
    avgLatencyMs := (average latencySecs).map (· * 1000)
    p50LatencyMs := (percentileCont 0.5 latencySecs).map (· * 1000)
    p90LatencyMs := (percentileCont 0.9 latencySecs).map (· * 1000)
    p99LatencyMs := (percentileCont 0.99 latencySecs).map (· * 1000) }

/-- `get_trace_analytics`, over exact arithmetic. -/
def getTraceAnalytics (g : AnalyticsGranularity) (startedAfter startedBefore : DateTime) :
    List (AnalyticsBucket K) :=
  let traces := rows.inWindow startedAfter startedBefore
  (keys (traceBucket pg g) traces).map fun b =>
    analyticsBucket b (group (traceBucket pg g) traces b)

/-- One group of `session_cte`. -/
def sessionInWindow (traces : List (UUID × TraceRow)) (sessionId : String) :
    Option SessionInWindow :=
  let own := traces.filter fun t => t.2.sessionId = some sessionId
  (own.map fun t => t.2.startedAt).min?.map fun first =>
    { sessionId := sessionId
      firstTraceAt := first
      traceCount := own.length
      duration := totalLatency own }

/-- `session_cte`. -/
def sessionCte (startedAfter startedBefore : DateTime) : List SessionInWindow :=
  let traces := rows.inWindow startedAfter startedBefore
  ((traces.filterMap fun t => t.2.sessionId).dedup).filterMap (sessionInWindow traces)

/-- The bucket of a session. -/
def sessionBucket (g : AnalyticsGranularity) (s : SessionInWindow) : DateTime :=
  pg.dateTrunc g s.firstTraceAt

/-- `get_session_analytics`, over exact arithmetic: the database rounds its averages. -/
def getSessionAnalytics (g : AnalyticsGranularity) (startedAfter startedBefore : DateTime) :
    List (SessionAnalyticsBucket K) :=
  let sessions := rows.sessionCte startedAfter startedBefore
  (keys (sessionBucket pg g) sessions).map fun b =>
    let own := group (sessionBucket pg g) sessions b
    let durationMs := (own.filterMap SessionInWindow.duration).map fun (us : Int) => (us : K) / 1000
    { bucket := b
      sessionCount := own.length
      avgTracesPerSession := average (own.map fun s => (s.traceCount : K))
      avgSessionDurationMs := average durationMs }

end ProjectRows

/-- A coarser truncation does not see a finer one: an hour is in one day. -/
def Postgres.Nests {D : Type} (pg : Postgres D) (coarse fine : AnalyticsGranularity) : Prop :=
  ∀ t, pg.dateTrunc coarse (pg.dateTrunc fine t) = pg.dateTrunc coarse t

/-- The filters of `list_traces` for a window. -/
def TraceFilters.ofWindow (startedAfter startedBefore : DateTime) (status : Option TraceStatus) :
    TraceFilters :=
  ⟨none, status, none, [], none, some startedAfter, some startedBefore⟩

/-- The filters of `list_sessions` for a window. -/
def SessionFilters.ofWindow (startedAfter startedBefore : DateTime) : SessionFilters :=
  ⟨none, none, some startedAfter, some startedBefore, [], none⟩

section
variable {K : Type} [Field K] [LinearOrder K] [FloorSemiring K]

/-- What a chart shows at a bucket: 0 where it has no row. -/
def shownAt (lines : List (AnalyticsBucket K)) (count : AnalyticsBucket K → Nat)
    (bucket : DateTime) : Nat :=
  ((lines.filter fun l => l.bucket = bucket).map count).sum

/-- The latencies of the traces that have ended, in milliseconds. -/
def latenciesMs (traces : List (UUID × TraceRow)) : List K :=
  traces.filterMap fun t => t.2.latency.map fun (us : Int) => (us : K) / 1000

/-- **What the average and the percentiles of a bucket say.**  They are those of the latencies of
its traces, over exact arithmetic.  They are missing where no trace has ended, and the percentiles
rise.  With one of the traces left out, more than the share of a percentile is not above it, and
more than the rest is not below. -/
structure AnalyticsBucket.Fair (traces : List (UUID × TraceRow)) (line : AnalyticsBucket K) :
    Prop where
  average : line.avgLatencyMs = average (latenciesMs traces)
  percentiles : [line.p50LatencyMs, line.p90LatencyMs, line.p99LatencyMs] =
    [0.5, 0.9, 0.99].map fun p => percentileCont p (latenciesMs traces)
  missing : ∀ p ∈ [line.p50LatencyMs, line.p90LatencyMs, line.p99LatencyMs],
    p = none ↔ ∀ t ∈ traces, t.2.endedAt = none
  ordered : ∀ a b c, line.p50LatencyMs = some a → line.p90LatencyMs = some b →
    line.p99LatencyMs = some c → a ≤ b ∧ b ≤ c
  rank : ∀ p v, (p, some v) ∈ [((0.5 : K), line.p50LatencyMs), (0.9, line.p90LatencyMs),
      (0.99, line.p99LatencyMs)] →
    let latencies : List K := latenciesMs traces
    p * (latencies.length - 1) < latencies.countP (· ≤ v) ∧
      (1 - p) * (latencies.length - 1) < latencies.countP (v ≤ ·)

end

namespace ProjectRows
variable {D K : Type} [Field K] [LinearOrder K] [IsStrictOrderedRing K] [FloorSemiring K]
  {pg : Postgres D} {db : TraceDb} {projectId : UUID} {rows : ProjectRows db projectId}
  {g : AnalyticsGranularity} {startedAfter startedBefore : DateTime}

/-! ## The percentiles of a bucket -/

omit [LinearOrder K] [IsStrictOrderedRing K] [FloorSemiring K] in
theorem latencySecs_eq (traces : List (UUID × TraceRow)) :
    traces.filterMap (fun t => (t.2.latencySecs : Option K)) =
      (latenciesMs traces : List K).map (· / 1000) := by
  rw [latenciesMs, List.map_filterMap]
  refine List.filterMap_congr fun t _ => ?_
  rw [TraceRow.latencySecs, Option.map_map]
  congr 1
  funext us
  simp only [Function.comp_apply, div_div]
  norm_num

omit [IsStrictOrderedRing K] in
/-- What is computed in seconds and shown in milliseconds is what is computed in milliseconds. -/
theorem shownMs_eq {f : List K → Option K}
    (hscale : ∀ values, f (values.map (· * 1000)) = (f values).map (· * 1000))
    (traces : List (UUID × TraceRow)) :
    (f (traces.filterMap fun t => t.2.latencySecs)).map (· * 1000) = f (latenciesMs traces) := by
  have hback : ((latenciesMs traces : List K).map (· / 1000)).map (· * 1000) =
      latenciesMs traces := by
    rw [List.map_map]
    refine List.map_id'' (fun x => ?_) _
    exact div_mul_cancel₀ x (by norm_num)
  rw [latencySecs_eq, ← hscale, hback]

omit [IsStrictOrderedRing K] [FloorSemiring K] in
theorem average_scale (c : K) (values : List K) :
    average (values.map (· * c)) = (average values).map (· * c) := by
  simp only [average, List.map_eq_nil_iff]
  split
  · rfl
  · rw [Option.map_some, List.sum_map_mul_right, List.length_map, List.map_id', div_mul_eq_mul_div]

/-- The numbers of a bucket are those of its latencies. -/
theorem analyticsBucket_eq (bucket : DateTime) (traces : List (UUID × TraceRow)) :
    (analyticsBucket bucket traces : AnalyticsBucket K) =
      ⟨bucket, traces.length, traces.countP fun t => t.2.status = .error,
        average (latenciesMs traces), percentileCont 0.5 (latenciesMs traces),
        percentileCont 0.9 (latenciesMs traces), percentileCont 0.99 (latenciesMs traces)⟩ := by
  have hthousand : (0 : K) < 1000 := by norm_num
  rw [analyticsBucket]
  simp only [shownMs_eq (average_scale 1000), shownMs_eq (percentileCont_scale hthousand _)]

theorem fair_analyticsBucket (bucket : DateTime) (traces : List (UUID × TraceRow)) :
    (analyticsBucket bucket traces : AnalyticsBucket K).Fair traces := by
  have hnil : (latenciesMs traces : List K) = [] ↔ ∀ t ∈ traces, t.2.endedAt = none := by
    rw [latenciesMs, List.filterMap_eq_nil_iff]
    refine forall₂_congr fun t _ => ?_
    rw [TraceRow.latency, Option.map_eq_none_iff, Option.map_eq_none_iff]
  have h50 : (0 : K) ≤ 0.5 ∧ (0.5 : K) ≤ 1 := by norm_num
  have h90 : (0 : K) ≤ 0.9 ∧ (0.9 : K) ≤ 1 := by norm_num
  have h99 : (0 : K) ≤ 0.99 ∧ (0.99 : K) ≤ 1 := by norm_num
  rw [analyticsBucket_eq]
  refine ⟨rfl, rfl, fun p hp => ?_, fun a b c ha hb hc => ?_, fun p v hp => ?_⟩
  · rw [← hnil]
    simp only [List.mem_cons, List.not_mem_nil, or_false] at hp
    rcases hp with rfl | rfl | rfl
    · exact percentileCont_eq_none h50.1 h50.2
    · exact percentileCont_eq_none h90.1 h90.2
    · exact percentileCont_eq_none h99.1 h99.2
  · exact ⟨percentileCont_mono h50.1 (by norm_num) h90.2 ha hb,
      percentileCont_mono h90.1 (by norm_num) h99.2 hb hc⟩
  · simp only [List.mem_cons, List.not_mem_nil, or_false, Prod.mk.injEq] at hp
    rcases hp with ⟨rfl, hv⟩ | ⟨rfl, hv⟩ | ⟨rfl, hv⟩
    · exact percentileCont_rank h50.1 h50.2 hv.symm
    · exact percentileCont_rank h90.1 h90.2 hv.symm
    · exact percentileCont_rank h99.1 h99.2 hv.symm

/-! ## The counts -/

omit [IsStrictOrderedRing K] in
theorem map_bucket_getTraceAnalytics :
    ((rows.getTraceAnalytics pg g startedAfter startedBefore : List (AnalyticsBucket K)).map
      AnalyticsBucket.bucket) =
      keys (traceBucket pg g) (rows.inWindow startedAfter startedBefore) := by
  simp [getTraceAnalytics, analyticsBucket, Function.comp_def]

omit [IsStrictOrderedRing K] in
/-- What a chart shows at a bucket are the traces of the window that started there. -/
theorem shownAt_getTraceAnalytics (count : AnalyticsBucket K → Nat)
    (f : List (UUID × TraceRow) → Nat) (hnil : f [] = 0)
    (hcount : ∀ b traces, count (analyticsBucket b traces) = f traces) (b : DateTime) :
    shownAt (rows.getTraceAnalytics pg g startedAfter startedBefore) count b =
      f (group (traceBucket pg g) (rows.inWindow startedAfter startedBefore) b) := by
  rw [← sum_at_key f hnil, shownAt, getTraceAnalytics, List.filter_map, List.map_map]
  simp only [Function.comp_def, hcount]
  rfl

/-- The total of `list_traces` for a window. -/
theorem total_listTraces_ofWindow {status : Option TraceStatus}
    {order : List (TraceListing D) → List (TraceListing D)} {limit offset : Nat}
    {page : List (TraceListing D) × Nat}
    (h : rows.listTraces pg (.ofWindow startedAfter startedBefore status) order limit offset =
      some page) :
    page.2 = (rows.inWindow startedAfter startedBefore).countP
      fun t => status.all (t.2.status = ·) := by
  obtain ⟨stats, -, rfl⟩ := Option.map_eq_some_iff.mp h
  dsimp only
  rw [List.length_map, inWindow, List.countP_filter, List.countP_eq_length_filter]
  congr 1
  refine List.filter_congr fun t _ => ?_
  simp [TraceFilters.keeps, TraceFilters.ofWindow, overlaps, TraceRow.inWindow, Bool.and_assoc]

omit [Field K] [LinearOrder K] [IsStrictOrderedRing K] [FloorSemiring K] in
/-- A window that is cut in two. -/
theorem inWindow_cut {mid : DateTime} (h : startedAfter ≤ mid) (h' : mid ≤ startedBefore) :
    (rows.inWindow startedAfter startedBefore).Perm
      (rows.inWindow startedAfter mid ++ rows.inWindow mid startedBefore) := by
  have hleft : rows.inWindow startedAfter mid =
      (rows.inWindow startedAfter startedBefore).filter fun t => t.2.startedAt < mid := by
    rw [inWindow, inWindow, List.filter_filter]
    refine List.filter_congr fun t _ => ?_
    rw [Bool.eq_iff_iff]
    simp only [TraceRow.inWindow, Bool.and_eq_true, decide_eq_true_eq]
    exact ⟨fun hrow => ⟨hrow.2, hrow.1, lt_of_lt_of_le hrow.2 h'⟩, fun hrow => ⟨hrow.2.1, hrow.1⟩⟩
  have hright : rows.inWindow mid startedBefore =
      (rows.inWindow startedAfter startedBefore).filter fun t => !decide (t.2.startedAt < mid) := by
    rw [inWindow, inWindow, List.filter_filter]
    refine List.filter_congr fun t _ => ?_
    rw [Bool.eq_iff_iff]
    simp only [TraceRow.inWindow, Bool.and_eq_true, decide_eq_true_eq, Bool.not_eq_true',
      decide_eq_false_iff_not, not_lt]
    exact ⟨fun hrow => ⟨hrow.1, le_trans h hrow.1, hrow.2⟩, fun hrow => ⟨hrow.1, hrow.2.2⟩⟩
  rw [hleft, hright]
  exact (List.filter_append_perm _ _).symm

omit [IsStrictOrderedRing K] in
/-- What is counted of the fine buckets under a coarse one. -/
theorem rollup_getTraceAnalytics {fine : AnalyticsGranularity} (hnests : pg.Nests g fine)
    (count : AnalyticsBucket K → Nat) (p : UUID × TraceRow → Bool)
    (hcount : ∀ b traces, count (analyticsBucket b traces) = traces.countP p) (b : DateTime) :
    (((rows.getTraceAnalytics pg fine startedAfter startedBefore : List (AnalyticsBucket K)).filter
      fun l => pg.dateTrunc g l.bucket = b).map count).sum =
      (group (traceBucket pg g) (rows.inWindow startedAfter startedBefore) b).countP p := by
  have hcoarse : traceBucket pg g = fun t => pg.dateTrunc g (traceBucket pg fine t) :=
    funext fun t => (hnests t.2.startedAt).symm
  rw [hcoarse, (group_comp_perm _ b).countP_eq, List.countP_flatMap, getTraceAnalytics,
    List.filter_map, List.map_map]
  simp only [Function.comp_def, hcount]
  rfl

omit [IsStrictOrderedRing K] in
theorem mem_getTraceAnalytics {line : AnalyticsBucket K}
    (h : line ∈ rows.getTraceAnalytics pg g startedAfter startedBefore) :
    group (traceBucket pg g) (rows.inWindow startedAfter startedBefore) line.bucket ≠ [] ∧
      line = analyticsBucket line.bucket
        (group (traceBucket pg g) (rows.inWindow startedAfter startedBefore) line.bucket) := by
  obtain ⟨b, hb, rfl⟩ := List.mem_map.mp h
  exact ⟨group_ne_nil hb, rfl⟩

omit [IsStrictOrderedRing K] in
/-- The buckets of a chart add up. -/
theorem sum_getTraceAnalytics (count : AnalyticsBucket K → Nat) (p : UUID × TraceRow → Bool)
    (hcount : ∀ b traces, count (analyticsBucket b traces) = traces.countP p) :
    ((rows.getTraceAnalytics pg g startedAfter startedBefore).map count).sum =
      (rows.inWindow startedAfter startedBefore).countP p := by
  rw [← sum_countP_group (traceBucket pg g), getTraceAnalytics, List.map_map]
  simp only [Function.comp_def, hcount]

/-- **The trace analytics are the trace list, bucket by bucket.**  The buckets ascend, each with a
trace, and its average and percentiles are those of its latencies, over exact arithmetic.  The
traces and the errors of a chart are the totals of `list_traces` for its window, with no status and
with `ERROR`.  A chart shows at each bucket what the charts of two parts of its window show there
together; and it shows what a finer chart shows under the bucket, where its own truncation does not
see the finer one. -/
theorem trace_analytics_add_up (rows : ProjectRows db projectId) (pg : Postgres D)
    (g : AnalyticsGranularity) (startedAfter startedBefore : DateTime) :
    let chart (g : AnalyticsGranularity) (startedAfter startedBefore : DateTime) :
      List (AnalyticsBucket K) := rows.getTraceAnalytics pg g startedAfter startedBefore
    let lines := chart g startedAfter startedBefore
    (lines.map AnalyticsBucket.bucket).Pairwise (· < ·) ∧
    (∀ line ∈ lines, 0 < line.traceCount ∧ line.errorCount ≤ line.traceCount ∧ line.Fair
      (group (traceBucket pg g) (rows.inWindow startedAfter startedBefore) line.bucket)) ∧
    (∀ order limit offset page, rows.listTraces pg (.ofWindow startedAfter startedBefore none)
      order limit offset = some page → (lines.map AnalyticsBucket.traceCount).sum = page.2) ∧
    (∀ order limit offset page, rows.listTraces pg
      (.ofWindow startedAfter startedBefore (some .error)) order limit offset = some page →
        (lines.map AnalyticsBucket.errorCount).sum = page.2) ∧
    (∀ mid, startedAfter ≤ mid → mid ≤ startedBefore →
      ∀ count ∈ [AnalyticsBucket.traceCount, AnalyticsBucket.errorCount], ∀ b,
        shownAt lines count b = shownAt (chart g startedAfter mid) count b +
          shownAt (chart g mid startedBefore) count b) ∧
    ∀ fine, pg.Nests g fine →
      ∀ count ∈ [AnalyticsBucket.traceCount, AnalyticsBucket.errorCount], ∀ b,
        shownAt lines count b = (((chart fine startedAfter startedBefore).filter
          fun l => pg.dateTrunc g l.bucket = b).map count).sum := by
  -- both counts are numbers of traces
  have hcounts : ∀ count ∈ [AnalyticsBucket.traceCount, @AnalyticsBucket.errorCount K],
      ∃ p : UUID × TraceRow → Bool, ∀ b traces,
        count (analyticsBucket b traces) = traces.countP p := by
    intro count hcount
    simp only [List.mem_cons, List.not_mem_nil, or_false] at hcount
    rcases hcount with rfl | rfl
    · exact ⟨fun _ => true, fun b traces => (congrFun List.countP_true traces).symm⟩
    · exact ⟨_, fun b traces => rfl⟩
  refine ⟨?_, fun line hline => ?_, fun order limit offset page hpage => ?_,
    fun order limit offset page hpage => ?_, fun mid hmid hmid' count hcount b => ?_,
    fun fine hnests count hcount b => ?_⟩
  · rw [map_bucket_getTraceAnalytics]
    exact pairwise_keys
  · obtain ⟨hne, heq⟩ := mem_getTraceAnalytics hline
    generalize group _ _ line.bucket = traces at hne heq ⊢
    rw [heq]
    exact ⟨List.length_pos_of_ne_nil hne, List.countP_le_length, fair_analyticsBucket _ _⟩
  · rw [total_listTraces_ofWindow hpage, sum_getTraceAnalytics _ (fun _ => true) fun b traces =>
      (congrFun List.countP_true traces).symm]
    rfl
  · rw [total_listTraces_ofWindow hpage, sum_getTraceAnalytics _ _ fun b traces => rfl]
    rfl
  · obtain ⟨p, hp⟩ := hcounts count hcount
    rw [shownAt_getTraceAnalytics _ _ List.countP_nil hp,
      shownAt_getTraceAnalytics _ _ List.countP_nil hp,
      shownAt_getTraceAnalytics _ _ List.countP_nil hp,
      (group_perm (inWindow_cut hmid hmid')).countP_eq, group_append, List.countP_append]
  · obtain ⟨p, hp⟩ := hcounts count hcount
    rw [shownAt_getTraceAnalytics _ _ List.countP_nil hp, rollup_getTraceAnalytics hnests _ p hp]

/-! ## The sessions of a window -/

section
variable (rows)

/-- The sessions with a trace in a window. -/
def windowSessions (startedAfter startedBefore : DateTime) : List String :=
  ((rows.inWindow startedAfter startedBefore).filterMap fun t => t.2.sessionId).dedup

end

omit [Field K] [LinearOrder K] [IsStrictOrderedRing K] [FloorSemiring K]

theorem nodup_windowSessions : (rows.windowSessions startedAfter startedBefore).Nodup :=
  List.nodup_dedup _

theorem mem_windowSessions {s : String} : s ∈ rows.windowSessions startedAfter startedBefore ↔
    ∃ t ∈ rows.inWindow startedAfter startedBefore, t.2.sessionId = some s := by
  simp only [windowSessions, List.mem_dedup, List.mem_filterMap]

/-- The traces of a list that are in some session, session by session. -/
theorem sum_sessions (traces : List (UUID × TraceRow)) :
    (((traces.filterMap fun t => t.2.sessionId).dedup).map fun s =>
      (traces.filter fun t => t.2.sessionId = some s).length).sum =
      traces.countP fun t => t.2.sessionId.isSome := by
  let inSession := traces.filter fun t => t.2.sessionId.isSome
  let ids := ((traces.filterMap fun t => t.2.sessionId).dedup).map some
  have hids : ids.Nodup := (List.nodup_dedup _).map (Option.some_injective _)
  have hmem : ∀ t ∈ inSession, t.2.sessionId ∈ ids := by
    intro t ht
    obtain ⟨ht, hsome⟩ := List.mem_filter.mp ht
    obtain ⟨s, hs⟩ := Option.isSome_iff_exists.mp hsome
    rw [hs]
    exact List.mem_map_of_mem (List.mem_dedup.mpr (List.mem_filterMap.mpr ⟨t, ht, hs⟩))
  have hown : ∀ s, group (fun t : UUID × TraceRow => t.2.sessionId) inSession (some s) =
      traces.filter fun t => t.2.sessionId = some s := by
    intro s
    rw [group, List.filter_filter]
    refine List.filter_congr fun t _ => ?_
    cases t.2.sessionId <;> simp
  rw [List.countP_eq_length_filter, ← (flatMap_group_perm_of_keys hids hmem).length_eq,
    List.length_flatMap, List.map_map]
  simp only [Function.comp_def, hown]

/-- A session of a window has a row in `session_cte`. -/
theorem sessionInWindow_eq_some {traces : List (UUID × TraceRow)} {s : String}
    (h : s ∈ (traces.filterMap fun t => t.2.sessionId).dedup) :
    ∃ row, sessionInWindow traces s = some row ∧ row.sessionId = s ∧
      row.traceCount = (traces.filter fun t => t.2.sessionId = some s).length := by
  obtain ⟨t, ht, hs⟩ := List.mem_filterMap.mp (List.mem_dedup.mp h)
  have hne : (traces.filter fun t => t.2.sessionId = some s).map (fun t => t.2.startedAt) ≠ [] :=
    List.ne_nil_of_mem (List.mem_map_of_mem (List.mem_filter.mpr ⟨ht, decide_eq_true hs⟩))
  obtain ⟨first, hfirst⟩ := Option.isSome_iff_exists.mp (List.isSome_min?_of_ne_nil hne)
  exact ⟨_, by rw [sessionInWindow, hfirst]; rfl, rfl, rfl⟩

/-- The rows of `session_cte` are the sessions of the window with their traces there. -/
theorem map_sessionCte :
    (rows.sessionCte startedAfter startedBefore).map (fun s => (s.sessionId, s.traceCount)) =
      (rows.windowSessions startedAfter startedBefore).map fun s => (s,
        ((rows.inWindow startedAfter startedBefore).filter
          fun t => t.2.sessionId = some s).length) := by
  rw [sessionCte, windowSessions, List.map_filterMap, ← List.filterMap_eq_map]
  refine List.filterMap_congr fun s hs => ?_
  obtain ⟨row, hrow, hid, hcount⟩ := sessionInWindow_eq_some hs
  rw [hrow, Option.map_some, hid, hcount]
  rfl

theorem length_sessionCte : (rows.sessionCte startedAfter startedBefore).length =
    (rows.windowSessions startedAfter startedBefore).length := by
  simpa only [List.length_map] using
    congrArg List.length (@map_sessionCte _ _ rows startedAfter startedBefore)

theorem sum_traceCount_sessionCte :
    ((rows.sessionCte startedAfter startedBefore).map SessionInWindow.traceCount).sum =
      (rows.inWindow startedAfter startedBefore).countP fun t => t.2.sessionId.isSome := by
  have h := congrArg (List.map Prod.snd) (@map_sessionCte _ _ rows startedAfter startedBefore)
  simp only [List.map_map, Function.comp_def] at h
  rw [h, windowSessions, sum_sessions]

theorem kept_ofWindow :
    rows.traces.filter (fun t => (SessionFilters.ofWindow startedAfter startedBefore).keeps pg t.2) =
      (rows.inWindow startedAfter startedBefore).filter fun t => t.2.sessionId.isSome := by
  rw [inWindow, List.filter_filter]
  refine List.filter_congr fun t _ => ?_
  simp only [SessionFilters.keeps, SessionFilters.ofWindow, TraceRow.inWindow, overlaps]
  cases t.2.sessionId <;> simp

theorem traceCount_sessionListing {stats : List (UUID × SpanStats D)}
    {traces : List (UUID × TraceRow)} {s : String} {a : SessionListing D}
    (h : sessionListing pg stats traces s = some a) :
    a.traceCount = (traces.filter fun t => t.2.sessionId = some s).length := by
  obtain ⟨cost, -, rfl⟩ := Option.map_eq_some_iff.mp h
  rfl

/-- The session list of a window: its total, and the traces it counts when it is on one page. -/
theorem listSessions_ofWindow {order : List (SessionListing D) → List (SessionListing D)}
    {limit offset : Nat} {page : List (SessionListing D) × Nat}
    (h : rows.listSessions pg (.ofWindow startedAfter startedBefore) order limit offset =
      some page) :
    page.2 = (rows.windowSessions startedAfter startedBefore).length ∧
      ((∀ l, (order l).Perm l) → offset = 0 → page.2 ≤ limit →
        (page.1.map SessionListing.traceCount).sum =
          (rows.inWindow startedAfter startedBefore).countP fun t => t.2.sessionId.isSome) := by
  obtain ⟨stats, -, h⟩ := Option.bind_eq_some_iff.mp h
  obtain ⟨listed, hlisted, rfl⟩ := Option.map_eq_some_iff.mp h
  rw [kept_ofWindow] at hlisted
  have hids :
      ((rows.inWindow startedAfter startedBefore).filter fun t => t.2.sessionId.isSome).filterMap
          (fun t => t.2.sessionId) =
        (rows.inWindow startedAfter startedBefore).filterMap fun t => t.2.sessionId := by
    rw [List.filterMap_filter]
    refine List.filterMap_congr fun t _ => ?_
    cases t.2.sessionId <;> rfl
  rw [hids] at hlisted
  have hshown : listed.filter (fun s => (SessionFilters.ofWindow startedAfter
      startedBefore).hasError.all (· = s.hasError)) = listed :=
    List.filter_eq_self.mpr fun _ _ => rfl
  dsimp only
  rw [hshown]
  refine ⟨?_, fun horder hoffset hlimit => ?_⟩
  · exact (Fallible.mapM_eq_some_iff.mp hlisted).length_eq.symm
  · have hcounts := Fallible.map_mapM hlisted fun s a hs => traceCount_sessionListing hs
    rw [hoffset, List.drop_zero, List.take_of_length_le (by rwa [(horder _).length_eq]),
      ((horder _).map _).sum_eq, hcounts, ← sum_sessions]
    refine congrArg List.sum (List.map_congr_left fun s _ => ?_)
    rw [List.filter_filter]
    refine congrArg List.length (List.filter_congr fun t _ => ?_)
    cases t.2.sessionId <;> simp

/-- What is averaged adds up again. -/
theorem average_mul_length {K : Type} [Field K] [LinearOrder K] [IsStrictOrderedRing K]
    (values : List K) : (average values).getD 0 * (values.length : K) = values.sum := by
  rw [average]
  split
  next hnil => simp [hnil]
  next hne =>
    have hlength : (values.length : K) ≠ 0 :=
      Nat.cast_ne_zero.mpr (List.length_pos_of_ne_nil hne).ne'
    rw [Option.getD_some, div_mul_cancel₀ _ hlength]

/-- **The session analytics are the session list, bucket by bucket.**  The buckets ascend, each
with a session.  The sessions of a chart are the total of `list_sessions` for its window, and its
averages, each times the sessions it is over, are the traces of the listed sessions, over exact
arithmetic.  The charts of two parts of a window show a session with traces in both once more than
the whole. -/
theorem session_analytics_add_up {K : Type} [Field K] [LinearOrder K] [IsStrictOrderedRing K]
    (rows : ProjectRows db projectId) (pg : Postgres D) (g : AnalyticsGranularity)
    (startedAfter startedBefore : DateTime) :
    let chart (startedAfter startedBefore : DateTime) : List (SessionAnalyticsBucket K) :=
      rows.getSessionAnalytics pg g startedAfter startedBefore
    let count (lines : List (SessionAnalyticsBucket K)) :=
      (lines.map SessionAnalyticsBucket.sessionCount).sum
    let lines := chart startedAfter startedBefore
    (lines.map SessionAnalyticsBucket.bucket).Pairwise (· < ·) ∧
    (∀ line ∈ lines, 0 < line.sessionCount) ∧
    (∀ order limit offset page, rows.listSessions pg (.ofWindow startedAfter startedBefore)
      order limit offset = some page → count lines = page.2 ∧
        ((∀ l, (order l).Perm l) → offset = 0 → page.2 ≤ limit →
          (lines.map fun l => l.avgTracesPerSession.getD 0 * (l.sessionCount : K)).sum =
            ((page.1.map SessionListing.traceCount).sum : Nat))) ∧
    ∀ mid, startedAfter ≤ mid → mid ≤ startedBefore →
      count (chart startedAfter mid) + count (chart mid startedBefore) = count lines +
        ((rows.windowSessions startedAfter startedBefore).filter fun s =>
          s ∈ rows.windowSessions startedAfter mid ∧
            s ∈ rows.windowSessions mid startedBefore).length := by
  have hcount : ∀ startedAfter startedBefore, (((rows.getSessionAnalytics pg g startedAfter
      startedBefore : List (SessionAnalyticsBucket K))).map
        SessionAnalyticsBucket.sessionCount).sum =
      (rows.windowSessions startedAfter startedBefore).length := by
    intro startedAfter startedBefore
    rw [← length_sessionCte, ← sum_length_group (sessionBucket pg g), getSessionAnalytics,
      List.map_map]
    rfl
  refine ⟨?_, fun line hline => ?_, fun order limit offset page hpage => ?_,
    fun mid hmid hmid' => ?_⟩
  · simp only [getSessionAnalytics, List.map_map, Function.comp_def, List.map_id']
    exact pairwise_keys
  · obtain ⟨b, hb, rfl⟩ := List.mem_map.mp hline
    exact List.length_pos_of_ne_nil (group_ne_nil hb)
  · obtain ⟨htotal, htraces⟩ := listSessions_ofWindow hpage
    refine ⟨(hcount _ _).trans htotal.symm, fun horder hoffset hlimit => ?_⟩
    rw [htraces horder hoffset hlimit, ← sum_traceCount_sessionCte,
      ← sum_group (sessionBucket pg g), Nat.cast_list_sum, List.map_map]
    simp only [getSessionAnalytics, List.map_map]
    refine congrArg List.sum (List.map_congr_left fun b _ => ?_)
    simp only [Function.comp_apply]
    rw [Nat.cast_list_sum, List.map_map]
    have havg := average_mul_length (K := K)
      ((group (sessionBucket pg g) (rows.sessionCte startedAfter startedBefore) b).map
        fun s => (s.traceCount : K))
    rwa [List.length_map] at havg
  · simp only [hcount]
    -- the sessions of the whole are the union of those of the parts
    have hunion : (rows.windowSessions startedAfter startedBefore).toFinset =
        (rows.windowSessions startedAfter mid).toFinset ∪
          (rows.windowSessions mid startedBefore).toFinset := by
      ext s
      simp only [List.mem_toFinset, Finset.mem_union, mem_windowSessions,
        (inWindow_cut hmid hmid').mem_iff, List.mem_append, or_and_right, exists_or]
    have hcard : ∀ startedAfter startedBefore, (rows.windowSessions startedAfter
        startedBefore).length = (rows.windowSessions startedAfter startedBefore).toFinset.card :=
      fun _ _ => (List.toFinset_card_of_nodup nodup_windowSessions).symm
    have hboth : ((rows.windowSessions startedAfter startedBefore).filter fun s =>
        s ∈ rows.windowSessions startedAfter mid ∧
          s ∈ rows.windowSessions mid startedBefore).length =
        ((rows.windowSessions startedAfter mid).toFinset ∩
          (rows.windowSessions mid startedBefore).toFinset).card := by
      rw [← List.toFinset_card_of_nodup (nodup_windowSessions.filter _)]
      congr 1
      ext s
      simp only [List.mem_toFinset, List.mem_filter, Finset.mem_inter, decide_eq_true_eq]
      refine and_iff_right_of_imp fun h => ?_
      rw [← List.mem_toFinset, hunion]
      exact Finset.mem_union_left _ (List.mem_toFinset.mpr h.1)
    rw [hboth, hcard, hcard, hcard, hunion, Finset.card_union_add_card_inter]

/-! ## Three traces on two days -/

section ThreeTraces

/-- A list without two rows of one id is a table. -/
theorem lookup_eq_some_iff_mem {β : Type} {l : List (UUID × β)} (hnodup : (l.map Prod.fst).Nodup)
    {i : UUID} {row : β} : l.lookup i = some row ↔ (i, row) ∈ l := by
  constructor
  · intro hlookup
    obtain ⟨front, back, rfl, -⟩ := List.lookup_eq_some_iff.mp hlookup
    exact List.mem_append_right _ List.mem_cons_self
  · intro hmem
    obtain ⟨front, back, rfl⟩ := List.append_of_mem hmem
    rw [List.map_append, List.map_cons, List.nodup_append] at hnodup
    refine List.lookup_eq_some_iff.mpr ⟨front, back, rfl, fun p hp => ?_⟩
    simpa using (hnodup.2.2 _ (List.mem_map_of_mem hp) _ List.mem_cons_self).symm

/-- The tables of a project that has the traces of a list and no spans. -/
def ofTraces (projectId : UUID) (l : List (UUID × TraceRow)) (hnodup : (l.map Prod.fst).Nodup)
    (hproject : ∀ t ∈ l, t.2.projectId = projectId) :
    ProjectRows ⟨fun i => l.lookup i, fun _ => none, fun _ _ h => by cases h⟩ projectId where
  traces := l
  spans := []
  traces_nodup := hnodup
  spans_nodup := List.nodup_nil
  mem_traces i row := by
    rw [lookup_eq_some_iff_mem hnodup]
    exact ⟨fun hmem => ⟨hmem, hproject _ hmem⟩, And.left⟩
  mem_spans := by simp

/-- Two traces of the session `s`, the second of them failed, and a day later one of `r` that has
not ended. -/
def threeTraces : List (UUID × TraceRow) :=
  [("t", { storedTrace "t" "a" with endedAt := some 2000000, sessionId := some "s" }),
    ("u", { storedTrace "u" "b" with
      startedAt := DateTime.hours 1, status := .error, sessionId := some "s" }),
    ("v", { storedTrace "v" "c" with startedAt := DateTime.days 1, sessionId := some "r" })]

/-- The rows of project `A` with these traces. -/
def threeTracesRows := ofTraces "A" threeTraces (by decide) (by decide)

/-- The traces of the two days are in two buckets, and one of them failed. -/
theorem trace_analytics_add_up_two_days :
    let lines : List (AnalyticsBucket ℚ) :=
      threeTracesRows.getTraceAnalytics wholePg .day 0 (DateTime.days 2)
    (lines.map AnalyticsBucket.traceCount).sum = 3 ∧
      (lines.map AnalyticsBucket.errorCount).sum = 1 := by
  obtain ⟨-, -, htraces, herrors, -⟩ :=
    trace_analytics_add_up (K := ℚ) threeTracesRows wholePg .day 0 (DateTime.days 2)
  exact ⟨htraces id 50 0 _ rfl, herrors id 50 0 _ rfl⟩

/-- The two days show the two sessions, with an average of two traces and of one. -/
theorem session_analytics_add_up_two_days :
    let lines : List (SessionAnalyticsBucket ℚ) :=
      threeTracesRows.getSessionAnalytics wholePg .day 0 (DateTime.days 2)
    (lines.map SessionAnalyticsBucket.sessionCount).sum = 2 ∧
      (lines.map fun l => l.avgTracesPerSession.getD 0 * (l.sessionCount : ℚ)).sum = 3 := by
  obtain ⟨page, hpage, htotal, hlisted⟩ : ∃ page, threeTracesRows.listSessions wholePg
      (.ofWindow 0 (DateTime.days 2)) id 50 0 = some page ∧ page.2 = 2 ∧
        (page.1.map SessionListing.traceCount).sum = 3 := ⟨_, rfl, rfl, rfl⟩
  obtain ⟨-, -, hsessions, -⟩ :=
    session_analytics_add_up (K := ℚ) threeTracesRows wholePg .day 0 (DateTime.days 2)
  obtain ⟨hcount, htraces⟩ := hsessions id 50 0 page hpage
  have hsum := htraces (fun l => List.Perm.refl l) rfl (by rw [htotal]; decide)
  rw [hlisted] at hsum
  exact ⟨hcount.trans htotal, hsum⟩

end ThreeTraces

end ProjectRows
end PandaProbe
