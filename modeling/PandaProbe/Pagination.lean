import PandaProbe.Paging
import PandaProbe.ProjectViews
import PandaProbe.SessionEval

/-! # The pages of the trace, session and score lists

`list_traces`, `list_sessions` and `list_scores` sort by one column, skip `offset` rows and
return `limit` of them.  Every page is a query of its own.  The column is a status, a name, a
time, a latency or an aggregate, nothing makes the order of two rows with the same value
certain, and the database may put them one way in one query and the other way in the next.

`pages_partition_iff`: the pages put together are the matching rows, each once, if and only
if the spans fit and their costs add up, so that the rows can be joined to their statistics,
and no page boundary falls between two rows that the column does not tell apart.
`equal_starts_repeat` has two traces that started together and are read one a page.

The database's collation and its order of doubles are not in the source; they are any total
preorders.
-/
namespace PandaProbe
open Paging Fallible

/-- Columns available for sorting trace list results. -/
inductive TraceSortBy
  | startedAt | endedAt | name | latency | status
  deriving DecidableEq, Repr

/-- Columns available for sorting session list results. -/
inductive SessionSortBy
  | recent | traceCount | latency | cost
  deriving DecidableEq, Repr

/-- Generic ascending / descending sort direction. -/
inductive SortOrder
  | asc | desc
  deriving DecidableEq, Repr

/-- What the database compares texts and doubles by. -/
structure Collation (D : Type) where
  texts : Comparison String
  doubles : Comparison D

namespace SortOrder
variable {α : Type}

/-- `sort_col.asc() if sort_order == SortOrder.ASC else sort_col.desc()`. -/
def direction (o : SortOrder) (c : Comparison α) : Comparison α :=
  match o with
  | .asc => c
  | .desc => c.flip

end SortOrder

/-- The stored text of a status. -/
def TraceStatus.text : TraceStatus → String
  | .pending => "PENDING"
  | .running => "RUNNING"
  | .completed => "COMPLETED"
  | .error => "ERROR"

/-- Times, and the latencies that are differences of them. -/
def times : Comparison Int := .ofLinearOrder Int

/-- `extract("epoch", ended_at - started_at)`, in microseconds. -/
def TraceRow.latency (row : TraceRow) : Option Int := row.endedAt.map (· - row.startedAt)

/-- `_resolve_sort_column`. -/
def resolveSortColumn {D : Type} (col : Collation D) : TraceSortBy → Comparison TraceRow
  | .startedAt => times.on TraceRow.startedAt
  | .endedAt => times.missingLargest.on TraceRow.endedAt
  | .name => col.texts.on TraceRow.name
  | .status => col.texts.on (fun row => row.status.text)
  | .latency => times.missingLargest.on TraceRow.latency

/-! ## Scores -/

/-- The filters of `list_scores`. -/
structure ScoreFilters where
  name : Option String
  traceId : Option UUID
  source : Option ScoreSource
  status : Option ScoreStatus
  dataType : Option ScoreDataType
  evalRunId : Option UUID
  environment : Option String
  dateFrom : Option DateTime
  dateTo : Option DateTime

/-- The `WHERE` of `list_scores`. -/
def ScoreFilters.keeps (f : ScoreFilters) (projectId : UUID) (s : TraceScore) : Bool :=
  s.projectId = projectId &&
  f.name.all (fun n => s.name = n) &&
  f.traceId.all (fun i => s.traceId = i) &&
  f.source.all (fun x => s.source = x) &&
  f.status.all (fun x => s.status = x) &&
  f.dataType.all (fun x => s.dataType = x) &&
  f.evalRunId.all (fun i => s.evalRunId = some i) &&
  f.environment.all (fun e => s.environment = some e) &&
  f.dateFrom.all (fun t => t ≤ s.createdAt) &&
  f.dateTo.all (fun t => s.createdAt < t)

/-- The table of trace scores in the order it is read, one row for each key. -/
structure ScoreRows where
  scores : List TraceScore
  nodup : (scores.map TraceScore.id).Nodup

namespace ScoreRows
variable (table : ScoreRows)

/-- The scores that match. -/
def matching (projectId : UUID) (f : ScoreFilters) : List TraceScore :=
  table.scores.filter (fun s => f.keeps projectId s)

/-- `created_at.desc()`. -/
def byCreation : Comparison TraceScore := (times.on TraceScore.createdAt).flip

/-- `list_scores`: a page and the number of rows. -/
def listScores (projectId : UUID) (f : ScoreFilters)
    (order : List TraceScore → List TraceScore) (limit offset : Nat) : List TraceScore × Nat :=
  (page order limit offset (table.matching projectId f), (table.matching projectId f).length)

/-- **The pages of `list_scores` are a partition**: whatever order each query puts equal rows
in, pages enough for all rows show each matching score once. -/
def Partitioned (projectId : UUID) (f : ScoreFilters) (limit : Nat) : Prop :=
  ∀ orders : Nat → List TraceScore → List TraceScore, (∀ k, byCreation.Sorts (orders k)) → ∀ m,
    (table.matching projectId f).length ≤ m * limit →
    (((List.range m).flatMap fun k =>
      (table.listScores projectId f (orders k) limit (k * limit)).1).map TraceScore.id).Perm
      ((table.matching projectId f).map TraceScore.id)

theorem partitioned_iff {projectId : UUID} {f : ScoreFilters} {limit : Nat} (hlimit : 0 < limit) :
    table.Partitioned projectId f limit ↔
      byCreation.CleanBreaks limit (table.matching projectId f) :=
  Comparison.pages_map_perm_iff TraceScore.id
    (table.nodup.sublist (List.filter_sublist.map _)) hlimit

end ScoreRows

namespace ProjectRows
variable {D : Type} (pg : Postgres D) (col : Collation D) {db : TraceDb} {projectId : UUID}
  (rows : ProjectRows db projectId)

/-- The pages of a list, read one after the other until one fails. -/
def readPages {α : Type} (query : Nat → Option (List α × Nat)) (m : Nat) : Option (List α) :=
  ((List.range m).mapM query).map fun answers => answers.flatMap Prod.fst

/-! ## Traces -/

/-- The traces that match. -/
def matchingTraces (f : TraceFilters) : List (UUID × TraceRow) :=
  rows.traces.filter (fun t => f.keeps pg t.2)

/-- What `list_traces` orders its rows by. -/
def traceOrder (sortBy : TraceSortBy) (sortOrder : SortOrder) : Comparison (TraceListing D) :=
  (sortOrder.direction (resolveSortColumn col sortBy)).on TraceListing.row

/-- **The pages of `list_traces` are a partition.** -/
def TracesPartitioned (f : TraceFilters) (sortBy : TraceSortBy) (sortOrder : SortOrder)
    (limit : Nat) : Prop :=
  ∀ orders : Nat → List (TraceListing D) → List (TraceListing D),
    (∀ k, (traceOrder col sortBy sortOrder).Sorts (orders k)) → ∀ m,
    (rows.matchingTraces pg f).length ≤ m * limit →
    ∃ listed, readPages (fun k => rows.listTraces pg f (orders k) limit (k * limit)) m =
        some listed ∧
      (listed.map TraceListing.traceId).Perm ((rows.matchingTraces pg f).map Prod.fst)

/-! ## Sessions -/

/-- The traces of a session that match. -/
def sessionTraces (f : SessionFilters) (sessionId : String) : List (UUID × TraceRow) :=
  (rows.traces.filter (fun t => f.keeps pg t.2)).filter
    (fun t => t.2.sessionId = some sessionId)

/-- The sessions that match: the groups of the matching traces, as far as the `HAVING` keeps
them. -/
def matchingSessions (f : SessionFilters) : List String :=
  (((rows.traces.filter (fun t => f.keeps pg t.2)).filterMap (fun t => t.2.sessionId)).dedup).filter
    fun s => f.hasError.all (· = (rows.sessionTraces pg f s).any (fun t => t.2.status = .error))

/-- `sum(extract("epoch", ended_at - started_at))`, which is `NULL` without a trace that has
ended. -/
def totalLatency (traces : List (UUID × TraceRow)) : Option Int :=
  let latencies := traces.filterMap (fun t => t.2.latency)
  if latencies = [] then none else some latencies.sum

/-- `sort_mapping`. -/
def sessionSortColumn (f : SessionFilters) : SessionSortBy → Comparison String
  | .recent => times.missingLargest.on
      fun s => ((rows.sessionTraces pg f s).map (fun t => t.2.createdAt)).max?
  | .traceCount => times.on fun s => ((rows.sessionTraces pg f s).length : Int)
  | .latency => times.missingLargest.on fun s => totalLatency (rows.sessionTraces pg f s)
  | .cost => col.doubles.missingLargest.on fun s => pg.sumDouble (rows.sessionCosts pg f s)

/-- What `list_sessions` orders its rows by. -/
def sessionOrder (f : SessionFilters) (sortBy : SessionSortBy) (sortOrder : SortOrder) :
    Comparison (SessionListing D) :=
  (sortOrder.direction (rows.sessionSortColumn pg col f sortBy)).on SessionListing.sessionId

/-- **The pages of `list_sessions` are a partition.** -/
def SessionsPartitioned (f : SessionFilters) (sortBy : SessionSortBy) (sortOrder : SortOrder)
    (limit : Nat) : Prop :=
  ∀ orders : Nat → List (SessionListing D) → List (SessionListing D),
    (∀ k, (rows.sessionOrder pg col f sortBy sortOrder).Sorts (orders k)) → ∀ m,
    (rows.matchingSessions pg f).length ≤ m * limit →
    ∃ listed, readPages (fun k => rows.listSessions pg f (orders k) limit (k * limit)) m =
        some listed ∧
      (listed.map SessionListing.sessionId).Perm (rows.matchingSessions pg f)

/-- Every span of the project fits, and the costs of every trace are read and add up. -/
def StatsFit : Prop :=
  rows.TokensFit pg ∧ ∀ t ∈ rows.traces, ∃ total, pg.CostsSumTo (rows.spansOf t.1) total

variable {pg col rows}

/-! ## Reading the pages -/

theorem readPages_eq {α : Type} {query : Nat → Option (List α × Nat)} {l : List α} {n limit : Nat}
    {orders : Nat → List α → List α}
    (h : ∀ k, query k = some (page (orders k) limit (k * limit) l, n)) (m : Nat) :
    readPages query m = some (pages orders limit l m) := by
  have hall : (List.range m).mapM query =
      some ((List.range m).map fun k => (page (orders k) limit (k * limit) l, n)) := by
    rw [mapM_eq_some_iff, List.forall₂_map_right_iff, List.forall₂_same]
    exact fun k _ => h k
  rw [readPages, hall, Option.map_some, List.flatMap_map]
  rfl

/-- A list whose queries all fail has no first page. -/
theorem readPages_none {α : Type} {query : Nat → Option (List α × Nat)} (h : ∀ k, query k = none)
    (m : Nat) : readPages query (m + 1) = none := by
  have hnone : ¬ ((List.range (m + 1)).mapM query).isSome := by
    intro hsome
    have hfirst := isSome_mapM_iff.mp hsome 0 (by simp)
    rw [h 0] at hfirst
    cases hfirst
  rw [readPages, Option.not_isSome_iff_eq_none.mp hnone, Option.map_none]

/-- **A list that does not fail has its pages right if and only if no boundary is inside a
block.** -/
theorem pages_of_query {α β : Type} {c : Comparison α} {l : List α} {key : α → β}
    {query : (List α → List α) → Nat → Option (List α × Nat)} {n limit : Nat}
    (hnodup : (l.map key).Nodup) (hlimit : 0 < limit)
    (h : ∀ order offset, query order offset = some (page order limit offset l, n)) :
    (∀ orders : Nat → List α → List α, (∀ k, c.Sorts (orders k)) → ∀ m, l.length ≤ m * limit →
      ∃ listed, readPages (fun k => query (orders k) (k * limit)) m = some listed ∧
        (listed.map key).Perm (l.map key)) ↔ c.CleanBreaks limit l := by
  rw [← Comparison.pages_map_perm_iff key hnodup hlimit]
  refine forall₂_congr fun orders _ => forall₂_congr fun m _ => ?_
  rw [readPages_eq (fun k => h (orders k) (k * limit)) m]
  exact ⟨fun ⟨_, hl, hperm⟩ => Option.some.inj hl ▸ hperm, fun hperm => ⟨_, rfl, hperm⟩⟩

/-- A list that always fails has no pages. -/
theorem no_pages_of_query {α β : Type} {c : Comparison α} (keys : List β) (key : α → β)
    {query : (List α → List α) → Nat → Option (List α × Nat)} {limit : Nat} (hlimit : 0 < limit)
    (h : ∀ order offset, query order offset = none) :
    ¬ ∀ orders : Nat → List α → List α, (∀ k, c.Sorts (orders k)) → ∀ m, keys.length ≤ m * limit →
      ∃ listed, readPages (fun k => query (orders k) (k * limit)) m = some listed ∧
        (listed.map key).Perm keys := by
  intro hall
  obtain ⟨listed, hlisted, -⟩ := hall (fun _ => c.reference) (fun _ => Comparison.sorts_reference)
    (keys.length + 1) (Nat.le_trans (Nat.le_succ _) (Nat.le_mul_of_pos_right _ hlimit))
  rw [readPages_none fun k => h c.reference (k * limit)] at hlisted
  cases hlisted

/-! ## The trace list -/

theorem tracesPartitioned_iff (hpg : pg.Lawful) {f : TraceFilters} {sortBy : TraceSortBy}
    {sortOrder : SortOrder} {limit : Nat} (hlimit : 0 < limit) :
    rows.TracesPartitioned pg col f sortBy sortOrder limit ↔ rows.StatsFit pg ∧
      (sortOrder.direction (resolveSortColumn col sortBy)).CleanBreaks limit
        ((rows.matchingTraces pg f).map Prod.snd) := by
  unfold StatsFit
  rw [← isSome_spanStats_iff hpg]
  cases hstats : rows.spanStatsSubquery pg with
  | none =>
    have hnone : ∀ order offset, rows.listTraces pg f order limit offset = none := by
      intro order offset
      rw [listTraces, hstats, Option.map_none]
    have hno := no_pages_of_query (c := traceOrder col sortBy sortOrder)
      ((rows.matchingTraces pg f).map Prod.fst) TraceListing.traceId hlimit hnone
    rw [List.length_map] at hno
    exact iff_of_false hno (fun h => absurd h.1 (by simp))
  | some stats =>
    let listed : List (TraceListing D) := (rows.matchingTraces pg f).map fun t =>
      ⟨t.1, t.2, joined pg stats t.1⟩
    have hkeys : listed.map TraceListing.traceId = (rows.matchingTraces pg f).map Prod.fst := by
      simp [listed, Function.comp_def]
    have hrows : listed.map TraceListing.row = (rows.matchingTraces pg f).map Prod.snd := by
      simp [listed, Function.comp_def]
    have hnodup : (listed.map TraceListing.traceId).Nodup := by
      rw [hkeys]
      exact rows.traces_nodup.sublist (List.filter_sublist.map _)
    have hquery : ∀ order offset, rows.listTraces pg f order limit offset =
        some (page order limit offset listed, listed.length) := by
      intro order offset
      rw [listTraces, hstats]
      rfl
    have hiff := pages_of_query (c := traceOrder col sortBy sortOrder) hnodup hlimit hquery
    rw [traceOrder, Comparison.cleanBreaks_on, hrows, hkeys, List.length_map] at hiff
    exact hiff.trans ⟨fun h => ⟨rfl, h⟩, And.right⟩

/-! ## The session list -/

theorem sessionListing_fields {stats : List (UUID × SpanStats D)} {traces : List (UUID × TraceRow)}
    {s : String} {a : SessionListing D} (h : sessionListing pg stats traces s = some a) :
    a.sessionId = s ∧ a.hasError =
      (traces.filter (fun t => t.2.sessionId = some s)).any (fun t => t.2.status = .error) := by
  obtain ⟨cost, -, rfl⟩ := Option.map_eq_some_iff.mp h
  exact ⟨rfl, rfl⟩

/-- The listed sessions are those that match. -/
theorem map_shown {stats : List (UUID × SpanStats D)} {f : SessionFilters}
    {traces : List (UUID × TraceRow)} {ids : List String} {listed : List (SessionListing D)}
    (h : ids.mapM (sessionListing pg stats traces) = some listed) :
    (listed.filter (fun a => f.hasError.all (· = a.hasError))).map SessionListing.sessionId =
      ids.filter fun s => f.hasError.all
        (· = (traces.filter (fun t => t.2.sessionId = some s)).any (fun t => t.2.status = .error)) := by
  have hall := mapM_eq_some_iff.mp h
  clear h
  induction hall with
  | nil => rfl
  | @cons s a ids listed hsa _ ih =>
    obtain ⟨hid, herror⟩ := sessionListing_fields hsa
    rw [List.filter_cons, List.filter_cons, ← herror]
    split
    · rw [List.map_cons, ih, hid]
    · exact ih

theorem nodup_matchingSessions {f : SessionFilters} : (rows.matchingSessions pg f).Nodup :=
  (List.nodup_dedup _).filter _

/-- The session list fails as a whole. -/
theorem listSessions_none (hpg : pg.Lawful) {f : SessionFilters}
    (h : ¬ (rows.StatsFit pg ∧ ∀ s, ∃ total, rows.SessionSumsTo pg f s total))
    (order : List (SessionListing D) → List (SessionListing D)) (limit offset : Nat) :
    rows.listSessions pg f order limit offset = none := by
  cases hstats : rows.spanStatsSubquery pg with
  | none => rw [listSessions, hstats, Option.bind_none]
  | some stats =>
    have hsome : (rows.spanStatsSubquery pg).isSome := by rw [hstats]; rfl
    rw [← Option.not_isSome_iff_eq_none, isSome_listSessions_iff hpg hsome]
    exact fun hcosts => h ⟨(isSome_spanStats_iff hpg).mp hsome, hcosts⟩

/-- The session list succeeds, each page out of the same sessions. -/
theorem listSessions_some (hpg : pg.Lawful) {f : SessionFilters} (hfit : rows.StatsFit pg)
    (hcosts : ∀ s, ∃ total, rows.SessionSumsTo pg f s total) :
    ∃ shown : List (SessionListing D),
      shown.map SessionListing.sessionId = rows.matchingSessions pg f ∧
      ∀ order limit offset, rows.listSessions pg f order limit offset =
        some (page order limit offset shown, shown.length) := by
  have hsome := (isSome_spanStats_iff hpg).mpr hfit
  obtain ⟨stats, hstats⟩ := Option.isSome_iff_exists.mp hsome
  have hpage := (isSome_listSessions_iff hpg hsome f id 0 0).mpr hcosts
  rw [listSessions, hstats, Option.bind_some, Option.isSome_map] at hpage
  obtain ⟨listed, hlisted⟩ := Option.isSome_iff_exists.mp hpage
  refine ⟨listed.filter (fun a => f.hasError.all (· = a.hasError)), map_shown hlisted,
    fun order limit offset => ?_⟩
  rw [listSessions, hstats, Option.bind_some]
  simp only [hlisted, Option.map_some]
  rfl

theorem sessionsPartitioned_iff (hpg : pg.Lawful) {f : SessionFilters} {sortBy : SessionSortBy}
    {sortOrder : SortOrder} {limit : Nat} (hlimit : 0 < limit) :
    rows.SessionsPartitioned pg col f sortBy sortOrder limit ↔
      (rows.StatsFit pg ∧ ∀ s, ∃ total, rows.SessionSumsTo pg f s total) ∧
      (sortOrder.direction (rows.sessionSortColumn pg col f sortBy)).CleanBreaks limit
        (rows.matchingSessions pg f) := by
  by_cases hfit : rows.StatsFit pg ∧ ∀ s, ∃ total, rows.SessionSumsTo pg f s total
  · obtain ⟨shown, hshown, hquery⟩ := listSessions_some hpg hfit.1 hfit.2
    have hnodup : (shown.map SessionListing.sessionId).Nodup := by
      rw [hshown]
      exact nodup_matchingSessions
    have hiff := pages_of_query (c := rows.sessionOrder pg col f sortBy sortOrder) hnodup hlimit
      (fun order offset => hquery order limit offset)
    rw [sessionOrder, Comparison.cleanBreaks_on, hshown, ← List.length_map, hshown] at hiff
    exact hiff.trans ⟨fun h => ⟨hfit, h⟩, And.right⟩
  · refine iff_of_false ?_ (fun h => hfit h.1)
    exact no_pages_of_query _ _ hlimit (fun order offset => listSessions_none hpg hfit order limit offset)

/-- **Exactly when the pages are a partition.**  The pages of the trace list and of the
session list, and those of the score list, show every matching row once for any order of
equal rows, if and only if the spans fit, the costs add up and no page boundary is inside a
block of rows that the sort column does not tell apart. -/
theorem pages_partition_iff {D : Type} {pg : Postgres D} (hpg : pg.Lawful) (col : Collation D)
    {db : TraceDb} {projectId : UUID} (rows : ProjectRows db projectId) (table : ScoreRows)
    {limit : Nat} (hlimit : 0 < limit) :
    (∀ f sortBy sortOrder, rows.TracesPartitioned pg col f sortBy sortOrder limit ↔
      rows.StatsFit pg ∧ (sortOrder.direction (resolveSortColumn col sortBy)).CleanBreaks limit
        ((rows.matchingTraces pg f).map Prod.snd)) ∧
    (∀ f sortBy sortOrder, rows.SessionsPartitioned pg col f sortBy sortOrder limit ↔
      (rows.StatsFit pg ∧ ∀ s, ∃ total, rows.SessionSumsTo pg f s total) ∧
      (sortOrder.direction (rows.sessionSortColumn pg col f sortBy)).CleanBreaks limit
        (rows.matchingSessions pg f)) ∧
    (∀ f, table.Partitioned projectId f limit ↔
      ScoreRows.byCreation.CleanBreaks limit (table.matching projectId f)) :=
  ⟨fun _ _ _ => tracesPartitioned_iff hpg hlimit, fun _ _ _ => sessionsPartitioned_iff hpg hlimit,
    fun _ => table.partitioned_iff hlimit⟩

/-! ## Two traces that started together -/

section EqualStarts
open TraceDb

/-- Project `A` has posted two traces that started at the same time. -/
def twoTracesDb : TraceDb :=
  (TraceDb.empty.apply "A" (.upsertTrace 0 (namedTrace "t" "a" []))).apply "A"
    (.upsertTrace 0 (namedTrace "u" "b" []))

/-- A trace as it is stored. -/
def storedTrace (traceId : UUID) (name : String) : TraceRow :=
  { (namedTrace traceId name []).row 0 with projectId := "A" }

/-- The rows of project `A`. -/
def twoTraces : ProjectRows twoTracesDb "A" where
  traces := [("t", storedTrace "t" "a"), ("u", storedTrace "u" "b")]
  spans := []
  traces_nodup := by decide
  spans_nodup := List.nodup_nil
  mem_traces := by
    intro i row
    have htraces : twoTracesDb.traces = Function.update (Function.update (fun _ => none) "t"
      (some (storedTrace "t" "a"))) "u" (some (storedTrace "u" "b")) := rfl
    rw [htraces]
    by_cases hu : i = "u"
    · subst hu
      rw [Function.update_self]
      simp only [List.mem_cons, Prod.mk.injEq, List.not_mem_nil, or_false,
        show ¬ "u" = "t" by decide, false_and, false_or, true_and, Option.some_inj]
      exact ⟨fun h => ⟨h.symm, by rw [h]; rfl⟩, fun h => h.1.symm⟩
    · rw [Function.update_of_ne hu]
      by_cases ht : i = "t"
      · subst ht
        rw [Function.update_self]
        simp only [List.mem_cons, Prod.mk.injEq, List.not_mem_nil, or_false, hu, false_and,
          true_and, Option.some_inj]
        exact ⟨fun h => ⟨h.symm, by rw [h]; rfl⟩, fun h => h.1.symm⟩
      · rw [Function.update_of_ne ht]
        simp [hu, ht]
  mem_spans := by
    intro i row
    have hspans : twoTracesDb.spans = fun _ => none := rfl
    rw [hspans]
    simp

/-- Texts by their characters, doubles by their value. -/
def plainCollation : Collation Int := ⟨.ofLinearOrder String, .ofLinearOrder Int⟩

/-- No filter. -/
def allTraces : TraceFilters := ⟨none, none, none, [], none, none, none⟩

theorem statsFit_twoTraces : twoTraces.StatsFit wholePg :=
  ⟨fun _ hs => absurd hs (List.not_mem_nil), fun _ _ => ⟨0, [], .nil, rfl⟩⟩

/-- Both traces fit on one page of two. -/
theorem pages_partition_two :
    twoTraces.TracesPartitioned wholePg plainCollation allTraces .startedAt .desc 2 :=
  ((pages_partition_iff lawful_wholePg plainCollation twoTraces ⟨[], List.nodup_nil⟩
    (show 0 < 2 by decide)).1 allTraces .startedAt .desc).mpr
      ⟨statsFit_twoTraces, Comparison.cleanBreaks_of_length_le (by decide)⟩

/-- **One a page, newest first**: one of the two traces can be shown twice and the other not
at all. -/
theorem equal_starts_repeat :
    ¬ twoTraces.TracesPartitioned wholePg plainCollation allTraces .startedAt .desc 1 := by
  rw [tracesPartitioned_iff lawful_wholePg (by decide)]
  rintro ⟨-, hclean⟩
  have hrows : (twoTraces.matchingTraces wholePg allTraces).map Prod.snd =
      [storedTrace "t" "a", storedTrace "u" "b"] := rfl
  rw [hrows] at hclean
  exact absurd (hclean 1 _ List.mem_cons_self) (by decide)

end EqualStarts

end ProjectRows
end PandaProbe
