import PandaProbe.BatchTags
import PandaProbe.TraceAnalytics

/-! # The page of a session

`GET /sessions/{session_id}` shows a summary of all traces of a session beside one page of them.
The summary comes from one query, the page from a second, and the tokens and costs of the traces
on it from a third.

`session_page_adds_up`: where no page boundary is inside a block of traces that started together,
the summary on every page is what all the pages show put together, and the row of the session in
the session list is the summary, as far as its filters keep the traces.

Two orders are left to the database: that of the traces that started together, on a page and in
the query for the user of the session.
-/
namespace PandaProbe
open Paging Fallible

/-- A row of `get_session_summary`. -/
structure SessionSummary (D : Type) where
  sessionId : String
  traceCount : Nat
  firstTraceAt : DateTime
  lastTraceAt : Option DateTime
  totalLatency : Option Int
  hasError : Bool
  userId : Option String
  tags : List String
  stats : SpanStats D

/-- A trace with its spans, its tokens and its cost. -/
structure TraceDetail (D : Type) where
  traceId : UUID
  row : TraceRow
  spans : List (UUID × SpanRow)
  totalTokens : Int
  totalCost : D

namespace ProjectRows
variable {D : Type} {db : TraceDb} {projectId : UUID} (rows : ProjectRows db projectId)
  (pg : Postgres D)

/-- The traces of a session. -/
def ofSession (sessionId : String) : List (UUID × TraceRow) :=
  rows.traces.filter fun t => t.2.sessionId = some sessionId

/-- `started_at.asc()`. -/
def byStart : Comparison (UUID × TraceRow) := times.on fun t => t.2.startedAt

/-- `get_session_summary`, `some none` where the session has no traces; `first` is the sort of the
query for the user. -/
def getSessionSummary (first : List (UUID × TraceRow) → List (UUID × TraceRow))
    (sessionId : String) : Option (Option (SessionSummary D)) :=
  (rows.spanStatsSubquery pg).bind fun stats =>
    let own := rows.ofSession sessionId
    let joined := own.filterMap fun t => stats.lookup t.1
    match (own.map fun t => t.2.startedAt).min? with
    | none => some none
    | some firstTraceAt =>
      (pg.sumDouble (joined.map SpanStats.totalCost)).map fun cost => some
        { sessionId := sessionId
          traceCount := own.length
          firstTraceAt := firstTraceAt
          lastTraceAt := (own.filterMap fun t => t.2.endedAt).max?
          totalLatency := totalLatency own
          hasError := own.any fun t => t.2.status = .error
          userId := (first (own.filter fun t => t.2.userId.isSome)).head?.bind fun t => t.2.userId
          tags := arrayAggDistinct (own.flatMap fun t => t.2.tags)
          stats := ⟨(joined.map SpanStats.spanCount).sum, (joined.map SpanStats.totalTokens).sum,
            cost⟩ }

/-- The spans of a trace, `order_by="SpanModel.started_at.asc(), SpanModel.span_id.asc()"`. -/
def spansInOrder (traceId : UUID) : List (UUID × SpanRow) :=
  (rows.spans.filter fun s => s.2.traceId = traceId).insertionSort fun a b =>
    a.2.startedAt < b.2.startedAt ∨ (a.2.startedAt = b.2.startedAt ∧ a.1 ≤ b.1)

/-- `get_trace_span_stats`, which asks nothing for no traces. -/
def getTraceSpanStats (traceIds : List UUID) : Option (List (UUID × Int × D)) :=
  if traceIds = [] then some []
  else (rows.spanStatsSubquery pg).map fun stats =>
    (stats.filter fun s => s.1 ∈ traceIds).map fun s => (s.1, s.2.totalTokens, s.2.totalCost)

/-- `TraceService.get_session_traces`: a page and the number of traces. -/
def getSessionTraces (order : List (UUID × TraceRow) → List (UUID × TraceRow)) (sessionId : String)
    (limit offset : Nat) : Option (List (TraceDetail D) × Nat) :=
  let own := rows.ofSession sessionId
  let shown := page order limit offset own
  (rows.getTraceSpanStats pg (shown.map Prod.fst)).map fun stats =>
    (shown.map fun t =>
      let own := (stats.lookup t.1).getD (0, pg.zero)
      ⟨t.1, t.2, rows.spansInOrder t.1, own.1, own.2⟩, own.length)

/-- `get_session`: the summary and a page, `some none` for a session that is not found. -/
def getSession (first order : List (UUID × TraceRow) → List (UUID × TraceRow)) (sessionId : String)
    (limit offset : Nat) : Option (Option (SessionSummary D × List (TraceDetail D))) :=
  (rows.getSessionSummary pg first sessionId).bind fun
    | none => some none
    | some summary => (rows.getSessionTraces pg order sessionId limit offset).map fun traces =>
      some (summary, traces.1)

end ProjectRows

/-- **What a summary says of some traces**, in the order they are shown. -/
structure SessionSummary.Describes {D : Type} (pg : Postgres D) (summary : SessionSummary D)
    (traces : List (TraceDetail D)) : Prop where
  count : summary.traceCount = traces.length
  first : (traces.head?).map (fun d => d.row.startedAt) = some summary.firstTraceAt
  last : summary.lastTraceAt = (traces.filterMap fun d => d.row.endedAt).max?
  latency : summary.totalLatency =
    ProjectRows.totalLatency (traces.map fun d => (d.traceId, d.row))
  error : summary.hasError = traces.any fun d => d.row.status = .error
  noUser : summary.userId = none ↔ ∀ d ∈ traces, d.row.userId = none
  user : ∀ u, summary.userId = some u → ∃ d ∈ traces, d.row.userId = some u ∧
    ∀ d' ∈ traces, d'.row.userId ≠ none → d.row.startedAt ≤ d'.row.startedAt
  tags : summary.tags.Nodup ∧ ∀ tag, tag ∈ summary.tags ↔ ∃ d ∈ traces, tag ∈ d.row.tags
  spans : summary.stats.spanCount = (traces.map fun d => d.spans.length).sum
  tokens : summary.stats.totalTokens = (traces.map TraceDetail.totalTokens).sum
  cost : ∃ costs, costs.Perm ((traces.filter fun d => d.spans ≠ []).map TraceDetail.totalCost) ∧
    pg.sumDouble costs = some summary.stats.totalCost

namespace ProjectRows
variable {D : Type} {db : TraceDb} {projectId : UUID} {rows : ProjectRows db projectId}
  {pg : Postgres D} {stats : List (UUID × SpanStats D)} {sessionId : String}
  {first order : List (UUID × TraceRow) → List (UUID × TraceRow)}

/-! ## The traces on a page -/

/-- A trace as the page shows it. -/
def detailOf (rows : ProjectRows db projectId) (pg : Postgres D) (stats : List (UUID × SpanStats D))
    (t : UUID × TraceRow) : TraceDetail D :=
  ⟨t.1, t.2, rows.spansInOrder t.1, (joined pg stats t.1).totalTokens,
    (joined pg stats t.1).totalCost⟩

theorem lookup_stats {ids : List UUID} {i : UUID} (hi : i ∈ ids) :
    (((stats.filter fun s => s.1 ∈ ids).map fun s =>
      (s.1, s.2.totalTokens, s.2.totalCost)).lookup i) =
      (stats.lookup i).map fun s => (s.totalTokens, s.totalCost) := by
  induction stats with
  | nil => rfl
  | cons s stats ih =>
    obtain ⟨j, s⟩ := s
    by_cases hij : i = j
    · subst hij
      rw [List.filter_cons_of_pos (by simpa using hi), List.map_cons, List.lookup_cons_self,
        List.lookup_cons_self, Option.map_some]
    · have hne : (i == j) = false := by simpa using hij
      rw [List.lookup_cons, hne, ← ih, List.filter_cons]
      split
      · rw [List.map_cons, List.lookup_cons, hne]
      · rfl

theorem getSessionTraces_eq (hstats : rows.spanStatsSubquery pg = some stats) (limit offset : Nat) :
    rows.getSessionTraces pg order sessionId limit offset =
      some ((page order limit offset (rows.ofSession sessionId)).map (detailOf rows pg stats),
        (rows.ofSession sessionId).length) := by
  unfold getSessionTraces
  dsimp only
  generalize page order limit offset (rows.ofSession sessionId) = shown
  rw [getTraceSpanStats, hstats]
  split
  next hnil =>
    obtain rfl := List.map_eq_nil_iff.mp hnil
    rfl
  · simp only [Option.map_some]
    refine congrArg some (Prod.ext (List.map_congr_left fun t ht => ?_) rfl)
    rw [lookup_stats (List.mem_map_of_mem ht), detailOf, joined]
    cases stats.lookup t.1 <;> rfl

theorem nodup_ofSession : (rows.ofSession sessionId).Nodup :=
  (List.Nodup.of_map _ rows.traces_nodup).filter _

/-! ## What the queries answer -/

theorem getSessionSummary_eq_none (hstats : rows.spanStatsSubquery pg = some stats) :
    rows.getSessionSummary pg first sessionId = some none ↔ rows.ofSession sessionId = [] := by
  rw [getSessionSummary, hstats, Option.bind_some]
  dsimp only
  cases hmin : ((rows.ofSession sessionId).map fun t => t.2.startedAt).min? with
  | none => simpa using List.min?_eq_none_iff.mp hmin
  | some a =>
    refine iff_of_false (fun h => ?_) fun hnil => ?_
    · obtain ⟨_, -, h⟩ := Option.map_eq_some_iff.mp h
      cases h
    · rw [hnil] at hmin
      cases hmin

/-- What is known of a page that is shown. -/
theorem getSession_eq_some {limit offset : Nat} {answer : SessionSummary D × List (TraceDetail D)}
    (h : rows.getSession pg first order sessionId limit offset = some (some answer)) :
    ∃ stats, rows.spanStatsSubquery pg = some stats ∧
      rows.getSessionSummary pg first sessionId = some (some answer.1) ∧
      answer.2 =
        (page order limit offset (rows.ofSession sessionId)).map (detailOf rows pg stats) := by
  obtain ⟨summary, hsummary, h⟩ := Option.bind_eq_some_iff.mp h
  cases summary with
  | none => cases h
  | some summary =>
    obtain ⟨stats, hstats, -⟩ := Option.bind_eq_some_iff.mp hsummary
    rw [getSessionTraces_eq hstats] at h
    cases h
    exact ⟨stats, hstats, hsummary, rfl⟩

/-! ## What a summary describes -/

theorem length_spansInOrder (i : UUID) :
    (rows.spansInOrder i).length = (rows.spansOf i).length := by
  rw [spansInOrder, (List.perm_insertionSort _ _).length_eq, spansOf, List.filter_map,
    List.length_map]
  rfl

theorem spansInOrder_eq_nil {i : UUID} : rows.spansInOrder i = [] ↔ rows.spansOf i = [] := by
  rw [← List.length_eq_zero_iff, length_spansInOrder, List.length_eq_zero_iff]

/-- A trace without spans has no row in the subquery. -/
theorem lookup_isSome (hstats : rows.spanStatsSubquery pg = some stats) (i : UUID) :
    (stats.lookup i).isSome ↔ rows.spansOf i ≠ [] := by
  rw [lookup_spanStats hstats]
  by_cases hnil : rows.spansOf i = []
  · simp [hnil]
  · have hall := isSome_mapM_iff.mp (Option.isSome_of_eq_some hstats) i (mem_groups.mpr hnil)
    rw [if_neg hnil]
    exact iff_of_true (by simpa using hall) hnil

/-- The spans the subquery counts are the spans that are shown. -/
theorem joined_spanCount (hstats : rows.spanStatsSubquery pg = some stats) (i : UUID) :
    (joined pg stats i).spanCount = (rows.spansInOrder i).length := by
  rw [joined, lookup_spanStats hstats, length_spansInOrder]
  split
  next hnil => simp [hnil]
  next hne =>
    have hsome := (lookup_isSome hstats i).mpr hne
    rw [lookup_spanStats hstats, if_neg hne] at hsome
    obtain ⟨st, hst⟩ := Option.isSome_iff_exists.mp hsome
    rw [hst]
    obtain ⟨tokens, -, hst⟩ := Option.bind_eq_some_iff.mp hst
    obtain ⟨cost, -, rfl⟩ := Option.map_eq_some_iff.mp hst
    rfl

/-- Summing over the traces that have a row in the subquery is summing over all traces. -/
theorem sum_joined {M : Type} [AddMonoid M] (f : SpanStats D → M) (hzero : f ⟨0, 0, pg.zero⟩ = 0)
    (l : List (UUID × TraceRow)) :
    ((l.filterMap fun t => stats.lookup t.1).map f).sum =
      (l.map fun t => f (joined pg stats t.1)).sum := by
  induction l with
  | nil => rfl
  | cons t l ih =>
    rw [List.map_cons, List.sum_cons, ← ih, joined, List.filterMap_cons]
    cases stats.lookup t.1 with
    | none => rw [Option.getD_none, hzero, zero_add]
    | some s => rw [Option.getD_some, List.map_cons, List.sum_cons]

/-- The costs the summary adds are those of the traces with spans. -/
theorem costs_joined (hstats : rows.spanStatsSubquery pg = some stats)
    (l : List (UUID × TraceRow)) :
    (l.filterMap fun t => stats.lookup t.1).map SpanStats.totalCost =
      ((l.map (detailOf rows pg stats)).filter fun d => d.spans ≠ []).map
        TraceDetail.totalCost := by
  induction l with
  | nil => rfl
  | cons t l ih =>
    have hiff := lookup_isSome hstats t.1
    rw [ne_eq, ← spansInOrder_eq_nil] at hiff
    rw [List.map_cons, List.filterMap_cons]
    cases h : stats.lookup t.1 with
    | none =>
      rw [h] at hiff
      rw [List.filter_cons_of_neg]
      · exact ih
      · exact fun hne => by simpa using hiff.mpr (of_decide_eq_true hne)
    | some s =>
      rw [h] at hiff
      rw [List.filter_cons_of_pos]
      · rw [List.map_cons, List.map_cons, ih, detailOf, joined, h, Option.getD_some]
      · exact decide_eq_true (hiff.mp rfl)

theorem max?_perm {l l' : List DateTime} (h : l.Perm l') : l.max? = l'.max? := by
  cases hl : l.max? with
  | none =>
    rw [List.max?_eq_none_iff] at hl
    subst hl
    rw [List.nil_perm.mp h]
    rfl
  | some a =>
    obtain ⟨ha, hle⟩ := List.max?_eq_some_iff.mp hl
    exact (List.max?_eq_some_iff.mpr ⟨h.subset ha, fun b hb => hle b (h.symm.subset hb)⟩).symm

theorem totalLatency_perm {l l' : List (UUID × TraceRow)} (h : l.Perm l') :
    totalLatency l = totalLatency l' := by
  have hlatencies := h.filterMap fun t => t.2.latency
  have hnil : (l.filterMap fun t => t.2.latency) = [] ↔
      (l'.filterMap fun t => t.2.latency) = [] := by
    rw [← List.length_eq_zero_iff, hlatencies.length_eq, List.length_eq_zero_iff]
  unfold totalLatency
  simp only [hnil, hlatencies.sum_eq]

/-- The user of a session is that of the first trace that has one. -/
theorem firstUser_eq_none (hfirst : byStart.Sorts first) {l : List (UUID × TraceRow)} :
    (first (l.filter fun t => t.2.userId.isSome)).head?.bind (fun t => t.2.userId) = none ↔
      ∀ t ∈ l, t.2.userId = none := by
  obtain ⟨hperm, -⟩ := hfirst (l.filter fun t => t.2.userId.isSome)
  cases hl : first (l.filter fun t => t.2.userId.isSome) with
  | nil =>
    rw [hl, List.nil_perm, List.filter_eq_nil_iff] at hperm
    refine iff_of_true rfl fun t ht => ?_
    simpa using hperm t ht
  | cons t rest =>
    rw [hl] at hperm
    obtain ⟨ht, hsome⟩ := List.mem_filter.mp (hperm.subset List.mem_cons_self)
    refine iff_of_false (fun hnone => ?_) fun hnone => ?_
    · have huser : t.2.userId = none := hnone
      rw [huser] at hsome
      cases hsome
    · rw [hnone t ht] at hsome
      cases hsome

theorem firstUser_eq_some (hfirst : byStart.Sorts first) {l : List (UUID × TraceRow)} {u : String}
    (h : (first (l.filter fun t => t.2.userId.isSome)).head?.bind (fun t => t.2.userId) = some u) :
    ∃ t ∈ l, t.2.userId = some u ∧
      ∀ t' ∈ l, t'.2.userId ≠ none → t.2.startedAt ≤ t'.2.startedAt := by
  obtain ⟨hperm, hsorted⟩ := hfirst (l.filter fun t => t.2.userId.isSome)
  obtain ⟨t, ht, hu⟩ := Option.bind_eq_some_iff.mp h
  obtain ⟨rest, hl⟩ := List.head?_eq_some_iff.mp ht
  rw [hl] at hperm hsorted
  refine ⟨t, (List.mem_filter.mp (hperm.subset List.mem_cons_self)).1, hu, fun t' ht' hne => ?_⟩
  have hmem := hperm.symm.subset (List.mem_filter.mpr ⟨ht', Option.isSome_iff_ne_none.mpr hne⟩)
  rcases List.mem_cons.mp hmem with rfl | hrest
  · exact le_refl _
  · exact of_decide_eq_true ((List.pairwise_cons.mp hsorted).1 t' hrest)

/-- **The summary describes the traces of the session** in any order that starts with one that
started first. -/
theorem describes (hstats : rows.spanStatsSubquery pg = some stats) {summary : SessionSummary D}
    (hsummary : rows.getSessionSummary pg first sessionId = some (some summary))
    (hfirst : byStart.Sorts first) {l : List (UUID × TraceRow)}
    (hl : l.Perm (rows.ofSession sessionId))
    (hhead : ∀ t ∈ l.head?, ∀ t' ∈ l, t.2.startedAt ≤ t'.2.startedAt) :
    summary.Describes pg (l.map (detailOf rows pg stats)) := by
  rw [getSessionSummary, hstats, Option.bind_some] at hsummary
  dsimp only at hsummary
  split at hsummary
  · cases hsummary
  next start hstart =>
    obtain ⟨cost, hcost, heq⟩ := Option.map_eq_some_iff.mp hsummary
    cases heq
    obtain ⟨hmem, hle⟩ := List.min?_eq_some_iff.mp hstart
    have hrow : ∀ t, (detailOf rows pg stats t).row = t.2 := fun _ => rfl
    have husers := (hfirst ((rows.ofSession sessionId).filter fun t => t.2.userId.isSome))
    refine
      { count := by rw [List.length_map, hl.length_eq]
        first := ?_
        last := ?_
        latency := ?_
        error := ?_
        noUser := ?_
        user := ?_
        tags := ⟨nodup_arrayAggDistinct _, fun tag => ?_⟩
        spans := ?_
        tokens := ?_
        cost := ⟨_, ?_, hcost⟩ }
    · -- the first of the traces is one that started first
      obtain ⟨t, ht, hstart⟩ := List.mem_map.mp hmem
      cases hcase : l with
      | nil =>
        rw [hcase] at hl
        cases hl.symm.subset ht
      | cons t' rest =>
        rw [hcase] at hl hhead
        have hfirst := hle _ (List.mem_map_of_mem (hl.subset List.mem_cons_self))
        refine congrArg some (le_antisymm ?_ hfirst)
        exact hstart ▸ hhead t' rfl t (hl.symm.subset ht)
    · rw [List.filterMap_map]
      exact max?_perm (hl.symm.filterMap _)
    · rw [List.map_map]
      exact totalLatency_perm (hl.symm.trans (List.Perm.of_eq (List.map_id _).symm))
    · rw [List.any_map, ← Bool.coe_iff_coe, List.any_eq_true, List.any_eq_true]
      simp only [hl.mem_iff]
      rfl
    · rw [firstUser_eq_none hfirst, List.forall_mem_map]
      exact forall_congr' fun t => by rw [hl.mem_iff, hrow]
    · intro u hu
      obtain ⟨t, ht, htu, hearly⟩ := firstUser_eq_some hfirst hu
      refine ⟨_, List.mem_map_of_mem (hl.symm.subset ht), htu, ?_⟩
      exact List.forall_mem_map.mpr fun t' ht' => hearly t' (hl.subset ht')
    · simp only [mem_arrayAggDistinct, List.mem_flatMap, List.mem_map, exists_exists_and_eq_and,
        hl.mem_iff, hrow]
    · rw [List.map_map, sum_joined SpanStats.spanCount rfl, ← (hl.map _).sum_eq]
      exact congrArg List.sum (List.map_congr_left fun t _ => joined_spanCount hstats t.1)
    · rw [List.map_map, sum_joined SpanStats.totalTokens rfl, ← (hl.map _).sum_eq]
      rfl
    · rw [costs_joined hstats]
      exact ((hl.symm.map _).filter _).map _

/-- The pages of a session, where none ends between traces that started together. -/
theorem pages_ofSession {limit : Nat} (hlimit : 0 < limit)
    (hclean : byStart.CleanBreaks limit (rows.ofSession sessionId))
    {orders : Nat → List (UUID × TraceRow) → List (UUID × TraceRow)}
    (ho : ∀ k, byStart.Sorts (orders k)) {m : Nat} (hm : 0 < m)
    (hall : (rows.ofSession sessionId).length ≤ m * limit) :
    (pages orders limit (rows.ofSession sessionId) m).Perm (rows.ofSession sessionId) ∧
      ∀ t ∈ (pages orders limit (rows.ofSession sessionId) m).head?,
        ∀ t' ∈ pages orders limit (rows.ofSession sessionId) m, t.2.startedAt ≤ t'.2.startedAt := by
  have hperm := (Comparison.pages_perm_iff nodup_ofSession hlimit).mpr hclean orders ho m hall
  refine ⟨hperm, fun t ht t' ht' => ?_⟩
  obtain ⟨hsort, hsorted⟩ := ho 0 (rows.ofSession sessionId)
  obtain ⟨n, rfl⟩ := Nat.exists_eq_succ_of_ne_zero hm.ne'
  cases hfirst : orders 0 (rows.ofSession sessionId) with
  | nil =>
    rw [hfirst] at hsort
    cases (hsort.symm.subset (hperm.subset ht'))
  | cons a rest =>
    -- the first page starts with the first of the sort it is cut from
    have hhead : (pages orders limit (rows.ofSession sessionId) (n + 1)).head? = some a := by
      obtain ⟨k, rfl⟩ := Nat.exists_eq_succ_of_ne_zero hlimit.ne'
      rw [pages, List.range_succ_eq_map, List.flatMap_cons, page, Nat.zero_mul, List.drop_zero,
        hfirst, List.take_succ_cons, List.cons_append, List.head?_cons]
    obtain rfl : a = t := by simpa [hhead] using ht
    rw [hfirst] at hsort hsorted
    rcases List.mem_cons.mp (hsort.symm.subset (hperm.subset ht')) with rfl | hrest
    · exact le_refl _
    · exact of_decide_eq_true ((List.pairwise_cons.mp hsorted).1 t' hrest)

/-! ## The row of the session in the list -/

/-- A row of the session list, from the traces of the session that the filters keep. -/
theorem mem_listSessions (hstats : rows.spanStatsSubquery pg = some stats) {f : SessionFilters}
    {order : List (SessionListing D) → List (SessionListing D)} (horder : ∀ l, (order l).Perm l)
    {limit offset : Nat} {listed : List (SessionListing D) × Nat}
    (h : rows.listSessions pg f order limit offset = some listed) {a : SessionListing D}
    (ha : a ∈ listed.1) :
    ∃ cost, pg.sumDouble ((((rows.ofSession a.sessionId).filter fun t => f.keeps pg t.2).filterMap
        fun t => stats.lookup t.1).map SpanStats.totalCost) = some cost ∧
      let own := (rows.ofSession a.sessionId).filter fun t => f.keeps pg t.2
      let joined := own.filterMap fun t => stats.lookup t.1
      a = ⟨a.sessionId, own.length, own.any fun t => t.2.status = .error,
        ⟨(joined.map SpanStats.spanCount).sum, (joined.map SpanStats.totalTokens).sum, cost⟩⟩ := by
  rw [listSessions, hstats, Option.bind_some] at h
  obtain ⟨all, hall, rfl⟩ := Option.map_eq_some_iff.mp h
  have hmem := (horder _).subset (List.mem_of_mem_drop (List.mem_of_mem_take ha))
  obtain ⟨s, -, hs⟩ := (mem_mapM hall).mp (List.mem_filter.mp hmem).1
  obtain rfl := (sessionListing_fields hs).1
  obtain ⟨cost, hcost, heq⟩ := Option.map_eq_some_iff.mp hs
  rw [List.filter_comm] at hcost heq
  exact ⟨cost, hcost, heq.symm⟩

/-- **The row of a session in the list is its summary**, as far as the filters keep its traces. -/
theorem listed_iff_kept (hstats : rows.spanStatsSubquery pg = some stats)
    {summary : SessionSummary D}
    (hsummary : rows.getSessionSummary pg first sessionId = some (some summary))
    {f : SessionFilters} {order' : List (SessionListing D) → List (SessionListing D)}
    (horder : ∀ l, (order' l).Perm l) {limit offset : Nat} {listed : List (SessionListing D) × Nat}
    (h : rows.listSessions pg f order' limit offset = some listed) {a : SessionListing D}
    (ha : a ∈ listed.1) (hid : a.sessionId = sessionId) :
    a.traceCount ≤ summary.traceCount ∧ (a.hasError → summary.hasError) ∧
      (a.traceCount = summary.traceCount ↔ ∀ t ∈ rows.ofSession sessionId, f.keeps pg t.2) ∧
      ((∀ t ∈ rows.ofSession sessionId, f.keeps pg t.2) →
        a.hasError = summary.hasError ∧ a.stats = summary.stats) := by
  obtain ⟨cost, hcost, heq⟩ := mem_listSessions hstats horder h ha
  subst hid
  rw [getSessionSummary, hstats, Option.bind_some] at hsummary
  dsimp only at hsummary
  split at hsummary
  · cases hsummary
  · obtain ⟨total, htotal, hsum⟩ := Option.map_eq_some_iff.mp hsummary
    cases hsum
    generalize rows.ofSession a.sessionId = own at hcost heq htotal ⊢
    rw [heq]
    refine ⟨List.length_filter_le _ _, fun herror => ?_, List.length_filter_eq_length_iff,
      fun hkept => ?_⟩
    · obtain ⟨t, ht, hbad⟩ := List.any_eq_true.mp herror
      exact List.any_eq_true.mpr ⟨t, (List.mem_filter.mp ht).1, hbad⟩
    · rw [List.filter_eq_self.mpr hkept] at hcost ⊢
      rw [hcost] at htotal
      cases htotal
      exact ⟨rfl, rfl⟩

/-- **The page of a session adds up.**  A session is not found if and only if it has no traces,
where the statistics of the project's spans are defined; elsewhere the route has no answer.
The pages, where none ends between traces that started together, are its traces, each once, and
the summary on any of them describes these.  Its row in a session list counts no more traces than
the summary, counts as many if and only if the filters keep them all, and then is the same. -/
theorem session_page_adds_up (rows : ProjectRows db projectId) (pg : Postgres D)
    (sessionId : String) :
    (∀ first order limit offset, rows.getSession pg first order sessionId limit offset = some none ↔
      (rows.spanStatsSubquery pg).isSome ∧ rows.ofSession sessionId = []) ∧
    (∀ limit, 0 < limit → byStart.CleanBreaks limit (rows.ofSession sessionId) →
      ∀ firsts orders : Nat → List (UUID × TraceRow) → List (UUID × TraceRow),
      (∀ k, byStart.Sorts (firsts k)) → (∀ k, byStart.Sorts (orders k)) →
      ∀ m, (rows.ofSession sessionId).length ≤ m * limit →
      ∀ answers : Nat → SessionSummary D × List (TraceDetail D), (∀ k < m,
        rows.getSession pg (firsts k) (orders k) sessionId limit (k * limit) =
          some (some (answers k))) →
        let traces := (List.range m).flatMap fun k => (answers k).2
        (traces.map TraceDetail.traceId).Perm ((rows.ofSession sessionId).map Prod.fst) ∧
          ∀ k < m, (answers k).1.Describes pg traces) ∧
    ∀ first order limit offset summary traces,
      rows.getSession pg first order sessionId limit offset = some (some (summary, traces)) →
      ∀ f order' limit' offset' listed, (∀ l, (order' l).Perm l) →
        rows.listSessions pg f order' limit' offset' = some listed →
        ∀ a ∈ listed.1, a.sessionId = sessionId →
          a.traceCount ≤ summary.traceCount ∧ (a.hasError → summary.hasError) ∧
          (a.traceCount = summary.traceCount ↔ ∀ t ∈ rows.ofSession sessionId, f.keeps pg t.2) ∧
          ((∀ t ∈ rows.ofSession sessionId, f.keeps pg t.2) →
            a.hasError = summary.hasError ∧ a.stats = summary.stats) := by
  refine ⟨fun first order limit offset => ?_, fun limit hlimit hclean firsts orders hfirsts horders
    m hm answers hanswers => ?_, fun first order limit offset summary traces hshown f order' limit'
    offset' listed horder hlisted a ha hid => ?_⟩
  · cases hstats : rows.spanStatsSubquery pg with
    | none => simp [getSession, getSessionSummary, hstats]
    | some stats =>
      have hnone : rows.getSessionSummary pg first sessionId = some none ↔ _ :=
        getSessionSummary_eq_none hstats
      rw [← hnone, getSession]
      cases rows.getSessionSummary pg first sessionId with
      | none => simp
      | some summary =>
        cases summary with
        | none => simp
        | some summary => simp [getSessionTraces_eq hstats]
  · cases hstats : rows.spanStatsSubquery pg with
    | none =>
      -- then there is no answer, hence no page
      rcases Nat.eq_zero_or_pos m with rfl | hpos
      · rw [Nat.zero_mul, Nat.le_zero, List.length_eq_zero_iff] at hm
        rw [hm]
        exact ⟨List.Perm.refl _, fun k hk => absurd hk (Nat.not_lt_zero k)⟩
      · obtain ⟨stats, hsome, -⟩ := getSession_eq_some (hanswers 0 hpos)
        rw [hstats] at hsome
        cases hsome
    | some stats =>
      have hpage : ∀ k < m, rows.getSessionSummary pg (firsts k) sessionId =
          some (some (answers k).1) ∧ (answers k).2 = (page (orders k) limit (k * limit)
            (rows.ofSession sessionId)).map (detailOf rows pg stats) := by
        intro k hk
        obtain ⟨stats', hstats', hsummary, hshown⟩ := getSession_eq_some (hanswers k hk)
        rw [hstats] at hstats'
        cases hstats'
        exact ⟨hsummary, hshown⟩
      have htraces : (List.range m).flatMap (fun k => (answers k).2) =
          (pages orders limit (rows.ofSession sessionId) m).map (detailOf rows pg stats) := by
        rw [pages, List.map_flatMap]
        exact List.flatMap_congr fun k hk => (hpage k (List.mem_range.mp hk)).2
      dsimp only
      rw [htraces, List.map_map]
      refine ⟨?_, fun k hk => ?_⟩
      · have hpages := (Comparison.pages_perm_iff nodup_ofSession hlimit).mpr hclean
        exact (hpages orders horders m hm).map _
      · obtain ⟨hperm, hhead⟩ := pages_ofSession hlimit hclean horders (Nat.zero_lt_of_lt hk) hm
        exact describes hstats (hpage k hk).1 (hfirsts k) hperm hhead
  · obtain ⟨stats, hstats, hsummary, -⟩ := getSession_eq_some hshown
    exact listed_iff_kept hstats hsummary horder hlisted ha hid

/-- A sort by the start that evaluates. -/
def startSort (l : List (UUID × TraceRow)) : List (UUID × TraceRow) :=
  l.insertionSort fun a b => byStart.le a b

theorem sorts_startSort : byStart.Sorts startSort := by
  have htotal : Std.Total fun a b : UUID × TraceRow => byStart.le a b = true :=
    ⟨fun a b => by simpa using byStart.total a b⟩
  have htrans : IsTrans (UUID × TraceRow) fun a b => byStart.le a b = true := ⟨byStart.trans⟩
  exact fun l => ⟨List.perm_insertionSort _ l, List.pairwise_insertionSort _ l⟩

/-- The spans of two traces: one of `t` that costs 3, and two of `u`, the first for free. -/
def threeSpans : List (UUID × SpanRow) :=
  [("x", usageSpanRow smallUsage),
    ("y", { usageSpanRow smallUsage with traceId := "u", cost := none }),
    ("z", { usageSpanRow smallUsage with
      traceId := "u", tokenUsage := none, cost := some (.obj [("total", .num 4 0)]) })]

theorem nodup_threeTraces : (threeTraces.map Prod.fst).Nodup := by decide

theorem nodup_threeSpans : (threeSpans.map Prod.fst).Nodup := by decide

/-- The spans are of the traces. -/
theorem trace_of_threeSpans {i : UUID} {row : SpanRow} (h : threeSpans.lookup i = some row) :
    ∃ t, threeTraces.lookup row.traceId = some t ∧ t.projectId = "A" := by
  rcases (lookup_eq_some_iff_mem nodup_threeSpans).mp h with _ | ⟨_, _ | ⟨_, _ | ⟨_, hrow⟩⟩⟩
  · exact ⟨_, rfl, rfl⟩
  · exact ⟨_, rfl, rfl⟩
  · exact ⟨_, rfl, rfl⟩
  · cases hrow

/-- The rows of project `A` with these traces and spans. -/
def threeSpansRows : ProjectRows ⟨fun i => threeTraces.lookup i, fun i => threeSpans.lookup i,
    fun _ _ h => let ⟨_, ht, _⟩ := trace_of_threeSpans h; Option.isSome_of_eq_some ht⟩ "A" where
  traces := threeTraces
  spans := threeSpans
  traces_nodup := nodup_threeTraces
  spans_nodup := nodup_threeSpans
  mem_traces i row := by
    rw [lookup_eq_some_iff_mem nodup_threeTraces]
    exact ⟨fun hmem => ⟨hmem, (show ∀ t ∈ threeTraces, t.2.projectId = "A" by decide) _ hmem⟩,
      And.left⟩
  mem_spans i row := by
    rw [← lookup_eq_some_iff_mem nodup_threeSpans]
    exact ⟨fun h => ⟨h, trace_of_threeSpans h⟩, And.left⟩

/-- The two traces of session `s` started at different times. -/
theorem cleanBreaks_threeSpans : byStart.CleanBreaks 1 (threeSpansRows.ofSession "s") := by
  intro k
  rcases k with _ | _ | k
  · decide
  · decide
  · refine fun r _ => .inr ?_
    have hlength : (threeSpansRows.ofSession "s").length = 2 := rfl
    have hupTo : byStart.upTo (threeSpansRows.ofSession "s") r ≤ _ := List.countP_le_length
    omega

theorem statsOf_eq {spans : List SpanRow} {tokens : List Int} {cost : D}
    (htokens : List.Forall₂ (fun s n => pg.spanTokens s = some n) spans tokens)
    (hcost : pg.CostsSumTo spans cost) :
    pg.statsOf spans = some ⟨spans.length, tokens.sum, cost⟩ := by
  rw [Postgres.statsOf, mapM_eq_some_iff.mpr htokens, Option.bind_some,
    Postgres.sumCosts_eq_some_iff.mpr hcost, Option.map_some]

/-- Tokens and costs of the two traces. -/
theorem spanStats_threeSpans : threeSpansRows.spanStatsSubquery wholePg =
    some [("t", ⟨1, 30, 3⟩), ("u", ⟨2, 30, 4⟩)] := by
  have hpg := lawful_wholePg
  have hused : ∀ t c, wholePg.spanTokens
      { usageSpanRow smallUsage with traceId := t, cost := c } = some 30 := fun t c =>
    (Postgres.spanTokens_eq_some_iff hpg).mpr
      ⟨⟨10, 20, rfl, rfl, by decide, by decide, by decide⟩, rfl⟩
  have hread : ∀ n, wholePg.double (Json.numText n 0) = some n := Int.toInt?_repr
  have ht : wholePg.statsOf (threeSpansRows.spansOf "t") = some ⟨1, 30, 3⟩ :=
    statsOf_eq (.cons (hused "t" _) .nil) ⟨[3], .cons (.text rfl rfl (hread 3)) .nil, .nil 3⟩
  have htokens : List.Forall₂ (fun s n => wholePg.spanTokens s = some n)
      (threeSpansRows.spansOf "u") [30, 0] := .cons (hused "u" none) (.cons rfl .nil)
  have hcost : wholePg.CostsSumTo (threeSpansRows.spansOf "u") 4 :=
    ⟨[0, 4], .cons (.missing rfl) (.cons (.text rfl rfl (hread 4)) .nil), .cons rfl (.nil 4)⟩
  have hu : wholePg.statsOf (threeSpansRows.spansOf "u") = some ⟨2, 30, 4⟩ :=
    statsOf_eq htokens hcost
  refine mapM_eq_some_iff.mpr ?_
  change List.Forall₂ _ ["t", "u"] _
  exact .cons (by rw [ht]; rfl) (.cons (by rw [hu]; rfl) .nil)

/-- Two pages with a trace each, and on both the summary that describes the two. -/
theorem session_page_adds_up_two_traces :
    ∃ answers : Nat → SessionSummary Int × List (TraceDetail Int),
      (∀ k < 2, threeSpansRows.getSession wholePg startSort startSort "s" 1 (k * 1) =
        some (some (answers k))) ∧
      ((answers 0).2.map TraceDetail.traceId, (answers 1).2.map TraceDetail.traceId) =
        (["t"], ["u"]) ∧
      (∀ k < 2, (answers k).1.Describes wholePg ((answers 0).2 ++ (answers 1).2)) ∧
      (answers 0).1.stats = ⟨3, 60, 7⟩ := by
  obtain ⟨answer₀, h₀, hids₀, hstats⟩ : ∃ answer,
      threeSpansRows.getSession wholePg startSort startSort "s" 1 0 = some (some answer) ∧
        answer.2.map TraceDetail.traceId = ["t"] ∧ answer.1.stats = ⟨3, 60, 7⟩ := by
    rw [getSession, getSessionSummary, spanStats_threeSpans, Option.bind_some]
    simp only [getSessionTraces_eq spanStats_threeSpans]
    exact ⟨_, rfl, rfl, rfl⟩
  obtain ⟨answer₁, h₁, hids₁⟩ : ∃ answer,
      threeSpansRows.getSession wholePg startSort startSort "s" 1 1 = some (some answer) ∧
        answer.2.map TraceDetail.traceId = ["u"] := by
    rw [getSession, getSessionSummary, spanStats_threeSpans, Option.bind_some]
    simp only [getSessionTraces_eq spanStats_threeSpans]
    exact ⟨_, rfl, rfl⟩
  let answers : Nat → SessionSummary Int × List (TraceDetail Int) :=
    fun k => if k = 0 then answer₀ else answer₁
  have hanswers : ∀ k < 2, threeSpansRows.getSession wholePg startSort startSort "s" 1 (k * 1) =
      some (some (answers k)) := by
    intro k hk
    interval_cases k
    · exact h₀
    · exact h₁
  obtain ⟨-, hpages, -⟩ := session_page_adds_up threeSpansRows wholePg "s"
  obtain ⟨-, hdescribes⟩ := hpages 1 (by decide) cleanBreaks_threeSpans (fun _ => startSort)
    (fun _ => startSort) (fun _ => sorts_startSort) (fun _ => sorts_startSort) 2 (by decide) answers
    hanswers
  refine ⟨answers, hanswers, by simp [answers, hids₀, hids₁], fun k hk => ?_, hstats⟩
  simpa [List.range_succ] using hdescribes k hk

end ProjectRows
end PandaProbe
