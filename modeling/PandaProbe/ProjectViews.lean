import PandaProbe.Fallible
import PandaProbe.TokenStats
import PandaProbe.TraceIsolation

/-! # When a project's views are there

A span is accepted with any JSON object as its `token_usage`.  It counts if each of its two
fields is missing, `null`, or has the text of a 32-bit integer, and the two add up to one
(`SpanFits`).  A stored cost counts if its total is missing, `null` or has the text of a double
(`CostReads`), and a list of doubles adds up if no running sum overflows (`SumsTo`).
`views_ok_iff`: the statistics of a project are defined, its trace list, its session list and
its analytics return, and the totals are the sums of the fields, if and only if every span of
the project fits and the costs of every trace, session and bucket count and add up.
`one_span_breaks` has an accepted span that takes the views of its whole project down.
-/
namespace PandaProbe
open Fallible

namespace Postgres
variable {D : Type} (pg : Postgres D)

/-! ## What a span counts -/

/-- The integer a field of the usage is: 0 if it is missing or `null`, a whole number as it
stands, and anything else what its text is a literal of. -/
def denoted (s : SpanRow) (key : String) : Option Int :=
  match jsonField s.tokenUsage key with
  | none => some 0
  | some .null => some 0
  | some (.num n 0) => some n
  | some v => (pg.astext v).bind pg.literal

/-- `prompt_tokens` plus `completion_tokens`. -/
def counted (s : SpanRow) : Int :=
  (pg.denoted s "prompt_tokens").getD 0 + (pg.denoted s "completion_tokens").getD 0

/-- **The condition on a span**: both fields are 32-bit integers and so is their sum. -/
def SpanFits (s : SpanRow) : Prop :=
  ∃ p c, pg.denoted s "prompt_tokens" = some p ∧ pg.denoted s "completion_tokens" = some c ∧
    InInt4 p ∧ InInt4 c ∧ InInt4 (p + c)

/-- What the stored total of a span is read as: 0 if it is missing or `null`, and anything else
as the double its text is. -/
inductive CostReads (s : SpanRow) : D → Prop
  | missing (h : jsonField s.cost "total" = none) : CostReads s pg.zero
  | null (h : jsonField s.cost "total" = some .null) : CostReads s pg.zero
  | text {v : Json} {t : String} {d : D} (h : jsonField s.cost "total" = some v)
      (ht : pg.astext v = some t) (hd : pg.double t = some d) : CostReads s d

/-- Doubles added to a first one, each time without overflow. -/
inductive AddsTo : D → List D → D → Prop
  | nil (x : D) : AddsTo x [] x
  | cons {x y z total : D} {l : List D} (h : pg.add x y = some z) (hl : AddsTo z l total) :
      AddsTo x (y :: l) total

/-- What a list of doubles adds up to, 0 if it is empty. -/
def SumsTo : List D → D → Prop
  | [], total => total = pg.zero
  | x :: l, total => pg.AddsTo x l total

/-- **The condition on the costs of a group of spans**: each is read, and they add up. -/
def CostsSumTo (spans : List SpanRow) (total : D) : Prop :=
  ∃ costs, List.Forall₂ pg.CostReads spans costs ∧ pg.SumsTo costs total

variable {pg} {s : SpanRow} {spans : List SpanRow}

theorem tokenField_eq (hpg : pg.Lawful) (s : SpanRow) (key : String) :
    pg.tokenField s key = (pg.denoted s key).filter (fun n => InInt4 n) := by
  have hzero : InInt4 0 := by decide
  unfold tokenField fieldText denoted
  cases jsonField s.tokenUsage key with
  | none => simp [Option.filter, hzero]
  | some v =>
    cases v with
    | null => simp [astext, Option.filter, hzero]
    | num n scale =>
      cases scale with
      | zero => simp only [Option.bind_some, astext, Json.numText, if_true, castInteger, hpg.decimal n]
      | succ k => simp [astext, castInteger]
    | bool b => simp [astext, castInteger]
    | str t => simp [astext, castInteger]
    | arr l => simp [astext, castInteger]
    | obj l => simp [astext, castInteger]

/-- **What a span adds to `total_tokens`**: its fields, if it fits. -/
theorem spanTokens_eq_some_iff (hpg : pg.Lawful) {n : Int} :
    pg.spanTokens s = some n ↔ pg.SpanFits s ∧ n = pg.counted s := by
  unfold spanTokens addInt4 SpanFits counted
  rw [tokenField_eq hpg, tokenField_eq hpg]
  constructor
  · intro h
    obtain ⟨p, hp, h⟩ := Option.bind_eq_some_iff.mp h
    obtain ⟨c, hc, h⟩ := Option.bind_eq_some_iff.mp h
    obtain ⟨hp, hpr⟩ := Option.filter_eq_some_iff.mp hp
    obtain ⟨hc, hcr⟩ := Option.filter_eq_some_iff.mp hc
    split at h
    next hr =>
      rw [hp, hc]
      exact ⟨⟨p, c, rfl, rfl, of_decide_eq_true hpr, of_decide_eq_true hcr, hr⟩,
        (Option.some.inj h).symm⟩
    · cases h
  · rintro ⟨⟨p, c, hp, hc, hpr, hcr, hr⟩, rfl⟩
    simp [hp, hc, Option.filter, hpr, hcr, hr]

theorem isSome_spanTokens_iff (hpg : pg.Lawful) : (pg.spanTokens s).isSome ↔ pg.SpanFits s := by
  rw [Option.isSome_iff_exists]
  constructor
  · rintro ⟨n, hn⟩
    exact ((spanTokens_eq_some_iff hpg).mp hn).1
  · intro h
    exact ⟨pg.counted s, (spanTokens_eq_some_iff hpg).mpr ⟨h, rfl⟩⟩

theorem SpanFits.tokenField (hpg : pg.Lawful) (h : pg.SpanFits s) :
    (pg.tokenField s "prompt_tokens").isSome ∧ (pg.tokenField s "completion_tokens").isSome := by
  obtain ⟨p, c, hp, hc, hpr, hcr, -⟩ := h
  rw [tokenField_eq hpg, tokenField_eq hpg, hp, hc]
  simp [Option.filter, hpr, hcr]

/-- The token column of spans that fit. -/
theorem mapM_spanTokens (hpg : pg.Lawful) {tokens : List Int}
    (h : spans.mapM pg.spanTokens = some tokens) : tokens = spans.map pg.counted := by
  have hall := mapM_eq_some_iff.mp h
  clear h
  induction hall with
  | nil => rfl
  | cons hab _ ih =>
    rw [ih, List.map_cons, ((spanTokens_eq_some_iff hpg).mp hab).2]

/-- **What a span adds to `total_cost`.** -/
theorem spanCost_eq_some_iff {d : D} : pg.spanCost s = some d ↔ pg.CostReads s d := by
  unfold spanCost fieldText
  constructor
  · intro h
    cases hv : jsonField s.cost "total" with
    | none =>
      rw [hv, Option.bind_none] at h
      exact Option.some.inj h ▸ .missing hv
    | some v =>
      rw [hv, Option.bind_some] at h
      cases ht : pg.astext v with
      | none =>
        -- only `null` has no text
        rw [ht] at h
        cases v with
        | null => exact Option.some.inj h ▸ .null hv
        | _ => cases ht
      | some t =>
        rw [ht] at h
        exact .text hv ht h
  · intro h
    cases h with
    | missing hv => rw [hv, Option.bind_none]
    | null hv => rw [hv, Option.bind_some]; rfl
    | text hv ht hd => rw [hv, Option.bind_some, ht]; exact hd

theorem addsTo_iff {x total : D} {l : List D} :
    pg.AddsTo x l total ↔ l.foldlM pg.add x = some total := by
  constructor
  · intro h
    induction h with
    | nil x => rfl
    | cons h _ ih => rw [List.foldlM_cons, h]; exact ih
  · intro h
    induction l generalizing x with
    | nil => exact Option.some.inj h ▸ .nil x
    | cons y l ih =>
      rw [List.foldlM_cons] at h
      obtain ⟨z, hz, h⟩ := Option.bind_eq_some_iff.mp h
      exact .cons hz (ih h)

/-- **What a list of doubles is summed to.** -/
theorem sumDouble_eq_some_iff {l : List D} {total : D} :
    pg.sumDouble l = some total ↔ pg.SumsTo l total := by
  cases l with
  | nil => exact ⟨fun h => (Option.some.inj h).symm, fun h => congrArg some h.symm⟩
  | cons x l => exact addsTo_iff.symm

/-- **What the costs of a group are summed to.** -/
theorem sumCosts_eq_some_iff {total : D} :
    pg.sumCosts spans = some total ↔ pg.CostsSumTo spans total := by
  unfold sumCosts CostsSumTo
  simp only [Option.bind_eq_some_iff, mapM_eq_some_iff, spanCost_eq_some_iff,
    sumDouble_eq_some_iff]

theorem isSome_sumCosts_iff :
    (pg.sumCosts spans).isSome ↔ ∃ total, pg.CostsSumTo spans total := by
  rw [Option.isSome_iff_exists]
  exact exists_congr fun _ => sumCosts_eq_some_iff

/-- **The statistics of a group** are defined if and only if its spans fit and its costs add
up, and then they count its spans. -/
theorem isSome_statsOf_iff (hpg : pg.Lawful) :
    (pg.statsOf spans).isSome ↔
      (∀ s ∈ spans, pg.SpanFits s) ∧ ∃ total, pg.CostsSumTo spans total := by
  have htokens : (spans.mapM pg.spanTokens).isSome ↔ ∀ s ∈ spans, pg.SpanFits s := by
    rw [isSome_mapM_iff]
    exact forall₂_congr fun s _ => isSome_spanTokens_iff hpg
  rw [← htokens, ← isSome_sumCosts_iff]
  unfold statsOf
  cases spans.mapM pg.spanTokens with
  | none => simp
  | some tokens => simp

theorem totalTokens_statsOf (hpg : pg.Lawful) {st : SpanStats D} (h : pg.statsOf spans = some st) :
    st.totalTokens = (spans.map pg.counted).sum ∧ pg.sumCosts spans = some st.totalCost := by
  obtain ⟨tokens, htokens, h⟩ := Option.bind_eq_some_iff.mp h
  obtain ⟨cost, hcost, rfl⟩ := Option.map_eq_some_iff.mp h
  exact ⟨by rw [mapM_spanTokens hpg htokens], hcost⟩

end Postgres

namespace ProjectRows
variable {D : Type} (pg : Postgres D) {db : TraceDb} {projectId : UUID}
  (rows : ProjectRows db projectId)

/-! ## The property and the condition -/

/-- **The views of a project are there.**  The statistics of every trace are defined and
count its spans; the trace list returns and shows them; the session list and the analytics
return. -/
structure ViewsOk : Prop where
  stats : ∀ t ∈ rows.traces, ∃ st, pg.statsOf (rows.spansOf t.1) = some st ∧
    st.totalTokens = ((rows.spansOf t.1).map pg.counted).sum
  listTraces : ∀ f order limit offset, (∀ l, (order l).Perm l) →
    ∃ page, rows.listTraces pg f order limit offset = some page ∧
      ∀ r ∈ page.1, r.stats.totalTokens = ((rows.spansOf r.traceId).map pg.counted).sum
  listSessions : ∀ f order limit offset, (rows.listSessions pg f order limit offset).isSome
  analytics : ∀ g startedAfter startedBefore,
    (rows.getTokenCostAnalytics pg g startedAfter startedBefore).isSome

/-- Every span of the project fits. -/
def TokensFit : Prop := ∀ s ∈ rows.spans, pg.SpanFits s.2

/-- The traces of a session that the filters keep and that have spans. -/
def costedTraces (f : SessionFilters) (sessionId : String) : List (UUID × TraceRow) :=
  ((rows.traces.filter (fun t => f.keeps pg t.2)).filter
    (fun t => t.2.sessionId = some sessionId)).filter (fun t => rows.spansOf t.1 ≠ [])

/-- What the costs of a session add up to: one sum for each trace, and the sum of these. -/
def SessionSumsTo (f : SessionFilters) (sessionId : String) (total : D) : Prop :=
  ∃ costs, List.Forall₂ (fun t cost => pg.CostsSumTo (rows.spansOf t.1) cost)
    (rows.costedTraces pg f sessionId) costs ∧ pg.SumsTo costs total

/-- The costs of the traces of a session that the filters keep. -/
def sessionCosts (f : SessionFilters) (sessionId : String) : List D :=
  ((rows.traces.filter (fun t => f.keeps pg t.2)).filter
    (fun t => t.2.sessionId = some sessionId)).filterMap fun t =>
      if rows.spansOf t.1 = [] then none else pg.sumCosts (rows.spansOf t.1)

/-- The stored costs are read and add up: over the spans of a trace, over the traces of a
session that some filters keep, and over the spans of a bucket. -/
structure CostsFit : Prop where
  trace : ∀ t ∈ rows.traces, ∃ total, pg.CostsSumTo (rows.spansOf t.1) total
  session : ∀ f sessionId, ∃ total, rows.SessionSumsTo pg f sessionId total
  bucket : ∀ g startedAfter startedBefore b,
    ∃ total, pg.CostsSumTo (rows.bucketSpans pg g startedAfter startedBefore b) total

variable {pg rows}

theorem mem_spansOf {i : UUID} {s : SpanRow} :
    s ∈ rows.spansOf i ↔ (∃ k, (k, s) ∈ rows.spans) ∧ s.traceId = i := by
  simp [spansOf]

/-- A span's trace is a trace of the project. -/
theorem trace_mem {k : UUID} {s : SpanRow} (hs : (k, s) ∈ rows.spans) :
    ∃ row, (s.traceId, row) ∈ rows.traces := by
  obtain ⟨-, t, ht, hproject⟩ := (rows.mem_spans k s).mp hs
  exact ⟨t, (rows.mem_traces s.traceId t).mpr ⟨ht, hproject⟩⟩

/-- A span of the project is in the group of its trace. -/
theorem span_mem {k : UUID} {s : SpanRow} (hs : (k, s) ∈ rows.spans) :
    s ∈ rows.spansOf s.traceId :=
  mem_spansOf.mpr ⟨⟨k, hs⟩, rfl⟩

theorem mem_groups {i : UUID} :
    i ∈ (rows.spans.map (fun s => s.2.traceId)).dedup ↔ rows.spansOf i ≠ [] := by
  rw [List.mem_dedup, List.mem_map]
  constructor
  · rintro ⟨⟨k, s⟩, hs, rfl⟩
    exact List.ne_nil_of_mem (span_mem hs)
  · intro hne
    obtain ⟨s, hs⟩ := List.exists_mem_of_ne_nil _ hne
    obtain ⟨⟨k, hk⟩, rfl⟩ := mem_spansOf.mp hs
    exact ⟨(k, s), hk, rfl⟩

/-! ## The subquery -/

theorem isSome_spanStats_iff (hpg : pg.Lawful) :
    (rows.spanStatsSubquery pg).isSome ↔
      rows.TokensFit pg ∧ ∀ t ∈ rows.traces, ∃ total, pg.CostsSumTo (rows.spansOf t.1) total := by
  unfold spanStatsSubquery
  rw [isSome_mapM_iff]
  simp only [Option.isSome_map, mem_groups, Postgres.isSome_statsOf_iff hpg]
  constructor
  · intro h
    refine ⟨fun ⟨k, s⟩ hs => ?_, fun ⟨i, row⟩ _ => ?_⟩
    · have hmem := span_mem hs
      exact (h s.traceId (List.ne_nil_of_mem hmem)).1 s hmem
    -- a trace without spans has no row in the subquery, and nothing to add up
    · by_cases hnil : rows.spansOf i = []
      · rw [hnil]
        exact ⟨pg.zero, [], .nil, rfl⟩
      · exact (h i hnil).2
  · rintro ⟨htokens, hcosts⟩ i hne
    obtain ⟨s, hs⟩ := List.exists_mem_of_ne_nil _ hne
    obtain ⟨⟨k, hk⟩, rfl⟩ := mem_spansOf.mp hs
    obtain ⟨row, hrow⟩ := trace_mem hk
    refine ⟨fun s' hs' => ?_, hcosts _ hrow⟩
    obtain ⟨⟨k', hk'⟩, -⟩ := mem_spansOf.mp hs'
    exact htokens (k', s') hk'

/-- The row of a trace in the subquery. -/
theorem lookup_spanStats {stats : List (UUID × SpanStats D)}
    (h : rows.spanStatsSubquery pg = some stats) (i : UUID) :
    stats.lookup i = if rows.spansOf i = [] then none else pg.statsOf (rows.spansOf i) := by
  rw [lookup_mapM h i]
  by_cases hnil : rows.spansOf i = []
  · rw [if_neg fun hi => mem_groups.mp hi hnil, if_pos hnil]
  · rw [if_pos (mem_groups.mpr hnil), if_neg hnil]

/-- **What the subquery counts for a trace.** -/
theorem joined_totalTokens (hpg : pg.Lawful) {stats : List (UUID × SpanStats D)}
    (h : rows.spanStatsSubquery pg = some stats) (i : UUID) :
    (joined pg stats i).totalTokens = ((rows.spansOf i).map pg.counted).sum := by
  unfold joined
  rw [lookup_spanStats h i]
  by_cases hnil : rows.spansOf i = []
  · simp [hnil]
  · rw [if_neg hnil]
    have hsome : (pg.statsOf (rows.spansOf i)).isSome := by
      have hall := isSome_mapM_iff.mp (Option.isSome_of_eq_some h) i (mem_groups.mpr hnil)
      simpa using hall
    obtain ⟨st, hst⟩ := Option.isSome_iff_exists.mp hsome
    rw [hst]
    exact (Postgres.totalTokens_statsOf hpg hst).1

/-! ## The views -/

theorem listTraces_ok (hpg : pg.Lawful) (hstats : (rows.spanStatsSubquery pg).isSome)
    (f : TraceFilters) {order : List (TraceListing D) → List (TraceListing D)}
    (limit offset : Nat) (horder : ∀ l, (order l).Perm l) :
    ∃ page, rows.listTraces pg f order limit offset = some page ∧
      ∀ r ∈ page.1, r.stats.totalTokens = ((rows.spansOf r.traceId).map pg.counted).sum := by
  obtain ⟨stats, hst⟩ := Option.isSome_iff_exists.mp hstats
  unfold listTraces
  rw [hst]
  refine ⟨_, rfl, fun r hr => ?_⟩
  have hr := (horder _).subset (List.mem_of_mem_drop (List.mem_of_mem_take hr))
  obtain ⟨t, -, rfl⟩ := List.mem_map.mp hr
  exact joined_totalTokens hpg hst t.1

/-- The costs a session sums are those of its traces. -/
theorem map_totalCost (hpg : pg.Lawful) {stats : List (UUID × SpanStats D)}
    (h : rows.spanStatsSubquery pg = some stats) (f : SessionFilters) (sessionId : String) :
    ((((rows.traces.filter (fun t => f.keeps pg t.2)).filter
      (fun t => t.2.sessionId = some sessionId)).filterMap
        (fun t => stats.lookup t.1)).map SpanStats.totalCost) =
      rows.sessionCosts pg f sessionId := by
  unfold sessionCosts
  rw [List.map_filterMap]
  refine List.filterMap_congr fun t _ => ?_
  rw [lookup_spanStats h]
  by_cases hnil : rows.spansOf t.1 = []
  · simp [hnil]
  · rw [if_neg hnil, if_neg hnil]
    have hall := isSome_mapM_iff.mp (Option.isSome_of_eq_some h) t.1 (mem_groups.mpr hnil)
    obtain ⟨st, hst⟩ := Option.isSome_iff_exists.mp (by simpa using hall :
      (pg.statsOf (rows.spansOf t.1)).isSome)
    rw [hst, (Postgres.totalTokens_statsOf hpg hst).2]
    rfl

/-- What a session sums is what the costs of its traces add up to. -/
theorem sessionSumsTo_iff
    (hcosts : ∀ t ∈ rows.traces, ∃ total, pg.CostsSumTo (rows.spansOf t.1) total)
    {f : SessionFilters} {sessionId : String} {total : D} :
    rows.SessionSumsTo pg f sessionId total ↔
      pg.sumDouble (rows.sessionCosts pg f sessionId) = some total := by
  have hmapM : (rows.costedTraces pg f sessionId).mapM (fun t => pg.sumCosts (rows.spansOf t.1)) =
      some (rows.sessionCosts pg f sessionId) := by
    unfold costedTraces sessionCosts
    refine mapM_filter fun t ht => Postgres.isSome_sumCosts_iff.mpr (hcosts t ?_)
    exact (List.mem_filter.mp (List.mem_filter.mp ht).1).1
  unfold SessionSumsTo
  simp only [← Postgres.sumCosts_eq_some_iff, ← Postgres.sumDouble_eq_some_iff]
  simp only [← mapM_eq_some_iff, hmapM, Option.some_inj]
  exact ⟨fun ⟨costs, he, h⟩ => he ▸ h, fun h => ⟨_, rfl, h⟩⟩

/-- The session list is there if and only if the costs of each session add up. -/
theorem isSome_listSessions_iff (hpg : pg.Lawful) (hstats : (rows.spanStatsSubquery pg).isSome)
    (f : SessionFilters) (order : List (SessionListing D) → List (SessionListing D))
    (limit offset : Nat) :
    (rows.listSessions pg f order limit offset).isSome ↔
      ∀ sessionId, ∃ total, rows.SessionSumsTo pg f sessionId total := by
  have hcosts := ((isSome_spanStats_iff hpg).mp hstats).2
  obtain ⟨stats, hst⟩ := Option.isSome_iff_exists.mp hstats
  simp only [sessionSumsTo_iff hcosts, ← Option.isSome_iff_exists]
  unfold listSessions
  rw [hst, Option.bind_some, Option.isSome_map, isSome_mapM_iff]
  constructor
  · intro h sessionId
    by_cases hmem : sessionId ∈ ((rows.traces.filter (fun t => f.keeps pg t.2)).filterMap
        (fun t => t.2.sessionId)).dedup
    · have hone := h sessionId hmem
      rw [sessionListing, Option.isSome_map, map_totalCost hpg hst] at hone
      exact hone
    · -- a session without traces has no costs to add
      have hnil : rows.sessionCosts pg f sessionId = [] := by
        unfold sessionCosts
        rw [List.filterMap_eq_nil_iff]
        intro t ht
        obtain ⟨ht, hs⟩ := List.mem_filter.mp ht
        refine absurd (List.mem_dedup.mpr (List.mem_filterMap.mpr ⟨t, ht, ?_⟩)) hmem
        simpa using hs
      rw [hnil]
      rfl
  · intro h sessionId _
    rw [sessionListing, Option.isSome_map, map_totalCost hpg hst]
    exact h sessionId

theorem isSome_bucketOf_iff (hpg : pg.Lawful) {spans : List SpanRow}
    (hfit : ∀ s ∈ spans, pg.SpanFits s) (b : DateTime) :
    (bucketOf pg spans b).isSome ↔ (pg.sumCosts spans).isSome := by
  have htokens : (spans.mapM pg.spanTokens).isSome :=
    isSome_mapM_iff.mpr fun s hs => (Postgres.isSome_spanTokens_iff hpg).mpr (hfit s hs)
  have hprompt : (spans.mapM (pg.tokenField · "prompt_tokens")).isSome :=
    isSome_mapM_iff.mpr fun s hs => ((hfit s hs).tokenField hpg).1
  have hcompletion : (spans.mapM (pg.tokenField · "completion_tokens")).isSome :=
    isSome_mapM_iff.mpr fun s hs => ((hfit s hs).tokenField hpg).2
  obtain ⟨tokens, htokens⟩ := Option.isSome_iff_exists.mp htokens
  obtain ⟨prompt, hprompt⟩ := Option.isSome_iff_exists.mp hprompt
  obtain ⟨completion, hcompletion⟩ := Option.isSome_iff_exists.mp hcompletion
  unfold bucketOf
  rw [htokens, Option.bind_some, hprompt, Option.bind_some, hcompletion, Option.bind_some,
    Option.isSome_map]

/-- The analytics are there if and only if the costs of each bucket add up. -/
theorem isSome_analytics_iff (hpg : pg.Lawful) (hfit : rows.TokensFit pg)
    (g : AnalyticsGranularity) (startedAfter startedBefore : DateTime) :
    (rows.getTokenCostAnalytics pg g startedAfter startedBefore).isSome ↔
      ∀ b, ∃ total, pg.CostsSumTo (rows.bucketSpans pg g startedAfter startedBefore b) total := by
  simp only [← Postgres.isSome_sumCosts_iff]
  -- the tokens of every span fit, so a bucket can only fail on its costs
  have hbucket : ∀ b, (bucketOf pg (rows.bucketSpans pg g startedAfter startedBefore b) b).isSome ↔
      (pg.sumCosts (rows.bucketSpans pg g startedAfter startedBefore b)).isSome := by
    intro b
    refine isSome_bucketOf_iff hpg (fun s hs => ?_) b
    obtain ⟨⟨k, s'⟩, hk, rfl⟩ := List.mem_map.mp (List.mem_filter.mp hs).1
    exact hfit (k, s') hk
  unfold getTokenCostAnalytics
  rw [isSome_mapM_iff]
  constructor
  · intro h b
    by_cases hnil : rows.bucketSpans pg g startedAfter startedBefore b = []
    · rw [hnil]
      rfl
    · refine (hbucket b).mp (h b ?_)
      obtain ⟨s, hs⟩ := List.exists_mem_of_ne_nil _ hnil
      obtain ⟨hs, hcond⟩ := List.mem_filter.mp hs
      simp only [decide_eq_true_eq] at hcond
      rw [List.mem_insertionSort, List.mem_dedup, List.mem_map]
      exact ⟨s, List.mem_filter.mpr ⟨hs, by simpa using ⟨hcond.1, hcond.2.1⟩⟩, hcond.2.2⟩
  · intro h b _
    exact (hbucket b).mpr (h b)

/-- **Exactly when a project's views are there.**  The statistics are defined, the lists and
the analytics return and the totals are sums of the fields if and only if every span fits
and the costs of every trace, session and bucket are read and add up. -/
theorem views_ok_iff {D : Type} {pg : Postgres D} (hpg : pg.Lawful) {db : TraceDb}
    {projectId : UUID} (rows : ProjectRows db projectId) :
    rows.ViewsOk pg ↔ rows.TokensFit pg ∧ rows.CostsFit pg := by
  constructor
  · intro h
    -- the statistics of each trace already force both conditions on its spans
    have hgroup : ∀ t ∈ rows.traces, (∀ s ∈ rows.spansOf t.1, pg.SpanFits s) ∧
        ∃ total, pg.CostsSumTo (rows.spansOf t.1) total := by
      intro t ht
      obtain ⟨st, hst, -⟩ := h.stats t ht
      exact (Postgres.isSome_statsOf_iff hpg).mp (Option.isSome_of_eq_some hst)
    have hfit : rows.TokensFit pg := by
      rintro ⟨k, s⟩ hs
      obtain ⟨row, hrow⟩ := trace_mem hs
      exact (hgroup _ hrow).1 s (span_mem hs)
    have hcosts : ∀ t ∈ rows.traces, ∃ total, pg.CostsSumTo (rows.spansOf t.1) total :=
      fun t ht => (hgroup t ht).2
    have hstats := (isSome_spanStats_iff hpg).mpr ⟨hfit, hcosts⟩
    refine ⟨hfit, hcosts, fun f => ?_, fun g startedAfter startedBefore => ?_⟩
    · exact (isSome_listSessions_iff hpg hstats f id 0 0).mp (h.listSessions f id 0 0)
    · exact (isSome_analytics_iff hpg hfit g _ _).mp (h.analytics g startedAfter startedBefore)
  · rintro ⟨hfit, hcosts⟩
    have hstats := (isSome_spanStats_iff hpg).mpr ⟨hfit, hcosts.trace⟩
    refine ⟨fun t ht => ?_, fun f order limit offset horder => ?_,
      fun f order limit offset => ?_, fun g startedAfter startedBefore => ?_⟩
    · have hsome : (pg.statsOf (rows.spansOf t.1)).isSome := by
        refine (Postgres.isSome_statsOf_iff hpg).mpr ⟨fun s hs => ?_, hcosts.trace t ht⟩
        obtain ⟨⟨k, hk⟩, -⟩ := mem_spansOf.mp hs
        exact hfit (k, s) hk
      obtain ⟨st, hst⟩ := Option.isSome_iff_exists.mp hsome
      exact ⟨st, hst, (Postgres.totalTokens_statsOf hpg hst).1⟩
    · exact listTraces_ok hpg hstats f limit offset horder
    · exact (isSome_listSessions_iff hpg hstats f order limit offset).mpr (hcosts.session f)
    · exact (isSome_analytics_iff hpg hfit g _ _).mpr (hcosts.bucket g startedAfter startedBefore)

/-! ## One span and its project -/

section OneSpan
open TraceDb

/-- What a span has cost. -/
def smallCost : Json := .obj [("total", .num 3 0)]

/-- A trace with one span that has that usage. -/
def usageTrace (usage : Json) : Trace :=
  namedTrace "t" "a" [{ namedSpan "s" "a" with tokenUsage := usage, cost := smallCost }]

/-- Project `A` has posted it, and nothing else. -/
def oneSpanDb (usage : Json) : TraceDb :=
  TraceDb.empty.apply "A" (.upsertTrace 0 (usageTrace usage))

/-- The stored trace. -/
def usageTraceRow (usage : Json) : TraceRow := { (usageTrace usage).row 0 with projectId := "A" }

/-- The stored span. -/
def usageSpanRow (usage : Json) : SpanRow :=
  { (namedSpan "s" "a").row with
    traceId := "t"
    tokenUsage := some usage
    cost := some smallCost }

/-- The rows of project `A`. -/
def oneSpanRows (usage : Json) : ProjectRows (oneSpanDb usage) "A" where
  traces := [("t", usageTraceRow usage)]
  spans := [("s", usageSpanRow usage)]
  traces_nodup := List.nodup_singleton _
  spans_nodup := List.nodup_singleton _
  mem_traces := by
    intro i row
    have htraces : (oneSpanDb usage).traces =
      Function.update (fun _ => none) "t" (some (usageTraceRow usage)) := rfl
    rw [htraces, List.mem_singleton, Prod.mk.injEq]
    by_cases hi : i = "t"
    · subst hi
      rw [Function.update_self]
      constructor
      · rintro ⟨-, rfl⟩
        exact ⟨rfl, rfl⟩
      · rintro ⟨hrow, -⟩
        exact ⟨rfl, (Option.some.inj hrow).symm⟩
    · rw [Function.update_of_ne hi]
      exact ⟨fun h => absurd h.1 hi, fun h => absurd h.1 nofun⟩
  mem_spans := by
    intro i row
    have hspans : (oneSpanDb usage).spans =
      Function.update (fun _ => none) "s" (some (usageSpanRow usage)) := rfl
    rw [hspans, List.mem_singleton, Prod.mk.injEq]
    by_cases hi : i = "s"
    · subst hi
      rw [Function.update_self]
      constructor
      · rintro ⟨-, rfl⟩
        exact ⟨rfl, usageTraceRow usage, rfl, rfl⟩
      · rintro ⟨hrow, -⟩
        exact ⟨rfl, (Option.some.inj hrow).symm⟩
    · rw [Function.update_of_ne hi]
      exact ⟨fun h => absurd h.1 hi, fun h => absurd h.1 nofun⟩

/-- A Postgres with whole numbers for doubles. -/
def wholePg : Postgres Int where
  literal := String.toInt?
  render := fun _ => ""
  double := String.toInt?
  zero := 0
  add := fun a b => some (a + b)
  contains := fun s q => decide (1 < (s.toLower.splitOn q.toLower).length)
  dateTrunc := fun g t =>
    match g with
    | .hour => t - t % DateTime.hours 1
    | .day => t - t % DateTime.days 1
    -- weeks start on Monday, and the epoch was a Thursday
    | .week => t - (t + DateTime.days 3) % DateTime.days 7

theorem lawful_wholePg : wholePg.Lawful := ⟨Int.toInt?_repr⟩

/-- Whole numbers always add up. -/
theorem sumsTo_wholePg (l : List Int) : ∃ total, wholePg.SumsTo l total := by
  have hadds : ∀ (l : List Int) (x : Int), ∃ total, wholePg.AddsTo x l total := by
    intro l
    induction l with
    | nil => exact fun x => ⟨x, .nil x⟩
    | cons y l ih =>
      intro x
      obtain ⟨total, htotal⟩ := ih (x + y)
      exact ⟨total, .cons rfl htotal⟩
  cases l with
  | nil => exact ⟨0, rfl⟩
  | cons x l => exact hadds l x

/-- The span of project `A` costs 3. -/
theorem costsSumTo_oneSpan {usage : Json} {spans : List SpanRow}
    (h : ∀ s ∈ spans, s = usageSpanRow usage) : ∃ total, wholePg.CostsSumTo spans total := by
  obtain ⟨total, htotal⟩ := sumsTo_wholePg (spans.map fun _ => 3)
  refine ⟨total, _, ?_, htotal⟩
  rw [List.forall₂_map_right_iff, List.forall₂_same]
  intro s hs
  rw [h s hs]
  exact .text rfl rfl (Int.toInt?_repr 3)

theorem costsFit_oneSpan (usage : Json) : (oneSpanRows usage).CostsFit wholePg := by
  have hspans : ∀ s ∈ (oneSpanRows usage).spans.map Prod.snd, s = usageSpanRow usage :=
    fun s hs => List.mem_singleton.mp hs
  have htrace : ∀ i, ∃ total, wholePg.CostsSumTo ((oneSpanRows usage).spansOf i) total :=
    fun i => costsSumTo_oneSpan fun s hs => hspans s (List.mem_filter.mp hs).1
  refine ⟨fun t _ => htrace t.1, fun f sessionId => ?_, fun g a b c => ?_⟩
  · choose cost hcost using htrace
    obtain ⟨total, htotal⟩ :=
      sumsTo_wholePg (((oneSpanRows usage).costedTraces wholePg f sessionId).map fun t => cost t.1)
    refine ⟨total, _, ?_, htotal⟩
    rw [List.forall₂_map_right_iff, List.forall₂_same]
    exact fun t _ => hcost t.1
  · exact costsSumTo_oneSpan fun s hs => hspans s (List.mem_filter.mp hs).1

/-- The usage of the field's own description. -/
def smallUsage : Json := .obj [("prompt_tokens", .num 10 0), ("completion_tokens", .num 20 0)]

/-- Two counts that are 32-bit integers, and whose sum is not. -/
def largeUsage : Json :=
  .obj [("prompt_tokens", .num 2147483647 0), ("completion_tokens", .num 1 0)]

/-- The views of a project with one ordinary span, which has a cost, are there. -/
theorem views_ok_small : (oneSpanRows smallUsage).ViewsOk wholePg := by
  refine (views_ok_iff lawful_wholePg _).mpr ⟨fun s hs => ?_, costsFit_oneSpan smallUsage⟩
  obtain rfl := List.mem_singleton.mp hs
  exact ⟨10, 20, rfl, rfl, by decide, by decide, by decide⟩

theorem not_fits_large : ¬ wholePg.SpanFits (usageSpanRow largeUsage) := by
  rintro ⟨p, c, hp, hc, -, -, hsum⟩
  obtain rfl := Option.some.inj hp
  obtain rfl := Option.some.inj hc
  exact absurd hsum (by decide)

/-- **One accepted span takes its project down.**  The statistics of its trace are not
defined, and neither the trace list, the session list nor the analytics return. -/
theorem one_span_breaks : ¬ (oneSpanRows largeUsage).ViewsOk wholePg ∧
    wholePg.statsOf ((oneSpanRows largeUsage).spansOf "t") = none ∧
    (oneSpanRows largeUsage).listTraces wholePg ⟨none, none, none, [], none, none, none⟩ id 50 0 =
      none ∧
    (oneSpanRows largeUsage).listSessions wholePg ⟨none, none, none, none, [], none⟩ id 50 0 =
      none ∧
    (oneSpanRows largeUsage).getTokenCostAnalytics wholePg .day 0 1 = none := by
  have hspan : ("s", usageSpanRow largeUsage) ∈ (oneSpanRows largeUsage).spans :=
    List.mem_singleton.mpr rfl
  have hstats : wholePg.statsOf ((oneSpanRows largeUsage).spansOf "t") = none := by
    rw [← Option.not_isSome_iff_eq_none, Postgres.isSome_statsOf_iff lawful_wholePg]
    exact fun h => not_fits_large (h.1 _ (span_mem hspan))
  have hsubquery : (oneSpanRows largeUsage).spanStatsSubquery wholePg = none := by
    rw [← Option.not_isSome_iff_eq_none, isSome_spanStats_iff lawful_wholePg]
    exact fun h => not_fits_large (h.1 _ hspan)
  refine ⟨fun h => ?_, hstats, ?_, ?_, ?_⟩
  · obtain ⟨st, hst, -⟩ := h.stats ("t", usageTraceRow largeUsage) (List.mem_singleton.mpr rfl)
    rw [hstats] at hst
    cases hst
  · rw [listTraces, hsubquery]
    rfl
  · rw [listSessions, hsubquery]
    rfl
  · rw [← Option.not_isSome_iff_eq_none, getTokenCostAnalytics, isSome_mapM_iff]
    intro h
    obtain ⟨bucket, hbucket⟩ := Option.isSome_iff_exists.mp (h 0 (by decide))
    obtain ⟨tokens, htokens, -⟩ := Option.bind_eq_some_iff.mp hbucket
    have hall := isSome_mapM_iff.mp (Option.isSome_of_eq_some htokens) (usageSpanRow largeUsage)
      (List.mem_singleton.mpr rfl)
    exact not_fits_large ((Postgres.isSome_spanTokens_iff lawful_wholePg).mp hall)

end OneSpan

end ProjectRows
end PandaProbe
