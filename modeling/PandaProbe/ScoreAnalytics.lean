import PandaProbe.Pagination
import PandaProbe.ScoreHistograms
import PandaProbe.TraceAnalytics

/-! # Summaries and trends of scores

`get_score_summary` has a line for each metric of a window, `get_score_trend` a point for each
bucket of one metric; both exist a second time for session scores.  They cast the stored values
of numeric scores that succeeded, as the histograms do, and fail where a cast fails.

`score_views_agree`: a summary is there if and only if every trend is; its counts are totals of
the score list, for session scores of theirs; the points of a trend count the scores that the
histogram counts; and the average of a summary is that of its trend, point by point weighted with
the counts, unless a score that succeeded has no value: a point counts it, an average does not.

The aggregates are over exact arithmetic here; Postgres adds and divides doubles, which rounds and
can overflow.
-/
namespace PandaProbe
open Aggregation Percentiles Fallible

/-- The columns of a score, of a trace or of a session, that the analytics read. -/
structure ScoreColumns where
  projectId : UUID
  name : String
  dataType : ScoreDataType
  status : ScoreStatus
  value : Option String
  createdAt : DateTime

def TraceScore.columns (s : TraceScore) : ScoreColumns :=
  ⟨s.projectId, s.name, s.dataType, s.status, s.value, s.createdAt⟩

def SessionScore.columns (s : SessionScore) : ScoreColumns :=
  ⟨s.projectId, s.name, s.dataType, s.status, s.value, s.createdAt⟩

/-- A line of a summary. -/
structure ScoreSummaryItem where
  metricName : String
  avgScore : Option ℚ
  minScore : Option ℚ
  maxScore : Option ℚ
  medianScore : Option ℚ
  successCount : Nat
  failedCount : Nat
  latestScoreAt : Option DateTime

/-- A point of a trend. -/
structure ScoreTrendPoint where
  bucket : DateTime
  metricName : String
  avgScore : ℚ
  count : Nat

namespace ScoreColumns
variable {F D : Type} (d : Doubles F) (pg : Postgres D)

/-- `is_numeric_success`. -/
def isNumericSuccess (s : ScoreColumns) : Bool := s.dataType = .numeric && s.status = .success

/-- The values an aggregate is over, `none` where a cast raises: a `NULL` is not among them. -/
def castValues (rows : List ScoreColumns) : Option (List ℚ) :=
  (rows.filterMap value).mapM fun t => (d.cast t).map d.toRat

/-- The `WHERE` of a summary. -/
def inWindow (projectId : UUID) (dateFrom dateTo : Option DateTime) (s : ScoreColumns) : Bool :=
  s.projectId = projectId && dateFrom.all (· ≤ s.createdAt) && dateTo.all (s.createdAt < ·)

/-- The aggregates of a summary on the scores of one metric, over exact arithmetic. -/
def summaryItem (metricName : String) (rows : List ScoreColumns) : Option ScoreSummaryItem :=
  (castValues d (rows.filter isNumericSuccess)).map fun values =>
    { metricName := metricName
      avgScore := average values
      minScore := values.min?
      maxScore := values.max?
      medianScore := percentileCont 0.5 values
      successCount := rows.countP fun s => s.status = .success
      failedCount := rows.countP fun s => s.status = .failed
      latestScoreAt := (rows.map createdAt).max? }

/-- The query of `get_score_summary` and of `get_session_score_summary`. -/
def scoreSummary (projectId : UUID) (dateFrom dateTo : Option DateTime)
    (rows : List ScoreColumns) : Option (List ScoreSummaryItem) :=
  let kept := rows.filter (inWindow projectId dateFrom dateTo)
  ((kept.map name).dedup).mapM fun n => summaryItem d n (group name kept n)

/-- The rows of a trend. -/
def counted (q : DistributionQuery) (rows : List ScoreColumns) : List ScoreColumns :=
  rows.filter fun s => q.counts s.projectId s.name s.dataType s.status s.createdAt

/-- The aggregates of a trend on the scores of one bucket, over exact arithmetic. -/
def trendPoint (metricName : String) (bucket : DateTime) (rows : List ScoreColumns) :
    Option ScoreTrendPoint :=
  (castValues d rows).map fun values => ⟨bucket, metricName, (average values).getD 0, rows.length⟩

/-- `date_trunc(granularity, created_at)`. -/
def trendBucket (g : AnalyticsGranularity) (s : ScoreColumns) : DateTime :=
  pg.dateTrunc g s.createdAt

/-- The query of `get_score_trend` and of `get_session_score_trend`. -/
def scoreTrend (q : DistributionQuery) (g : AnalyticsGranularity) (rows : List ScoreColumns) :
    Option (List ScoreTrendPoint) :=
  (keys (trendBucket pg g) (counted q rows)).mapM fun b =>
    trendPoint d q.metricName b (group (trendBucket pg g) (counted q rows) b)

end ScoreColumns

namespace EvalDb
variable {F D : Type} (db : EvalDb F) (d : Doubles F) (pg : Postgres D)

/-- `get_score_summary`. -/
def getScoreSummary (projectId : UUID) (dateFrom dateTo : Option DateTime) :
    Option (List ScoreSummaryItem) :=
  ScoreColumns.scoreSummary d projectId dateFrom dateTo (db.scores.map TraceScore.columns)

/-- `get_session_score_summary`. -/
def getSessionScoreSummary (projectId : UUID) (dateFrom dateTo : Option DateTime) :
    Option (List ScoreSummaryItem) :=
  ScoreColumns.scoreSummary d projectId dateFrom dateTo (db.sessionScores.map SessionScore.columns)

/-- `get_score_trend`. -/
def getScoreTrend (q : DistributionQuery) (g : AnalyticsGranularity) :
    Option (List ScoreTrendPoint) :=
  ScoreColumns.scoreTrend d pg q g (db.scores.map TraceScore.columns)

/-- `get_session_score_trend`. -/
def getSessionScoreTrend (q : DistributionQuery) (g : AnalyticsGranularity) :
    Option (List ScoreTrendPoint) :=
  ScoreColumns.scoreTrend d pg q g (db.sessionScores.map SessionScore.columns)

end EvalDb

/-- The filters of `list_session_scores`. -/
structure SessionScoreFilters where
  name : Option String
  sessionId : Option String
  source : Option ScoreSource
  status : Option ScoreStatus
  evalRunId : Option UUID
  dateFrom : Option DateTime
  dateTo : Option DateTime

/-- The `WHERE` of `list_session_scores`. -/
def SessionScoreFilters.keeps (f : SessionScoreFilters) (projectId : UUID) (s : SessionScore) :
    Bool :=
  s.projectId = projectId &&
  f.name.all (fun n => s.name = n) &&
  f.sessionId.all (fun i => s.sessionId = i) &&
  f.source.all (fun x => s.source = x) &&
  f.status.all (fun x => s.status = x) &&
  f.evalRunId.all (fun i => s.evalRunId = some i) &&
  f.dateFrom.all (fun t => t ≤ s.createdAt) &&
  f.dateTo.all (fun t => s.createdAt < t)

/-- `list_session_scores`: a page and the number of rows. -/
def EvalDb.listSessionScores {F : Type} (db : EvalDb F) (projectId : UUID)
    (f : SessionScoreFilters) (order : List SessionScore → List SessionScore)
    (limit offset : Nat) : List SessionScore × Nat :=
  let matching := db.sessionScores.filter (f.keeps projectId)
  (Paging.page order limit offset matching, matching.length)

/-! ## What the views are to say -/

/-- The smallest value, the average, the median and the largest value of a metric are all there or
all missing, and in their order. -/
def ScoreSummaryItem.Ordered (item : ScoreSummaryItem) : Prop :=
  (item.avgScore = none ∧ item.minScore = none ∧ item.maxScore = none ∧ item.medianScore = none) ∨
  ∃ low average median high, item.minScore = some low ∧ item.avgScore = some average ∧
    item.medianScore = some median ∧ item.maxScore = some high ∧
    low ≤ average ∧ average ≤ high ∧ low ≤ median ∧ median ≤ high

/-- **A line of a summary tells what a trend of its metric tells.** -/
structure ScoreSummaryItem.Tells (item : ScoreSummaryItem) (rows : List ScoreColumns)
    (points : List ScoreTrendPoint) : Prop where
  ascending : (points.map ScoreTrendPoint.bucket).Pairwise (· < ·)
  counts : ∀ p ∈ points, 0 < p.count
  counted : (points.map ScoreTrendPoint.count).sum = rows.length
  succeeded : rows.length ≤ item.successCount
  weighted : (∀ s ∈ rows, s.value ≠ none) →
    (points.map fun p => p.avgScore * (p.count : ℚ)).sum = item.avgScore.getD 0 * (rows.length : ℚ)
  between : (∀ s ∈ rows, s.value ≠ none) → ∀ p ∈ points, ∃ low high,
    item.minScore = some low ∧ item.maxScore = some high ∧ low ≤ p.avgScore ∧ p.avgScore ≤ high

namespace ScoreColumns
variable {F D : Type} {d : Doubles F} {pg : Postgres D} {rows : List ScoreColumns}
  {projectId : UUID} {dateFrom dateTo : Option DateTime} {q : DistributionQuery}
  {g : AnalyticsGranularity}

/-! ## The values -/

/-- The number that a stored text is. -/
def number (d : Doubles F) (t : String) : ℚ := ((d.cast t).map d.toRat).getD 0

/-- The numbers of some scores. -/
def numbers (d : Doubles F) (rows : List ScoreColumns) : List ℚ :=
  (rows.filterMap value).map (number d)

theorem castValues_eq {values : List ℚ} (h : castValues d rows = some values) :
    values = numbers d rows := by
  rw [numbers, ← List.map_id values]
  refine map_mapM h fun t x ht => ?_
  rw [number, ht]
  rfl

theorem isSome_castValues :
    (castValues d rows).isSome ↔ ∀ s ∈ rows, ∀ t, s.value = some t → (d.cast t).isSome := by
  rw [castValues, isSome_mapM_iff]
  simp only [List.mem_filterMap, Option.isSome_map]
  constructor
  · exact fun h s hs t ht => h t ⟨s, hs, ht⟩
  · rintro h t ⟨s, hs, ht⟩
    exact h s hs t ht

/-- A score without a value adds nothing. -/
theorem sum_numbers (rows : List ScoreColumns) :
    (numbers d rows).sum = (rows.map fun s => (s.value.map (number d)).getD 0).sum := by
  induction rows with
  | nil => rfl
  | cons s rows ih =>
    rw [List.map_cons, List.sum_cons, ← ih, numbers, List.filterMap_cons]
    cases s.value with
    | none => simp [numbers]
    | some t => simp [numbers]

theorem length_numbers (h : ∀ s ∈ rows, s.value ≠ none) :
    (numbers d rows).length = rows.length := by
  rw [numbers, List.length_map, List.length_filterMap_eq_countP, List.countP_eq_length]
  exact fun s hs => Option.isSome_iff_ne_none.mpr (h s hs)

theorem numbers_subset {rows' : List ScoreColumns} (h : rows' ⊆ rows) :
    numbers d rows' ⊆ numbers d rows :=
  List.map_subset _ (List.filterMap_subset _ h)

/-- **The rows of a trend** are the numeric scores that succeeded of its metric in the window. -/
theorem counted_eq (q : DistributionQuery) (rows : List ScoreColumns) :
    counted q rows = (group name (rows.filter (inWindow q.projectId q.dateFrom q.dateTo))
      q.metricName).filter isNumericSuccess := by
  rw [counted, group, List.filter_filter, List.filter_filter]
  refine List.filter_congr fun s _ => ?_
  rw [Bool.eq_iff_iff]
  simp only [DistributionQuery.counts, isNumericSuccess, inWindow, Bool.and_eq_true]
  tauto

/-! ## When the views are there -/

theorem isSome_scoreSummary : (scoreSummary d projectId dateFrom dateTo rows).isSome ↔
    ∀ n, (castValues d (counted ⟨projectId, n, dateFrom, dateTo⟩ rows)).isSome := by
  simp only [scoreSummary, isSome_mapM_iff, summaryItem, Option.isSome_map, counted_eq,
    List.mem_dedup]
  refine ⟨fun h n => ?_, fun h n _ => h n⟩
  by_cases hn : n ∈ (rows.filter (inWindow projectId dateFrom dateTo)).map name
  · exact h n hn
  · have hnil : group name (rows.filter (inWindow projectId dateFrom dateTo)) n = [] :=
      List.filter_eq_nil_iff.mpr fun s hs heq =>
        hn (List.mem_map.mpr ⟨s, hs, of_decide_eq_true heq⟩)
    rw [hnil]
    rfl

theorem isSome_scoreTrend :
    (scoreTrend d pg q g rows).isSome ↔ (castValues d (counted q rows)).isSome := by
  simp only [scoreTrend, isSome_mapM_iff, trendPoint, Option.isSome_map, isSome_castValues]
  constructor
  · exact fun h s hs => h _ (mem_keys.mpr ⟨s, hs, rfl⟩) s (mem_group.mpr ⟨hs, rfl⟩)
  · exact fun h b _ s hs => h s (mem_group.mp hs).1

/-! ## What they show -/

/-- A line of a summary. -/
theorem mem_scoreSummary {items : List ScoreSummaryItem}
    (h : scoreSummary d projectId dateFrom dateTo rows = some items) {item : ScoreSummaryItem}
    (hitem : item ∈ items) :
    let own := group name (rows.filter (inWindow projectId dateFrom dateTo)) item.metricName
    let values := numbers d (counted ⟨projectId, item.metricName, dateFrom, dateTo⟩ rows)
    item = ⟨item.metricName, average values, values.min?, values.max?, percentileCont 0.5 values,
      own.countP fun s => s.status = .success, own.countP fun s => s.status = .failed,
      (own.map createdAt).max?⟩ := by
  obtain ⟨n, -, hn⟩ := (mem_mapM h).mp hitem
  obtain ⟨values, hvalues, rfl⟩ := Option.map_eq_some_iff.mp hn
  rw [counted_eq, ← castValues_eq hvalues]

theorem map_metricName {items : List ScoreSummaryItem}
    (h : scoreSummary d projectId dateFrom dateTo rows = some items) :
    items.map ScoreSummaryItem.metricName =
      ((rows.filter (inWindow projectId dateFrom dateTo)).map name).dedup := by
  refine (map_mapM h fun n item hn => ?_).trans (List.map_id _)
  obtain ⟨values, -, rfl⟩ := Option.map_eq_some_iff.mp hn
  rfl

/-- The points of a trend. -/
theorem scoreTrend_eq {points : List ScoreTrendPoint} (h : scoreTrend d pg q g rows = some points) :
    points = (keys (trendBucket pg g) (counted q rows)).map fun b =>
      let own := group (trendBucket pg g) (counted q rows) b
      ⟨b, q.metricName, (average (numbers d own)).getD 0, own.length⟩ := by
  rw [← List.map_id points]
  refine map_mapM h fun b point hb => ?_
  obtain ⟨values, hvalues, rfl⟩ := Option.map_eq_some_iff.mp hb
  rw [castValues_eq hvalues]
  rfl

/-- An average is between two bounds of the values. -/
theorem average_between {values : List ℚ} {a low high : ℚ} (h : average values = some a)
    (hlow : ∀ v ∈ values, low ≤ v) (hhigh : ∀ v ∈ values, v ≤ high) : low ≤ a ∧ a ≤ high := by
  rw [average] at h
  split at h
  · cases h
  next hne =>
    cases h
    have hpos : (0 : ℚ) < values.length := by exact_mod_cast List.length_pos_of_ne_nil hne
    have hbelow := List.card_nsmul_le_sum values low hlow
    have habove := List.sum_le_card_nsmul values high hhigh
    rw [nsmul_eq_mul] at hbelow habove
    rw [le_div_iff₀ hpos, div_le_iff₀ hpos, mul_comm low, mul_comm high]
    exact ⟨hbelow, habove⟩

theorem ordered_of_values {values : List ℚ} {item : ScoreSummaryItem}
    (havg : item.avgScore = average values) (hmin : item.minScore = values.min?)
    (hmax : item.maxScore = values.max?) (hmedian : item.medianScore = percentileCont 0.5 values) :
    item.Ordered := by
  have hhalf : (0 : ℚ) ≤ 0.5 ∧ (0.5 : ℚ) ≤ 1 := by norm_num
  rw [ScoreSummaryItem.Ordered, havg, hmin, hmax, hmedian]
  by_cases hnil : values = []
  · subst hnil
    exact .inl ⟨rfl, rfl, rfl, (percentileCont_eq_none hhalf.1 hhalf.2).mpr rfl⟩
  · obtain ⟨low, hlow⟩ := Option.isSome_iff_exists.mp (List.isSome_min?_of_ne_nil hnil)
    obtain ⟨high, hhigh⟩ := Option.isSome_iff_exists.mp (List.isSome_max?_of_ne_nil hnil)
    obtain ⟨median, hmed⟩ := Option.ne_none_iff_exists'.mp
      (mt (percentileCont_eq_none hhalf.1 hhalf.2).mp hnil)
    have havg : average values = some (values.sum / values.length) := if_neg hnil
    have hle := (List.min?_eq_some_iff.mp hlow).2
    have hge := (List.max?_eq_some_iff.mp hhigh).2
    obtain ⟨⟨v, hv, hvle⟩, w, hw, hwge⟩ := percentileCont_between hhalf.1 hhalf.2 hmed
    obtain ⟨h₁, h₂⟩ := average_between havg hle hge
    exact .inr ⟨low, _, median, high, hlow, havg, hmed, hhigh, h₁, h₂, (hle v hv).trans hvle,
      hwge.trans (hge w hw)⟩

/-- **A summary and a trend of one window tell the same.** -/
theorem tells {items : List ScoreSummaryItem}
    (hitems : scoreSummary d projectId dateFrom dateTo rows = some items) {item : ScoreSummaryItem}
    (hitem : item ∈ items) {points : List ScoreTrendPoint}
    (hpoints : scoreTrend d pg ⟨projectId, item.metricName, dateFrom, dateTo⟩ g rows =
      some points) :
    item.Tells (counted ⟨projectId, item.metricName, dateFrom, dateTo⟩ rows) points := by
  have heq := mem_scoreSummary hitems hitem
  dsimp only at heq
  have hsucceeded : (counted ⟨projectId, item.metricName, dateFrom, dateTo⟩ rows).length ≤
      item.successCount := by
    rw [congrArg ScoreSummaryItem.successCount heq, counted_eq, ← List.countP_eq_length_filter]
    refine List.countP_mono_left fun s _ hs => ?_
    exact (Bool.and_eq_true _ _ ▸ hs).2
  have havg := congrArg ScoreSummaryItem.avgScore heq
  have hmin := congrArg ScoreSummaryItem.minScore heq
  have hmax := congrArg ScoreSummaryItem.maxScore heq
  dsimp only at havg hmin hmax
  rw [scoreTrend_eq hpoints]
  clear hpoints heq
  generalize counted ⟨projectId, item.metricName, dateFrom, dateTo⟩ rows = own at *
  refine ⟨?_, ?_, ?_, hsucceeded, fun hvalues => ?_, fun hvalues => ?_⟩
  · simp only [List.map_map, Function.comp_def, List.map_id']
    exact pairwise_keys
  · refine List.forall_mem_map.mpr fun b hb => ?_
    exact List.length_pos_of_ne_nil (group_ne_nil hb)
  · rw [List.map_map]
    exact sum_length_group (trendBucket pg g)
  · have hsum : ∀ rows : List ScoreColumns, (∀ s ∈ rows, s.value ≠ none) →
        (average (numbers d rows)).getD 0 * (rows.length : ℚ) =
          (rows.map fun s => (s.value.map (number d)).getD 0).sum := by
      intro rows hrows
      rw [← length_numbers (d := d) hrows, ProjectRows.average_mul_length, sum_numbers]
    rw [havg, hsum own hvalues, ← sum_group (trendBucket pg g), List.map_map]
    refine congrArg List.sum (List.map_congr_left fun b _ => ?_)
    exact hsum _ fun s hs => hvalues s (mem_group.mp hs).1
  · refine List.forall_mem_map.mpr fun b hb => ?_
    dsimp only
    have hsub : numbers d (group (trendBucket pg g) own b) ⊆ numbers d own :=
      numbers_subset fun s hs => (mem_group.mp hs).1
    have hne : numbers d (group (trendBucket pg g) own b) ≠ [] := by
      rw [← List.length_pos_iff, length_numbers fun s hs => hvalues s (mem_group.mp hs).1]
      exact List.length_pos_of_ne_nil (group_ne_nil hb)
    have hall : numbers d own ≠ [] := fun hnil => hne (List.subset_nil.mp (hnil ▸ hsub))
    obtain ⟨low, hlow⟩ := Option.isSome_iff_exists.mp (List.isSome_min?_of_ne_nil hall)
    obtain ⟨high, hhigh⟩ := Option.isSome_iff_exists.mp (List.isSome_max?_of_ne_nil hall)
    have havg : average (numbers d (group (trendBucket pg g) own b)) = some _ := if_neg hne
    have hbounds := average_between havg
      (fun v hv => (List.min?_eq_some_iff.mp hlow).2 v (hsub hv))
      fun v hv => (List.max?_eq_some_iff.mp hhigh).2 v (hsub hv)
    rw [havg]
    exact ⟨low, high, hmin.trans hlow, hmax.trans hhigh, hbounds⟩

end ScoreColumns

/-! ## The views of a project -/

/-- **The views of some scores agree**: the summary, the trends and the histograms. -/
structure ViewsAgree (rows : List ScoreColumns) (projectId : UUID)
    (dateFrom dateTo : Option DateTime) (summary : Option (List ScoreSummaryItem))
    (trend : String → AnalyticsGranularity → Option (List ScoreTrendPoint))
    (histogram : String → Nat → Option (List ScoreDistributionItem)) : Prop where
  there : summary.isSome ↔ ∀ n g, (trend n g).isSome
  metrics : ∀ items, summary = some items → (items.map ScoreSummaryItem.metricName).Nodup ∧
    ∀ n, n ∈ items.map ScoreSummaryItem.metricName ↔
      ∃ s ∈ rows, s.inWindow projectId dateFrom dateTo ∧ s.name = n
  tells : ∀ items, summary = some items → ∀ item ∈ items, item.Ordered ∧
    ∀ g points, trend item.metricName g = some points →
      item.Tells (ScoreColumns.counted ⟨projectId, item.metricName, dateFrom, dateTo⟩ rows) points
  histogram : ∀ n g points k bars, trend n g = some points → histogram n k = some bars →
    (bars.map ScoreDistributionItem.count).sum = (points.map ScoreTrendPoint.count).sum

/-- A histogram counts the values it is of. -/
theorem Doubles.sum_histogram {F : Type} {d : Doubles F} {values : List (Option String)} {n : Nat}
    {bars : List ScoreDistributionItem} (h : d.histogram values n = some bars) :
    (bars.map ScoreDistributionItem.count).sum = values.length := by
  obtain ⟨buckets, hbuckets, hbars⟩ := Option.bind_eq_some_iff.mp h
  rw [sum_counts hbars, (mapM_eq_some_iff.mp hbuckets).length_eq]

theorem ScoreColumns.viewsAgree {F D : Type} {d : Doubles F} {pg : Postgres D}
    {rows : List ScoreColumns} {projectId : UUID} {dateFrom dateTo : Option DateTime}
    {histogram : String → Nat → Option (List ScoreDistributionItem)}
    (hhistogram : ∀ n k bars, histogram n k = some bars →
      (bars.map ScoreDistributionItem.count).sum =
        (counted ⟨projectId, n, dateFrom, dateTo⟩ rows).length) :
    ViewsAgree rows projectId dateFrom dateTo (scoreSummary d projectId dateFrom dateTo rows)
      (fun n g => scoreTrend d pg ⟨projectId, n, dateFrom, dateTo⟩ g rows) histogram where
  there := by
    simp only [isSome_scoreSummary, isSome_scoreTrend]
    exact forall_congr' fun n => ⟨fun h _ => h, fun h => h .day⟩
  metrics items hitems := by
    rw [map_metricName hitems]
    refine ⟨List.nodup_dedup _, fun n => ?_⟩
    simp only [List.mem_dedup, List.mem_map, List.mem_filter, and_assoc]
  tells items hitems item hitem := by
    have heq := mem_scoreSummary hitems hitem
    exact ⟨ordered_of_values (congrArg ScoreSummaryItem.avgScore heq)
      (congrArg ScoreSummaryItem.minScore heq) (congrArg ScoreSummaryItem.maxScore heq)
      (congrArg ScoreSummaryItem.medianScore heq),
      fun g points hpoints => tells hitems hitem hpoints⟩
  histogram n g points k bars hpoints hbars := by
    rw [hhistogram n k bars hbars, scoreTrend_eq hpoints, List.map_map]
    exact (sum_length_group (trendBucket pg g)).symm

/-- The filters of the score list for one metric of a window. -/
def ScoreFilters.ofMetric (name : String) (status : ScoreStatus) (dataType : Option ScoreDataType)
    (dateFrom dateTo : Option DateTime) : ScoreFilters :=
  ⟨some name, none, none, some status, dataType, none, none, dateFrom, dateTo⟩

/-- The filters of the session score list for one metric of a window. -/
def SessionScoreFilters.ofMetric (name : String) (status : ScoreStatus)
    (dateFrom dateTo : Option DateTime) : SessionScoreFilters :=
  ⟨some name, none, none, some status, none, dateFrom, dateTo⟩

/-- The total of `list_scores` for a metric, a status and perhaps a data type. -/
theorem ScoreRows.total_listScores (table : ScoreRows) (projectId : UUID) (name : String)
    (status : ScoreStatus) (dataType : Option ScoreDataType) (dateFrom dateTo : Option DateTime) :
    (table.listScores projectId (.ofMetric name status dataType dateFrom dateTo) id 50 0).2 =
      (Aggregation.group ScoreColumns.name ((table.scores.map TraceScore.columns).filter
        (ScoreColumns.inWindow projectId dateFrom dateTo)) name).countP
          fun s => s.status = status && dataType.all (fun x => s.dataType = x) := by
  rw [ScoreRows.listScores, ScoreRows.matching, List.countP_eq_length_filter, group,
    List.filter_filter, List.filter_filter, List.filter_map, List.length_map]
  refine congrArg List.length (List.filter_congr fun s _ => ?_)
  change _ = (((decide (s.status = status) && dataType.all fun x => s.dataType = x) &&
    decide (s.name = name)) && (decide (s.projectId = projectId) &&
      dateFrom.all (· ≤ s.createdAt) && dateTo.all (s.createdAt < ·)))
  rw [Bool.eq_iff_iff]
  simp only [ScoreFilters.keeps, ScoreFilters.ofMetric, Option.all_some, Option.all_none,
    Bool.and_eq_true, Bool.and_true, decide_eq_true_eq]
  tauto

/-- The total of `list_session_scores` for a metric and a status. -/
theorem EvalDb.total_listSessionScores {F : Type} (db : EvalDb F) (projectId : UUID)
    (name : String) (status : ScoreStatus) (dateFrom dateTo : Option DateTime) :
    (db.listSessionScores projectId (.ofMetric name status dateFrom dateTo) id 50 0).2 =
      (Aggregation.group ScoreColumns.name ((db.sessionScores.map SessionScore.columns).filter
        (ScoreColumns.inWindow projectId dateFrom dateTo)) name).countP
          fun s => s.status = status := by
  rw [EvalDb.listSessionScores, List.countP_eq_length_filter, group, List.filter_filter,
    List.filter_filter, List.filter_map, List.length_map]
  refine congrArg List.length (List.filter_congr fun s _ => ?_)
  change _ = ((decide (s.status = status) && decide (s.name = name)) &&
    (decide (s.projectId = projectId) && dateFrom.all (· ≤ s.createdAt) &&
      dateTo.all (s.createdAt < ·)))
  rw [Bool.eq_iff_iff]
  simp only [SessionScoreFilters.keeps, SessionScoreFilters.ofMetric, Option.all_some,
    Option.all_none, Bool.and_eq_true, Bool.and_true, decide_eq_true_eq]
  tauto

/-- The counts of a line, by its scores. -/
theorem ScoreColumns.counts_of_mem {F : Type} {d : Doubles F} {rows : List ScoreColumns}
    {projectId : UUID} {dateFrom dateTo : Option DateTime} {items : List ScoreSummaryItem}
    (h : scoreSummary d projectId dateFrom dateTo rows = some items) {item : ScoreSummaryItem}
    (hitem : item ∈ items) {total : ScoreStatus → Nat}
    (htotal : ∀ status, total status = (Aggregation.group name
      (rows.filter (inWindow projectId dateFrom dateTo)) item.metricName).countP
        fun s => s.status = status) :
    item.successCount = total .success ∧ item.failedCount = total .failed := by
  have heq := mem_scoreSummary h hitem
  rw [htotal, htotal]
  exact ⟨congrArg ScoreSummaryItem.successCount heq, congrArg ScoreSummaryItem.failedCount heq⟩

/-- **The views of the scores agree**, of traces and of sessions, over exact arithmetic.  The
counts of a metric are totals of the score list: of its scores that succeeded, of those that
failed, and of the numeric ones among the former, which a trend counts.  The list of session
scores does not tell the numeric ones apart; a trend counts no more than it has. -/
theorem score_views_agree {F D : Type} (db : EvalDb F) (d : Doubles F) (pg : Postgres D)
    (projectId : UUID) (dateFrom dateTo : Option DateTime) :
    ViewsAgree (db.scores.map TraceScore.columns) projectId dateFrom dateTo
      (db.getScoreSummary d projectId dateFrom dateTo)
      (fun n g => db.getScoreTrend d pg ⟨projectId, n, dateFrom, dateTo⟩ g)
      (fun n k => db.getScoreDistribution d ⟨projectId, n, dateFrom, dateTo⟩ k) ∧
    ViewsAgree (db.sessionScores.map SessionScore.columns) projectId dateFrom dateTo
      (db.getSessionScoreSummary d projectId dateFrom dateTo)
      (fun n g => db.getSessionScoreTrend d pg ⟨projectId, n, dateFrom, dateTo⟩ g)
      (fun n k => db.getSessionScoreDistribution d ⟨projectId, n, dateFrom, dateTo⟩ k) ∧
    (∀ table : ScoreRows, table.scores = db.scores → ∀ items,
      db.getScoreSummary d projectId dateFrom dateTo = some items → ∀ item ∈ items,
      let total (status : ScoreStatus) (dataType : Option ScoreDataType) : Nat :=
        (table.listScores projectId (.ofMetric item.metricName status dataType dateFrom dateTo)
          id 50 0).2
      item.successCount = total .success none ∧ item.failedCount = total .failed none ∧
        ∀ g points,
          db.getScoreTrend d pg ⟨projectId, item.metricName, dateFrom, dateTo⟩ g = some points →
            (points.map ScoreTrendPoint.count).sum = total .success (some .numeric)) ∧
    ∀ items, db.getSessionScoreSummary d projectId dateFrom dateTo = some items → ∀ item ∈ items,
      let total (status : ScoreStatus) : Nat :=
        (db.listSessionScores projectId (.ofMetric item.metricName status dateFrom dateTo) id 50 0).2
      item.successCount = total .success ∧ item.failedCount = total .failed ∧
        ∀ g points,
          db.getSessionScoreTrend d pg ⟨projectId, item.metricName, dateFrom, dateTo⟩ g =
            some points → (points.map ScoreTrendPoint.count).sum ≤ total .success := by
  refine ⟨ScoreColumns.viewsAgree fun n k bars hbars => ?_,
    ScoreColumns.viewsAgree fun n k bars hbars => ?_,
    fun table htable items hitems item hitem => ?_, fun items hitems item hitem => ?_⟩
  · rw [Doubles.sum_histogram hbars, List.length_map, EvalDb.countedScores, ScoreColumns.counted,
      List.filter_map, List.length_map]
    rfl
  · rw [Doubles.sum_histogram hbars, List.length_map, EvalDb.countedSessionScores,
      ScoreColumns.counted, List.filter_map, List.length_map]
    rfl
  · have hcount := table.total_listScores projectId item.metricName
    rw [htable] at hcount
    obtain ⟨hsuccess, hfailed⟩ := ScoreColumns.counts_of_mem hitems hitem fun status => by
      simpa using hcount status none dateFrom dateTo
    refine ⟨hsuccess, hfailed, fun g points hpoints => ?_⟩
    have hcounted := (ScoreColumns.tells hitems hitem hpoints).counted
    dsimp only
    rw [hcounted, hcount, ScoreColumns.counted_eq, ← List.countP_eq_length_filter]
    refine List.countP_congr fun s _ => ?_
    simp [ScoreColumns.isNumericSuccess, and_comm]
  · obtain ⟨hsuccess, hfailed⟩ :=
      ScoreColumns.counts_of_mem hitems hitem fun status => db.total_listSessionScores ..
    refine ⟨hsuccess, hfailed, fun g points hpoints => ?_⟩
    have htells := ScoreColumns.tells hitems hitem hpoints
    dsimp only
    rw [htells.counted, ← hsuccess]
    exact htells.succeeded

/-! ## Two scores on two days -/

/-- The numbers 0 and 1. -/
def bitDoubles : Doubles ℚ where
  toRat := id
  nearest := id
  cast t := if t = "0" then some 0 else if t = "1" then some 1 else none

/-- A score of the metric `m`. -/
def dailyScore (id value : String) (createdAt : DateTime) : TraceScore :=
  ⟨id, "t", "A", "m", .numeric, some value, .automated, .success, none, none, none, none, none,
    fun _ => none, createdAt, createdAt⟩

/-- The first day has a score of 0, the second one of 1. -/
def twoDays : EvalDb ℚ :=
  ⟨[], [dailyScore "i" "0" 0, dailyScore "j" "1" (DateTime.days 1)], [], fun _ => none,
    List.nodup_nil⟩

/-- The summary of the two days counts what their trend counts, with the same average. -/
theorem score_views_agree_two_days : ∃ item points,
    twoDays.getScoreSummary bitDoubles "A" none none = some [item] ∧
    twoDays.getScoreTrend bitDoubles wholePg ⟨"A", "m", none, none⟩ .day = some points ∧
    item.successCount = 2 ∧ (points.map ScoreTrendPoint.count).sum = 2 ∧
    (points.map fun p => p.avgScore * (p.count : ℚ)).sum = item.avgScore.getD 0 * 2 := by
  obtain ⟨item, hitem, hname, hcount⟩ : ∃ item,
      twoDays.getScoreSummary bitDoubles "A" none none = some [item] ∧ item.metricName = "m" ∧
        item.successCount = 2 := ⟨_, rfl, rfl, rfl⟩
  obtain ⟨htraces, -⟩ := score_views_agree twoDays bitDoubles wholePg "A" none none
  have hthere := htraces.there.mp (by rw [hitem]; rfl) "m" .day
  obtain ⟨points, hpoints⟩ := Option.isSome_iff_exists.mp hthere
  obtain ⟨-, htells⟩ := htraces.tells [item] hitem item List.mem_cons_self
  rw [hname] at htells
  have h := htells .day points hpoints
  have hvalues : ∀ s ∈ ScoreColumns.counted ⟨"A", "m", none, none⟩
      (twoDays.scores.map TraceScore.columns), s.value ≠ none := by
    intro s hs hnone
    obtain ⟨x, hx, rfl⟩ := List.mem_map.mp (List.mem_filter.mp hs).1
    simp only [twoDays, List.mem_cons, List.not_mem_nil, or_false] at hx
    rcases hx with rfl | rfl <;> cases hnone
  exact ⟨item, points, hitem, hpoints, hcount, h.counted, h.weighted hvalues⟩

end PandaProbe
