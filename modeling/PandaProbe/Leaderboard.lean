import PandaProbe.DistinctOn
import PandaProbe.ScoreAnalytics

/-! # The leaderboard of sessions

`get_session_score_comparison` ranks the sessions of a project by the newest numeric score of a
metric that succeeded; `get_session_score_history` shows the first scores of one session, the
oldest first.

Each request sorts anew: which of several newest scores of a session is shown, and where equal
rows stand, is open.  The ranking itself leaves nothing open, since a session is in it once.  So
all requests read slices of one leaderboard if and only if newest scores of one session never
differ in what is shown (`leaderboard_of_newest_scores`).  A history takes its first `limit` rows
from the old end: a session with more scores than that has its newest one on the leaderboard and
not in its history.
-/
namespace PandaProbe
open Paging Fallible

/-- The order of a text column.  Two texts that compare equal are the same text. -/
structure TextOrder extends Comparison String where
  antisymm : ∀ s t, le s t → le t s → s = t

/-- What `cast(value, Float)` selects: `NULL` for `NULL`, and nothing where the cast raises. -/
def Doubles.castColumn {F : Type} (d : Doubles F) : Option String → Option (Option ℚ)
  | none => some none
  | some t => (d.cast t).map fun x => some (d.toRat x)

/-- A row of the leaderboard. -/
structure SessionComparisonItem where
  sessionId : String
  score : Option ℚ
  evaluatedAt : DateTime
  evalRunId : Option UUID
  deriving DecidableEq

/-- A row of a session's history. -/
structure SessionScoreHistoryItem where
  metricName : String
  score : Option ℚ
  evalRunId : Option UUID
  createdAt : DateTime
  status : ScoreStatus
  deriving DecidableEq

namespace SessionScore
variable {F : Type} (d : Doubles F)

/-- The `WHERE` of the leaderboard. -/
def isRanked (projectId : UUID) (metricName : String) (s : SessionScore) : Bool :=
  s.projectId = projectId && s.name = metricName && s.dataType = .numeric && s.status = .success

/-- The `WHERE` of a history. -/
def inHistory (projectId : UUID) (sessionId : String) (metricName : Option String)
    (s : SessionScore) : Bool :=
  s.projectId = projectId && s.sessionId = sessionId && s.dataType = .numeric &&
    metricName.all (s.name = ·)

def comparisonItem (s : SessionScore) : Option SessionComparisonItem :=
  (d.castColumn s.value).map fun score => ⟨s.sessionId, score, s.createdAt, s.evalRunId⟩

def historyItem (s : SessionScore) : Option SessionScoreHistoryItem :=
  (d.castColumn s.value).map fun score => ⟨s.name, score, s.evalRunId, s.createdAt, s.status⟩

/-- `ORDER BY created_at`. -/
def oldestFirst : Comparison SessionScore := (Comparison.ofLinearOrder DateTime).on createdAt

end SessionScore

namespace SessionComparisonItem
variable (texts : TextOrder) (sortOrder : String)

def newestFirst : Comparison SessionComparisonItem :=
  (Comparison.ofLinearOrder DateTime).flip.on evaluatedAt

/-- `ORDER BY session_id, created_at DESC`. -/
def latestOrder : Comparison SessionComparisonItem :=
  (texts.toComparison.on sessionId).thenBy newestFirst

/-- `ORDER BY score … NULLS LAST, session_id`, with the direction of `sort_order`. -/
def rankOrder : Comparison SessionComparisonItem :=
  let scores := Comparison.ofLinearOrder ℚ
  ((if sortOrder = "asc" then scores else scores.flip).missingLargest.on score).thenBy
    (texts.toComparison.on sessionId)

end SessionComparisonItem

open SessionComparisonItem (latestOrder rankOrder)

/-- The sorts of one request: the subquery of the count, that of the page, and the ranking. -/
structure ComparisonSorts (texts : TextOrder) (sortOrder : String) where
  count : List SessionComparisonItem → List SessionComparisonItem
  latest : List SessionComparisonItem → List SessionComparisonItem
  rank : List SessionComparisonItem → List SessionComparisonItem
  sorts_latest : (latestOrder texts).Sorts latest
  sorts_count : (latestOrder texts).Sorts count
  sorts_rank : (rankOrder texts sortOrder).Sorts rank

/-- All rows of a page's query: the first one of each session, ranked. -/
def ComparisonSorts.board {texts : TextOrder} {sortOrder : String}
    (sorts : ComparisonSorts texts sortOrder) (rows : List SessionComparisonItem) :
    List SessionComparisonItem :=
  sorts.rank (distinctOn SessionComparisonItem.sessionId (sorts.latest rows))

namespace EvalDb
variable {F : Type} (db : EvalDb F) (d : Doubles F) {texts : TextOrder} {sortOrder : String}

/-- The scores a leaderboard is made of. -/
def rankedScores (projectId : UUID) (metricName : String) : List SessionScore :=
  db.sessionScores.filter (SessionScore.isRanked projectId metricName)

/-- `get_session_score_comparison`: a page and the number of sessions.  Every row is cast before
it is sorted. -/
def getSessionScoreComparison (sorts : ComparisonSorts texts sortOrder) (projectId : UUID)
    (metricName : String) (limit offset : Nat) : Option (List SessionComparisonItem × Nat) :=
  ((db.rankedScores projectId metricName).mapM (SessionScore.comparisonItem d)).map fun rows =>
    let total := (distinctOn SessionComparisonItem.sessionId (sorts.count rows)).length
    (((sorts.board rows).drop offset).take limit, total)

/-- The scores a history is made of. -/
def historyScores (projectId : UUID) (sessionId : String) (metricName : Option String) :
    List SessionScore :=
  db.sessionScores.filter (SessionScore.inHistory projectId sessionId metricName)

/-- `get_session_score_history`. -/
def getSessionScoreHistory (order : List SessionScore → List SessionScore) (projectId : UUID)
    (sessionId : String) (metricName : Option String) (limit : Nat) :
    Option (List SessionScoreHistoryItem) :=
  ((order (db.historyScores projectId sessionId metricName)).take limit).mapM
    (SessionScore.historyItem d)

end EvalDb

/-! ## What a leaderboard is -/

/-- A newest score of its session. -/
def IsNewestScore (scores : List SessionScore) (s : SessionScore) : Prop :=
  s ∈ scores ∧ ∀ t ∈ scores, t.sessionId = s.sessionId → t.createdAt ≤ s.createdAt

/-- **A leaderboard** of some scores: each session once, with a newest score of it, in the order of
the ranking. -/
structure IsLeaderboard {F : Type} (d : Doubles F) (texts : TextOrder) (sortOrder : String)
    (scores : List SessionScore) (board : List SessionComparisonItem) : Prop where
  sessions : (board.map SessionComparisonItem.sessionId).Nodup
  covers : ∀ id, id ∈ board.map SessionComparisonItem.sessionId ↔
    id ∈ scores.map SessionScore.sessionId
  newest : ∀ item ∈ board, ∃ s, IsNewestScore scores s ∧ s.comparisonItem d = some item
  sorted : board.Pairwise fun a b => (rankOrder texts sortOrder).le a b

namespace SessionComparisonItem
variable {texts : TextOrder} {sortOrder : String}

/-- The ranking tells any two sessions apart. -/
theorem rankOrder_antisymm {a b : SessionComparisonItem} (hab : (rankOrder texts sortOrder).le a b)
    (hba : (rankOrder texts sortOrder).le b a) : a.sessionId = b.sessionId := by
  have hle := Comparison.le_of_thenBy hab ((Bool.and_eq_true _ _).mp hba).1
  have hge := Comparison.le_of_thenBy hba ((Bool.and_eq_true _ _).mp hab).1
  exact texts.antisymm _ _ hle hge

end SessionComparisonItem

/-! ## The rows of a request -/

section Rows
variable {F : Type} {d : Doubles F} {scores : List SessionScore}
  {rows : List SessionComparisonItem}

theorem comparisonItem_fields {s : SessionScore} {item : SessionComparisonItem}
    (h : s.comparisonItem d = some item) :
    item.sessionId = s.sessionId ∧ item.evaluatedAt = s.createdAt := by
  obtain ⟨score, -, rfl⟩ := Option.map_eq_some_iff.mp h
  exact ⟨rfl, rfl⟩

theorem map_sessionId (h : scores.mapM (SessionScore.comparisonItem d) = some rows) :
    rows.map SessionComparisonItem.sessionId = scores.map SessionScore.sessionId :=
  map_mapM h fun _ _ hs => (comparisonItem_fields hs).1

theorem mem_rows (h : scores.mapM (SessionScore.comparisonItem d) = some rows)
    {item : SessionComparisonItem} :
    item ∈ rows ↔ ∃ s ∈ scores, s.comparisonItem d = some item :=
  mem_mapM h

/-- The first rows of a session are its newest scores. -/
theorem isFirst_iff (h : scores.mapM (SessionScore.comparisonItem d) = some rows)
    {item : SessionComparisonItem} :
    IsFirst SessionComparisonItem.newestFirst SessionComparisonItem.sessionId rows item ↔
      ∃ s, IsNewestScore scores s ∧ s.comparisonItem d = some item := by
  have hle : ∀ a b : SessionComparisonItem,
      SessionComparisonItem.newestFirst.le a b ↔ b.evaluatedAt ≤ a.evaluatedAt :=
    fun _ _ => decide_eq_true_iff
  simp only [IsFirst, hle]
  constructor
  · rintro ⟨hmem, hfirst⟩
    obtain ⟨s, hs, hitem⟩ := (mem_rows h).mp hmem
    obtain ⟨hid, hat⟩ := comparisonItem_fields hitem
    refine ⟨s, ⟨hs, fun t ht hst => ?_⟩, hitem⟩
    obtain ⟨item', hitem'⟩ := Option.isSome_iff_exists.mp
      (isSome_mapM_iff.mp (Option.isSome_iff_exists.mpr ⟨rows, h⟩) t ht)
    obtain ⟨hid', hat'⟩ := comparisonItem_fields hitem'
    rw [← hat, ← hat']
    exact hfirst item' ((mem_rows h).mpr ⟨t, ht, hitem'⟩) (by rw [hid, hid', hst])
  · rintro ⟨s, ⟨hs, hnewest⟩, hitem⟩
    obtain ⟨hid, hat⟩ := comparisonItem_fields hitem
    refine ⟨(mem_rows h).mpr ⟨s, hs, hitem⟩, fun item' hmem' hid' => ?_⟩
    obtain ⟨t, ht, hitem'⟩ := (mem_rows h).mp hmem'
    obtain ⟨hidt, hatt⟩ := comparisonItem_fields hitem'
    rw [hat, hatt]
    exact hnewest t ht (by rw [← hidt, hid', hid])

variable {texts : TextOrder} {sortOrder : String}

/-- **Each request reads a leaderboard.** -/
theorem isLeaderboard_board (h : scores.mapM (SessionScore.comparisonItem d) = some rows)
    (sorts : ComparisonSorts texts sortOrder) :
    IsLeaderboard d texts sortOrder scores (sorts.board rows) := by
  obtain ⟨hperm, hsorted⟩ :=
    sorts.sorts_rank (distinctOn SessionComparisonItem.sessionId (sorts.latest rows))
  refine ⟨?_, fun id => ?_, fun item hitem => ?_, hsorted⟩
  · exact (hperm.map _).nodup_iff.mpr nodup_distinctOn
  · rw [ComparisonSorts.board, (hperm.map _).mem_iff, map_key_distinctOn,
      ((sorts.sorts_latest rows).1.map _).mem_iff, map_sessionId h]
  · exact (isFirst_iff h).mp (isFirst_of_mem sorts.sorts_latest (hperm.mem_iff.mp hitem))

/-- The total of a request is the number of sessions. -/
theorem length_board (sorts : ComparisonSorts texts sortOrder) :
    (distinctOn SessionComparisonItem.sessionId (sorts.count rows)).length =
      (sorts.board rows).length := by
  rw [ComparisonSorts.board, (sorts.sorts_rank _).1.length_eq]
  exact length_distinctOn ((sorts.sorts_count rows).1.trans (sorts.sorts_latest rows).1.symm)

/-- Newest scores of one session show the same. -/
def NewestAgree (d : Doubles F) (scores : List SessionScore) : Prop :=
  ∀ s t, IsNewestScore scores s → IsNewestScore scores t → s.sessionId = t.sessionId →
    s.comparisonItem d = t.comparisonItem d

/-- **Then two requests read the same leaderboard.** -/
theorem board_eq (h : scores.mapM (SessionScore.comparisonItem d) = some rows)
    (hagree : NewestAgree d scores) (sorts sorts' : ComparisonSorts texts sortOrder) :
    sorts.board rows = sorts'.board rows := by
  have hfirst : ∀ a b,
      IsFirst SessionComparisonItem.newestFirst SessionComparisonItem.sessionId rows a →
      IsFirst SessionComparisonItem.newestFirst SessionComparisonItem.sessionId rows b →
      a.sessionId = b.sessionId → a = b := by
    intro a b ha hb hab
    obtain ⟨s, hs, hsa⟩ := (isFirst_iff h).mp ha
    obtain ⟨t, ht, htb⟩ := (isFirst_iff h).mp hb
    have hid : s.sessionId = t.sessionId := by
      rw [← (comparisonItem_fields hsa).1, ← (comparisonItem_fields htb).1, hab]
    exact Option.some.inj (hsa.symm.trans ((hagree s t hs ht hid).trans htb))
  have hlatest := distinctOn_perm sorts.sorts_latest sorts'.sorts_latest hfirst
  obtain ⟨hperm, hsorted⟩ :=
    sorts.sorts_rank (distinctOn SessionComparisonItem.sessionId (sorts.latest rows))
  obtain ⟨hperm', hsorted'⟩ :=
    sorts'.sorts_rank (distinctOn SessionComparisonItem.sessionId (sorts'.latest rows))
  refine ((hperm.trans hlatest).trans hperm'.symm).eq_of_pairwise ?_ hsorted hsorted'
  intro a b ha hb hab hba
  exact List.inj_on_of_nodup_map nodup_distinctOn (hperm.mem_iff.mp ha)
    (hlatest.mem_iff.mpr (hperm'.mem_iff.mp hb))
    (SessionComparisonItem.rankOrder_antisymm hab hba)

/-- **Otherwise two requests show two newest scores of one session.** -/
theorem newestAgree_of_board_eq (h : scores.mapM (SessionScore.comparisonItem d) = some rows)
    {board : List SessionComparisonItem}
    (hboard : ∀ sorts : ComparisonSorts texts sortOrder, sorts.board rows = board) :
    NewestAgree d scores := by
  have hshown : ∀ s, IsNewestScore scores s → ∃ item ∈ board, s.comparisonItem d = some item := by
    intro s hs
    obtain ⟨item, hitem⟩ := Option.isSome_iff_exists.mp
      (isSome_mapM_iff.mp (Option.isSome_iff_exists.mpr ⟨rows, h⟩) s hs.1)
    obtain ⟨order, horder, hmem⟩ :=
      exists_sort_of_isFirst texts.toComparison ((isFirst_iff h).mpr ⟨s, hs, hitem⟩)
    let sorts : ComparisonSorts texts sortOrder :=
      { count := order, latest := order, rank := (rankOrder texts sortOrder).reference
        sorts_latest := horder, sorts_count := horder
        sorts_rank := Comparison.sorts_reference }
    refine ⟨item, ?_, hitem⟩
    rw [← hboard sorts]
    exact (sorts.sorts_rank _).1.mem_iff.mpr hmem
  have hsorts : (latestOrder texts).Sorts (latestOrder texts).reference :=
    Comparison.sorts_reference
  have hnodup := (isLeaderboard_board h (⟨_, _, _, hsorts, hsorts, Comparison.sorts_reference⟩ :
    ComparisonSorts texts sortOrder)).sessions
  rw [hboard] at hnodup
  intro s t hs ht hid
  obtain ⟨a, ha, hsa⟩ := hshown s hs
  obtain ⟨b, hb, htb⟩ := hshown t ht
  rw [hsa, htb, List.inj_on_of_nodup_map hnodup ha hb ?_]
  rw [(comparisonItem_fields hsa).1, (comparisonItem_fields htb).1, hid]

end Rows

/-- Lists that agree on all slices of a length. -/
theorem eq_of_slices {α : Type} {l l' : List α} {limit : Nat} (hlimit : 0 < limit)
    (h : ∀ offset, (l.drop offset).take limit = (l'.drop offset).take limit) : l = l' := by
  refine List.ext_getElem? fun i => ?_
  have hhead := congrArg (fun l : List α => l[0]?) (h i)
  simpa [List.getElem?_take_of_lt hlimit] using hhead

/-! ## The history of a session -/

section History
variable {F : Type} {d : Doubles F} {scores : List SessionScore}
  {order : List SessionScore → List SessionScore} {limit : Nat}
  {items : List SessionScoreHistoryItem} {s : SessionScore}

/-- A score is shown where no more than `limit` scores are as old as it. -/
theorem mem_history (horder : SessionScore.oldestFirst.Sorts order)
    (h : ((order scores).take limit).mapM (SessionScore.historyItem d) = some items)
    (hs : s ∈ scores) (hupTo : SessionScore.oldestFirst.upTo scores s ≤ limit) :
    ∃ item ∈ items, s.historyItem d = some item := by
  obtain ⟨hperm, hsorted⟩ := horder scores
  obtain ⟨i, hi, rfl⟩ := List.mem_iff_getElem.mp (hperm.mem_iff.mpr hs)
  have hplace := (Comparison.place hsorted hi).2
  rw [Comparison.upTo_perm hperm] at hplace
  have hmem : (order scores)[i] ∈ (order scores).take limit :=
    List.mem_take_iff_getElem.mpr ⟨i, by omega, rfl⟩
  obtain ⟨item, hitem⟩ := Option.isSome_iff_exists.mp
    (isSome_mapM_iff.mp (Option.isSome_iff_exists.mpr ⟨items, h⟩) _ hmem)
  exact ⟨item, (mem_mapM h).mpr ⟨_, hmem, hitem⟩, hitem⟩

/-- All that is shown is older than a score with `limit` older ones. -/
theorem older_of_mem_history (horder : SessionScore.oldestFirst.Sorts order)
    (h : ((order scores).take limit).mapM (SessionScore.historyItem d) = some items)
    (hbefore : limit ≤ SessionScore.oldestFirst.before scores s)
    {item : SessionScoreHistoryItem} (hitem : item ∈ items) : item.createdAt < s.createdAt := by
  obtain ⟨hperm, hsorted⟩ := horder scores
  obtain ⟨t, ht, hshown⟩ := (mem_mapM h).mp hitem
  obtain ⟨i, hi, rfl⟩ := List.mem_take_iff_getElem.mp ht
  have hplace := (Comparison.place hsorted (show i < (order scores).length by omega)).1
  rw [Comparison.before_perm hperm] at hplace
  obtain ⟨score, -, rfl⟩ := Option.map_eq_some_iff.mp hshown
  -- as new as the score, it would have as many before it
  refine lt_of_not_ge fun hge => ?_
  have hmono : SessionScore.oldestFirst.before scores s ≤
      SessionScore.oldestFirst.before scores (order scores)[i] := by
    refine List.countP_mono_left fun x _ hx => ?_
    simp only [SessionScore.oldestFirst, Comparison.on, Comparison.ofLinearOrder,
      Bool.not_eq_true', decide_eq_false_iff_not, not_le] at hx ⊢
    exact lt_of_lt_of_le hx hge
  omega

end History

/-! ## The views of a project -/

/-- **What the requests show of the newest scores.**  `same`: pages of any one size, each from a
request of its own, are slices of one list.  `history`: the history of a session, read to `limit`
rows, has a newest score of the session or stops before it. -/
structure EvalDb.ShowsNewestScores {F : Type} (db : EvalDb F) (d : Doubles F) (texts : TextOrder)
    (projectId : UUID) (metricName sortOrder : String) : Prop where
  there : ∀ (sorts : ComparisonSorts texts sortOrder) (limit offset : Nat),
    (db.getSessionScoreComparison d sorts projectId metricName limit offset).isSome ↔
      ∀ s ∈ db.rankedScores projectId metricName, (d.castColumn s.value).isSome
  slice : ∀ (sorts : ComparisonSorts texts sortOrder) limit offset answer,
    db.getSessionScoreComparison d sorts projectId metricName limit offset = some answer →
    ∃ board, IsLeaderboard d texts sortOrder (db.rankedScores projectId metricName) board ∧
      answer = ((board.drop offset).take limit, board.length)
  same : ∀ limit, 0 < limit →
    (∀ s ∈ db.rankedScores projectId metricName, (d.castColumn s.value).isSome) →
    ((∃ board, IsLeaderboard d texts sortOrder (db.rankedScores projectId metricName) board ∧
      ∀ (sorts : ComparisonSorts texts sortOrder) offset,
        db.getSessionScoreComparison d sorts projectId metricName limit offset =
          some ((board.drop offset).take limit, board.length)) ↔
      NewestAgree d (db.rankedScores projectId metricName))
  history : ∀ s, IsNewestScore (db.rankedScores projectId metricName) s →
    ∀ order, SessionScore.oldestFirst.Sorts order → ∀ limit items,
    db.getSessionScoreHistory d order projectId s.sessionId (some metricName) limit = some items →
    let scores := db.historyScores projectId s.sessionId (some metricName)
    (SessionScore.oldestFirst.upTo scores s ≤ limit → ∃ item ∈ items, s.historyItem d = some item) ∧
    (limit ≤ SessionScore.oldestFirst.before scores s →
      ∀ item ∈ items, item.createdAt < s.createdAt)

/-- **The leaderboard is that of the newest scores**, in any project and for any metric. -/
theorem leaderboard_of_newest_scores {F : Type} (db : EvalDb F) (d : Doubles F) (texts : TextOrder)
    (projectId : UUID) (metricName sortOrder : String) :
    db.ShowsNewestScores d texts projectId metricName sortOrder := by
  have hanswer : ∀ {rows} (_ : (db.rankedScores projectId metricName).mapM
      (SessionScore.comparisonItem d) = some rows) (sorts : ComparisonSorts texts sortOrder)
      (limit offset : Nat),
      db.getSessionScoreComparison d sorts projectId metricName limit offset =
        some (((sorts.board rows).drop offset).take limit, (sorts.board rows).length) := by
    intro rows hrows sorts limit offset
    rw [EvalDb.getSessionScoreComparison, hrows, Option.map_some, length_board]
  have hsome : ((db.rankedScores projectId metricName).mapM
      (SessionScore.comparisonItem d)).isSome ↔
      ∀ s ∈ db.rankedScores projectId metricName, (d.castColumn s.value).isSome := by
    rw [isSome_mapM_iff]
    simp only [SessionScore.comparisonItem, Option.isSome_map]
  refine ⟨fun sorts limit offset => ?_, fun sorts limit offset answer h => ?_,
    fun limit hlimit hcast => ?_, fun s hs order horder limit items hitems => ?_⟩
  · rw [EvalDb.getSessionScoreComparison, Option.isSome_map, hsome]
  · obtain ⟨rows, hrows, -⟩ := Option.map_eq_some_iff.mp h
    rw [hanswer hrows] at h
    exact ⟨sorts.board rows, isLeaderboard_board hrows sorts, (Option.some.inj h).symm⟩
  · obtain ⟨rows, hrows⟩ := Option.isSome_iff_exists.mp (hsome.mpr hcast)
    constructor
    · rintro ⟨board, -, hboard⟩
      have heq : ∀ sorts : ComparisonSorts texts sortOrder, sorts.board rows = board := by
        intro sorts
        refine eq_of_slices hlimit fun offset => ?_
        have hslice := hboard sorts offset
        rw [hanswer hrows] at hslice
        exact congrArg Prod.fst (Option.some.inj hslice)
      exact newestAgree_of_board_eq hrows heq
    · intro hagree
      have hsorts : (latestOrder texts).Sorts (latestOrder texts).reference :=
        Comparison.sorts_reference
      let reference : ComparisonSorts texts sortOrder :=
        ⟨_, _, _, hsorts, hsorts, Comparison.sorts_reference⟩
      refine ⟨reference.board rows, isLeaderboard_board hrows reference, fun sorts offset => ?_⟩
      rw [hanswer hrows, board_eq hrows hagree sorts reference]
  · refine ⟨fun hupTo => mem_history horder hitems ?_ hupTo, fun hbefore item hitem =>
      older_of_mem_history horder hitems hbefore hitem⟩
    obtain ⟨hmem, hranked⟩ := List.mem_filter.mp hs.1
    refine List.mem_filter.mpr ⟨hmem, ?_⟩
    simp only [SessionScore.isRanked, SessionScore.inHistory, Bool.and_eq_true, decide_eq_true_eq,
      Option.all_some, and_true] at hranked ⊢
    exact ⟨⟨hranked.1.1.1, hranked.1.2⟩, hranked.1.1.2⟩

/-! ## The latest scores of a trace -/

namespace EvalDb
variable {F : Type} (db : EvalDb F)

/-- The scores of a trace. -/
def scoresOfTrace (traceId projectId : UUID) : List TraceScore :=
  db.scores.filter fun s => s.traceId = traceId && s.projectId = projectId

/-- `get_latest_scores_for_trace`. -/
def getLatestScoresForTrace (order : List TraceScore → List TraceScore)
    (traceId projectId : UUID) : List TraceScore :=
  distinctOn TraceScore.name (order (db.scoresOfTrace traceId projectId))

/-- **Each metric of a trace has one latest score**, whatever its status: one with no newer score
of its metric, and every such score is shown by some sort. -/
theorem latest_scores_of_trace (texts : TextOrder) (traceId projectId : UUID) :
    let byCreation : Comparison TraceScore :=
      (Comparison.ofLinearOrder DateTime).flip.on TraceScore.createdAt
    let newest := IsFirst byCreation TraceScore.name (db.scoresOfTrace traceId projectId)
    (∀ order, ((texts.toComparison.on TraceScore.name).thenBy byCreation).Sorts order →
      ((db.getLatestScoresForTrace order traceId projectId).map TraceScore.name).Nodup ∧
      (∀ n, n ∈ (db.getLatestScoresForTrace order traceId projectId).map TraceScore.name ↔
        n ∈ (db.scoresOfTrace traceId projectId).map TraceScore.name) ∧
      ∀ s ∈ db.getLatestScoresForTrace order traceId projectId, newest s) ∧
    ∀ s, newest s → ∃ order,
      ((texts.toComparison.on TraceScore.name).thenBy byCreation).Sorts order ∧
        s ∈ db.getLatestScoresForTrace order traceId projectId := by
  refine ⟨fun order horder => ⟨nodup_distinctOn, fun n => ?_, fun s hs => isFirst_of_mem horder hs⟩,
    fun s hs => exists_sort_of_isFirst _ hs⟩
  rw [getLatestScoresForTrace, map_key_distinctOn, ((horder _).1.map _).mem_iff]

end EvalDb

/-! ## Two sessions, one evaluated twice -/

/-- The order of texts by their characters. -/
def plainTexts : TextOrder where
  toComparison := .ofLinearOrder String
  antisymm _ _ hst hts := le_antisymm (of_decide_eq_true hst) (of_decide_eq_true hts)

/-- A score of the metric `m` of a session of project `A`. -/
def sessionScoreOf (sessionId value : String) (createdAt : DateTime) : SessionScore :=
  ⟨sessionId, sessionId, "A", "m", .numeric, some value, .automated, .success, none, none, none,
    none, none, fun _ => none, createdAt, createdAt⟩

/-- The second evaluation of session `a` is better than the first. -/
def twoEvaluations : EvalDb ℚ :=
  ⟨[], [], [sessionScoreOf "a" "0" 0, sessionScoreOf "b" "0" 1, sessionScoreOf "a" "1" 2],
    fun _ => none, List.nodup_nil⟩

/-- Every request shows session `a` with its second score, and a history of one row the first. -/
theorem leaderboard_of_newest_scores_two_evaluations : ∃ board : List SessionComparisonItem,
    ⟨"a", some 1, 2, none⟩ ∈ board ∧ (∀ (sorts : ComparisonSorts plainTexts "asc") offset,
      twoEvaluations.getSessionScoreComparison bitDoubles sorts "A" "m" 1 offset =
        some ((board.drop offset).take 1, board.length)) ∧
    ∀ order, SessionScore.oldestFirst.Sorts order → ∀ items,
      twoEvaluations.getSessionScoreHistory bitDoubles order "A" "a" (some "m") 1 = some items →
      ∀ item ∈ items, item.createdAt < 2 := by
  have h := leaderboard_of_newest_scores twoEvaluations bitDoubles plainTexts "A" "m" "asc"
  have hscores : twoEvaluations.rankedScores "A" "m" = twoEvaluations.sessionScores := rfl
  have hnewest : ∀ s, IsNewestScore twoEvaluations.sessionScores s →
      s = sessionScoreOf "a" "1" 2 ∨ s = sessionScoreOf "b" "0" 1 := by
    rintro s ⟨hs, hfirst⟩
    simp only [twoEvaluations, List.mem_cons, List.not_mem_nil, or_false] at hs
    rcases hs with rfl | rfl | rfl
    · have hle : (2 : Int) ≤ 0 := hfirst (sessionScoreOf "a" "1" 2)
        (List.mem_cons_of_mem _ (List.mem_cons_of_mem _ List.mem_cons_self)) rfl
      omega
    · exact .inr rfl
    · exact .inl rfl
  have hagree : NewestAgree bitDoubles (twoEvaluations.rankedScores "A" "m") := by
    rw [hscores]
    intro s t hs ht hid
    rcases hnewest s hs with rfl | rfl <;> rcases hnewest t ht with rfl | rfl
    · rfl
    · exact absurd hid (by decide)
    · exact absurd hid (by decide)
    · rfl
  have hcast : ∀ s ∈ twoEvaluations.rankedScores "A" "m",
      (bitDoubles.castColumn s.value).isSome := by
    rw [hscores]
    simp only [twoEvaluations, List.forall_mem_cons]
    exact ⟨rfl, rfl, rfl, fun s hs => by cases hs⟩
  obtain ⟨board, hleaderboard, hboard⟩ := (h.same 1 Nat.one_pos hcast).mpr hagree
  refine ⟨board, ?_, hboard, fun order horder items hitems => ?_⟩
  · obtain ⟨item, hitem, hid⟩ := List.mem_map.mp
      ((hleaderboard.covers "a").mpr (hscores ▸ List.mem_cons_self))
    obtain ⟨s, hs, hshown⟩ := hleaderboard.newest item hitem
    rcases hnewest s hs with rfl | rfl
    · cases hshown
      exact hitem
    · exact absurd ((comparisonItem_fields hshown).1.symm.trans hid) (by decide)
  · refine (h.history (sessionScoreOf "a" "1" 2) ⟨?_, fun t ht _ => ?_⟩ order horder 1 items
      hitems).2 (by decide)
    · exact List.mem_cons_of_mem _ (List.mem_cons_of_mem _ List.mem_cons_self)
    · rw [hscores] at ht
      simp only [twoEvaluations, List.mem_cons, List.not_mem_nil, or_false] at ht
      rcases ht with rfl | rfl | rfl <;> decide

end PandaProbe
