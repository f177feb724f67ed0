import PandaProbe.EvalMonitors
import PandaProbe.TraceIsolation
import PandaProbe.TraceMerge

/-! # The targets of a monitor

What `_spawn_run_for_monitor` resolves from a monitor's filters, and what `should_skip_monitor`
counts.  The filters are the JSON object of the request that set them, and the queries read them
in different ways: some conditions are left out when the value is falsy, others only when it is
`None`; a value that cannot be parsed or bound raises (`none`).

The targets are decided one by one.  Whether a trace or a session is a target depends only on its
own rows (`mem_targets`), and not on their order (`admits_perm`).
-/
namespace PandaProbe

/-! ## Values from JSON -/

/-- Python's truth value. -/
def Json.truthy : Json → Bool
  | .null => false
  | .bool b => b
  | .num coeff _ => coeff ≠ 0
  | .str s => s ≠ ""
  | .arr l => !l.isEmpty
  | .obj l => !l.isEmpty

/-- `filters.get(key)`. -/
def JsonDict.get (d : JsonDict) (key : String) : Json := (d key).getD .null

/-- What the filters take from outside. -/
structure FilterEnv where
  /-- `datetime.fromisoformat(str(value))`, bound to a parameter; `none` when either raises. -/
  parseDt : Json → Option DateTime
  /-- `column ILIKE '%text%'`, with the text escaped. -/
  contains : String → String → Bool

/-- A text parameter; any other type is refused. -/
def bindText : Json → Option String
  | .str s => some s
  | _ => none

/-- A parameter that is a list of texts.  A `null` in it overlaps with nothing. -/
def bindTexts : Json → Option (List String)
  | .arr l => (l.filter (fun v => !v.isNull)).mapM bindText
  | _ => none

/-- `TraceStatus(value)`. -/
def parseStatus : Json → Option TraceStatus
  | .str s =>
    if s = "PENDING" then some .pending
    else if s = "RUNNING" then some .running
    else if s = "COMPLETED" then some .completed
    else if s = "ERROR" then some .error
    else none
  | _ => none

/-- `count(*) >= value`: an integer is bound as one of 32 bits, another number as a double. -/
def atLeast : Json → Option (Nat → Bool)
  | .num coeff 0 => if -2 ^ 31 ≤ coeff ∧ coeff < 2 ^ 31 then some (fun n => coeff ≤ n) else none
  | .num coeff scale => some (fun n => coeff ≤ n * 10 ^ scale)
  | _ => none

/-- `if value:` with what is made of the value. -/
def whenTruthy {α : Type} (f : Json → Option α) (v : Json) : Option (Option α) :=
  if v.truthy then (f v).map some else some none

/-- `if value is not None:` with what is made of the value. -/
def whenGiven {α : Type} (f : Json → Option α) (v : Json) : Option (Option α) :=
  if v.isNull then some none else (f v).map some

/-! ## Queries -/

/-- The conditions that all queries know. -/
structure Scope where
  dateFrom : Option DateTime
  dateTo : Option DateTime
  userId : Option String
  tags : Option (List String)

/-- The row meets them. -/
def Scope.admits (c : Scope) (row : TraceRow) : Bool :=
  c.dateFrom.all (fun t => t ≤ row.startedAt) && c.dateTo.all (fun t => row.startedAt < t) &&
    c.userId.all (fun u => row.userId = some u) &&
    c.tags.all (fun wanted => wanted.any (· ∈ row.tags))

/-- The conditions of `_resolve_trace_ids`. -/
structure TraceQuery where
  scope : Scope
  sessionId : Option String
  status : Option TraceStatus
  name : Option String

/-- `_apply_trace_filters`. -/
def TraceQuery.admits (env : FilterEnv) (q : TraceQuery) (row : TraceRow) : Bool :=
  q.scope.admits row && q.sessionId.all (fun s => row.sessionId = some s) &&
    q.status.all (fun s => row.status = s) && q.name.all (env.contains row.name)

/-- The conditions of `_resolve_session_ids`. -/
structure SessionQuery where
  scope : Scope
  hasError : Option Bool
  minTraceCount : Option (Nat → Bool)

/-- What the `HAVING` makes of the rows of one session. -/
def SessionQuery.admits (q : SessionQuery) (rows : List TraceRow) : Bool :=
  let group := rows.filter q.scope.admits
  !group.isEmpty && q.hasError.all (fun b => group.any (fun row => row.status = .error) = b) &&
    q.minTraceCount.all (fun p => p group.length)

section Decode
variable (env : FilterEnv) (filters : JsonDict)

/-- The conditions as `should_skip_monitor` and `_resolve_session_ids` read them. -/
def scopeOf : Option Scope := do
  let dateFrom ← whenTruthy env.parseDt (filters.get "date_from")
  let dateTo ← whenTruthy env.parseDt (filters.get "date_to")
  let userId ← whenTruthy bindText (filters.get "user_id")
  let tags ← whenTruthy bindTexts (filters.get "tags")
  pure ⟨dateFrom, dateTo, userId, tags⟩

/-- The conditions as `_resolve_trace_ids` reads them: an empty `user_id` is one, and an empty date
does not parse. -/
def traceQuery : Option TraceQuery := do
  let status ← whenTruthy parseStatus (filters.get "status")
  let sessionId ← whenGiven bindText (filters.get "session_id")
  let userId ← whenGiven bindText (filters.get "user_id")
  let tags ← whenTruthy bindTexts (filters.get "tags")
  let name ← whenTruthy bindText (filters.get "name")
  let dateFrom ← whenGiven env.parseDt (filters.get "date_from")
  let dateTo ← whenGiven env.parseDt (filters.get "date_to")
  pure ⟨⟨dateFrom, dateTo, userId, tags⟩, sessionId, status, name⟩

/-- The conditions of a session monitor. -/
def sessionQuery : Option SessionQuery := do
  let scope ← scopeOf env filters
  let hasError := if (filters.get "has_error").isNull then none
    else some (filters.get "has_error").truthy
  let minTraceCount ← whenTruthy atLeast (filters.get "min_trace_count")
  pure ⟨scope, hasError, minTraceCount⟩

end Decode

/-! ## The table -/

/-- The `traces` table, with the keys it has had so far. -/
structure TraceTable where
  db : TraceDb
  ids : List UUID
  ids_nodup : ids.Nodup
  complete : ∀ i, (db.traces i).isSome → i ∈ ids

namespace TraceTable

/-- The rows. -/
def rows (t : TraceTable) : List (UUID × TraceRow) :=
  t.ids.filterMap fun i => (t.db.traces i).map (Prod.mk i)

theorem mem_rows {t : TraceTable} {i : UUID} {row : TraceRow} :
    (i, row) ∈ t.rows ↔ t.db.traces i = some row := by
  simp only [rows, List.mem_filterMap, Option.map_eq_some_iff, Prod.mk.injEq]
  constructor
  · rintro ⟨j, -, row', hrow, rfl, rfl⟩
    exact hrow
  · intro h
    exact ⟨i, t.complete i (by simp [h]), row, h, rfl, rfl⟩

theorem rows_nodup (t : TraceTable) : t.rows.Nodup := by
  refine t.ids_nodup.filterMap ?_
  intro i j x hi hj
  simp only [Option.mem_def, Option.map_eq_some_iff] at hi hj
  obtain ⟨row, -, rfl⟩ := hi
  obtain ⟨row', -, heq⟩ := hj
  exact (Prod.mk.inj heq).1.symm

/-- No rows. -/
def empty : TraceTable := ⟨.empty, [], List.nodup_nil, by intro i h; cases h⟩

/-- The key a write may insert. -/
def newKey : TraceOp → List UUID
  | .upsertTrace _ trace => [trace.traceId]
  | _ => []

/-- **A write inserts no other row.** -/
theorem isSome_apply {db : TraceDb} {projectId : UUID} {op : TraceOp} {i : UUID}
    (h : ((db.apply projectId op).traces i).isSome) : (db.traces i).isSome ∨ i ∈ newKey op := by
  cases op with
  | upsertTrace now trace =>
    rw [TraceDb.apply] at h
    cases hdb : db.upsertTrace now (ingested projectId trace) with
    | none =>
      rw [hdb] at h
      exact .inl h
    | some db' =>
      rw [hdb, Option.getD_some, (TraceDb.upsertTrace_spec hdb).1] at h
      by_cases hi : i = trace.traceId
      · exact .inr (List.mem_singleton.mpr hi)
      · rw [Function.update_of_ne (show i ≠ (ingested projectId trace).traceId from hi)] at h
        exact .inl h
  | addSpans traceId spans =>
    left
    rw [TraceDb.apply, TraceDb.addSpans] at h
    split at h
    · cases hdb : db.upsertSpans (placeSpans traceId spans) with
      | none =>
        rw [hdb] at h
        exact h
      | some db' =>
        rw [hdb] at h
        rw [← (TraceDb.upsertSpans_spans hdb).1]
        exact h
    · exact h
  | updateSpan spanId traceId fields =>
    left
    rw [TraceDb.apply, TraceDb.updateSpan] at h
    split at h
    · split at h
      · exact h
      · exact h
    · exact h
  | updateTrace traceId fields => exact .inl (Option.isSome_map.symm.trans h)
  | batchUpdateTags traceIds addTags removeTags => exact .inl (Option.isSome_map.symm.trans h)
  | deleteTrace traceId => exact .inl (Option.isSome_of_isSome_filter _ _ h)
  | batchDeleteTraces traceIds => exact .inl (Option.isSome_of_isSome_filter _ _ h)
  | deleteSession sessionId => exact .inl (Option.isSome_of_isSome_filter _ _ h)

/-- One write under a project. -/
def write (t : TraceTable) (projectId : UUID) (op : TraceOp) : TraceTable where
  db := t.db.apply projectId op
  ids := newKey op ∪ t.ids
  ids_nodup := t.ids_nodup.union _
  complete i h := by
    rcases isSome_apply h with h | h
    · exact List.mem_union_iff.mpr (.inr (t.complete i h))
    · exact List.mem_union_iff.mpr (.inl h)

end TraceTable

/-! ## What a monitor sees -/

section Monitor
variable {F : Type} (env : FilterEnv) (m : EvalMonitor F) (t : TraceTable)

/-- `_resolve_trace_ids`. -/
def resolveTraceIds : Option (List UUID) :=
  (traceQuery env m.filters).map fun q =>
    (t.rows.filter fun x => x.2.projectId = m.projectId && q.admits env x.2).map Prod.fst

/-- The rows of the project in a session. -/
def sessionRows (sid : String) : List TraceRow :=
  (t.rows.filter fun x => x.2.projectId = m.projectId && x.2.sessionId = some sid).map Prod.snd

/-- `_resolve_session_ids`. -/
def resolveSessionIds : Option (List String) :=
  (sessionQuery env m.filters).map fun q =>
    ((t.rows.filter fun x => x.2.projectId = m.projectId && q.scope.admits x.2).filterMap
      fun x => x.2.sessionId).dedup.filter fun sid => q.admits (sessionRows m t sid)

/-- The targets a run of the monitor is resolved to; `none` when that raises. -/
def targets : Option (List String) :=
  match m.targetType with
  | .trace => resolveTraceIds env m t
  | .session => resolveSessionIds env m t

/-- A row that `should_skip_monitor` counts, under a time of the last run. -/
def counts (c : Scope) (lastRunAt : DateTime) (row : TraceRow) : Bool :=
  row.projectId = m.projectId && lastRunAt < row.startedAt &&
    (m.targetType = .trace || row.sessionId.isSome) && c.admits row

/-- `should_skip_monitor`; `none` when it raises. -/
def shouldSkipMonitor : Option Bool :=
  if !m.onlyIfChanged then some false
  else
    match m.lastRunAt with
    | none => some false
    | some lastRunAt => (scopeOf env m.filters).map fun c =>
        (t.rows.countP fun x => counts m c lastRunAt x.2) == 0

/-- The rows of a target: the trace itself, or the traces of the session. -/
def isOf (x : String) (r : UUID × TraceRow) : Bool :=
  r.2.projectId = m.projectId &&
    match m.targetType with
    | .trace => r.1 = x
    | .session => r.2.sessionId = some x

/-- The rows of a target in the table. -/
def members (x : String) : List TraceRow := (t.rows.filter (isOf m x)).map Prod.snd

/-- Whether a target is admitted by the filters, going by its own rows. -/
def admits (rows : List TraceRow) : Bool :=
  match m.targetType with
  | .trace => (traceQuery env m.filters).any fun q => rows.any (q.admits env)
  | .session => (sessionQuery env m.filters).any fun q => q.admits rows

variable {env m t} {t' : TraceTable} {found : List String} {x : String}

/-- **A target is resolved exactly if its own rows admit it.** -/
theorem mem_targets (h : targets env m t = some found) :
    x ∈ found ↔ admits env m (members m t x) = true := by
  cases htype : m.targetType with
  | trace =>
    simp only [targets, htype, resolveTraceIds] at h
    obtain ⟨q, hq, rfl⟩ := Option.map_eq_some_iff.mp h
    simp only [admits, htype, hq, Option.any_some, List.any_eq_true, members, isOf, List.mem_map,
      List.mem_filter, Bool.and_eq_true, decide_eq_true_eq]
    constructor
    · rintro ⟨⟨i, row⟩, ⟨hrow, hproject, hadmits⟩, rfl⟩
      exact ⟨row, ⟨(i, row), ⟨hrow, hproject, rfl⟩, rfl⟩, hadmits⟩
    · rintro ⟨row, ⟨⟨i, row⟩, ⟨hrow, hproject, rfl⟩, rfl⟩, hadmits⟩
      exact ⟨(i, row), ⟨hrow, hproject, hadmits⟩, rfl⟩
  | session =>
    simp only [targets, htype, resolveSessionIds] at h
    obtain ⟨q, hq, rfl⟩ := Option.map_eq_some_iff.mp h
    have hmembers : members m t x = sessionRows m t x := by
      have hof : isOf m x = fun r => decide (r.2.projectId = m.projectId) &&
          decide (r.2.sessionId = some x) := by
        funext r
        simp only [isOf, htype]
      rw [members, hof, sessionRows]
    simp only [admits, htype, hq, Option.any_some, hmembers, List.mem_filter, List.mem_dedup,
      and_iff_right_iff_imp]
    -- a session that is admitted has a row in scope, so it is among the groups
    intro hadmits
    simp only [SessionQuery.admits, Bool.and_eq_true, Bool.not_eq_true', List.isEmpty_eq_false_iff]
      at hadmits
    obtain ⟨row, hrow⟩ := List.exists_mem_of_ne_nil _ hadmits.1.1
    obtain ⟨hrow, hscope⟩ := List.mem_filter.mp hrow
    obtain ⟨⟨i, row⟩, hmem, rfl⟩ := List.mem_map.mp hrow
    obtain ⟨hmem, hof⟩ := List.mem_filter.mp hmem
    simp only [Bool.and_eq_true, decide_eq_true_eq] at hof
    exact List.mem_filterMap.mpr ⟨(i, row), List.mem_filter.mpr ⟨hmem, by simp [hof.1, hscope]⟩,
      hof.2⟩

/-- Whether the targets can be resolved does not depend on the table. -/
theorem targets_isSome (t t' : TraceTable) (h : (targets env m t).isSome) :
    (targets env m t').isSome := by
  unfold targets at h ⊢
  split at h
  · simpa [resolveTraceIds] using h
  · simpa [resolveSessionIds] using h

/-- The order of the rows does not matter. -/
theorem admits_perm {rows rows' : List TraceRow} (h : rows.Perm rows') :
    admits env m rows = admits env m rows' := by
  unfold admits
  split
  · simp only [h.any_eq]
  · have hadmits : ∀ q : SessionQuery, q.admits rows = q.admits rows' := by
      intro q
      have hgroup := h.filter q.scope.admits
      simp only [SessionQuery.admits, hgroup.isEmpty_eq, hgroup.any_eq, hgroup.length_eq]
    simp only [hadmits]

/-- A row is changed, inserted or deleted that is the target's, before or after. -/
def Touches (m : EvalMonitor F) (t t' : TraceTable) (x : String) : Prop :=
  ∃ i, t.db.traces i ≠ t'.db.traces i ∧
    ((t.db.traces i).any (fun row => isOf m x (i, row)) ∨
      (t'.db.traces i).any (fun row => isOf m x (i, row)))

/-- **The rows of a target that is not touched are the same.** -/
theorem members_perm (h : ¬ Touches m t t' x) : (members m t x).Perm (members m t' x) := by
  refine List.Perm.map _ ((List.perm_ext_iff_of_nodup (t.rows_nodup.filter _)
    (t'.rows_nodup.filter _)).mpr ?_)
  rintro ⟨i, row⟩
  simp only [List.mem_filter, TraceTable.mem_rows]
  have hsame : ∀ row, isOf m x (i, row) = true →
      (t.db.traces i = some row ↔ t'.db.traces i = some row) := by
    intro row hof
    by_contra hne
    refine h ⟨i, fun heq => hne (by rw [heq]), ?_⟩
    by_cases hrow : t.db.traces i = some row
    · exact .inl (by simp [hrow, hof])
    · have hrow' : t'.db.traces i = some row := by
        by_contra hrow'
        exact hne ⟨fun h => absurd h hrow, fun h => absurd h hrow'⟩
      exact .inr (by simp [hrow', hof])
  exact ⟨fun ⟨hrow, hof⟩ => ⟨(hsame row hof).mp hrow, hof⟩,
    fun ⟨hrow, hof⟩ => ⟨(hsame row hof).mpr hrow, hof⟩⟩

end Monitor
end PandaProbe
