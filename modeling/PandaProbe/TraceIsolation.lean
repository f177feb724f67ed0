import PandaProbe.GuardedRun
import PandaProbe.TraceStore

/-! # Tenant isolation of trace writes

The writes a project can issue, with ids of the client's choosing, and what they do
to the rows of other projects.  Updates, deletes and batch operations select on the
project, so they are isolated as they stand.  The two upserts conflict on the bare
`trace_id` and `span_id`: they are isolated exactly as far as the ids they name are
not stored under another project (`OwnIds`).
-/
namespace PandaProbe

/-- A write issued under a project.  The rows and keys in it come from the client;
the project does not, and the spans of a request go to the trace the request names. -/
inductive TraceOp
  | upsertTrace (now : DateTime) (trace : Trace)
  | addSpans (traceId : UUID) (spans : List Span)
  | updateTrace (traceId : UUID) (fields : TraceUpdate)
  | updateSpan (spanId traceId : UUID) (fields : SpanUpdate)
  | deleteTrace (traceId : UUID)
  | batchDeleteTraces (traceIds : List UUID)
  | batchUpdateTags (traceIds : List UUID) (addTags removeTags : List String)
  | deleteSession (sessionId : String)

/-- The spans of a request, as the routes build them. -/
def placeSpans (traceId : UUID) (spans : List Span) : List Span :=
  spans.map (fun s => { s with traceId := traceId })

/-- The trace of an ingestion request, as the route builds it. -/
def ingested (projectId : UUID) (trace : Trace) : Trace :=
  { trace with projectId := projectId, spans := placeSpans trace.traceId trace.spans }

namespace TraceDb

/-- One write under a project; a violated constraint rolls the transaction back. -/
def apply (projectId : UUID) (db : TraceDb) : TraceOp → TraceDb
  | .upsertTrace now trace => (db.upsertTrace now (ingested projectId trace)).getD db
  | .addSpans traceId spans =>
      ((db.addSpans traceId projectId (placeSpans traceId spans)).map Prod.fst).getD db
  | .updateTrace traceId fields => db.updateTrace traceId projectId fields
  | .updateSpan spanId traceId fields => db.updateSpan spanId traceId projectId fields
  | .deleteTrace traceId => db.deleteTrace traceId projectId
  | .batchDeleteTraces traceIds => db.batchDeleteTraces projectId traceIds
  | .batchUpdateTags traceIds addTags removeTags =>
      db.batchUpdateTags projectId traceIds addTags removeTags
  | .deleteSession sessionId => db.deleteSession projectId sessionId

/-- A trace stored under another project than `projectId`. -/
def ForeignTrace (projectId : UUID) (db : TraceDb) (i : UUID) : Prop :=
  ∃ row, db.traces i = some row ∧ row.projectId ≠ projectId

/-- A span stored under a trace of another project. -/
def ForeignSpan (projectId : UUID) (db : TraceDb) (j : UUID) : Prop :=
  ∃ row, db.spans j = some row ∧ ForeignTrace projectId db row.traceId

/-- Every trace row of another project, and every span row of such a trace, is the
same in `db'` as in `db`. -/
structure Untouched (projectId : UUID) (db db' : TraceDb) : Prop where
  traces : ∀ i, ForeignTrace projectId db i → db'.traces i = db.traces i
  spans : ∀ j, ForeignSpan projectId db j → db'.spans j = db.spans j

section Isolation
variable {projectId : UUID} {db db' : TraceDb}

theorem Untouched.refl (db : TraceDb) : Untouched projectId db db :=
  ⟨fun _ _ => rfl, fun _ _ => rfl⟩

theorem Untouched.foreignTrace (h : Untouched projectId db db') {i : UUID}
    (hi : ForeignTrace projectId db i) : ForeignTrace projectId db' i := by
  obtain ⟨row, hrow, hne⟩ := id hi
  exact ⟨row, (h.traces i hi).trans hrow, hne⟩

theorem Untouched.foreignSpan (h : Untouched projectId db db') {j : UUID}
    (hj : ForeignSpan projectId db j) : ForeignSpan projectId db' j := by
  obtain ⟨row, hrow, htrace⟩ := id hj
  exact ⟨row, (h.spans j hj).trans hrow, h.foreignTrace htrace⟩

theorem Untouched.trans {db'' : TraceDb} (h : Untouched projectId db db')
    (h' : Untouched projectId db' db'') : Untouched projectId db db'' where
  traces i hi := (h'.traces i (h.foreignTrace hi)).trans (h.traces i hi)
  spans j hj := (h'.spans j (h.foreignSpan hj)).trans (h.spans j hj)

/-! ## The writes that select on the project -/

theorem untouched_updateWhere {p : UUID → TraceRow → Bool} {f : TraceRow → TraceRow}
    (hp : ∀ i row, p i row = true → row.projectId = projectId) :
    Untouched projectId db (db.updateWhere p f) where
  traces i hi := by
    obtain ⟨row, hrow, hne⟩ := hi
    have hno : ¬ p i row = true := fun h => hne (hp i row h)
    simp [updateWhere, hrow, hno]
  spans _ _ := rfl

theorem filter_keeps {p : UUID → TraceRow → Bool}
    (hp : ∀ i row, p i row = true → row.projectId = projectId) {i : UUID}
    (hi : ForeignTrace projectId db i) :
    (db.traces i).filter (fun row => !p i row) = db.traces i := by
  obtain ⟨row, hrow, hne⟩ := hi
  have hno : ¬ p i row = true := fun h => hne (hp i row h)
  simp [hrow, hno]

theorem untouched_deleteWhere {p : UUID → TraceRow → Bool}
    (hp : ∀ i row, p i row = true → row.projectId = projectId) :
    Untouched projectId db (db.deleteWhere p) where
  traces i hi := filter_keeps hp hi
  spans j hj := by
    obtain ⟨row, hrow, htrace⟩ := hj
    obtain ⟨t, ht, -⟩ := id htrace
    simp only [deleteWhere, hrow]
    rw [Option.filter_eq_some_iff]
    refine ⟨rfl, ?_⟩
    rw [filter_keeps hp htrace, ht]
    rfl

theorem untouched_putSpan {id : UUID} {row : SpanRow} {hrow : (db.traces row.traceId).isSome}
    (hid : ¬ ForeignSpan projectId db id) : Untouched projectId db (db.putSpan id row hrow) where
  traces _ _ := rfl
  spans j hj := by
    have hne : j ≠ id := by
      rintro rfl
      exact hid hj
    exact Function.update_of_ne hne ..

theorem untouched_updateSpan {spanId traceId : UUID} {fields : SpanUpdate} :
    Untouched projectId db (db.updateSpan spanId traceId projectId fields) := by
  unfold updateSpan
  split
  next row hrow =>
    split
    next hsel =>
      refine untouched_putSpan ?_
      rintro ⟨r, hr, t, ht, hne⟩
      rw [hrow] at hr
      cases hr
      have hown := hsel.2
      simp only [owns, ht, Option.any_some, beq_iff_eq] at hown
      exact hne hown
    next => exact .refl db
  next => exact .refl db

/-! ## The upserts -/

/-- What one span upsert does to the span table's foreign part: nothing, and no new
row enters it. -/
theorem upsertSpan_spec {span : Span} (hs : db.upsertSpan span = some db')
    (hid : ¬ ForeignSpan projectId db span.spanId)
    (htrace : ¬ ForeignTrace projectId db span.traceId) :
    db'.traces = db.traces ∧ Untouched projectId db db' ∧
      ∀ j, ForeignSpan projectId db' j → ForeignSpan projectId db j := by
  -- a row put under an own trace is not foreign, whichever row it replaces
  have hput : ∀ row hrow, ¬ ForeignTrace projectId db row.traceId →
      ∀ j, ForeignSpan projectId (db.putSpan span.spanId row hrow) j →
        ForeignSpan projectId db j := by
    rintro row hrow hown j ⟨r, hr, hfor⟩
    by_cases he : j = span.spanId
    · subst he
      simp only [putSpan, Function.update_self, Option.some.injEq] at hr
      exact absurd (hr ▸ hfor) hown
    · simp only [putSpan, Function.update_of_ne he] at hr
      exact ⟨r, hr, hfor⟩
  unfold upsertSpan at hs
  split at hs
  next row hrow =>
    cases hs
    exact ⟨rfl, untouched_putSpan hid, hput _ _ (fun h => hid ⟨row, hrow, h⟩)⟩
  next =>
    split at hs
    · cases hs
      exact ⟨rfl, untouched_putSpan hid, hput _ _ htrace⟩
    · cases hs

theorem untouched_upsertSpans {spans : List Span} (hs : db.upsertSpans spans = some db')
    (hids : ∀ s ∈ spans, ¬ ForeignSpan projectId db s.spanId)
    (htraces : ∀ s ∈ spans, ¬ ForeignTrace projectId db s.traceId) :
    Untouched projectId db db' := by
  induction spans generalizing db with
  | nil => cases hs; exact .refl _
  | cons span rest ih =>
    obtain ⟨db₁, h₁, hrest⟩ := Option.bind_eq_some_iff.mp hs
    obtain ⟨htr, hun, hback⟩ :=
      upsertSpan_spec h₁ (hids span (by simp)) (htraces span (by simp))
    refine hun.trans (ih hrest ?_ ?_)
    · intro s hmem hfor
      exact hids s (List.mem_cons_of_mem _ hmem) (hback _ hfor)
    · intro s hmem hfor
      refine htraces s (List.mem_cons_of_mem _ hmem) ?_
      obtain ⟨row, hrow, hne⟩ := hfor
      exact ⟨row, htr ▸ hrow, hne⟩

/-- Writing a row of the project under a key of its own leaves the foreign rows, and
makes none. -/
theorem putTrace_spec {id : UUID} {row : TraceRow} (hid : ¬ ForeignTrace projectId db id)
    (hrow : row.projectId = projectId) :
    Untouched projectId db (db.putTrace id row) ∧
      ∀ i, ForeignTrace projectId (db.putTrace id row) i → ForeignTrace projectId db i := by
  refine ⟨⟨fun i hi => ?_, fun _ _ => rfl⟩, ?_⟩
  · have hne : i ≠ id := by
      rintro rfl
      exact hid hi
    exact Function.update_of_ne hne ..
  · rintro i ⟨r, hr, hne⟩
    by_cases he : i = id
    · subst he
      simp only [putTrace, Function.update_self, Option.some.injEq] at hr
      exact absurd (hr ▸ hrow) hne
    · simp only [putTrace, Function.update_of_ne he] at hr
      exact ⟨r, hr, hne⟩

theorem not_foreignTrace_iff {i : UUID} : ¬ ForeignTrace projectId db i ↔
    ∀ row, db.traces i = some row → row.projectId = projectId := by
  unfold ForeignTrace
  push Not
  rfl

theorem untouched_upsertTrace {now : DateTime} {trace : Trace}
    (hs : db.upsertTrace now (ingested projectId trace) = some db')
    (htrace : ¬ ForeignTrace projectId db trace.traceId)
    (hids : ∀ s ∈ trace.spans, ¬ ForeignSpan projectId db s.spanId) :
    Untouched projectId db db' := by
  -- in both cases an own row is put and then the spans are upserted under it
  have hplaced : ∀ row : TraceRow, row.projectId = projectId →
      (db.putTrace trace.traceId row).upsertSpans (ingested projectId trace).spans = some db' →
      Untouched projectId db db' := by
    intro row hproj hs
    obtain ⟨hun, hback⟩ := putTrace_spec htrace hproj
    refine hun.trans (untouched_upsertSpans hs ?_ ?_)
    · intro s hmem
      obtain ⟨s₀, hs₀, rfl⟩ := List.mem_map.mp hmem
      rintro ⟨row, hrow, hfor⟩
      exact hids s₀ hs₀ ⟨row, hrow, hback _ hfor⟩
    · intro s hmem hfor
      obtain ⟨s₀, -, rfl⟩ := List.mem_map.mp hmem
      exact htrace (hback _ hfor)
  unfold upsertTrace at hs
  cases hrow : db.traces (ingested projectId trace).traceId with
  | none =>
    rw [hrow] at hs
    exact hplaced _ rfl hs
  | some row =>
    rw [hrow] at hs
    exact hplaced (row.merge (ingested projectId trace)) (not_foreignTrace_iff.mp htrace row hrow) hs

theorem untouched_addSpans {traceId : UUID} {spans : List Span} {found : Bool}
    (hs : db.addSpans traceId projectId (placeSpans traceId spans) = some (db', found))
    (hids : db.owns projectId traceId = true →
      ∀ s ∈ spans, ¬ ForeignSpan projectId db s.spanId) :
    Untouched projectId db db' := by
  unfold addSpans at hs
  split at hs
  next hown =>
    obtain ⟨db₁, h₁, he⟩ := Option.map_eq_some_iff.mp hs
    cases he
    refine untouched_upsertSpans h₁ ?_ ?_
    · intro s hmem
      obtain ⟨s₀, hs₀, rfl⟩ := List.mem_map.mp hmem
      exact hids hown s₀ hs₀
    · intro s hmem
      obtain ⟨s₀, -, rfl⟩ := List.mem_map.mp hmem
      rintro ⟨row, hrow, hne⟩
      simp only [owns, hrow, Option.any_some, beq_iff_eq] at hown
      exact hne hown
  next => cases hs; exact .refl db

end Isolation

/-! ## Runs -/

/-- **The condition on a write**, in the state before it: the ids an upsert writes to
are not stored under another project. -/
def OwnIds (projectId : UUID) (db : TraceDb) : TraceOp → Prop
  | .upsertTrace _ trace => ¬ ForeignTrace projectId db trace.traceId ∧
      ∀ s ∈ trace.spans, ¬ ForeignSpan projectId db s.spanId
  | .addSpans traceId spans => db.owns projectId traceId = true →
      ∀ s ∈ spans, ¬ ForeignSpan projectId db s.spanId
  | _ => True

/-- **One write under the condition touches no row of another project.** -/
theorem untouched_apply {projectId : UUID} {db : TraceDb} {op : TraceOp}
    (hok : OwnIds projectId db op) : Untouched projectId db (db.apply projectId op) := by
  cases op with
  | upsertTrace now trace =>
    simp only [apply]
    cases hs : db.upsertTrace now (ingested projectId trace) with
    | none => exact .refl db
    | some db' => exact untouched_upsertTrace hs hok.1 hok.2
  | addSpans traceId spans =>
    simp only [apply]
    cases hs : db.addSpans traceId projectId (placeSpans traceId spans) with
    | none => exact .refl db
    | some r => exact untouched_addSpans hs hok
  | updateTrace traceId fields =>
    refine untouched_updateWhere ?_
    intro i row h
    simp only [Bool.and_eq_true, beq_iff_eq] at h
    exact h.2
  | updateSpan spanId traceId fields => exact untouched_updateSpan
  | deleteTrace traceId =>
    refine untouched_deleteWhere ?_
    intro i row h
    simp only [Bool.and_eq_true, beq_iff_eq] at h
    exact h.2
  | batchDeleteTraces traceIds =>
    refine untouched_deleteWhere ?_
    intro i row h
    simp only [Bool.and_eq_true, beq_iff_eq] at h
    exact h.1
  | batchUpdateTags traceIds addTags removeTags =>
    refine untouched_updateWhere ?_
    intro i row h
    simp only [Bool.and_eq_true, beq_iff_eq] at h
    exact h.1
  | deleteSession sessionId =>
    refine untouched_deleteWhere ?_
    intro i row h
    simp only [Bool.and_eq_true, beq_iff_eq] at h
    exact h.1

/-- **Tenant isolation of trace writes**, for every sequence of writes under a project
whose upserts name no id stored under another one: every trace row of another project
and every span row of such a trace is unchanged. -/
theorem writes_isolated {projectId : UUID} {db₀ db : TraceDb}
    (h : GuardedRun.Reach (fun db op => some (db.apply projectId op)) (OwnIds projectId) db₀ db) :
    Untouched projectId db₀ db := by
  refine h.invariant (.refl db₀) ?_
  intro db op db' hun hok hs
  cases hs
  exact hun.trans (untouched_apply hok)

/-- A trace with a name and spans. -/
def namedTrace (traceId : UUID) (name : String) (spans : List Span) : Trace :=
  ⟨traceId, "", name, .completed, .null, .null, fun _ => none, 0, none, none, none, [], none, none,
    spans⟩

/-- A span with a name. -/
def namedSpan (spanId : UUID) (name : String) : Span :=
  ⟨spanId, "", none, name, .other, .unset, .null, .null, none, .null, fun _ => none, 0, none, none,
    none, .null, .null⟩

/-- Project `A` has stored the trace `t` with the span `s`. -/
def storedByA : TraceDb :=
  empty.apply "A" (.upsertTrace 0 (namedTrace "t" "a" [namedSpan "s" "a"]))

/-- Project `B` writes a trace of its own next to it, and deletes it again. -/
theorem writes_isolated_own_trace :
    ∃ db, GuardedRun.Reach (fun db op => some (db.apply "B" op)) (OwnIds "B") storedByA db ∧
      Untouched "B" storedByA db := by
  have hown : OwnIds "B" storedByA (.upsertTrace 1 (namedTrace "u" "b" [namedSpan "v" "b"])) := by
    refine ⟨?_, ?_⟩
    · rintro ⟨row, hrow, -⟩
      cases hrow
    · intro s hs
      rw [List.mem_singleton.mp hs]
      rintro ⟨row, hrow, -⟩
      cases hrow
  have h : GuardedRun.Reach (fun db op => some (db.apply "B" op)) (OwnIds "B") storedByA _ :=
    .step (a := TraceOp.deleteTrace "u") (.step .initial hown rfl) trivial rfl
  exact ⟨_, h, writes_isolated h⟩

/-- **The ids of another project.**  Project `B` posts a trace under `A`'s trace id and
renames `A`'s trace; or it adds a span under `A`'s span id to a trace of its own and
renames `A`'s span. -/
theorem writes_reach_foreign_rows :
    (∃ db, GuardedRun.Reach (fun db op => some (db.apply "B" op)) GuardedRun.Always storedByA db ∧
      ¬ Untouched "B" storedByA db ∧
      (storedByA.traces "t").map TraceRow.projectId = some "A" ∧
      (storedByA.traces "t").map TraceRow.name = some "a" ∧
      (db.traces "t").map TraceRow.name = some "b") ∧
    (∃ db, GuardedRun.Reach (fun db op => some (db.apply "B" op)) GuardedRun.Always storedByA db ∧
      ¬ Untouched "B" storedByA db ∧
      (storedByA.spans "s").map SpanRow.traceId = some "t" ∧
      (storedByA.spans "s").map SpanRow.name = some "a" ∧
      (db.spans "s").map SpanRow.name = some "b") := by
  have hfor : ForeignTrace "B" storedByA "t" := ⟨_, rfl, by decide⟩
  refine ⟨⟨_, .step (a := TraceOp.upsertTrace 1 (namedTrace "t" "b" [])) .initial trivial rfl, ?_, rfl,
    rfl, rfl⟩, ⟨_, .step (a := TraceOp.addSpans "u" [namedSpan "s" "b"])
      (.step (a := TraceOp.upsertTrace 1 (namedTrace "u" "b" [])) .initial trivial rfl) trivial rfl, ?_,
    rfl, rfl, rfl⟩⟩
  · intro h
    have hname := congrArg (Option.map TraceRow.name) (h.traces "t" hfor)
    exact absurd hname (by decide)
  · intro h
    have hname := congrArg (Option.map SpanRow.name) (h.spans "s" ⟨_, rfl, hfor⟩)
    exact absurd hname (by decide)

end TraceDb
end PandaProbe
