import PandaProbe.Absorption
import PandaProbe.TraceStore

/-! # Merging a payload into stored rows

`upsert_trace` and `add_spans` write a row for each id of the payload: a new one, or the stored
one merged with what comes in.  A payload may name a span several times; what it does to the
row of an id is a fold over the payload's spans with that id (`upsertSpans_spans`).

Two results.  A payload that is replayed changes nothing (`ingestion_idempotent`), because a
merge absorbs the earlier merges of the same payload.  And a merge follows the documented law,
non-null values overwrite and `null` keeps what is stored, exactly where no JSON `null` meets a
stored value and no span is given another parent (`merge_law`).
-/
namespace PandaProbe
open Absorption

/-! ## The columns -/

namespace JsonDict

theorem merge_same (m : JsonDict) : m.merge m = m := by
  funext k
  cases h : m k <;> simp [merge, h]

theorem merge_self (m p : JsonDict) : (m.merge p).merge p = m.merge p := by
  funext k
  cases h : p k <;> simp [merge, h]

theorem merge_between (m p q : JsonDict) :
    ((m.merge p).merge q).merge p = (m.merge q).merge p := by
  funext k
  cases h : p k <;> simp [merge, h]

end JsonDict

section Columns
variable {α : Type}

theorem coalesce_same (x : Option α) : coalesce x x = x := by
  cases x <;> rfl

theorem coalesce_self (x a : Option α) : coalesce a (coalesce a x) = coalesce a x := by
  cases a <;> rfl

theorem coalesce_between (x a b : Option α) :
    coalesce a (coalesce b (coalesce a x)) = coalesce a (coalesce b x) := by
  cases a <;> rfl

@[simp] theorem coalesce_jsonb (v : Json) (c : Option Json) : coalesce (jsonb v) c = some v := rfl

end Columns

theorem mem_arrayAggDistinct {x : String} {l : List String} : x ∈ arrayAggDistinct l ↔ x ∈ l := by
  simp [arrayAggDistinct]

/-! ## The rows -/

/-- Two trace rows that differ at most in the order and repetition of their tags. -/
structure TraceRow.Same (r r' : TraceRow) : Prop where
  columns : { r' with tags := r.tags } = r
  tags : ∀ x, x ∈ r'.tags ↔ x ∈ r.tags

namespace TraceRow

theorem Same.equivalence : Equivalence Same where
  refl _ := ⟨rfl, fun _ => Iff.rfl⟩
  symm h := by
    obtain ⟨hcol, htags⟩ := h
    refine ⟨?_, fun x => (htags x).symm⟩
    rw [← hcol]
  trans h h' := by
    obtain ⟨hcol, htags⟩ := h
    obtain ⟨hcol', htags'⟩ := h'
    refine ⟨?_, fun x => (htags' x).trans (htags x)⟩
    rw [← hcol, ← hcol']

/-- **A trace's merge absorbs the earlier merges of it.** -/
theorem absorbs_merge : Absorbs Same TraceRow.merge where
  equiv := Same.equivalence
  congr a h := by
    obtain ⟨hcol, htags⟩ := h
    refine ⟨?_, fun x => ?_⟩
    · rw [← hcol]
      rfl
    · simp only [merge, mem_arrayAggDistinct, List.mem_append, htags]
  again r a := by
    refine ⟨?_, fun x => ?_⟩
    · simp [merge, JsonDict.merge_self, coalesce_self]
    · simp only [merge, mem_arrayAggDistinct, List.mem_append]
      tauto
  between r a b := by
    refine ⟨?_, fun x => ?_⟩
    · simp [merge, JsonDict.merge_between, coalesce_between]
    · simp only [merge, mem_arrayAggDistinct, List.mem_append]
      tauto

/-- Merging a trace into the row it was inserted as. -/
theorem row_merge (t : Trace) (now : DateTime) : Same (t.row now) ((t.row now).merge t) := by
  refine ⟨?_, fun x => ?_⟩
  · simp [merge, Trace.row, coalesce_same, JsonDict.merge_same, jsonb]
  · simp [merge, Trace.row, mem_arrayAggDistinct]

end TraceRow

namespace SpanRow

/-- **A span's merge absorbs the earlier merges of it.** -/
theorem absorbs_merge : Absorbs Eq SpanRow.merge where
  equiv := eq_equivalence
  congr a h := by rw [h]
  again r a := by simp [merge, JsonDict.merge_self, coalesce_self]
  between r a b := by simp [merge, JsonDict.merge_between, coalesce_between]

theorem row_merge (s : Span) : s.row.merge s = s.row := by
  simp [merge, Span.row, coalesce_same, JsonDict.merge_same, jsonb]

/-- What a span does to the cell of its id. -/
def upsertCell (cell : Option SpanRow) (s : Span) : Option SpanRow :=
  match cell with
  | none => some s.row
  | some row => some (row.merge s)

theorem foldl_upsertCell_some (l : List Span) (row : SpanRow) :
    l.foldl upsertCell (some row) = some (l.foldl merge row) := by
  induction l generalizing row with
  | nil => rfl
  | cons s l ih => exact ih (row.merge s)

/-- **Replaying the spans of an id changes nothing.** -/
theorem foldl_upsertCell_twice (l : List Span) (cell : Option SpanRow) :
    l.foldl upsertCell (l.foldl upsertCell cell) = l.foldl upsertCell cell := by
  have hrow : ∀ row, l.foldl merge (l.foldl merge row) = l.foldl merge row :=
    fun row => absorbs_merge.absorbed (fun _ h => h) row
  cases cell with
  | some row => rw [foldl_upsertCell_some, foldl_upsertCell_some, hrow]
  | none =>
    cases l with
    | nil => rfl
    | cons s l =>
      -- the first span is inserted, which is as good as merging it into its own row
      have hfirst : (s :: l).foldl upsertCell none = (s :: l).foldl upsertCell (some s.row) := by
        simp only [List.foldl_cons, upsertCell, row_merge]
      rw [hfirst, foldl_upsertCell_some, foldl_upsertCell_some, hrow]

end SpanRow

/-! ## The tables -/

namespace TraceDb
variable {db db' : TraceDb} {now : DateTime} {t : Trace}

/-- The spans of a payload with an id. -/
def spansOf (l : List Span) (id : UUID) : List Span := l.filter (fun s => s.spanId = id)

/-- What one span does to the tables. -/
theorem upsertSpan_eq {s : Span} (h : db.upsertSpan s = some db') :
    db'.traces = db.traces ∧
      db'.spans = Function.update db.spans s.spanId (SpanRow.upsertCell (db.spans s.spanId) s) := by
  unfold upsertSpan at h
  split at h
  next row hrow =>
    cases h
    have hcell : SpanRow.upsertCell (db.spans s.spanId) s = some (row.merge s) := by rw [hrow]; rfl
    exact ⟨rfl, by rw [hcell]; rfl⟩
  next hnone =>
    split at h
    · cases h
      have hcell : SpanRow.upsertCell (db.spans s.spanId) s = some s.row := by rw [hnone]; rfl
      exact ⟨rfl, by rw [hcell]; rfl⟩
    · cases h

/-- **What a list of spans does to the tables**: the row of an id takes the spans with that
id, one after another. -/
theorem upsertSpans_spans {l : List Span} (h : db.upsertSpans l = some db') :
    db'.traces = db.traces ∧
      ∀ id, db'.spans id = (spansOf l id).foldl SpanRow.upsertCell (db.spans id) := by
  induction l generalizing db with
  | nil =>
    cases h
    exact ⟨rfl, fun _ => rfl⟩
  | cons s l ih =>
    obtain ⟨db₁, hfirst, hrest⟩ := Option.bind_eq_some_iff.mp h
    obtain ⟨htraces, hspans⟩ := upsertSpan_eq hfirst
    obtain ⟨htraces', hspans'⟩ := ih hrest
    refine ⟨htraces'.trans htraces, fun id => ?_⟩
    rw [hspans' id, hspans]
    by_cases hid : s.spanId = id
    · subst hid
      simp [spansOf]
    · rw [Function.update_of_ne (Ne.symm hid)]
      simp [spansOf, hid]

/-- The foreign key lets a list of spans through: each of them is stored, or its trace is. -/
def accepts (traces : UUID → Bool) : (UUID → Bool) → List Span → Bool
  | _, [] => true
  | spans, s :: l =>
    (spans s.spanId || traces s.traceId) && accepts traces (Function.update spans s.spanId true) l

theorem upsertSpan_isSome (db : TraceDb) (s : Span) :
    (db.upsertSpan s).isSome = ((db.spans s.spanId).isSome || (db.traces s.traceId).isSome) := by
  unfold upsertSpan
  split
  next hrow => simp [hrow]
  next hnone =>
    split
    next htrace => simp [htrace]
    next htrace => simpa [hnone] using htrace

theorem upsertSpans_isSome (db : TraceDb) (l : List Span) :
    (db.upsertSpans l).isSome =
      accepts (fun i => (db.traces i).isSome) (fun i => (db.spans i).isSome) l := by
  induction l generalizing db with
  | nil => rfl
  | cons s l ih =>
    rw [upsertSpans, accepts, ← upsertSpan_isSome]
    cases hfirst : db.upsertSpan s with
    | none => rfl
    | some db₁ =>
      obtain ⟨htraces, hspans⟩ := upsertSpan_eq hfirst
      rw [Option.bind_some, ih, htraces, hspans]
      simp only [Option.isSome_some, Bool.true_and]
      congr 1
      funext i
      by_cases hi : i = s.spanId
      · subst hi
        simp only [Function.update_self]
        cases db.spans s.spanId <;> rfl
      · simp only [Function.update_of_ne hi]

theorem accepts_of_stored {traces spans : UUID → Bool} {l : List Span}
    (h : ∀ s ∈ l, spans s.spanId = true) : accepts traces spans l = true := by
  induction l generalizing spans with
  | nil => rfl
  | cons s l ih =>
    obtain ⟨hs, hl⟩ := List.forall_mem_cons.mp h
    rw [accepts, hs, Bool.true_or, Bool.true_and]
    refine ih (fun x hx => ?_)
    by_cases hid : x.spanId = s.spanId
    · rw [hid, Function.update_self]
    · rw [Function.update_of_ne hid]
      exact hl x hx

/-- The row of the payload's trace. -/
def mergedRow (db : TraceDb) (now : DateTime) (t : Trace) : TraceRow :=
  match db.traces t.traceId with
  | some row => row.merge t
  | none => t.row now

/-- **What `upsert_trace` does to the tables.** -/
theorem upsertTrace_spec (h : db.upsertTrace now t = some db') :
    db'.traces = Function.update db.traces t.traceId (some (db.mergedRow now t)) ∧
      ∀ id, db'.spans id = (spansOf t.spans id).foldl SpanRow.upsertCell (db.spans id) :=
  upsertSpans_spans h

/-- Whether a payload goes through does not depend on the clock. -/
theorem upsertTrace_isSome (db : TraceDb) (now now' : DateTime) (t : Trace) :
    (db.upsertTrace now t).isSome = (db.upsertTrace now' t).isSome := by
  unfold upsertTrace
  simp only [upsertSpans_isSome, putTrace]
  congr 1
  funext i
  by_cases hi : i = t.traceId
  · simp only [hi, Function.update_self, Option.isSome_some]
  · simp only [Function.update_of_ne hi]

/-! ## Replaying a payload -/

/-- `_persist_trace`: an error undoes the whole transaction. -/
def persistTrace (db : TraceDb) (now : DateTime) (t : Trace) : TraceDb :=
  (db.upsertTrace now t).getD db

/-- The task, run again and again. -/
def persistAgain (db : TraceDb) (t : Trace) (times : List DateTime) : TraceDb :=
  times.foldl (fun db now => db.persistTrace now t) db

/-- The same rows, the tags of a trace taken as a set. -/
structure SameRows (db db' : TraceDb) : Prop where
  traces : ∀ id, Option.Rel TraceRow.Same (db.traces id) (db'.traces id)
  spans : db'.spans = db.spans

theorem SameRows.refl (db : TraceDb) : SameRows db db where
  traces id := by
    cases db.traces id with
    | none => exact .none
    | some row => exact .some (TraceRow.Same.equivalence.refl row)
  spans := rfl

theorem SameRows.trans {a b c : TraceDb} (h : SameRows a b) (h' : SameRows b c) :
    SameRows a c where
  traces id := by
    have hab := h.traces id
    have hbc := h'.traces id
    generalize a.traces id = x, b.traces id = y, c.traces id = z at hab hbc ⊢
    cases hab with
    | none => exact hbc
    | some hxy =>
      cases hbc with
      | some hyz => exact .some (TraceRow.Same.equivalence.trans hxy hyz)
  spans := h'.spans.trans h.spans

/-- The payload has been merged: its trace and spans are as it leaves them. -/
structure Merged (db : TraceDb) (t : Trace) : Prop where
  trace : ∃ row, db.traces t.traceId = some row ∧ TraceRow.Same row (row.merge t)
  spans : ∀ id, (spansOf t.spans id).foldl SpanRow.upsertCell (db.spans id) = db.spans id
  stored : ∀ s ∈ t.spans, (db.spans s.spanId).isSome

/-- **A run leaves the payload merged.** -/
theorem merged_of_upsertTrace (h : db.upsertTrace now t = some db') : Merged db' t := by
  obtain ⟨htraces, hspans⟩ := upsertTrace_spec h
  refine ⟨⟨db.mergedRow now t, by rw [htraces, Function.update_self], ?_⟩, fun id => ?_,
    fun s hs => ?_⟩
  · unfold mergedRow
    split
    next row _ =>
      exact TraceRow.Same.equivalence.symm (TraceRow.absorbs_merge.again row t)
    · exact TraceRow.row_merge t now
  · rw [hspans]
    exact SpanRow.foldl_upsertCell_twice _ _
  · -- the cell of an id that the payload names is filled
    rw [hspans]
    obtain ⟨before, after, hsplit⟩ := List.append_of_mem
      (show s ∈ spansOf t.spans s.spanId from List.mem_filter.mpr ⟨hs, by simp⟩)
    rw [hsplit, List.foldl_append, List.foldl_cons]
    cases before.foldl SpanRow.upsertCell (db.spans s.spanId) with
    | none => rw [SpanRow.upsertCell, SpanRow.foldl_upsertCell_some]; rfl
    | some row => rw [SpanRow.upsertCell, SpanRow.foldl_upsertCell_some]; rfl

theorem Merged.upsertTrace (h : Merged db t) (now : DateTime) :
    ∃ db', db.upsertTrace now t = some db' := by
  rw [← Option.isSome_iff_exists, TraceDb.upsertTrace, upsertSpans_isSome]
  exact accepts_of_stored h.stored

/-- **A run on a merged payload leaves the rows as they are.** -/
theorem Merged.sameRows (h : Merged db t) (hrun : db.upsertTrace now t = some db') :
    SameRows db db' := by
  obtain ⟨htraces, hspans⟩ := upsertTrace_spec hrun
  obtain ⟨row, hrow, hsame⟩ := h.trace
  refine ⟨fun id => ?_, ?_⟩
  · rw [htraces]
    by_cases hid : id = t.traceId
    · subst hid
      rw [Function.update_self, hrow, mergedRow, hrow]
      exact .some hsame
    · rw [Function.update_of_ne hid]
      exact (SameRows.refl db).traces id
  · funext id
    rw [hspans, h.spans]

theorem Merged.persistAgain (h : Merged db t) (times : List DateTime) :
    SameRows db (db.persistAgain t times) := by
  induction times generalizing db with
  | nil => exact .refl db
  | cons now times ih =>
    obtain ⟨db', hrun⟩ := h.upsertTrace now
    have hnext := ih (merged_of_upsertTrace hrun)
    have hpersist : db.persistAgain t (now :: times) = db'.persistAgain t times := by
      simp only [TraceDb.persistAgain, List.foldl_cons, persistTrace, hrun, Option.getD_some]
    rw [hpersist]
    exact (h.sameRows hrun).trans hnext

/-- A payload that violates a constraint violates it again. -/
theorem persistAgain_of_none (h : db.upsertTrace now t = none) (times : List DateTime) :
    db.persistAgain t times = db := by
  induction times with
  | nil => rfl
  | cons now' times ih =>
    have hnone : db.upsertTrace now' t = none := by
      rw [← Option.isNone_iff_eq_none, ← Option.not_isSome, upsertTrace_isSome db now' now t, h]
      rfl
    simp only [persistAgain, List.foldl_cons, persistTrace, hnone, Option.getD_none] at ih ⊢
    exact ih

/-- **Ingestion is idempotent.**  Whatever the tables hold and whatever the payload, running
the task any number of times leaves the rows that running it once leaves. -/
theorem ingestion_idempotent (db : TraceDb) (t : Trace) (now : DateTime) (times : List DateTime) :
    SameRows (db.persistAgain t [now]) (db.persistAgain t (now :: times)) := by
  cases hrun : db.upsertTrace now t with
  | none => rw [persistAgain_of_none hrun, persistAgain_of_none hrun]; exact .refl db
  | some db' =>
    have hpersist : ∀ rest, db.persistAgain t (now :: rest) = db'.persistAgain t rest := by
      intro rest
      simp only [persistAgain, List.foldl_cons, persistTrace, hrun, Option.getD_some]
    rw [hpersist, hpersist]
    exact (merged_of_upsertTrace hrun).persistAgain times

end TraceDb

/-! ## The merge law -/

/-- Python's `None`, as a JSON value. -/
def Json.isNull : Json → Bool
  | .null => true
  | _ => false

/-- The value a JSONB column is read as: `None` for SQL `NULL` and for JSON `null`. -/
def readJson (c : Option Json) : Json := c.getD .null

/-- Non-null incoming values overwrite. -/
def overwrite (incoming : Json) (stored : Option Json) : Json :=
  if incoming.isNull then readJson stored else incoming

/-- No `null` comes in for a stored value. -/
def NoNullOver (incoming : Json) (stored : Option Json) : Prop :=
  incoming.isNull = true → (readJson stored).isNull = true

theorem Json.isNull_iff (v : Json) : v.isNull = true ↔ v = .null := by
  cases v <;> simp [Json.isNull]

/-- What `COALESCE` leaves of a JSONB column is what the law says, unless a `null` comes in for
a stored value: the `null` is bound as a JSON value, which `COALESCE` takes. -/
theorem readJson_coalesce (v : Json) (c : Option Json) :
    readJson (coalesce (jsonb v) c) = overwrite v c ↔ NoNullOver v c := by
  rw [coalesce_jsonb, overwrite, NoNullOver]
  cases hv : v.isNull with
  | false => simp [readJson]
  | true =>
    obtain rfl := (Json.isNull_iff v).mp hv
    simp only [if_true, true_implies, Json.isNull_iff]
    exact eq_comm

/-- What a row ought to be after a trace of the same id has come in. -/
structure TraceRow.Lawful (row : TraceRow) (t : Trace) (row' : TraceRow) : Prop where
  name : row'.name = t.name
  status : row'.status = t.status
  input : readJson row'.input = overwrite t.input row.input
  output : readJson row'.output = overwrite t.output row.output
  metadata : ∀ k, row'.metadata k = (t.metadata k <|> row.metadata k)
  startedAt : row'.startedAt = t.startedAt
  endedAt : row'.endedAt = (t.endedAt <|> row.endedAt)
  sessionId : row'.sessionId = (t.sessionId <|> row.sessionId)
  userId : row'.userId = (t.userId <|> row.userId)
  tags : ∀ x, x ∈ row'.tags ↔ x ∈ row.tags ∨ x ∈ t.tags
  environment : row'.environment = (t.environment <|> row.environment)
  release : row'.release = (t.release <|> row.release)

/-- What a row ought to be after a span of the same id has come in. -/
structure SpanRow.Lawful (row : SpanRow) (s : Span) (row' : SpanRow) : Prop where
  parentSpanId : row'.parentSpanId = (s.parentSpanId <|> row.parentSpanId)
  name : row'.name = s.name
  kind : row'.kind = s.kind
  status : row'.status = s.status
  input : readJson row'.input = overwrite s.input row.input
  output : readJson row'.output = overwrite s.output row.output
  model : row'.model = (s.model <|> row.model)
  tokenUsage : readJson row'.tokenUsage = overwrite s.tokenUsage row.tokenUsage
  metadata : ∀ k, row'.metadata k = (s.metadata k <|> row.metadata k)
  startedAt : row'.startedAt = s.startedAt
  endedAt : row'.endedAt = (s.endedAt <|> row.endedAt)
  error : row'.error = (s.error <|> row.error)
  completionStartTime :
    row'.completionStartTime = (s.completionStartTime <|> row.completionStartTime)
  modelParameters : readJson row'.modelParameters = overwrite s.modelParameters row.modelParameters
  cost : readJson row'.cost = overwrite s.cost row.cost

/-- No `null` comes in for a stored input or output. -/
def TraceRow.Compatible (row : TraceRow) (t : Trace) : Prop :=
  NoNullOver t.input row.input ∧ NoNullOver t.output row.output

/-- No `null` comes in for a stored JSON value, and no other parent than the stored one. -/
def SpanRow.Compatible (row : SpanRow) (s : Span) : Prop :=
  (s.parentSpanId = none ∨ s.parentSpanId = row.parentSpanId) ∧
    NoNullOver s.input row.input ∧ NoNullOver s.output row.output ∧
    NoNullOver s.tokenUsage row.tokenUsage ∧ NoNullOver s.modelParameters row.modelParameters ∧
    NoNullOver s.cost row.cost

theorem TraceRow.lawful_merge (row : TraceRow) (t : Trace) :
    row.Lawful t (row.merge t) ↔ row.Compatible t := by
  constructor
  · intro h
    exact ⟨(readJson_coalesce _ _).mp h.input, (readJson_coalesce _ _).mp h.output⟩
  · rintro ⟨hinput, houtput⟩
    exact
      { name := rfl
        status := rfl
        input := (readJson_coalesce _ _).mpr hinput
        output := (readJson_coalesce _ _).mpr houtput
        metadata := fun _ => rfl
        startedAt := rfl
        endedAt := rfl
        sessionId := rfl
        userId := rfl
        tags := fun x => by simp only [merge, mem_arrayAggDistinct, List.mem_append]
        environment := rfl
        release := rfl }

theorem SpanRow.lawful_merge (row : SpanRow) (s : Span) :
    row.Lawful s (row.merge s) ↔ row.Compatible s := by
  -- the parent is not among the columns that are set
  have hparent : row.parentSpanId = (s.parentSpanId <|> row.parentSpanId) ↔
      s.parentSpanId = none ∨ s.parentSpanId = row.parentSpanId := by
    cases s.parentSpanId with
    | none => simp
    | some p => simp [eq_comm]
  constructor
  · intro h
    exact ⟨hparent.mp h.parentSpanId, (readJson_coalesce _ _).mp h.input,
      (readJson_coalesce _ _).mp h.output, (readJson_coalesce _ _).mp h.tokenUsage,
      (readJson_coalesce _ _).mp h.modelParameters, (readJson_coalesce _ _).mp h.cost⟩
  · rintro ⟨hp, hinput, houtput, htokens, hparams, hcost⟩
    exact
      { parentSpanId := hparent.mpr hp
        name := rfl
        kind := rfl
        status := rfl
        input := (readJson_coalesce _ _).mpr hinput
        output := (readJson_coalesce _ _).mpr houtput
        model := rfl
        tokenUsage := (readJson_coalesce _ _).mpr htokens
        metadata := fun _ => rfl
        startedAt := rfl
        endedAt := rfl
        error := rfl
        completionStartTime := rfl
        modelParameters := (readJson_coalesce _ _).mpr hparams
        cost := (readJson_coalesce _ _).mpr hcost }

namespace TraceDb

/-- A payload: a trace with its spans, or spans for a stored trace. -/
inductive Payload
  | trace (now : DateTime) (t : Trace)
  | spans (traceId projectId : UUID) (l : List Span)

/-- Its spans, in their order. -/
def Payload.spanList : Payload → List Span
  | .trace _ t => t.spans
  | .spans _ _ l => l

/-- `upsert_trace` or `add_spans`; `none` is a violated constraint. -/
def ingest (db : TraceDb) : Payload → Option TraceDb
  | .trace now t => db.upsertTrace now t
  | .spans traceId projectId l => (db.addSpans traceId projectId l).map Prod.fst

/-- The payload is written, not refused for want of the trace. -/
def writes (db : TraceDb) : Payload → Bool
  | .trace _ _ => true
  | .spans traceId projectId _ => db.owns projectId traceId

theorem ingest_spans {db db' : TraceDb} {p : Payload} (hwrites : db.writes p = true)
    (h : db.ingest p = some db') (id : UUID) :
    db'.spans id = (spansOf p.spanList id).foldl SpanRow.upsertCell (db.spans id) := by
  cases p with
  | trace now t => exact (upsertTrace_spec h).2 id
  | spans traceId projectId l =>
    simp only [ingest, addSpans, writes] at h hwrites
    rw [if_pos hwrites, Option.map_map, Option.map_eq_some_iff] at h
    obtain ⟨db₁, hdb₁, rfl⟩ := h
    exact (upsertSpans_spans hdb₁).2 id

/-- **The merge law, and where it holds.**  A stored trace that comes in again is left as the
law says if and only if no `null` comes in for its stored input or output.  A span that comes in
last of its id, for a row that is stored or that earlier spans of the payload have left, is
merged as the law says if and only if no `null` comes in for a stored JSON value and its parent
is null or the stored one. -/
theorem merge_law (db db' : TraceDb) :
    (∀ now t row, db.upsertTrace now t = some db' → db.traces t.traceId = some row →
      ((∃ row', db'.traces t.traceId = some row' ∧ row.Lawful t row') ↔ row.Compatible t)) ∧
    ∀ p before s after row, db.writes p = true → db.ingest p = some db' →
      p.spanList = before ++ s :: after → (∀ x ∈ after, x.spanId ≠ s.spanId) →
      (spansOf before s.spanId).foldl SpanRow.upsertCell (db.spans s.spanId) = some row →
      ((∃ row', db'.spans s.spanId = some row' ∧ row.Lawful s row') ↔ row.Compatible s) := by
  constructor
  · intro now t row hrun hrow
    have hmerged : db'.traces t.traceId = some (row.merge t) := by
      rw [(upsertTrace_spec hrun).1, Function.update_self, mergedRow, hrow]
    rw [← row.lawful_merge t, hmerged]
    simp
  · intro p before s after row hwrites hrun hspans hlast hrow
    have hafter : spansOf after s.spanId = [] := by
      simpa [spansOf, List.filter_eq_nil_iff] using hlast
    have hfilter : spansOf p.spanList s.spanId = spansOf before s.spanId ++ [s] := by
      rw [hspans, spansOf, List.filter_append, List.filter_cons_of_pos (by simp)]
      exact congrArg (fun l => spansOf before s.spanId ++ s :: l) hafter
    have hmerged : db'.spans s.spanId = some (row.merge s) := by
      rw [ingest_spans hwrites hrun, hfilter, List.foldl_append, hrow]
      rfl
    rw [← row.lawful_merge s, hmerged]
    simp

/-- A trace without spans, with an input. -/
def sampleTrace (input : Json) : Trace where
  traceId := "t"
  projectId := "p"
  name := "run"
  status := .completed
  input := input
  output := .null
  metadata := fun _ => none
  startedAt := 0
  endedAt := none
  sessionId := none
  userId := none
  tags := []
  environment := none
  release := none
  spans := []

/-- The tables once the trace is stored with a question as its input. -/
def asked : TraceDb := empty.persistTrace 0 (sampleTrace (.str "question"))

/-- A span of it, with what the model has written so far. -/
def sampleSpan (output : Json) (endedAt : Option DateTime) : Span where
  spanId := "s"
  traceId := "t"
  parentSpanId := none
  name := "llm"
  kind := .llm
  status := .ok
  input := .str "question"
  output := output
  model := some "gpt"
  tokenUsage := .null
  metadata := fun _ => none
  startedAt := 0
  endedAt := endedAt
  error := none
  completionStartTime := none
  modelParameters := .null
  cost := .null

/-- Two versions of the span, of which the first has ended. -/
def draftAndAnswer : Payload :=
  .spans "t" "p" [sampleSpan (.str "draft") (some 1), sampleSpan (.str "answer") none]

/-- Another question overwrites the stored one; of two versions of a span the second overwrites
the output of the first, and leaves its end. -/
theorem merge_law_overwrites : (∃ row',
    (asked.persistTrace 1 (sampleTrace (.str "other"))).traces "t" = some row' ∧
      readJson row'.input = .str "other") ∧
    ∃ db' row', asked.ingest draftAndAnswer = some db' ∧ db'.spans "s" = some row' ∧
      readJson row'.output = .str "answer" ∧ row'.endedAt = some 1 := by
  constructor
  · have hstored : asked.traces "t" = some ((sampleTrace (.str "question")).row 0) := rfl
    have hrun : asked.upsertTrace 1 (sampleTrace (.str "other")) =
        some (asked.persistTrace 1 (sampleTrace (.str "other"))) := rfl
    have hcompatible : ((sampleTrace (.str "question")).row 0).Compatible
        (sampleTrace (.str "other")) := by
      refine ⟨fun h => ?_, fun _ => rfl⟩
      cases h
    obtain ⟨row', hrow', hlaw⟩ :=
      ((merge_law asked _).1 1 _ _ hrun hstored).mpr hcompatible
    exact ⟨row', hrow', hlaw.input⟩
  · obtain ⟨db', hdb'⟩ : ∃ db', asked.ingest draftAndAnswer = some db' := ⟨_, rfl⟩
    have hcompatible : (sampleSpan (.str "draft") (some 1)).row.Compatible
        (sampleSpan (.str "answer") none) := by
      refine ⟨.inl rfl, fun h => ?_, fun h => ?_, fun _ => rfl, fun _ => rfl, fun _ => rfl⟩
      · cases h
      · cases h
    obtain ⟨row', hrow', hlaw⟩ := ((merge_law asked db').2 draftAndAnswer
      [sampleSpan (.str "draft") (some 1)] (sampleSpan (.str "answer") none) [] _ rfl hdb' rfl
      (fun x hx => by cases hx) rfl).mpr hcompatible
    exact ⟨db', row', hdb', hrow', hlaw.output, hlaw.endedAt⟩

/-- A payload without an input erases the stored one. -/
theorem null_erases_input : ¬ ∀ db db' : TraceDb,
    (∀ now t row, db.upsertTrace now t = some db' → db.traces t.traceId = some row →
      row.projectId = t.projectId →
      ∃ row', db'.traces t.traceId = some row' ∧ row.Lawful t row') ∧
    ∀ p before s after row, db.writes p = true → db.ingest p = some db' →
      p.spanList = before ++ s :: after → (∀ x ∈ after, x.spanId ≠ s.spanId) →
      (spansOf before s.spanId).foldl SpanRow.upsertCell (db.spans s.spanId) = some row →
      ∃ row', db'.spans s.spanId = some row' ∧ row.Lawful s row' := by
  intro h
  obtain ⟨row', hrow', hlaw⟩ := (h asked (asked.persistTrace 1 (sampleTrace .null))).1 1
    (sampleTrace .null) ((sampleTrace (.str "question")).row 0) rfl rfl rfl
  cases hrow'
  have hinput : Json.null = Json.str "question" := hlaw.input
  cases hinput

end TraceDb
end PandaProbe
