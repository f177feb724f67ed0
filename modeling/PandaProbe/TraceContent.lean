import PandaProbe.Absorption
import PandaProbe.TraceMerge

/-! # What a list of writes leaves

A worker merges a payload into the row of its trace and the rows of its spans.  A row keeps some
columns from its insert, the project and the creation time of a trace, the trace and the parent of
a span; the others are its content.  The content is absorbed by later merges of the same payload,
so a list of writes leaves what its last writes leave (`writeLog_last`); payloads that name no
trace and no span in common may be written in any order (`writeOnce_perm`); and what a row keeps
comes from the first payload that named it (`writeAll_traceBirth`, `writeAll_spanBirth`).
-/
namespace PandaProbe
open Absorption

/-! ## Rows, less what they keep from their insert -/

/-- Two rows of `traces` that differ at most in the project, the creation time and the order of
the tags. -/
structure TraceRow.SameContent (r r' : TraceRow) : Prop where
  columns : { r' with projectId := r.projectId, tags := r.tags, createdAt := r.createdAt } = r
  tags : ∀ x, x ∈ r'.tags ↔ x ∈ r.tags

/-- Two rows of `spans` that differ at most in the trace and the parent. -/
def SpanRow.SameContent (r r' : SpanRow) : Prop :=
  { r' with traceId := r.traceId, parentSpanId := r.parentSpanId } = r

/-- What a row of `traces` keeps from its insert. -/
def TraceRow.birth (r : TraceRow) : UUID × DateTime := (r.projectId, r.createdAt)

/-- What a row of `spans` keeps from its insert. -/
def SpanRow.birth (r : SpanRow) : UUID × Option UUID := (r.traceId, r.parentSpanId)

namespace TraceRow

theorem SameContent.equivalence : Equivalence SameContent where
  refl _ := ⟨rfl, fun _ => Iff.rfl⟩
  symm h := by
    obtain ⟨hcol, htags⟩ := h
    refine ⟨?_, fun x => (htags x).symm⟩
    rw [← hcol]
  trans h h' := by
    obtain ⟨hcol, htags⟩ := h
    obtain ⟨hcol', htags'⟩ := h'
    refine ⟨?_, fun x => (htags' x).trans (htags x)⟩
    rw [← hcol, ← hcol']

theorem merge_absorbs : Absorbs SameContent TraceRow.merge where
  equiv := SameContent.equivalence
  congr a h := by
    obtain ⟨hcol, htags⟩ := h
    refine ⟨?_, fun x => ?_⟩
    · rw [← hcol]
      rfl
    · simp only [merge, mem_arrayAggDistinct, List.mem_append, htags]
  again r a := by
    refine ⟨?_, fun x => ?_⟩
    · simp [merge, JsonDict.merge_self, coalesce_self]
    · simp only [merge, mem_arrayAggDistinct, List.mem_append]
      tauto
  between r a b := by
    refine ⟨?_, fun x => ?_⟩
    · simp [merge, JsonDict.merge_between, coalesce_between]
    · simp only [merge, mem_arrayAggDistinct, List.mem_append]
      tauto

end TraceRow

theorem JsonDict.merge_back (m p : JsonDict) : (m.merge p).merge m = p.merge m := by
  funext k
  cases h : m k <;> simp [merge, h]

theorem coalesce_back {α : Type} (a b : Option α) : coalesce a (coalesce b a) = coalesce a b := by
  cases a <;> cases b <;> rfl

/-- The cell of a trace, which a payload fills or merges into. -/
def TraceRow.upsertCell (cell : Option TraceRow) (t : Trace × DateTime) : Option TraceRow :=
  fill (fun t => t.1.row t.2) (fun row t => row.merge t.1) cell t

theorem TraceRow.upsertCell_absorbs :
    Absorbs (SameCell TraceRow.SameContent) TraceRow.upsertCell := by
  refine (TraceRow.merge_absorbs.comap Prod.fst).cells (fun t => ?_) fun t u => ?_
  · refine ⟨?_, fun x => ?_⟩
    · simp [merge, Trace.row, coalesce_same, JsonDict.merge_same, jsonb]
    · simp [merge, Trace.row, mem_arrayAggDistinct]
  · refine ⟨?_, fun x => ?_⟩
    · simp [merge, Trace.row, JsonDict.merge_back, coalesce_back]
    · simp only [merge, Trace.row, mem_arrayAggDistinct, List.mem_append]
      tauto

namespace SpanRow

theorem SameContent.equivalence : Equivalence SameContent where
  refl _ := rfl
  symm h := by
    unfold SameContent at h ⊢
    rw [← h]
  trans h h' := by
    unfold SameContent at h h' ⊢
    rw [← h, ← h']

theorem merge_absorbs : Absorbs SameContent SpanRow.merge where
  equiv := SameContent.equivalence
  congr a h := by
    unfold SameContent at h ⊢
    rw [← h]
    rfl
  again r a := by rw [absorbs_merge.again]; exact SameContent.equivalence.refl _
  between r a b := by rw [absorbs_merge.between]; exact SameContent.equivalence.refl _

theorem upsertCell_absorbs : Absorbs (SameCell SameContent) upsertCell := by
  have hcells : Absorbs (SameCell SameContent) (fill Span.row merge) := by
    refine merge_absorbs.cells (fun s => ?_) fun s u => ?_
    · rw [row_merge]
      exact SameContent.equivalence.refl _
    · simp [SameContent, merge, Span.row, JsonDict.merge_back, coalesce_back]
  have hfill : fill Span.row merge = upsertCell := by
    funext cell s
    cases cell <;> rfl
  rwa [hfill] at hcells

end SpanRow

/-! ## The tables after a list of writes -/

namespace TraceDb
variable {db : TraceDb} {t : Trace} {now : DateTime}

/-- The spans name the trace they come with. -/
def OwnSpans (t : Trace) : Prop := ∀ s ∈ t.spans, s.traceId = t.traceId

/-- What a payload does to the cell of a trace. -/
def traceCell (id : UUID) (cell : Option TraceRow) (e : Trace × DateTime) : Option TraceRow :=
  if e.1.traceId = id then TraceRow.upsertCell cell e else cell

/-- What a payload does to the cell of a span. -/
def spanCell (id : UUID) (cell : Option SpanRow) (e : Trace × DateTime) : Option SpanRow :=
  (spansOf e.1.spans id).foldl SpanRow.upsertCell cell

/-- The payloads are written one after another. -/
def writeAll (db : TraceDb) (l : List (Trace × DateTime)) : TraceDb :=
  l.foldl (fun db e => db.persistTrace e.2 e.1) db

/-- A payload with its own spans violates no constraint. -/
theorem upsertTrace_of_ownSpans (hown : OwnSpans t) (db : TraceDb) (now : DateTime) :
    ∃ db', db.upsertTrace now t = some db' := by
  rw [← Option.isSome_iff_exists, upsertTrace, upsertSpans_isSome]
  have haccepts : ∀ (l : List Span) (traces spans : UUID → Bool),
      (∀ s ∈ l, traces s.traceId = true) → accepts traces spans l = true := by
    intro l traces
    induction l with
    | nil => exact fun _ _ => rfl
    | cons s l ih =>
      intro spans h
      obtain ⟨hs, hl⟩ := List.forall_mem_cons.mp h
      rw [accepts, hs, Bool.or_true, Bool.true_and]
      exact ih _ hl
  refine haccepts _ _ _ fun s hs => ?_
  rw [hown s hs]
  simp [putTrace]

/-- **What a payload does to the tables**, cell by cell. -/
theorem persistTrace_cells (hown : OwnSpans t) (db : TraceDb) (now : DateTime) (id : UUID) :
    (db.persistTrace now t).traces id = traceCell id (db.traces id) (t, now) ∧
      (db.persistTrace now t).spans id = spanCell id (db.spans id) (t, now) := by
  obtain ⟨db', hrun⟩ := upsertTrace_of_ownSpans hown db now
  obtain ⟨htraces, hspans⟩ := upsertTrace_spec hrun
  rw [persistTrace, hrun, Option.getD_some]
  refine ⟨?_, hspans id⟩
  rw [htraces, traceCell]
  by_cases hid : t.traceId = id
  · subst hid
    rw [Function.update_self, if_pos rfl, mergedRow]
    cases db.traces t.traceId <;> rfl
  · rw [Function.update_of_ne (Ne.symm hid), if_neg hid]

theorem writeAll_cells {l : List (Trace × DateTime)} (hown : ∀ e ∈ l, OwnSpans e.1) (db : TraceDb)
    (id : UUID) :
    (db.writeAll l).traces id = l.foldl (traceCell id) (db.traces id) ∧
      (db.writeAll l).spans id = l.foldl (spanCell id) (db.spans id) := by
  induction l generalizing db with
  | nil => exact ⟨rfl, rfl⟩
  | cons e l ih =>
    obtain ⟨he, hl⟩ := List.forall_mem_cons.mp hown
    obtain ⟨htrace, hspan⟩ := persistTrace_cells he db e.2 id
    have hrest := ih hl (db.persistTrace e.2 e.1)
    rw [htrace, hspan] at hrest
    exact hrest

theorem traceCell_absorbs (id : UUID) :
    Absorbs (SameCell TraceRow.SameContent) (traceCell id) :=
  TraceRow.upsertCell_absorbs.guarded fun e => e.1.traceId = id

theorem spanCell_absorbs (id : UUID) : Absorbs (SameCell SpanRow.SameContent) (spanCell id) :=
  SpanRow.upsertCell_absorbs.lists.comap fun e : Trace × DateTime => spansOf e.1.spans id

/-- The same traces and spans with the same content. -/
structure SameContent (db db' : TraceDb) : Prop where
  traces : ∀ id, SameCell TraceRow.SameContent (db.traces id) (db'.traces id)
  spans : ∀ id, SameCell SpanRow.SameContent (db.spans id) (db'.spans id)

theorem SameContent.trans {a b c : TraceDb} (h : SameContent a b) (h' : SameContent b c) :
    SameContent a c where
  traces id := (sameCell_equivalence TraceRow.SameContent.equivalence).trans (h.traces id)
    (h'.traces id)
  spans id := (sameCell_equivalence SpanRow.SameContent.equivalence).trans (h.spans id)
    (h'.spans id)

/-- The time of a write is not content. -/
theorem traceCell_now (id : UUID) (cell : Option TraceRow) (t : Trace) (now now' : DateTime) :
    SameCell TraceRow.SameContent (traceCell id cell (t, now)) (traceCell id cell (t, now')) := by
  unfold traceCell
  split
  · cases cell with
    | none => exact .some ⟨rfl, fun _ => Iff.rfl⟩
    | some row => exact .some (TraceRow.SameContent.equivalence.refl _)
  · exact (sameCell_equivalence TraceRow.SameContent.equivalence).refl cell

/-! ### A log of writes by message number -/

/-- The payload of a message. -/
def payload (messages : List Trace) (i : Nat) (now : DateTime) : List (Trace × DateTime) :=
  (messages[i]?.map fun t => (t, now)).toList

/-- The messages of a log are written. -/
def writeLog (db : TraceDb) (messages : List Trace) (log : List (Nat × DateTime)) : TraceDb :=
  db.writeAll (log.flatMap fun e => payload messages e.1 e.2)

/-- Each message is written once, in this order. -/
def writeOnce (db : TraceDb) (messages : List Trace) (order : List Nat) : TraceDb :=
  db.writeLog messages (order.map fun i => (i, 0))

variable {messages : List Trace}

theorem ownSpans_flatMap (hown : ∀ t ∈ messages, OwnSpans t) (log : List (Nat × DateTime)) :
    ∀ e ∈ log.flatMap fun e => payload messages e.1 e.2, OwnSpans e.1 := by
  intro e he
  obtain ⟨x, -, he⟩ := List.mem_flatMap.mp he
  simp only [payload, Option.mem_toList, Option.map_eq_some_iff] at he
  obtain ⟨t, ht, rfl⟩ := he
  exact hown t (List.mem_of_getElem? ht)

theorem writeLog_cells (hown : ∀ t ∈ messages, OwnSpans t) (db : TraceDb)
    (log : List (Nat × DateTime)) (id : UUID) :
    (db.writeLog messages log).traces id =
        log.foldl (fun c e => (payload messages e.1 e.2).foldl (traceCell id) c) (db.traces id) ∧
      (db.writeLog messages log).spans id =
        log.foldl (fun c e => (payload messages e.1 e.2).foldl (spanCell id) c) (db.spans id) := by
  obtain ⟨htrace, hspan⟩ := writeAll_cells (ownSpans_flatMap hown log) db id
  rw [writeLog, htrace, hspan, List.foldl_flatMap, List.foldl_flatMap]
  exact ⟨rfl, rfl⟩

theorem writeOnce_cells (hown : ∀ t ∈ messages, OwnSpans t) (db : TraceDb) (order : List Nat)
    (id : UUID) :
    (db.writeOnce messages order).traces id =
        order.foldl (fun c i => (payload messages i 0).foldl (traceCell id) c) (db.traces id) ∧
      (db.writeOnce messages order).spans id =
        order.foldl (fun c i => (payload messages i 0).foldl (spanCell id) c) (db.spans id) := by
  obtain ⟨htrace, hspan⟩ := writeLog_cells hown db (order.map fun i => (i, 0)) id
  rw [writeOnce, htrace, hspan, List.foldl_map, List.foldl_map]
  exact ⟨rfl, rfl⟩

/-- **Writing a log is writing each message once, in the order of the last writes.** -/
theorem writeLog_last (hown : ∀ t ∈ messages, OwnSpans t) (db : TraceDb)
    (log : List (Nat × DateTime)) :
    SameContent (db.writeOnce messages (log.map Prod.fst).dedup) (db.writeLog messages log) := by
  constructor
  · intro id
    rw [(writeOnce_cells hown db _ id).1, (writeLog_cells hown db log id).1]
    have habs := (traceCell_absorbs id).lists.comap fun i => payload messages i 0
    refine habs.equiv.trans (habs.last _ _) (habs.equiv.symm ?_)
    refine habs.foldl_map (f := Prod.fst) (fun c e => ?_) log _
    unfold payload
    cases messages[e.1]? with
    | none => exact habs.equiv.refl c
    | some t => exact traceCell_now id c t e.2 0
  · intro id
    rw [(writeOnce_cells hown db _ id).2, (writeLog_cells hown db log id).2]
    have habs := (spanCell_absorbs id).lists.comap fun i => payload messages i 0
    refine habs.equiv.trans (habs.last _ _) (habs.equiv.symm ?_)
    refine habs.foldl_map (f := Prod.fst) (fun c e => ?_) log _
    unfold payload
    cases messages[e.1]? with
    | none => exact habs.equiv.refl c
    | some t => exact habs.equiv.refl _

/-- Two payloads that name no trace and no span in common. -/
def Apart (t u : Trace) : Prop :=
  t.traceId ≠ u.traceId ∧ ∀ s ∈ t.spans, ∀ r ∈ u.spans, s.spanId ≠ r.spanId

theorem traceCell_of_ne {id : UUID} {e : Trace × DateTime} (h : e.1.traceId ≠ id)
    (cell : Option TraceRow) : traceCell id cell e = cell := if_neg h

theorem spanCell_of_notMem {id : UUID} {e : Trace × DateTime} (h : ∀ s ∈ e.1.spans, s.spanId ≠ id)
    (cell : Option SpanRow) : spanCell id cell e = cell := by
  have hnil : spansOf e.1.spans id = [] := by
    simpa [spansOf, List.filter_eq_nil_iff] using h
  rw [spanCell, hnil]
  rfl

/-- **Payloads apart may be written in any order.** -/
theorem writeOnce_perm (hown : ∀ t ∈ messages, OwnSpans t) (db : TraceDb) {order order' : List Nat}
    (hperm : order.Perm order')
    (hapart : ∀ i ∈ order, ∀ j ∈ order, i ≠ j → ∀ t u, messages[i]? = some t →
      messages[j]? = some u → Apart t u) :
    SameContent (db.writeOnce messages order) (db.writeOnce messages order') := by
  constructor
  · intro id
    rw [(writeOnce_cells hown db order id).1, (writeOnce_cells hown db order' id).1]
    have heq := hperm.foldl_eq' (f := fun c i => (payload messages i 0).foldl (traceCell id) c)
      (fun i hi j hj c => ?_) (db.traces id)
    · rw [heq]
      exact (sameCell_equivalence TraceRow.SameContent.equivalence).refl _
    · by_cases hij : i = j
      · rw [hij]
      unfold payload
      cases ht : messages[i]? with
      | none => rfl
      | some t =>
        cases hu : messages[j]? with
        | none => rfl
        | some u =>
          obtain ⟨hne, -⟩ := hapart i hi j hj hij t u ht hu
          -- at most one of the two names the cell
          by_cases htid : t.traceId = id
          · have huid : u.traceId ≠ id := fun h => hne (htid.trans h.symm)
            simp [traceCell_of_ne (e := (u, 0)) huid]
          · simp [traceCell_of_ne (e := (t, 0)) htid]
  · intro id
    rw [(writeOnce_cells hown db order id).2, (writeOnce_cells hown db order' id).2]
    have heq := hperm.foldl_eq' (f := fun c i => (payload messages i 0).foldl (spanCell id) c)
      (fun i hi j hj c => ?_) (db.spans id)
    · rw [heq]
      exact (sameCell_equivalence SpanRow.SameContent.equivalence).refl _
    · by_cases hij : i = j
      · rw [hij]
      unfold payload
      cases ht : messages[i]? with
      | none => rfl
      | some t =>
        cases hu : messages[j]? with
        | none => rfl
        | some u =>
          obtain ⟨-, hspans⟩ := hapart i hi j hj hij t u ht hu
          by_cases htid : ∃ s ∈ t.spans, s.spanId = id
          · obtain ⟨s, hs, hsid⟩ := htid
            have huid : ∀ r ∈ u.spans, r.spanId ≠ id := fun r hr h =>
              hspans s hs r hr (hsid.trans h.symm)
            simp [spanCell_of_notMem (e := (u, 0)) huid]
          · have htid : ∀ s ∈ t.spans, s.spanId ≠ id := fun s hs h => htid ⟨s, hs, h⟩
            simp [spanCell_of_notMem (e := (t, 0)) htid]

/-! ### What a row keeps from its insert -/

/-- **A trace keeps the project and the time of the first payload that named it.** -/
theorem writeAll_traceBirth {l : List (Trace × DateTime)} (hown : ∀ e ∈ l, OwnSpans e.1)
    (db : TraceDb) (id : UUID) :
    ((db.writeAll l).traces id).map TraceRow.birth =
      ((db.traces id).map TraceRow.birth).or
        ((l.find? fun e => e.1.traceId = id).map fun e => (e.1.projectId, e.2)) := by
  have hfold : l.foldl (traceCell id) (db.traces id) =
      (l.filter fun e => e.1.traceId = id).foldl
        (fill (fun t => t.1.row t.2) fun row t => row.merge t.1) (db.traces id) := by
    rw [List.foldl_filter]
    simp only [decide_eq_true_eq]
    rfl
  have hkeep : ∀ (row : TraceRow) (t : Trace × DateTime), (row.merge t.1).birth = row.birth :=
    fun _ _ => rfl
  rw [(writeAll_cells hown db id).1, hfold, foldl_fill_birth hkeep, List.head?_filter]
  rfl

/-- **A span keeps the trace and the parent it was first sent with.** -/
theorem writeAll_spanBirth {l : List (Trace × DateTime)} (hown : ∀ e ∈ l, OwnSpans e.1)
    (db : TraceDb) (id : UUID) :
    ((db.writeAll l).spans id).map SpanRow.birth =
      ((db.spans id).map SpanRow.birth).or
        (((l.flatMap fun e => e.1.spans).find? fun s => s.spanId = id).map fun s =>
          (s.traceId, s.parentSpanId)) := by
  have hfold : l.foldl (spanCell id) (db.spans id) =
      ((l.flatMap fun e => e.1.spans).filter fun s => s.spanId = id).foldl
        (fill Span.row SpanRow.merge) (db.spans id) := by
    have hfill : fill Span.row SpanRow.merge = SpanRow.upsertCell := by
      funext cell s
      cases cell <;> rfl
    rw [hfill, List.filter_flatMap, List.foldl_flatMap]
    rfl
  have hkeep : ∀ (row : SpanRow) (s : Span), (row.merge s).birth = row.birth := fun _ _ => rfl
  rw [(writeAll_cells hown db id).2, hfold, foldl_fill_birth hkeep, List.head?_filter]
  rfl

end TraceDb
end PandaProbe
