import PandaProbe.TraceMerge

/-! # Tagging many traces at once

`batch_update_tags` is one UPDATE.  Its value takes each of the removed tags out of the array in
turn; if there is anything to add, the added tags are appended and the array is rebuilt from its
distinct elements.  So a tag in both lists stays, and only an addition drops repeated tags.

The route passes an empty list on as no list, and asks nothing of the database if both are empty
(`batchTags_db`).
-/
namespace PandaProbe

/-- The tags after a batch, as a set, and without repetition if something is added. -/
structure Retagged (add remove old new : List String) : Prop where
  mem_iff : ∀ tag, tag ∈ new ↔ (tag ∈ old ∧ tag ∉ remove) ∨ tag ∈ add
  nodup : add ≠ [] → new.Nodup

theorem mem_removed {tag : String} {remove tags : List String} :
    tag ∈ remove.foldl (fun l t => l.filter (· ≠ t)) tags ↔ tag ∈ tags ∧ tag ∉ remove := by
  induction remove generalizing tags with
  | nil => simp
  | cons t remove ih =>
    rw [List.foldl_cons, ih, List.mem_filter, List.mem_cons, decide_eq_true_eq, not_or, and_assoc]

theorem nodup_arrayAggDistinct (l : List String) : (arrayAggDistinct l).Nodup :=
  (List.perm_insertionSort _ _).nodup_iff.mpr (List.nodup_dedup l)

/-- **Removals first, then additions.** -/
theorem retagged_retag (add remove tags : List String) :
    Retagged add remove tags (retag add remove tags) := by
  unfold retag
  by_cases hadd : add = []
  · subst hadd
    refine ⟨fun tag => ?_, fun h => absurd rfl h⟩
    rw [if_pos rfl, mem_removed]
    simp
  · refine ⟨fun tag => ?_, fun _ => ?_⟩
    · rw [if_neg hadd, mem_arrayAggDistinct, List.mem_append, mem_removed]
    · rw [if_neg hadd]
      exact nodup_arrayAggDistinct _

theorem retag_nil (tags : List String) : retag [] [] tags = tags := rfl

/-- A batch that is repeated finds nothing more to do. -/
theorem mem_retag_retag {add remove tags : List String} {tag : String} :
    tag ∈ retag add remove (retag add remove tags) ↔ tag ∈ retag add remove tags := by
  rw [(retagged_retag add remove _).mem_iff, (retagged_retag add remove tags).mem_iff]
  tauto

namespace TraceDb
variable (db : TraceDb) (projectId : UUID) (traceIds : List UUID) (add remove : List String)

/-- The route `batch_tags`: the tables afterwards, and the count of the traces affected. -/
def batchTags : TraceDb × Nat :=
  if add = [] ∧ remove = [] then (db, 0)
  else (db.batchUpdateTags projectId traceIds add remove,
    (traceIds.dedup.filter (db.owns projectId)).length)

/-- **What a batch does to the tables**: each listed trace of the project is retagged, every
other trace and every span is as it was, and a second batch changes no set of tags. -/
structure Tagged (db' : TraceDb) : Prop where
  listed : ∀ i ∈ traceIds, ∀ row, db.traces i = some row → row.projectId = projectId →
    ∃ tags, db'.traces i = some { row with tags := tags } ∧ Retagged add remove row.tags tags
  others : ∀ i, (∀ row, db.traces i = some row → row.projectId = projectId → i ∉ traceIds) →
    db'.traces i = db.traces i
  spans : db'.spans = db.spans
  repeated : ∀ i row, db'.traces i = some row → ∃ tags,
    (db'.batchUpdateTags projectId traceIds add remove).traces i = some { row with tags := tags } ∧
      ∀ tag, tag ∈ tags ↔ tag ∈ row.tags

variable {db projectId traceIds add remove}

theorem traces_batchUpdateTags {i : UUID} {row : TraceRow} (h : db.traces i = some row) :
    (db.batchUpdateTags projectId traceIds add remove).traces i =
      some (if row.projectId = projectId ∧ i ∈ traceIds then
        { row with tags := retag add remove row.tags } else row) := by
  simp [batchUpdateTags, updateWhere, h]

/-- The route does what the repository does. -/
theorem batchTags_db :
    (db.batchTags projectId traceIds add remove).1 =
      db.batchUpdateTags projectId traceIds add remove := by
  unfold batchTags
  split
  next hnone =>
    obtain ⟨rfl, rfl⟩ := hnone
    have htraces : (db.batchUpdateTags projectId traceIds [] []).traces = db.traces := by
      funext i
      cases h : db.traces i with
      | none => simp [batchUpdateTags, updateWhere, h]
      | some row => rw [traces_batchUpdateTags h, retag_nil, ite_self]
    obtain ⟨traces, spans, hspan⟩ := db
    exact (TraceDb.mk.injEq ..).mpr ⟨htraces.symm, rfl⟩
  · rfl

theorem tagged_batchUpdateTags (db : TraceDb) (projectId : UUID) (traceIds : List UUID)
    (add remove : List String) :
    Tagged db projectId traceIds add remove (db.batchUpdateTags projectId traceIds add remove) where
  listed := by
    intro i hi row hrow hproject
    refine ⟨retag add remove row.tags, ?_, retagged_retag add remove row.tags⟩
    rw [traces_batchUpdateTags hrow, if_pos ⟨hproject, hi⟩]
  others := by
    intro i hi
    cases h : db.traces i with
    | none => simp [batchUpdateTags, updateWhere, h]
    | some row => rw [traces_batchUpdateTags h, if_neg fun hin => hi row h hin.1 hin.2]
  spans := rfl
  repeated := by
    intro i row hrow
    rw [traces_batchUpdateTags hrow]
    by_cases hin : row.projectId = projectId ∧ i ∈ traceIds
    · refine ⟨_, by rw [if_pos hin], fun tag => ?_⟩
      -- the row has been retagged by the first batch
      cases h : db.traces i with
      | none => simp [batchUpdateTags, updateWhere, h] at hrow
      | some old =>
        rw [traces_batchUpdateTags h] at hrow
        split at hrow
        · cases hrow
          exact mem_retag_retag
        next hout =>
          cases hrow
          exact absurd hin hout
    · exact ⟨row.tags, by rw [if_neg hin], fun _ => Iff.rfl⟩

/-- **The law of batch tagging**, for every state of the tables, every list of ids and any two
lists of tags; and the route leaves the tables as the repository does. -/
theorem batch_tagging_law (db : TraceDb) (projectId : UUID) (traceIds : List UUID)
    (add remove : List String) :
    Tagged db projectId traceIds add remove (db.batchUpdateTags projectId traceIds add remove) ∧
      (db.batchTags projectId traceIds add remove).1 =
        db.batchUpdateTags projectId traceIds add remove :=
  ⟨tagged_batchUpdateTags db projectId traceIds add remove, batchTags_db⟩

end TraceDb
end PandaProbe
