import Mathlib

/-! # Rows in groups

A query puts rows into groups by a key and lists the keys in their order, each with something
computed from the rows of its group.  The groups are the rows (`flatMap_group_perm`), so what is
summed up group by group is the sum over all rows (`sum_group`).  A group of a coarser key is the
groups of a finer one under it (`group_comp_perm`).
-/
namespace Aggregation
variable {R K L M : Type*}

/-- The rows of a key. -/
def group [DecidableEq K] (key : R → K) (rows : List R) (k : K) : List R :=
  rows.filter (fun r => key r = k)

/-- The keys that occur, each once and in their order. -/
def keys [LinearOrder K] (key : R → K) (rows : List R) : List K :=
  (rows.map key).dedup.insertionSort (· ≤ ·)

section
variable [DecidableEq K] {key : R → K} {rows : List R} {k : K}

theorem mem_group {r : R} : r ∈ group key rows k ↔ r ∈ rows ∧ key r = k := by
  simp [group]

theorem group_append (rows' : List R) :
    group key (rows ++ rows') k = group key rows k ++ group key rows' k := List.filter_append ..

theorem group_perm {rows' : List R} (h : rows.Perm rows') :
    (group key rows k).Perm (group key rows' k) := h.filter _

/-- **The groups are the rows**, for any list of keys that has each key of a row once. -/
theorem flatMap_group_perm_of_keys {ks : List K} (hks : ks.Nodup) (h : ∀ r ∈ rows, key r ∈ ks) :
    (ks.flatMap (group key rows)).Perm rows := by
  classical
  rw [List.perm_iff_count]
  intro r
  rw [List.count_flatMap]
  by_cases hr : r ∈ rows
  · have hcount : (group key rows (key r)).count r = rows.count r := List.count_filter (by simp)
    have hother : ∀ k, k ≠ key r → k ∈ ks → (List.count r ∘ group key rows) k = 0 :=
      fun k hne _ => List.count_eq_zero.mpr fun hmem => hne (mem_group.mp hmem).2.symm
    rw [List.sum_map_eq_nsmul_single (key r) _ hother, Function.comp_apply, hcount, hks.count,
      if_pos (h r hr), one_smul]
  · rw [List.count_eq_zero.mpr hr]
    refine List.sum_eq_zero fun n hn => ?_
    obtain ⟨k, -, rfl⟩ := List.mem_map.mp hn
    exact List.count_eq_zero.mpr fun hmem => hr (mem_group.mp hmem).1

omit [DecidableEq K] in
theorem sum_map_flatMap [AddCommMonoid M] (ks : List K) (g : K → List R) (f : R → M) :
    ((ks.flatMap g).map f).sum = (ks.map fun k => ((g k).map f).sum).sum := by
  rw [List.map_flatMap, List.flatMap_def, List.sum_flatten, List.map_map]
  rfl

end

/-! ## The keys in their order -/

variable [LinearOrder K] [LinearOrder L] {key : R → K} {rows : List R} {k : K}

theorem mem_keys : k ∈ keys key rows ↔ ∃ r ∈ rows, key r = k := by
  simp [keys]

theorem nodup_keys : (keys key rows).Nodup :=
  (List.perm_insertionSort (· ≤ ·) _).nodup_iff.mpr (List.nodup_dedup _)

/-- The keys ascend. -/
theorem pairwise_keys : (keys key rows).Pairwise (· < ·) := by
  have hle : (keys key rows).Pairwise (· ≤ ·) := List.pairwise_insertionSort (· ≤ ·) _
  exact hle.imp₂ (fun a b hab hne => lt_of_le_of_ne hab hne) nodup_keys

/-- A key that is listed has a row. -/
theorem group_ne_nil (h : k ∈ keys key rows) : group key rows k ≠ [] := by
  obtain ⟨r, hr, rfl⟩ := mem_keys.mp h
  exact List.ne_nil_of_mem (mem_group.mpr ⟨hr, rfl⟩)

theorem flatMap_group_perm : ((keys key rows).flatMap (group key rows)).Perm rows :=
  flatMap_group_perm_of_keys nodup_keys fun r hr => mem_keys.mpr ⟨r, hr, rfl⟩

/-- **The sums over the groups add up to the sum over the rows.** -/
theorem sum_group [AddCommMonoid M] (key : R → K) (f : R → M) :
    ((keys key rows).map fun k => ((group key rows k).map f).sum).sum = (rows.map f).sum := by
  rw [← sum_map_flatMap, (flatMap_group_perm.map f).sum_eq]

theorem sum_length_group (key : R → K) :
    ((keys key rows).map fun k => (group key rows k).length).sum = rows.length := by
  rw [← (@flatMap_group_perm R K _ key rows).length_eq, List.length_flatMap]

theorem sum_countP_group (key : R → K) (p : R → Bool) :
    ((keys key rows).map fun k => (group key rows k).countP p).sum = rows.countP p := by
  rw [← (@flatMap_group_perm R K _ key rows).countP_eq, List.countP_flatMap]
  rfl

/-- What stands at one key, whether or not it is listed. -/
theorem sum_at_key [AddCommMonoid M] (f : List R → M) (hnil : f [] = 0) (k : K) :
    (((keys key rows).filter (· = k)).map fun k => f (group key rows k)).sum =
      f (group key rows k) := by
  by_cases hk : k ∈ keys key rows
  · have hone : (keys key rows).filter (· = k) = [k] := by
      rw [List.filter_eq, nodup_keys.count, if_pos hk, List.replicate_one]
    rw [hone, List.map_singleton, List.sum_singleton]
  · have hgroup : group key rows k = [] := List.filter_eq_nil_iff.mpr fun r hr h =>
      hk (mem_keys.mpr ⟨r, hr, of_decide_eq_true h⟩)
    have hnone : (keys key rows).filter (· = k) = [] := List.filter_eq_nil_iff.mpr fun k' hk' h =>
      hk (of_decide_eq_true h ▸ hk')
    rw [hgroup, hnone, hnil, List.map_nil, List.sum_nil]

/-! ## A coarser key -/

variable (c : K → L)

/-- **A coarse group is the fine groups under it.** -/
theorem group_comp_perm (l : L) :
    (group (fun r => c (key r)) rows l).Perm
      ((group c (keys key rows) l).flatMap (group key rows)) := by
  have hfine : ∀ k ∈ group c (keys key rows) l,
      group key rows k = group key (group (fun r => c (key r)) rows l) k := by
    intro k hk
    rw [group, group, group, List.filter_filter]
    refine List.filter_congr fun r _ => ?_
    have hl := (mem_group.mp hk).2
    by_cases hr : key r = k
    · simp [hr, hl]
    · simp [hr]
  rw [List.flatMap_congr hfine]
  refine (flatMap_group_perm_of_keys (nodup_keys.filter _) fun r hr => ?_).symm
  obtain ⟨hr, hl⟩ := mem_group.mp hr
  exact mem_group.mpr ⟨mem_keys.mpr ⟨r, hr, rfl⟩, hl⟩

end Aggregation
