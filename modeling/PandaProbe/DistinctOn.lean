import PandaProbe.Paging

/-! # The first row of each key

`SELECT DISTINCT ON (key) … ORDER BY key, …` sorts the rows and keeps, of all rows with one key,
the one that the sort puts first.  Where several rows of a key compare equal and none comes
before them, each of them is kept by some sort (`exists_sort_of_isFirst`).  What is kept is one
row a key in any case, and its number is the number of the keys.
-/
namespace Paging

namespace Comparison
variable {α β : Type}

/-- Compare by the second column where the first compares equal. -/
def thenBy (c d : Comparison α) : Comparison α where
  le a b := c.le a b && (!c.le b a || d.le a b)
  total a b := by
    have hc := c.total a b
    have hd := d.total a b
    cases h : c.le a b <;> cases h' : c.le b a <;> simp_all
  trans a b e hab hbe := by
    simp only [Bool.and_eq_true, Bool.or_eq_true, Bool.not_eq_true', Bool.eq_false_iff] at hab hbe ⊢
    refine ⟨c.trans a b e hab.1 hbe.1, ?_⟩
    by_cases hea : c.le e a
    · right
      exact d.trans a b e (hab.2.resolve_left (not_not.mpr (c.trans b e a hbe.1 hea)))
        (hbe.2.resolve_left (not_not.mpr (c.trans e a b hea hab.1)))
    · exact .inl hea

variable {c d : Comparison α}

/-- A finer sort is a sort. -/
theorem Sorts.coarsen {order : List α → List α} (h : (c.thenBy d).Sorts order) : c.Sorts order :=
  fun l => ⟨(h l).1, (h l).2.imp fun hab => ((Bool.and_eq_true _ _).mp hab).1⟩

theorem le_of_thenBy {a b : α} (h : (c.thenBy d).le a b) (hba : c.le b a) : d.le a b := by
  rw [thenBy, Bool.and_eq_true, hba, Bool.not_true, Bool.false_or] at h
  exact h.2

end Comparison

variable {α κ : Type} [DecidableEq κ] {key : α → κ} {rows : List α} {r : α}

/-- The first row of each key. -/
def distinctOn (key : α → κ) : List α → List α
  | [] => []
  | r :: rows => r :: (distinctOn key rows).filter fun x => key x ≠ key r

/-- **What is kept**: a row that no row of its key stands in front of. -/
theorem mem_distinctOn : r ∈ distinctOn key rows ↔ rows.find? (key · = key r) = some r := by
  induction rows with
  | nil => simp [distinctOn]
  | cons x rows ih =>
    by_cases hkey : key x = key r
    · rw [List.find?_cons_of_pos (by simpa using hkey)]
      simp [distinctOn, hkey, eq_comm]
    · rw [List.find?_cons_of_neg (by simpa using hkey), ← ih]
      have hne : r ≠ x := fun h => hkey (congrArg key h).symm
      simp [distinctOn, hne, Ne.symm hkey]

theorem exists_find_key (key : α → κ) (hr : r ∈ rows) :
    ∃ x, rows.find? (key · = key r) = some x ∧ key x = key r := by
  have hsome : (rows.find? (key · = key r)).isSome :=
    List.find?_isSome.mpr ⟨r, hr, decide_eq_true rfl⟩
  obtain ⟨x, hx⟩ := Option.isSome_iff_exists.mp hsome
  exact ⟨x, hx, by simpa using List.find?_some hx⟩

theorem distinctOn_subset : distinctOn key rows ⊆ rows :=
  fun _ hr => List.mem_of_find?_eq_some (mem_distinctOn.mp hr)

theorem nodup_distinctOn : ((distinctOn key rows).map key).Nodup := by
  induction rows with
  | nil => exact List.nodup_nil
  | cons x rows ih =>
    rw [distinctOn, List.map_cons, List.nodup_cons]
    refine ⟨?_, ih.sublist (List.filter_sublist.map key)⟩
    simp

/-- **Every key is kept once.** -/
theorem map_key_distinctOn {k : κ} : k ∈ (distinctOn key rows).map key ↔ k ∈ rows.map key := by
  refine ⟨fun h => List.map_subset key distinctOn_subset h, fun h => ?_⟩
  obtain ⟨r, hr, rfl⟩ := List.mem_map.mp h
  obtain ⟨x, hx, hkey⟩ := exists_find_key key hr
  exact List.mem_map.mpr ⟨x, mem_distinctOn.mpr (by rwa [hkey]), hkey⟩

/-- The number of the rows that are kept does not depend on the sort. -/
theorem length_distinctOn {rows' : List α} (h : rows.Perm rows') :
    (distinctOn key rows).length = (distinctOn key rows').length := by
  rw [← List.length_map key, ← List.length_map key]
  refine ((List.perm_ext_iff_of_nodup nodup_distinctOn nodup_distinctOn).mpr fun k => ?_).length_eq
  rw [map_key_distinctOn, map_key_distinctOn]
  exact (h.map key).mem_iff

/-! ## The first rows of a key -/

/-- No row of its key comes before the row. -/
def IsFirst (c : Comparison α) (key : α → κ) (rows : List α) (r : α) : Prop :=
  r ∈ rows ∧ ∀ x ∈ rows, key x = key r → c.le r x

variable {c : Comparison α} {k : Comparison κ} {order : List α → List α}

/-- A sort keeps first rows only. -/
theorem isFirst_of_mem (h : ((k.on key).thenBy c).Sorts order)
    (hr : r ∈ distinctOn key (order rows)) : IsFirst c key rows r := by
  obtain ⟨hperm, hsorted⟩ := h rows
  refine ⟨hperm.subset (distinctOn_subset hr), fun x hx hkey => ?_⟩
  obtain ⟨-, before, after, happ, hbefore⟩ :=
    List.find?_eq_some_iff_append.mp (mem_distinctOn.mp hr)
  rw [happ, List.pairwise_append, List.pairwise_cons] at hsorted
  -- nothing of the key is in front of the row
  have hmem : x ∈ before ++ r :: after := happ ▸ hperm.symm.subset hx
  rcases List.mem_append.mp hmem with hx | hx
  · simpa [hkey] using hbefore x hx
  · rcases List.mem_cons.mp hx with rfl | hx
    · exact c.le_refl _
    · refine Comparison.le_of_thenBy (hsorted.2.1.1 x hx) ?_
      change k.le (key x) (key r)
      rw [hkey]
      exact k.le_refl _

open Classical in
/-- **Every first row is kept by some sort.** -/
theorem exists_sort_of_isFirst (k : Comparison κ) (h : IsFirst c key rows r) :
    ∃ order, ((k.on key).thenBy c).Sorts order ∧ r ∈ distinctOn key (order rows) := by
  -- where the sort leaves it open, the row comes before the others
  let favour : Comparison α :=
    { le := fun a b => decide (b = r → a = r)
      total := fun a b => by simp only [Bool.or_eq_true, decide_eq_true_eq]; tauto
      trans := fun a b e hab hbe => by simp only [decide_eq_true_eq] at *; tauto }
  have hsorts : (((k.on key).thenBy c).thenBy favour).Sorts _ := Comparison.sorts_reference
  refine ⟨_, hsorts.coarsen, mem_distinctOn.mpr ?_⟩
  obtain ⟨hperm, hsorted⟩ := hsorts rows
  generalize (((k.on key).thenBy c).thenBy favour).reference rows = l at hperm hsorted
  obtain ⟨x, hx, hkey⟩ := exists_find_key key (hperm.symm.subset h.1)
  obtain ⟨-, before, after, rfl, hbefore⟩ := List.find?_eq_some_iff_append.mp hx
  rw [hx]
  rcases List.mem_append.mp (hperm.symm.subset h.1) with hr | hr
  · exact absurd (hbefore r hr) (by simp)
  rcases List.mem_cons.mp hr with rfl | hr
  · rfl
  have hle := (List.pairwise_cons.mp (List.pairwise_append.mp hsorted).2.1).1 r hr
  have hback : ((k.on key).thenBy c).le r x := by
    have hfirst := h.2 x (hperm.subset List.mem_append_cons_self) hkey
    have hrefl : (k.on key).le r x := by
      change k.le (key r) (key x)
      rw [hkey]
      exact k.le_refl _
    rw [Comparison.thenBy, Bool.and_eq_true, hfirst, Bool.or_true]
    exact ⟨hrefl, rfl⟩
  exact congrArg some (of_decide_eq_true (Comparison.le_of_thenBy hle hback) rfl)

/-- **What a sort keeps is the same for all sorts, up to order, if the first rows of a key are
equal.** -/
theorem distinctOn_perm {order' : List α → List α} (h : ((k.on key).thenBy c).Sorts order)
    (h' : ((k.on key).thenBy c).Sorts order')
    (hfirst : ∀ r r', IsFirst c key rows r → IsFirst c key rows r' → key r = key r' → r = r') :
    (distinctOn key (order rows)).Perm (distinctOn key (order' rows)) := by
  have hkept : ∀ {order order' : List α → List α}, ((k.on key).thenBy c).Sorts order →
      ((k.on key).thenBy c).Sorts order' →
      ∀ r ∈ distinctOn key (order rows), r ∈ distinctOn key (order' rows) := by
    intro order order' h h' r hr
    have hmem := map_key_distinctOn.mp (List.mem_map_of_mem (f := key) hr)
    have hmem' := map_key_distinctOn.mpr
      ((((h rows).1.trans (h' rows).1.symm).map key).subset hmem)
    obtain ⟨r', hr', hkey⟩ := List.mem_map.mp hmem'
    rwa [hfirst r r' (isFirst_of_mem h hr) (isFirst_of_mem h' hr') hkey.symm]
  rw [List.perm_ext_iff_of_nodup nodup_distinctOn.of_map nodup_distinctOn.of_map]
  exact fun r => ⟨hkept h h' r, hkept h' h r⟩

end Paging
