import Mathlib.Algebra.Order.BigOperators.Group.List
import Mathlib.Data.List.Sort
import Mathlib.Order.Basic

/-! # The largest few of a list

A list sorted from the largest down, and the sum of its first `k` entries.  Both depend on the
list only up to order, both grow with its entries, and no choice of `k` entries adds up to more
than the first `k`.
-/
namespace TopK
variable {α : Type} [LinearOrder α]

/-- The list, largest first. -/
def descending (l : List α) : List α := l.insertionSort (fun a b => b ≤ a)

theorem descending_perm (l : List α) : (descending l).Perm l := List.perm_insertionSort _ l

theorem descending_pairwise (l : List α) : (descending l).Pairwise (fun a b => b ≤ a) :=
  List.pairwise_insertionSort (fun a b => b ≤ a) l

@[simp] theorem length_descending (l : List α) : (descending l).length = l.length :=
  (descending_perm l).length_eq

@[simp] theorem mem_descending {l : List α} {a : α} : a ∈ descending l ↔ a ∈ l :=
  (descending_perm l).mem_iff

theorem descending_eq_nil {l : List α} : descending l = [] ↔ l = [] := by
  rw [← List.length_eq_zero_iff, length_descending, List.length_eq_zero_iff]

/-- **Sorting forgets the order.** -/
theorem descending_eq_of_perm {l l' : List α} (h : l.Perm l') : descending l = descending l' :=
  List.Perm.eq_of_pairwise (fun _ _ _ _ hab hba => le_antisymm hba hab) (descending_pairwise l)
    (descending_pairwise l') ((descending_perm l).trans (h.trans (descending_perm l').symm))

/-- Inserting a smaller entry into a smaller list gives a smaller list. -/
theorem orderedInsert_mono {a a' : α} {l l' : List α} (ha : a ≤ a')
    (h : List.Forall₂ (· ≤ ·) l l') (hl : l.Pairwise (fun a b => b ≤ a))
    (hl' : l'.Pairwise (fun a b => b ≤ a)) :
    List.Forall₂ (· ≤ ·) (l.orderedInsert (fun a b => b ≤ a) a)
      (l'.orderedInsert (fun a b => b ≤ a) a') := by
  induction h generalizing a a' with
  | nil => exact .cons ha .nil
  | @cons x y xs ys hxy h ih =>
    obtain ⟨hx, hxs⟩ := List.pairwise_cons.mp hl
    obtain ⟨hy, hys⟩ := List.pairwise_cons.mp hl'
    -- a list is what comes of inserting its head into its tail
    have hhead : ∀ {z : α} {zs : List α}, (∀ b ∈ zs, b ≤ z) →
        zs.orderedInsert (fun a b => b ≤ a) z = z :: zs := by
      intro z zs hz
      cases zs with
      | nil => rfl
      | cons w ws => exact List.orderedInsert_cons_of_le (fun a b : α => b ≤ a) ws (hz w List.mem_cons_self)
    by_cases hxa : x ≤ a
    · rw [List.orderedInsert_cons_of_le (fun a b : α => b ≤ a) xs hxa]
      by_cases hya : y ≤ a'
      · rw [List.orderedInsert_cons_of_le (fun a b : α => b ≤ a) ys hya]
        exact .cons ha (.cons hxy h)
      · rw [List.orderedInsert_of_not_le (fun a b : α => b ≤ a) ys hya, ← hhead hx]
        exact .cons (le_trans ha (le_of_not_ge hya)) (ih (le_trans hxa ha) hxs hys)
    · rw [List.orderedInsert_of_not_le (fun a b : α => b ≤ a) xs hxa]
      by_cases hya : y ≤ a'
      · rw [List.orderedInsert_cons_of_le (fun a b : α => b ≤ a) ys hya, ← hhead hy]
        exact .cons (le_trans hxy hya) (ih (le_trans (le_of_not_ge hxa) hxy) hxs hys)
      · rw [List.orderedInsert_of_not_le (fun a b : α => b ≤ a) ys hya]
        exact .cons hxy (ih ha hxs hys)

/-- **Sorting keeps the order of two lists**, entry by entry. -/
theorem descending_mono {l l' : List α} (h : List.Forall₂ (· ≤ ·) l l') :
    List.Forall₂ (· ≤ ·) (descending l) (descending l') := by
  induction h with
  | nil => exact .nil
  | cons hxy _ ih => exact orderedInsert_mono hxy ih (descending_pairwise _) (descending_pairwise _)

/-- The first entry is the largest. -/
theorem le_headD {l : List α} {a d : α} (ha : a ∈ l) : a ≤ (descending l).headD d := by
  have hsorted := descending_pairwise l
  rw [← mem_descending] at ha
  generalize descending l = sorted at ha hsorted
  cases sorted with
  | nil => cases ha
  | cons x xs =>
    rcases List.mem_cons.mp ha with rfl | ha
    · exact le_refl _
    · exact (List.pairwise_cons.mp hsorted).1 a ha

theorem headD_mem {l : List α} {d : α} (h : l ≠ []) : (descending l).headD d ∈ l := by
  rw [← mem_descending]
  have hne : descending l ≠ [] := fun hnil => h (descending_eq_nil.mp hnil)
  generalize descending l = sorted at hne
  cases sorted with
  | nil => exact absurd rfl hne
  | cons x xs => exact List.mem_cons_self

/-! ## Selections -/

/-- In a sorted list, entries further on are no larger. -/
theorem take_shift {x : α} {l : List α} (h : (x :: l).Pairwise (fun a b => b ≤ a)) (k : Nat) :
    List.Forall₂ (· ≤ ·) (l.take k) ((x :: l).take (l.take k).length) := by
  induction l generalizing x k with
  | nil => simp
  | cons y l ih =>
    obtain ⟨hx, hl⟩ := List.pairwise_cons.mp h
    cases k with
    | zero => simp
    | succ k => exact .cons (hx y List.mem_cons_self) (ih hl k)

theorem forall₂_le_trans {l₁ l₂ l₃ : List α} (h : List.Forall₂ (· ≤ ·) l₁ l₂)
    (h' : List.Forall₂ (· ≤ ·) l₂ l₃) : List.Forall₂ (· ≤ ·) l₁ l₃ := by
  induction h generalizing l₃ with
  | nil => exact h'
  | cons hab _ ih =>
    obtain ⟨c, l, hbc, hl, rfl⟩ := List.forall₂_cons_left_iff.mp h'
    exact .cons (le_trans hab hbc) (ih hl)

/-- A sublist of a sorted list is no larger than its beginning. -/
theorem sublist_le_take {s l : List α} (h : s.Sublist l) (hl : l.Pairwise (fun a b => b ≤ a)) :
    List.Forall₂ (· ≤ ·) s (l.take s.length) := by
  induction h with
  | slnil => exact .nil
  | @cons s l x h ih =>
    have hs := ih (List.pairwise_cons.mp hl).2
    have hshift := take_shift hl s.length
    rw [List.length_take_of_le h.length_le] at hshift
    exact forall₂_le_trans hs hshift
  | cons_cons x h ih => exact .cons (le_refl x) (ih (List.pairwise_cons.mp hl).2)

section Sum
variable [AddCommMonoid α] [IsOrderedAddMonoid α]

/-- The sum of the `k` largest. -/
def sumTop (k : Nat) (l : List α) : α := ((descending l).take k).sum

theorem sum_le_sum {l l' : List α} (h : List.Forall₂ (· ≤ ·) l l') : l.sum ≤ l'.sum := by
  induction h with
  | nil => exact le_refl _
  | cons hab _ ih => exact add_le_add hab ih

/-- **The sum of the largest grows with the entries.** -/
theorem sumTop_mono {l l' : List α} (h : List.Forall₂ (· ≤ ·) l l') (k : Nat) :
    sumTop k l ≤ sumTop k l' :=
  sum_le_sum (List.forall₂_take k (descending_mono h))

/-- **No selection of `k` entries adds up to more.** -/
theorem sum_le_sumTop {s l : List α} (h : s.Subperm l) : s.sum ≤ sumTop s.length l := by
  have hsub : (descending s).Sublist (descending l) :=
    List.sublist_of_subperm_of_pairwise (r := fun a b => b ≤ a)
      (((descending_perm s).subperm.trans h).trans (descending_perm l).symm.subperm)
      (descending_pairwise s) (descending_pairwise l)
  have hle := sum_le_sum (sublist_le_take hsub (descending_pairwise l))
  rwa [(descending_perm s).sum_eq, length_descending] at hle

/-- Where nothing is negative, every entry is at most the sum of the largest. -/
theorem le_sumTop {k : Nat} {l : List α} (hk : 1 ≤ k) (h : ∀ a ∈ l, 0 ≤ a) {a : α} (ha : a ∈ l) :
    a ≤ sumTop k l := by
  have hhead := le_headD (d := 0) ha
  have hnonneg : ∀ b ∈ descending l, 0 ≤ b := fun b hb => h b (mem_descending.mp hb)
  have hne : descending l ≠ [] := List.ne_nil_of_mem (mem_descending.mpr ha)
  unfold sumTop
  generalize descending l = sorted at hhead hnonneg hne
  obtain ⟨x, xs, rfl⟩ := List.exists_cons_of_ne_nil hne
  obtain ⟨j, rfl⟩ := Nat.exists_eq_add_of_le' hk
  rw [List.take_succ_cons, List.sum_cons]
  have hrest : 0 ≤ (xs.take j).sum := List.sum_nonneg fun b hb =>
    hnonneg b (List.mem_cons_of_mem x (List.mem_of_mem_take hb))
  exact le_trans hhead (le_add_of_nonneg_right hrest)

omit [IsOrderedAddMonoid α] in
/-- The `k` largest are such a selection. -/
theorem exists_selection {k : Nat} {l : List α} (hk : k ≤ l.length) :
    ∃ s : List α, s.Subperm l ∧ s.length = k ∧ s.sum = sumTop k l :=
  ⟨(descending l).take k, (List.take_sublist k _).subperm.trans (descending_perm l).subperm,
    List.length_take_of_le (by rwa [length_descending]), rfl⟩

end Sum
end TopK
