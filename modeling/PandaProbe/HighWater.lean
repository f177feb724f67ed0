import Mathlib

/-! # High-water marks and stacked reservations

A counter that is charged in instalments keeps a high-water mark: the largest
value any instalment has accounted for.  Each instalment claims the half-open
interval from the mark to the counter's new value.  This module has the mark of
a list of values, and the two facts instalments rest on: intervals that start at
or above the mark of those before them are pairwise disjoint
(`Stacked.pairwise_disjoint`), and any quantity charged as a difference
`f hi - f lo` over them telescopes (`charged_concat`).

A mark in a partial order only moves to values above it (`raise`); values that are
comparable may then arrive in either order (`raise_comm`).

An instalment that is rounded leaves a remainder.  The instalments of a mark add up to
what it moves by (`sum_instalments`), but their rounded amounts add up to the rounded total
only while the remainders stay within half a unit (`sum_halfUp_eq_iff`).
-/
namespace HighWater

section Mark
variable {α : Type*} [LinearOrder α]

/-- The largest of `r` and the values of `l`. -/
def mark (r : α) (l : List α) : α := l.foldl max r

@[simp] theorem mark_nil (r : α) : mark r [] = r := rfl

@[simp] theorem mark_cons (r x : α) (l : List α) : mark r (x :: l) = mark (max r x) l := rfl

@[simp] theorem mark_concat (r x : α) (l : List α) : mark r (l ++ [x]) = max (mark r l) x := by
  simp [mark, List.foldl_append]

theorem le_mark (r : α) (l : List α) : r ≤ mark r l := by
  induction l generalizing r with
  | nil => exact le_refl r
  | cons x l ih => exact le_trans (le_max_left r x) (ih (max r x))

theorem le_mark_of_mem {r x : α} {l : List α} (hx : x ∈ l) : x ≤ mark r l := by
  induction l generalizing r with
  | nil => cases hx
  | cons y l ih =>
    rcases List.mem_cons.mp hx with rfl | hx
    · exact le_trans (le_max_right r x) (le_mark (max r x) l)
    · exact ih hx

theorem mark_le {r b : α} {l : List α} (hr : r ≤ b) (hl : ∀ x ∈ l, x ≤ b) : mark r l ≤ b := by
  induction l generalizing r with
  | nil => exact hr
  | cons y l ih =>
    exact ih (max_le hr (hl y (List.mem_cons_self ..)))
      (fun x hx => hl x (List.mem_cons_of_mem _ hx))

/-- The mark does not depend on the order in which values are listed. -/
theorem mark_perm {r : α} {l l' : List α} (h : l.Perm l') : mark r l = mark r l' :=
  le_antisymm
    (mark_le (le_mark r l') (fun _ hx => le_mark_of_mem (h.mem_iff.mp hx)))
    (mark_le (le_mark r l) (fun _ hx => le_mark_of_mem (h.mem_iff.mpr hx)))

/-- A starting value between `r` and the mark does not move the mark. -/
theorem mark_of_between {r r' : α} {l : List α} (h : r ≤ r') (h' : r' ≤ mark r l) :
    mark r' l = mark r l :=
  le_antisymm (mark_le h' (fun _ hx => le_mark_of_mem hx))
    (mark_le (le_trans h (le_mark r' l)) (fun _ hx => le_mark_of_mem hx))

end Mark

section Stacked
variable {α : Type*} [LinearOrder α]

/-- Intervals listed in order, none starting below the end of an earlier one. -/
def Stacked (l : List (α × α)) : Prop := l.Pairwise (fun p q => p.2 ≤ q.1)

theorem stacked_nil : Stacked ([] : List (α × α)) := List.Pairwise.nil

/-- Stacking one more interval, from at least the end of every earlier one. -/
theorem Stacked.concat {l : List (α × α)} (h : Stacked l) {p : α × α}
    (hp : ∀ q ∈ l, q.2 ≤ p.1) : Stacked (l ++ [p]) := by
  refine List.pairwise_append.mpr ⟨h, List.pairwise_singleton _ _, ?_⟩
  intro q hq p' hp'
  rw [List.mem_singleton] at hp'
  exact hp' ▸ hp q hq

/-- **Stacked intervals are pairwise disjoint.** -/
theorem Stacked.pairwise_disjoint {l : List (α × α)} (h : Stacked l) :
    l.Pairwise (fun p q => Disjoint (Set.Ioc p.1 p.2) (Set.Ioc q.1 q.2)) :=
  h.imp (fun hle => Set.Ioc_disjoint_Ioc_of_le hle)

end Stacked

section Charged
variable {α G : Type*} [AddCommGroup G]

/-- What a list of intervals costs when `(lo, hi]` is charged `f hi - f lo`. -/
def charged (f : α → G) (l : List (α × α)) : G := (l.map (fun p => f p.2 - f p.1)).sum

@[simp] theorem charged_nil (f : α → G) : charged f ([] : List (α × α)) = 0 := rfl

theorem charged_append (f : α → G) (l l' : List (α × α)) :
    charged f (l ++ l') = charged f l + charged f l' := by
  simp [charged]

/-- **Charges telescope**: if the intervals so far cost `f m - f r`, one more
interval from `m` to `m'` brings the total to `f m' - f r`. -/
theorem charged_concat {f : α → G} {l : List (α × α)} {r m m' : α}
    (h : charged f l = f m - f r) : charged f (l ++ [(m, m')]) = f m' - f r := by
  rw [charged_append, h]
  simp [charged]

end Charged

section Raise
variable {α : Type*} [PartialOrder α] [DecidableLE α]

/-- Move the mark `m` to `x` if that is forward. -/
def raise (m x : α) : α := if m ≤ x then x else m

theorem le_raise (m x : α) : m ≤ raise m x := by
  unfold raise
  split
  next h => exact h
  next => exact le_refl m

/-- Raising to the larger of two values makes the smaller one immaterial. -/
theorem raise_raise_of_le {m x y : α} (h : x ≤ y) :
    raise (raise m x) y = raise m y ∧ raise (raise m y) x = raise m y := by
  unfold raise
  by_cases hx : m ≤ x
  · have hy : m ≤ y := le_trans hx h
    simp only [hx, hy, h, if_true, true_and]
    split
    next hyx => exact le_antisymm h hyx
    next => rfl
  · simp only [hx, if_false, true_and]
    by_cases hy : m ≤ y
    · simp only [hy, if_true]
      split
      next hyx => exact le_antisymm h hyx
      next => rfl
    · simp only [hy, hx, if_false]

/-- **Comparable values may arrive in either order.** -/
theorem raise_comm {m x y : α} (h : x ≤ y ∨ y ≤ x) :
    raise (raise m x) y = raise (raise m y) x := by
  rcases h with h | h
  · rw [(raise_raise_of_le h).1, (raise_raise_of_le h).2]
  · rw [(raise_raise_of_le h).1, (raise_raise_of_le h).2]

end Raise

section Instalments

/-- How far each value of the list moves the mark. -/
def instalments (r : Int) : List Int → List Int
  | [] => []
  | x :: l => (max r x - r) :: instalments (max r x) l

theorem sum_instalments (r : Int) (l : List Int) : (instalments r l).sum = mark r l - r := by
  induction l generalizing r with
  | nil => simp [instalments]
  | cons x l ih =>
    rw [instalments, List.sum_cons, ih, mark_cons]
    omega

end Instalments

section Rounding

/-- `x` in units of `2 * h`, half a unit rounded up. -/
def halfUp (h x : Int) : Int := (x + h) / (2 * h)

/-- What rounding leaves of `x`: negative where it was rounded up. -/
def remainder (h x : Int) : Int := (x + h) % (2 * h) - h

theorem halfUp_add_remainder (h x : Int) : 2 * h * halfUp h x + remainder h x = x := by
  have := Int.mul_ediv_add_emod (x + h) (2 * h)
  unfold halfUp remainder
  omega

/-- The units of a value that is a whole number of them and a rest. -/
theorem halfUp_eq_iff {h q r : Int} (hh : 0 < h) :
    halfUp h (2 * h * q + r) = q ↔ -h ≤ r ∧ r < h := by
  have hsplit : 2 * h * q + r + h = (r + h) + 2 * h * q := by ring
  rw [halfUp, hsplit, Int.add_mul_ediv_left _ _ (by omega : (2 * h) ≠ 0), add_eq_right]
  constructor
  · intro hzero
    have hdiv := Int.mul_ediv_add_emod (r + h) (2 * h)
    have hnonneg := Int.emod_nonneg (r + h) (by omega : (2 * h) ≠ 0)
    have hlt := Int.emod_lt_of_pos (r + h) (by omega : 0 < 2 * h)
    rw [hzero, mul_zero, zero_add] at hdiv
    constructor <;> omega
  · rintro ⟨hlow, hhigh⟩
    exact Int.ediv_eq_zero_of_lt (by omega) (by omega)

/-- **Rounding instalments is rounding the total** as long as the remainders add up to less than
half a unit. -/
theorem sum_halfUp_eq_iff {h : Int} (hh : 0 < h) (l : List Int) :
    (l.map (halfUp h)).sum = halfUp h l.sum ↔
      -h ≤ (l.map (remainder h)).sum ∧ (l.map (remainder h)).sum < h := by
  have hsum : 2 * h * (l.map (halfUp h)).sum + (l.map (remainder h)).sum = l.sum := by
    induction l with
    | nil => simp
    | cons x l ih =>
      simp only [List.map_cons, List.sum_cons, mul_add]
      rw [← ih]
      linarith [halfUp_add_remainder h x]
  rw [eq_comm, ← hsum]
  exact halfUp_eq_iff hh

end Rounding

end HighWater
