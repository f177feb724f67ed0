import Mathlib

/-! # Pages of separately sorted queries

A list is read page by page, and every page comes from a query of its own that sorts all the
rows again.  Rows that compare equal may stand in any order in each of the sorts.  The pages
put together are the rows, each once, whatever the sorts do with equal rows, if and only if
no page boundary falls inside a block of equal rows (`pages_perm_iff`).

A row's place is pinned down by two counts: at least `before` rows and fewer than `upTo` rows
stand in front of it in any sort.  Where a boundary is inside no block, the rows before it
are the same in all sorts.
-/
namespace Paging

/-- A total preorder that decides: what a sort compares rows by. -/
structure Comparison (α : Type) where
  le : α → α → Bool
  total : ∀ a b, le a b || le b a
  trans : ∀ a b c, le a b → le b c → le a c

namespace Comparison
variable {α β : Type}

/-- The order of a linear order. -/
def ofLinearOrder (α : Type) [LinearOrder α] : Comparison α where
  le := fun a b => decide (a ≤ b)
  total := fun a b => by simpa using le_total a b
  trans := fun a b c hab hbc => by simpa using le_trans (of_decide_eq_true hab) (of_decide_eq_true hbc)

/-- Compare by a column. -/
def on (c : Comparison β) (f : α → β) : Comparison α where
  le := fun a b => c.le (f a) (f b)
  total := fun a b => c.total (f a) (f b)
  trans := fun a b d => c.trans (f a) (f b) (f d)

/-- The other direction. -/
def flip (c : Comparison α) : Comparison α where
  le := fun a b => c.le b a
  total := fun a b => c.total b a
  trans := fun a b d hab hbd => c.trans d b a hbd hab

/-- Missing values are larger than all others, and equal to each other. -/
def missingLargest (c : Comparison α) : Comparison (Option α) where
  le
    | _, none => true
    | none, some _ => false
    | some a, some b => c.le a b
  total := by
    intro a b
    cases a with
    | none => simp
    | some a =>
      cases b with
      | none => simp
      | some b => exact c.total a b
  trans := by
    intro a b d hab hbd
    cases d with
    | none => rfl
    | some d =>
      cases b with
      | none => cases hbd
      | some b =>
        cases a with
        | none => cases hab
        | some a => exact c.trans a b d hab hbd

variable (c : Comparison α)

/-- A sort: it keeps the rows and orders them, equal ones in any way. -/
def Sorts (order : List α → List α) : Prop :=
  ∀ l, (order l).Perm l ∧ (order l).Pairwise (fun a b => c.le a b)

/-- The number of rows that come before a row in every sort. -/
def before (rows : List α) (r : α) : Nat := rows.countP (fun x => !c.le r x)

/-- The number of rows that come before a row or compare equal to it. -/
def upTo (rows : List α) (r : α) : Nat := rows.countP (fun x => c.le x r)

/-- Position `n` is inside no block of equal rows. -/
def CleanAt (rows : List α) (n : Nat) : Prop := ∀ r ∈ rows, n ≤ c.before rows r ∨ c.upTo rows r ≤ n

/-- **The condition**: no page boundary is inside a block of equal rows. -/
def CleanBreaks (limit : Nat) (rows : List α) : Prop := ∀ k, c.CleanAt rows (k * limit)

instance (rows : List α) (n : Nat) : Decidable (c.CleanAt rows n) :=
  inferInstanceAs (Decidable (∀ r ∈ rows, _ ∨ _))

end Comparison

variable {α β : Type}

/-- One page of one query. -/
def page (order : List α → List α) (limit offset : Nat) (rows : List α) : List α :=
  ((order rows).drop offset).take limit

/-- The first `m` pages, page `k` read by the `k`-th query. -/
def pages (orders : Nat → List α → List α) (limit : Nat) (rows : List α) (m : Nat) : List α :=
  (List.range m).flatMap fun k => page (orders k) limit (k * limit) rows

namespace Comparison
variable (c : Comparison α)

/-! ## The place of a row -/

theorem le_refl (a : α) : c.le a a := by simpa using c.total a a

variable {c} {rows l : List α} {limit n : Nat}

theorem before_perm (h : l.Perm rows) (r : α) : c.before l r = c.before rows r := h.countP_eq _

theorem upTo_perm (h : l.Perm rows) (r : α) : c.upTo l r = c.upTo rows r := h.countP_eq _

/-- What is left of a position in a sort is not greater than what is there. -/
theorem le_of_sorted (hl : l.Pairwise (fun a b => c.le a b)) {i j : Nat} (hij : i ≤ j)
    (hj : j < l.length) : c.le l[i] l[j] := by
  rcases Nat.eq_or_lt_of_le hij with rfl | hlt
  · exact c.le_refl _
  · exact List.pairwise_iff_getElem.mp hl i j (by omega) hj hlt

/-- A count over a list that stops at a position. -/
theorem countP_le_of_drop {p : α → Bool} {i : Nat} (h : ∀ x ∈ l.drop i, p x = false) :
    l.countP p ≤ i := by
  have hdrop : (l.drop i).countP p = 0 := List.countP_eq_zero.mpr fun x hx => by simp [h x hx]
  rw [← List.take_append_drop i l, List.countP_append, hdrop]
  exact Nat.le_trans List.countP_le_length (List.length_take_le i l)

/-- A count over a list that takes in all of its first elements. -/
theorem le_countP_of_take {p : α → Bool} {i : Nat} (hi : i ≤ l.length)
    (h : ∀ x ∈ l.take i, p x = true) : i ≤ l.countP p := by
  have htake : (l.take i).countP p = i := by
    rw [List.countP_eq_length.mpr h, List.length_take_of_le hi]
  calc i = (l.take i).countP p := htake.symm
    _ ≤ l.countP p := (List.take_sublist i l).countP_le

/-- **The place of a row in a sort.** -/
theorem place (hl : l.Pairwise (fun a b => c.le a b)) {i : Nat} (hi : i < l.length) :
    c.before l l[i] ≤ i ∧ i < c.upTo l l[i] := by
  constructor
  · refine countP_le_of_drop fun x hx => ?_
    obtain ⟨j, hj, rfl⟩ := List.mem_iff_getElem.mp hx
    rw [List.length_drop] at hj
    simpa using le_of_sorted hl (Nat.le_add_right i j) (by omega)
  · refine le_countP_of_take (i := i + 1) hi fun x hx => ?_
    obtain ⟨j, hj, rfl⟩ := List.mem_iff_getElem.mp hx
    rw [List.length_take] at hj
    simpa using le_of_sorted hl (show j ≤ i by omega) hi

/-- What stands before a clean position does not depend on the sort. -/
theorem take_eq_filter (hl : l.Pairwise (fun a b => c.le a b)) (hn : c.CleanAt l n) :
    l.take n = l.filter (fun r => c.upTo l r ≤ n) := by
  have htake : ∀ x ∈ l.take n, decide (c.upTo l x ≤ n) = true := by
    intro x hx
    obtain ⟨i, hi, rfl⟩ := List.mem_iff_getElem.mp hx
    rw [List.length_take] at hi
    rw [List.getElem_take, decide_eq_true_eq]
    have hplace := place hl (show i < l.length by omega)
    rcases hn _ (List.getElem_mem (show i < l.length by omega)) with h | h
    · omega
    · exact h
  have hdrop : ∀ x ∈ l.drop n, ¬ decide (c.upTo l x ≤ n) = true := by
    intro x hx
    obtain ⟨i, hi, rfl⟩ := List.mem_iff_getElem.mp hx
    rw [List.length_drop] at hi
    rw [List.getElem_drop, decide_eq_true_eq]
    have hplace := place hl (show n + i < l.length by omega)
    omega
  have hsplit := List.filter_append (p := fun r => decide (c.upTo l r ≤ n)) (l.take n) (l.drop n)
  rw [List.take_append_drop, List.filter_eq_self.mpr htake,
    List.filter_eq_nil_iff.mpr hdrop, List.append_nil] at hsplit
  exact hsplit.symm

theorem CleanAt.perm (hn : c.CleanAt rows n) (h : l.Perm rows) : c.CleanAt l n := by
  intro r hr
  rw [before_perm h, upTo_perm h]
  exact hn r (h.mem_iff.mp hr)

/-- **Two sorts agree before a clean position**, up to order. -/
theorem take_perm (hn : c.CleanAt rows n) {order order' : List α → List α} (h : c.Sorts order)
    (h' : c.Sorts order') : ((order rows).take n).Perm ((order' rows).take n) := by
  obtain ⟨hperm, hsorted⟩ := h rows
  obtain ⟨hperm', hsorted'⟩ := h' rows
  rw [take_eq_filter hsorted (hn.perm hperm), take_eq_filter hsorted' (hn.perm hperm')]
  simp only [upTo_perm hperm, upTo_perm hperm']
  exact (hperm.trans hperm'.symm).filter _

/-! ## Clean boundaries -/

theorem take_add_page (order : List α → List α) (rows : List α) (limit k : Nat) :
    (order rows).take ((k + 1) * limit) =
      (order rows).take (k * limit) ++ page order limit (k * limit) rows := by
  rw [Nat.succ_mul, List.take_add]
  rfl

/-- A page between clean positions is the same in all sorts. -/
theorem page_perm (h : c.CleanBreaks limit rows) {order order' : List α → List α}
    (ho : c.Sorts order) (ho' : c.Sorts order') (k : Nat) :
    (page order limit (k * limit) rows).Perm (page order' limit (k * limit) rows) := by
  have hnext := take_perm (h (k + 1)) ho ho'
  rw [take_add_page, take_add_page] at hnext
  have hfront := (take_perm (h k) ho' ho).append_right (page order' limit (k * limit) rows)
  exact (List.perm_append_left_iff _).mp (hnext.trans hfront)

/-- The first pages are the first rows of any one sort. -/
theorem pages_perm_take (h : c.CleanBreaks limit rows) {orders : Nat → List α → List α}
    (ho : ∀ k, c.Sorts (orders k)) {order : List α → List α} (hs : c.Sorts order) (m : Nat) :
    (pages orders limit rows m).Perm ((order rows).take (m * limit)) := by
  induction m with
  | zero => simp [pages]
  | succ m ih =>
    have hstep : pages orders limit rows (m + 1) =
        pages orders limit rows m ++ page (orders m) limit (m * limit) rows := by
      simp [pages, List.range_succ]
    rw [hstep, take_add_page]
    exact ih.append (page_perm h (ho m) hs m)

/-! ## A boundary inside a block -/

variable (c) in
/-- A sort to compare the others with. -/
def reference : List α → List α := fun l => l.mergeSort c.le

theorem sorts_reference : c.Sorts c.reference := fun l =>
  ⟨List.mergeSort_perm l c.le,
    List.pairwise_mergeSort (fun a b d => c.trans a b d) (fun a b => c.total a b) l⟩

open Classical in
/-- A sort that sends one list somewhere else. -/
theorem Sorts.exchange {order : List α → List α} (h : c.Sorts order) (hperm : l.Perm rows)
    (hl : l.Pairwise (fun a b => c.le a b)) :
    c.Sorts (fun l' => if l' = rows then l else order l') := by
  intro l'
  by_cases hl' : l' = rows
  · subst hl'
    simpa using ⟨hperm, hl⟩
  · simpa [hl'] using h l'

/-- The two rows at a boundary inside a block compare equal. -/
theorem equal_at_boundary (hl : l.Pairwise (fun a b => c.le a b)) {r : α} {i : Nat}
    (hbefore : c.before l r ≤ i) (hupTo : i + 1 < c.upTo l r) :
    ∃ hi : i + 1 < l.length, c.le l[i + 1] l[i] := by
  have hi : i + 1 < l.length := Nat.lt_of_lt_of_le hupTo List.countP_le_length
  refine ⟨hi, c.trans _ r _ ?_ ?_⟩
  · by_contra hgt
    -- then nothing from there on compares with the row, and the block has ended
    refine absurd (countP_le_of_drop (p := fun x => c.le x r) fun x hx => ?_)
      (Nat.not_le_of_lt hupTo)
    obtain ⟨j, hj, rfl⟩ := List.mem_iff_getElem.mp hx
    rw [List.length_drop] at hj
    rw [List.getElem_drop, Bool.eq_false_iff]
    exact fun hle => hgt (c.trans _ _ _ (le_of_sorted hl (by omega) (by omega)) hle)
  · by_contra hgt
    -- then everything up to there comes before the row
    refine absurd (le_countP_of_take (p := fun x => !c.le r x) (i := i + 1) (by omega)
      fun x hx => ?_) (Nat.not_le_of_lt (Nat.lt_succ_of_le hbefore))
    obtain ⟨j, hj, rfl⟩ := List.mem_iff_getElem.mp hx
    rw [List.length_take] at hj
    rw [List.getElem_take, Bool.not_eq_true', Bool.eq_false_iff]
    exact fun hle => hgt (c.trans _ _ _ hle (le_of_sorted hl (by omega) (by omega)))

/-- Two neighbours that compare equal may stand the other way round. -/
theorem swap_sorted (hl : l.Pairwise (fun a b => c.le a b)) {i : Nat} (hi : i + 1 < l.length)
    (hle : c.le l[i + 1] l[i]) :
    ∃ l' : List α, l'.Perm l ∧ l'.Pairwise (fun a b => c.le a b) ∧
      l'[i + 1]? = some l[i] := by
  have hlen : (l.take i).length = i := List.length_take_of_le (by omega)
  have hsplit : l.take i ++ l[i] :: l[i + 1] :: l.drop (i + 2) = l := by
    rw [← List.drop_eq_getElem_cons hi, ← List.drop_eq_getElem_cons, List.take_append_drop]
  refine ⟨l.take i ++ l[i + 1] :: l[i] :: l.drop (i + 2), ?_, ?_, ?_⟩
  · have hswap := (List.Perm.swap l[i] l[i + 1] (l.drop (i + 2))).append_left (l.take i)
    rwa [hsplit] at hswap
  · rw [← hsplit] at hl
    simp only [List.pairwise_append, List.pairwise_cons, List.mem_cons, forall_eq_or_imp] at hl ⊢
    grind
  · rw [List.getElem?_append_right (by omega), hlen]
    simp

/-- What is read at a position that belongs to a page is on the page. -/
theorem mem_page (order : List α → List α) {k i : Nat} {x : α} (hx : (order rows)[i]? = some x)
    (hlo : k * limit ≤ i) (hhi : i < (k + 1) * limit) :
    x ∈ page order limit (k * limit) rows := by
  rw [Nat.succ_mul] at hhi
  refine List.mem_of_getElem? (i := i - k * limit) ?_
  rw [page, List.getElem?_take_of_lt (by omega), List.getElem?_drop,
    Nat.add_sub_cancel' hlo, hx]

open Classical in
/-- **A block over a boundary loses the partition**: some sorts show a row on both sides. -/
theorem not_nodup_of_block (hlimit : 0 < limit) {r : α} {k : Nat}
    (hbefore : c.before rows r < k * limit) (hupTo : k * limit < c.upTo rows r) :
    ∃ orders : Nat → List α → List α, (∀ j, c.Sorts (orders j)) ∧
      ¬ (pages orders limit rows rows.length).Nodup := by
  obtain ⟨hperm, hsorted⟩ := sorts_reference (c := c) rows
  obtain ⟨k, rfl⟩ : ∃ n, k = n + 1 := Nat.exists_eq_succ_of_ne_zero (by rintro rfl; omega)
  have hpred : (k + 1) * limit - 1 + 1 = (k + 1) * limit := by omega
  rw [← before_perm hperm] at hbefore
  rw [← upTo_perm hperm, ← hpred] at hupTo
  obtain ⟨hi, hle⟩ := equal_at_boundary hsorted (Nat.le_sub_one_of_lt hbefore) hupTo
  obtain ⟨l', hperm', hsorted', hswapped⟩ := swap_sorted hsorted hi hle
  -- page `k` is read from the reference sort, and page `k + 1` with the two rows exchanged
  let exchanged : List α → List α := fun l => if l = rows then l' else c.reference l
  have hexchanged : exchanged rows = l' := if_pos rfl
  refine ⟨Function.update (fun _ => c.reference) (k + 1) exchanged, fun j => ?_, fun hnodup => ?_⟩
  · by_cases hj : j = k + 1
    · rw [hj, Function.update_self]
      exact sorts_reference.exchange (hperm'.trans hperm) hsorted'
    · rw [Function.update_of_ne hj]
      exact sorts_reference
  · have hlength : (c.reference rows).length = rows.length := hperm.length_eq
    have hk : k + 1 < rows.length := by
      have hmul := Nat.le_mul_of_pos_right (k + 1) hlimit
      omega
    have hrow : (c.reference rows)[(k + 1) * limit - 1]? =
        some (c.reference rows)[(k + 1) * limit - 1] := List.getElem?_eq_getElem (by omega)
    rw [hpred] at hswapped
    have hleft : (c.reference rows)[(k + 1) * limit - 1] ∈
        page c.reference limit (k * limit) rows :=
      mem_page c.reference hrow (by rw [Nat.succ_mul]; omega) (by omega)
    have hright : (c.reference rows)[(k + 1) * limit - 1] ∈
        page exchanged limit ((k + 1) * limit) rows :=
      mem_page exchanged (by rw [hexchanged]; exact hswapped) (Nat.le_refl _)
        (by rw [Nat.succ_mul (k + 1)]; omega)
    have hpair := (List.nodup_flatMap.mp hnodup).2
    have hdisjoint := List.pairwise_iff_getElem.mp hpair k (k + 1)
      (by rw [List.length_range]; omega) (by rw [List.length_range]; exact hk) (Nat.lt_succ_self k)
    rw [List.getElem_range, List.getElem_range, Function.onFun_apply, Function.update_self,
      Function.update_of_ne (Nat.ne_of_lt (Nat.lt_succ_self k))] at hdisjoint
    exact hdisjoint hleft hright

/-- **Exactly when the pages partition the rows**, whatever the sorts do with equal rows. -/
theorem pages_perm_iff (hnodup : rows.Nodup) (hlimit : 0 < limit) :
    (∀ orders : Nat → List α → List α, (∀ k, c.Sorts (orders k)) → ∀ m,
      rows.length ≤ m * limit → (pages orders limit rows m).Perm rows) ↔
      c.CleanBreaks limit rows := by
  constructor
  · intro h k r hr
    by_contra hblock
    rw [not_or, Nat.not_le, Nat.not_le] at hblock
    obtain ⟨orders, ho, hdup⟩ := not_nodup_of_block hlimit hblock.1 hblock.2
    refine hdup ((h orders ho rows.length ?_).nodup_iff.mpr hnodup)
    exact Nat.le_mul_of_pos_right _ hlimit
  · intro h orders ho m hm
    obtain ⟨hperm, -⟩ := sorts_reference (c := c) rows
    have htake := pages_perm_take h ho sorts_reference m
    rw [List.take_of_length_le (by rw [hperm.length_eq]; exact hm)] at htake
    exact htake.trans hperm

/-- Rows that all fit on the first page have clean boundaries. -/
theorem cleanBreaks_of_length_le (h : rows.length ≤ limit) : c.CleanBreaks limit rows := by
  intro k r _
  rcases Nat.eq_zero_or_pos k with rfl | hk
  · exact Or.inl (by omega)
  · refine Or.inr (Nat.le_trans List.countP_le_length (Nat.le_trans h ?_))
    exact Nat.le_mul_of_pos_left limit hk

/-! ## Rows known by a column -/

theorem cleanBreaks_on {d : Comparison β} {f : α → β} :
    (d.on f).CleanBreaks limit rows ↔ d.CleanBreaks limit (rows.map f) := by
  refine forall_congr' fun k => ?_
  unfold CleanAt before upTo
  simp only [List.forall_mem_map, List.countP_map]
  exact Iff.rfl

theorem mem_of_mem_pages {orders : Nat → List α → List α} (ho : ∀ k, c.Sorts (orders k)) {m : Nat}
    {x : α} (hx : x ∈ pages orders limit rows m) : x ∈ rows := by
  obtain ⟨k, -, hx⟩ := List.mem_flatMap.mp hx
  exact ((ho k rows).1.mem_iff).mp (List.mem_of_mem_drop (List.mem_of_mem_take hx))

/-- Rows of a list with a key are the list if their keys are. -/
theorem perm_of_map_perm {f : α → β} {l rows : List α} (hnodup : (rows.map f).Nodup)
    (hsub : l ⊆ rows) (h : (l.map f).Perm (rows.map f)) : l.Perm rows := by
  have hl : l.Nodup := (h.nodup_iff.mpr hnodup).of_map f
  refine (List.subperm_of_subset hl hsub).perm_of_length_le ?_
  simpa using Nat.le_of_eq h.length_eq.symm

/-- **Exactly when the keys of the pages are the keys of the rows.** -/
theorem pages_map_perm_iff (f : α → β) (hnodup : (rows.map f).Nodup) (hlimit : 0 < limit) :
    (∀ orders : Nat → List α → List α, (∀ k, c.Sorts (orders k)) → ∀ m,
      rows.length ≤ m * limit → ((pages orders limit rows m).map f).Perm (rows.map f)) ↔
      c.CleanBreaks limit rows := by
  rw [← pages_perm_iff (hnodup.of_map f) hlimit]
  constructor
  · intro h orders ho m hm
    exact perm_of_map_perm hnodup (fun x hx => mem_of_mem_pages ho hx) (h orders ho m hm)
  · intro h orders ho m hm
    exact (h orders ho m hm).map f

end Comparison
end Paging
