import Mathlib.Data.List.Perm.Subperm
import Mathlib.Data.List.Sort

/-! # Batches of the oldest

A batch takes the `k` items with the least keys.  An item that a batch leaves out has a whole
batch ahead of it (`le_ahead_of_notMem`), and one that is in it has not (`ahead_lt_of_mem`); so as
long as what has been in a batch does not stay ahead, the number of items ahead of it falls by `k`
with every batch that leaves it out.

The items may be some of the rows of a table, and what has been in a batch may be marked in any
way: `left_behind` counts the rows of the table that are ahead and unmarked.
-/
namespace OldestFirst
variable {α K : Type*} [LinearOrder K] (key : α → K)

/-- The `k` items with the least keys. -/
def oldest (k : Nat) (l : List α) : List α := (l.insertionSort fun a b => key a ≤ key b).take k

/-- The number of items with a lesser key. -/
def ahead (l : List α) (x : K) : Nat := l.countP fun y => key y < x

variable {key} {l : List α} {k : Nat} {x : α}

theorem oldest_subperm (k : Nat) (l : List α) : (oldest key k l).Subperm l :=
  (List.take_sublist k _).subperm.trans (List.perm_insertionSort _ l).subperm

/-- What is left out has a batch of items before it. -/
theorem oldest_before (hinj : ∀ a ∈ l, ∀ b ∈ l, key a = key b → a = b) (hx : x ∈ l)
    (hout : x ∉ oldest key k l) :
    (oldest key k l).length = k ∧ ∀ y ∈ oldest key k l, key y < key x := by
  have hsorted : (l.insertionSort fun a b => key a ≤ key b).Pairwise fun a b => key a ≤ key b :=
    List.pairwise_insertionSort _ l
  have hmem : x ∈ l.insertionSort fun a b => key a ≤ key b :=
    (List.perm_insertionSort _ l).mem_iff.mpr hx
  rw [← List.take_append_drop k (l.insertionSort fun a b => key a ≤ key b)] at hsorted hmem
  have hdrop : x ∈ (l.insertionSort fun a b => key a ≤ key b).drop k :=
    (List.mem_append.mp hmem).resolve_left hout
  constructor
  · rw [oldest, List.length_take]
    have hlength := List.length_pos_of_mem hdrop
    rw [List.length_drop] at hlength
    omega
  · intro y hy
    have hle := (List.pairwise_append.mp hsorted).2.2 y hy x hdrop
    refine lt_of_le_of_ne hle fun heq => hout ?_
    have hyl : y ∈ l := (oldest_subperm k l).subset hy
    rwa [← hinj y hyl x hx heq]

/-- **An item that is left out has at least a batch ahead of it.** -/
theorem le_ahead_of_notMem (hinj : ∀ a ∈ l, ∀ b ∈ l, key a = key b → a = b) (hx : x ∈ l)
    (hout : x ∉ oldest key k l) : k ≤ ahead key l (key x) := by
  obtain ⟨hlength, hbefore⟩ := oldest_before hinj hx hout
  calc k = (oldest key k l).length := hlength.symm
    _ = (oldest key k l).countP fun y => key y < key x := by
      refine (List.countP_eq_length.mpr fun y hy => ?_).symm
      simpa using hbefore y hy
    _ ≤ ahead key l (key x) := (oldest_subperm k l).countP_le _

/-- **An item that is taken has less than a batch ahead of it.** -/
theorem ahead_lt_of_mem (hx : x ∈ oldest key k l) : ahead key l (key x) < k := by
  have hsorted : (l.insertionSort fun a b => key a ≤ key b).Pairwise fun a b => key a ≤ key b :=
    List.pairwise_insertionSort _ l
  obtain ⟨before, after, hsplit⟩ := List.append_of_mem hx
  have hwhole : l.insertionSort (fun a b => key a ≤ key b) =
      before ++ x :: (after ++ (l.insertionSort fun a b => key a ≤ key b).drop k) := by
    conv_lhs => rw [← List.take_append_drop k (l.insertionSort fun a b => key a ≤ key b)]
    rw [show (l.insertionSort fun a b => key a ≤ key b).take k = before ++ x :: after from hsplit,
      List.append_assoc, List.cons_append]
  have hlength : before.length < k := by
    have hle : (oldest key k l).length ≤ k := List.length_take_le _ _
    rw [hsplit, List.length_append, List.length_cons] at hle
    omega
  rw [hwhole] at hsorted
  obtain ⟨-, htail, -⟩ := List.pairwise_append.mp hsorted
  have hnone : (x :: (after ++ (l.insertionSort fun a b => key a ≤ key b).drop k)).countP
      (fun y => key y < key x) = 0 := by
    refine List.countP_eq_zero.mpr fun y hy => ?_
    rw [decide_eq_true_eq, not_lt]
    rcases List.mem_cons.mp hy with rfl | hy
    · exact le_refl _
    · exact (List.pairwise_cons.mp htail).1 y hy
  rw [ahead, ← (List.perm_insertionSort (fun a b => key a ≤ key b) l).countP_eq, hwhole,
    List.countP_append, hnone, Nat.add_zero]
  exact lt_of_le_of_lt before.countP_le_length hlength

/-- **A batch that leaves an item out takes `k` of those ahead of it**, whatever marks the items of
the batch, and wherever the items are taken from. -/
theorem left_behind {rows : List α} (hsub : l.Subperm rows)
    (hinj : ∀ a ∈ l, ∀ b ∈ l, key a = key b → a = b) (hx : x ∈ l) (hout : x ∉ oldest key k l)
    {p : α → Bool} (hp : ∀ y ∈ oldest key k l, p y = true) :
    rows.countP (fun y => decide (key y < key x) && !p y) + k ≤ ahead key rows (key x) := by
  obtain ⟨hlength, hbefore⟩ := oldest_before hinj hx hout
  have hrows : (oldest key k l).Subperm rows := (oldest_subperm k l).trans hsub
  have hbatch : (oldest key k l).Subperm (rows.filter p) := by
    have hfilter := hrows.filter p
    rwa [List.filter_eq_self.mpr hp] at hfilter
  have hall : (oldest key k l).countP (fun y => decide (key y < key x)) =
      (oldest key k l).length :=
    List.countP_eq_length.mpr fun y hy => decide_eq_true (hbefore y hy)
  have htaken := hbatch.countP_le fun y => decide (key y < key x)
  rw [hall, hlength] at htaken
  have hsplit := List.countP_eq_countP_filter_add rows (fun y => decide (key y < key x)) p
  rw [ahead, hsplit, ← List.countP_filter]
  omega

end OldestFirst
