import Mathlib.Data.Fintype.Pigeonhole
import Mathlib.Data.List.Nodup
import Mathlib.Data.Set.Finite.Basic

/-! # Forests given by parent links

A finite list of nodes, each with at most one parent, which is a node itself.  Nothing is said
about how the links run, so they may close a circle.  Walking down from the nodes without a parent
meets a node exactly once if its parents end somewhere (`occursOnce_iff_rooted`), and never
otherwise.  So the walk meets every node exactly if none is its own ancestor
(`all_rooted_iff`): on finitely many nodes a chain of parents that does not end comes back.
-/

/-- Nodes, each once, with their parents. -/
structure ParentLinks (α : Type*) where
  nodes : List α
  parent : α → Option α
  nodup : nodes.Nodup
  parent_mem : ∀ i ∈ nodes, ∀ p ∈ parent i, p ∈ nodes

namespace ParentLinks
variable {α : Type*} (links : ParentLinks α) {i j p : α} {k m n : Nat}

/-- The `n`-th parent. -/
def ancestor : Nat → α → Option α
  | 0, i => some i
  | n + 1, i => (links.parent i).bind (ancestor n)

/-- The chain of parents ends after `k` steps. -/
def RootedAt : Nat → α → Prop
  | 0, i => links.parent i = none
  | k + 1, i => ∃ p ∈ links.parent i, RootedAt k p

/-- The chain of parents ends. -/
def Rooted (i : α) : Prop := ∃ k, links.RootedAt k i

/-! ## Chains of parents -/

@[simp] theorem ancestor_zero : links.ancestor 0 i = some i := rfl

theorem ancestor_succ : links.ancestor (n + 1) i = (links.parent i).bind (links.ancestor n) := rfl

theorem ancestor_add :
    links.ancestor (m + n) i = (links.ancestor m i).bind (links.ancestor n) := by
  induction m generalizing i with
  | zero => simp
  | succ m ih =>
    rw [Nat.succ_add, ancestor_succ, ancestor_succ, Option.bind_assoc]
    exact congrArg _ (funext fun p => ih)

theorem ancestor_mem (hi : i ∈ links.nodes) (h : links.ancestor n i = some j) :
    j ∈ links.nodes := by
  induction n generalizing i with
  | zero =>
    obtain rfl : i = j := Option.some.inj h
    exact hi
  | succ n ih =>
    obtain ⟨p, hp, hj⟩ := Option.bind_eq_some_iff.mp h
    exact ih (links.parent_mem i hi p hp) hj

/-- An ancestor of a node stands as many steps nearer to the end. -/
theorem RootedAt.ancestor (h : links.RootedAt k i) (hj : links.ancestor n i = some j) :
    ∃ m, k = n + m ∧ links.RootedAt m j := by
  induction n generalizing i k with
  | zero =>
    obtain rfl : i = j := Option.some.inj hj
    exact ⟨k, (Nat.zero_add k).symm, h⟩
  | succ n ih =>
    obtain ⟨p, hp, hj⟩ := Option.bind_eq_some_iff.mp hj
    cases k with
    | zero => exact absurd (hp.symm.trans h) (by simp)
    | succ k =>
      obtain ⟨q, hq, hk⟩ := h
      obtain rfl : p = q := Option.some.inj (hp.symm.trans hq)
      obtain ⟨m, rfl, hm⟩ := ih hk hj
      exact ⟨m, by omega, hm⟩

theorem RootedAt.unique (hk : links.RootedAt k i) (hm : links.RootedAt m i) : k = m := by
  induction k generalizing i m with
  | zero =>
    cases m with
    | zero => rfl
    | succ m =>
      obtain ⟨p, hp, -⟩ := hm
      exact absurd (hk.symm.trans hp) (by simp)
  | succ k ih =>
    obtain ⟨p, hp, hk⟩ := hk
    cases m with
    | zero => exact absurd (hm.symm.trans hp) (by simp)
    | succ m =>
      obtain ⟨q, hq, hm⟩ := hm
      obtain rfl : p = q := Option.some.inj (hp.symm.trans hq)
      rw [ih hk hm]

theorem Rooted.not_own_ancestor (h : links.Rooted i) : links.ancestor (n + 1) i ≠ some i := by
  intro hi
  obtain ⟨k, hk⟩ := h
  obtain ⟨m, hkm, hm⟩ := hk.ancestor links hi
  have := hk.unique links hm
  omega

theorem ancestor_of_not_rooted (h : ¬ links.Rooted i) : ∃ j, links.ancestor n i = some j := by
  induction n generalizing i with
  | zero => exact ⟨i, rfl⟩
  | succ n ih =>
    cases hp : links.parent i with
    | none => exact absurd ⟨0, hp⟩ h
    | some p =>
      have hnot : ¬ links.Rooted p := fun ⟨k, hk⟩ => h ⟨k + 1, p, hp, hk⟩
      rw [ancestor_succ, hp]
      exact ih hnot

/-- A chain that does not end comes back to a node it met. -/
theorem exists_own_ancestor (hi : i ∈ links.nodes) (h : ¬ links.Rooted i) :
    ∃ j ∈ links.nodes, ∃ n, links.ancestor (n + 1) j = some j := by
  choose chain hchain using fun n => links.ancestor_of_not_rooted (n := n) h
  let f : Nat → {j // j ∈ links.nodes} := fun n => ⟨chain n, links.ancestor_mem hi (hchain n)⟩
  have hfinite : Finite {j // j ∈ links.nodes} := links.nodes.finite_toSet
  obtain ⟨a, b, hab, heq⟩ : ∃ a b, a < b ∧ chain a = chain b := by
    obtain ⟨a, b, hne, hf⟩ := Finite.exists_ne_map_eq_of_infinite f
    have heq : chain a = chain b := congrArg Subtype.val hf
    rcases Nat.lt_or_gt_of_ne hne with hlt | hlt
    · exact ⟨a, b, hlt, heq⟩
    · exact ⟨b, a, hlt, heq.symm⟩
  refine ⟨chain a, (f a).2, b - a - 1, ?_⟩
  have hb : links.ancestor (a + (b - a - 1 + 1)) i = some (chain b) := by
    rw [show a + (b - a - 1 + 1) = b by omega]
    exact hchain b
  rwa [ancestor_add, hchain, Option.bind_some, ← heq] at hb

/-- **All chains end exactly if no node is its own ancestor.** -/
theorem all_rooted_iff : (∀ i ∈ links.nodes, links.Rooted i) ↔
    ∀ i ∈ links.nodes, ∀ n, links.ancestor (n + 1) i ≠ some i := by
  refine ⟨fun h i hi n => (h i hi).not_own_ancestor links, fun h i hi => ?_⟩
  by_contra hnot
  obtain ⟨j, hj, n, hn⟩ := links.exists_own_ancestor hi hnot
  exact h j hj n hn

/-! ## Walking down from the roots -/

variable [DecidableEq α]

/-- The nodes without a parent. -/
def roots : List α := links.nodes.filter fun i => links.parent i = none

/-- The nodes with the parent `p`. -/
def children (p : α) : List α := links.nodes.filter fun i => links.parent i = some p

/-- What a walk from the roots meets at a depth, as often as it does. -/
def level : Nat → List α
  | 0 => links.roots
  | k + 1 => (level k).flatMap links.children

/-- A node is met once in the whole walk. -/
def OccursOnce (i : α) : Prop :=
  ∃ k, (links.level k).count i = 1 ∧ ∀ m, m ≠ k → i ∉ links.level m

theorem count_filter_nodes (hi : i ∈ links.nodes) (f : α → Bool) :
    (links.nodes.filter f).count i = if f i then 1 else 0 := by
  split
  next hf => rw [List.count_filter hf, List.count_eq_one_of_mem links.nodup hi]
  next hf => exact List.count_eq_zero.mpr fun hmem => hf (List.mem_filter.mp hmem).2

theorem count_children (hi : i ∈ links.nodes) :
    (links.children p).count i = if links.parent i = some p then 1 else 0 := by
  rw [children, links.count_filter_nodes hi]
  simp

/-- In what hangs below a list of nodes, a node comes as often as its parent in the list. -/
theorem count_flatMap_children (hi : i ∈ links.nodes) (hp : links.parent i = some p)
    (l : List α) : (l.flatMap links.children).count i = l.count p := by
  induction l with
  | nil => rfl
  | cons q rest ih =>
    rw [List.flatMap_cons, List.count_append, ih, links.count_children hi, hp, List.count_cons,
      Nat.add_comm]
    by_cases hq : q = p
    · simp [hq]
    · simp [hq, Ne.symm hq]

theorem mem_level_succ : i ∈ links.level (k + 1) ↔
    i ∈ links.nodes ∧ ∃ p ∈ links.level k, links.parent i = some p := by
  simp only [level, List.mem_flatMap, children, List.mem_filter, decide_eq_true_eq]
  tauto

theorem mem_level : i ∈ links.level k ↔ i ∈ links.nodes ∧ links.RootedAt k i := by
  induction k generalizing i with
  | zero => simp [level, roots, RootedAt]
  | succ k ih =>
    rw [mem_level_succ]
    constructor
    · rintro ⟨hi, p, hp, hpar⟩
      exact ⟨hi, p, hpar, (ih.mp hp).2⟩
    · rintro ⟨hi, p, hpar, hk⟩
      exact ⟨hi, p, ih.mpr ⟨links.parent_mem i hi p hpar, hk⟩, hpar⟩

theorem count_level (hi : i ∈ links.nodes) (hk : links.RootedAt k i) :
    (links.level k).count i = 1 := by
  induction k generalizing i with
  | zero =>
    have hroot : links.parent i = none := hk
    rw [level, roots, links.count_filter_nodes hi]
    simp [hroot]
  | succ k ih =>
    obtain ⟨p, hp, hk⟩ := hk
    rw [level, links.count_flatMap_children hi hp]
    exact ih (links.parent_mem i hi p hp) hk

/-- **A node is met once exactly if its chain of parents ends.** -/
theorem occursOnce_iff_rooted (hi : i ∈ links.nodes) : links.OccursOnce i ↔ links.Rooted i := by
  constructor
  · rintro ⟨k, hone, -⟩
    have hmem : i ∈ links.level k := List.count_pos_iff.mp (by omega)
    exact ⟨k, (links.mem_level.mp hmem).2⟩
  · rintro ⟨k, hk⟩
    exact ⟨k, links.count_level hi hk,
      fun m hm hmem => hm ((links.mem_level.mp hmem).2.unique links hk)⟩

end ParentLinks
