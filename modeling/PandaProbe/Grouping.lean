import Mathlib

/-! # Grouping pairs by their key

A list of pairs is collected into an association list: one entry for each key, in the order in
which the keys first come, with the values of the key, each once.  `pairs` takes such a map apart
again.  What comes out are the pairs that went in, each once (`pairs_group_perm`), and looking the
keys up one after another gives the same pairs in the same order (`pairs_of_lookup`).
-/
namespace Grouping
variable {K V : Type*} [DecidableEq K] [DecidableEq V]

/-- One more value of a key. -/
def put (k : K) (v : V) : List (K × List V) → List (K × List V)
  | [] => [(k, [v])]
  | (k', vs) :: rest =>
    if k' = k then (k', if v ∈ vs then vs else vs ++ [v]) :: rest else (k', vs) :: put k v rest

/-- The map of a list of pairs. -/
def group (l : List (K × V)) : List (K × List V) := l.foldl (fun map p => put p.1 p.2 map) []

omit [DecidableEq K] [DecidableEq V] in
/-- The pairs of a map. -/
def pairs (map : List (K × List V)) : List (K × V) := map.flatMap fun e => e.2.map (Prod.mk e.1)

/-- A key comes once, and a value once with its key. -/
structure Proper (map : List (K × List V)) : Prop where
  keys : (map.map Prod.fst).Nodup
  values : ∀ e ∈ map, e.2.Nodup

variable {map : List (K × List V)} {k : K} {v : V} {p : K × V}

theorem mem_keys_put : k ∈ (put p.1 p.2 map).map Prod.fst ↔ k = p.1 ∨ k ∈ map.map Prod.fst := by
  induction map with
  | nil => simp [put]
  | cons e rest ih =>
    obtain ⟨k', vs⟩ := e
    rw [put]
    split
    next heq => simp [heq]
    · simp only [List.map_cons, List.mem_cons, ih]
      tauto

omit [DecidableEq K] [DecidableEq V] in
theorem pairs_cons (e : K × List V) (rest : List (K × List V)) :
    pairs (e :: rest) = e.2.map (Prod.mk e.1) ++ pairs rest := List.flatMap_cons

theorem mem_pairs_put {q : K × V} : q ∈ pairs (put p.1 p.2 map) ↔ q = p ∨ q ∈ pairs map := by
  induction map with
  | nil => simp [put, pairs]
  | cons e rest ih =>
    obtain ⟨k', vs⟩ := e
    rw [put]
    split
    next heq =>
      subst heq
      by_cases hv : p.2 ∈ vs
      · rw [if_pos hv, or_iff_right_of_imp]
        rintro rfl
        rw [pairs_cons]
        exact List.mem_append_left _ (List.mem_map_of_mem hv)
      · simp only [if_neg hv, pairs_cons, List.map_append, List.mem_append, List.map_cons,
          List.map_nil, List.mem_singleton]
        tauto
    · rw [pairs_cons, pairs_cons, List.mem_append, List.mem_append, ih]
      tauto

theorem Proper.put (h : Proper map) (p : K × V) : Proper (put p.1 p.2 map) := by
  induction map with
  | nil => exact ⟨by simp [Grouping.put], by simp [Grouping.put]⟩
  | cons e rest ih =>
    obtain ⟨k', vs⟩ := e
    obtain ⟨hkey, hkeys⟩ := List.nodup_cons.mp h.keys
    obtain ⟨hvs, hvalues⟩ := List.forall_mem_cons.mp h.values
    rw [Grouping.put]
    split
    · refine ⟨h.keys, List.forall_mem_cons.mpr ⟨?_, hvalues⟩⟩
      show (if p.2 ∈ vs then vs else vs ++ [p.2]).Nodup
      split
      · exact hvs
      next hv =>
        rw [← List.concat_eq_append]
        exact hvs.concat hv
    next hne =>
      obtain ⟨hkeys', hvalues'⟩ := ih ⟨hkeys, hvalues⟩
      refine ⟨List.nodup_cons.mpr ⟨fun hmem => ?_, hkeys'⟩,
        List.forall_mem_cons.mpr ⟨hvs, hvalues'⟩⟩
      rcases mem_keys_put.mp hmem with heq | hmem
      · exact hne heq
      · exact hkey hmem

theorem proper_group (l : List (K × V)) : Proper (group l) := by
  have hfold : ∀ map : List (K × List V), Proper map →
      Proper (l.foldl (fun map p => put p.1 p.2 map) map) := by
    induction l with
    | nil => exact fun _ h => h
    | cons p rest ih => exact fun map h => ih _ (h.put p)
  exact hfold [] ⟨List.nodup_nil, fun e he => by cases he⟩

/-- **The pairs of the map are those that went in.** -/
theorem mem_pairs_group {l : List (K × V)} : p ∈ pairs (group l) ↔ p ∈ l := by
  have hfold : ∀ map : List (K × List V),
      p ∈ pairs (l.foldl (fun map p => put p.1 p.2 map) map) ↔ p ∈ pairs map ∨ p ∈ l := by
    induction l with
    | nil => simp
    | cons q rest ih =>
      intro map
      rw [List.foldl_cons, ih, mem_pairs_put, List.mem_cons]
      tauto
  rw [group, hfold]
  simp [pairs]

theorem mem_keys_group {l : List (K × V)} :
    k ∈ (group l).map Prod.fst ↔ ∃ p ∈ l, p.1 = k := by
  have hfold : ∀ map : List (K × List V),
      k ∈ (l.foldl (fun map p => put p.1 p.2 map) map).map Prod.fst ↔
        k ∈ map.map Prod.fst ∨ ∃ p ∈ l, p.1 = k := by
    induction l with
    | nil => simp
    | cons q rest ih =>
      intro map
      rw [List.foldl_cons, ih, mem_keys_put, List.exists_mem_cons_iff, eq_comm]
      tauto
  rw [group, hfold]
  simp

omit [DecidableEq K] [DecidableEq V] in
theorem Proper.nodup_pairs (h : Proper map) : (pairs map).Nodup := by
  induction map with
  | nil => exact List.nodup_nil
  | cons e rest ih =>
    obtain ⟨hkey, hkeys⟩ := List.nodup_cons.mp h.keys
    obtain ⟨hvs, hvalues⟩ := List.forall_mem_cons.mp h.values
    rw [pairs_cons, List.nodup_append]
    refine ⟨hvs.map fun a b hab => (Prod.mk.inj hab).2, ih ⟨hkeys, hvalues⟩, ?_⟩
    -- the key of the entry is none of the others
    rintro q hq r hr rfl
    obtain ⟨v, -, rfl⟩ := List.mem_map.mp hq
    obtain ⟨e', he', hr⟩ := List.mem_flatMap.mp hr
    obtain ⟨v', -, heq⟩ := List.mem_map.mp hr
    exact hkey ((Prod.mk.inj heq).1 ▸ List.mem_map_of_mem he')

/-- **Each pair comes out once.** -/
theorem pairs_group_perm (l : List (K × V)) : (pairs (group l)).Perm l.dedup := by
  rw [List.perm_ext_iff_of_nodup (proper_group l).nodup_pairs l.nodup_dedup]
  intro p
  rw [mem_pairs_group, List.mem_dedup]

omit [DecidableEq K] [DecidableEq V] in
theorem length_pairs : (pairs map).length = (map.map fun e => e.2.length).sum := by
  simp [pairs, List.length_flatMap]

omit [DecidableEq V] in
theorem lookup_of_mem (h : (map.map Prod.fst).Nodup) {e : K × List V} (he : e ∈ map) :
    map.lookup e.1 = some e.2 := by
  induction map with
  | nil => cases he
  | cons f rest ih =>
    obtain ⟨hkey, hkeys⟩ := List.nodup_cons.mp h
    rcases List.mem_cons.mp he with rfl | he
    · exact List.lookup_cons_self
    · have hne : (e.1 == f.1) = false := by
        rw [beq_eq_false_iff_ne]
        rintro heq
        exact hkey (heq ▸ List.mem_map_of_mem he)
      rw [List.lookup_cons, hne]
      exact ih hkeys he

omit [DecidableEq V] in
/-- **Looking up key after key.** -/
theorem pairs_of_lookup (h : Proper map) (default : List V) :
    (map.map Prod.fst).flatMap (fun k => ((map.lookup k).getD default).map (Prod.mk k)) =
      pairs map := by
  rw [List.flatMap_map, pairs]
  refine List.flatMap_congr fun e he => ?_
  rw [lookup_of_mem h.keys he, Option.getD_some]

end Grouping
