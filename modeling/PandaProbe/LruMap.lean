import Mathlib.Data.Finset.Card
import Mathlib.Data.List.Dedup
import Mathlib.Data.List.DropRight
import Mathlib.Data.List.Nodup

/-! # A bounded map in order of use

An ordered map with the operations a cache makes of it: a hit moves its key to the end, a new
key goes to the end, and the oldest entries are dropped until the map is small enough.

Keys that have been used one after the other stand together at the end (`Recent`), whatever was
there before.  So a batch of keys outlives the eviction after it exactly when it fits
(`Recent.evict_iff`).  A map that has never been larger than `n` after an eviction has the last
`n` of the keys that were ever used (`usedLast`): a hit and a batch of new keys take these to the
last keys of the longer history (`usedLast_hit`, `usedLast_batch`).
-/

/-- An ordered map, its oldest entry first. -/
structure LruMap (κ β : Type*) where
  entries : List (κ × β)
  nodup : (entries.map Prod.fst).Nodup

namespace LruMap
variable {κ β : Type*} (m : LruMap κ β)

/-- The keys, the oldest first. -/
def keys : List κ := m.entries.map Prod.fst

/-- No entry. -/
def empty : LruMap κ β := ⟨[], List.nodup_nil⟩

/-- Drop the first entry while there are more than `n`. -/
def evictFrom (n : Nat) : List (κ × β) → List (κ × β)
  | [] => []
  | e :: rest => if n < (e :: rest).length then evictFrom n rest else e :: rest

theorem evictFrom_eq_drop (n : Nat) (l : List (κ × β)) : evictFrom n l = l.drop (l.length - n) := by
  induction l with
  | nil => rw [List.drop_nil, evictFrom]
  | cons e rest ih =>
    unfold evictFrom
    split
    next h =>
      rw [ih, List.length_cons, Nat.succ_sub (by simpa using Nat.le_of_lt_succ h), List.drop_succ_cons]
    next h => rw [Nat.sub_eq_zero_of_le (Nat.le_of_not_lt h), List.drop_zero]

/-- Drop the oldest entries until no more than `n` are left. -/
def evict (n : Nat) : LruMap κ β where
  entries := evictFrom n m.entries
  nodup := by
    rw [evictFrom_eq_drop]
    exact m.nodup.sublist ((List.drop_sublist _ _).map Prod.fst)

variable [DecidableEq κ]

/-- The value of a key. -/
def get? (k : κ) : Option β := m.entries.lookup k

/-- Move a key to the end, if it is there. -/
def moveToEnd (k : κ) : LruMap κ β where
  entries := m.entries.filter (fun e => e.1 ≠ k) ++ m.entries.filter (fun e => e.1 = k)
  nodup := by
    refine List.Perm.nodup_iff ?_ |>.mp m.nodup
    refine List.Perm.map Prod.fst (List.perm_append_comm.trans ?_).symm
    simpa using List.filter_append_perm (fun e : κ × β => e.1 = k) m.entries

/-- Set the value of a key: in its place if it is there, else at the end. -/
def insert (k : κ) (v : β) : LruMap κ β where
  entries :=
    if k ∈ m.keys then m.entries.map (fun e => if e.1 = k then (k, v) else e)
    else m.entries ++ [(k, v)]
  nodup := by
    split
    · have hkeys : (Prod.fst ∘ fun e : κ × β => if e.1 = k then (k, v) else e) = Prod.fst := by
        funext e
        by_cases he : e.1 = k <;> simp [he]
      rw [List.map_map, hkeys]
      exact m.nodup
    next hk =>
      rw [List.map_append]
      refine m.nodup.append (List.nodup_singleton _) ?_
      simpa [keys] using hk

/-! ## What a key holds -/

variable {m} {k k' : κ} {v v' : β} {n : Nat}

theorem get?_eq_some_iff : m.get? k = some v ↔ (k, v) ∈ m.entries := by
  obtain ⟨entries, hnodup⟩ := m
  show entries.lookup k = some v ↔ (k, v) ∈ entries
  induction entries with
  | nil => simp
  | cons e rest ih =>
    obtain ⟨k₁, v₁⟩ := e
    rw [List.map_cons, List.nodup_cons] at hnodup
    by_cases hk : k = k₁
    · subst hk
      have hnot : (k, v) ∉ rest := fun hmem => hnodup.1 (List.mem_map.mpr ⟨_, hmem, rfl⟩)
      simp [hnot, eq_comm]
    · have hne : (k == k₁) = false := by simpa using hk
      rw [List.lookup_cons, hne, List.mem_cons]
      simp [ih hnodup.2, hk]

theorem get?_isSome_iff : (m.get? k).isSome ↔ k ∈ m.keys := by
  rw [Option.isSome_iff_exists, keys, List.mem_map]
  constructor
  · rintro ⟨v, hv⟩
    exact ⟨(k, v), get?_eq_some_iff.mp hv, rfl⟩
  · rintro ⟨⟨k₁, v⟩, hmem, rfl⟩
    exact ⟨v, get?_eq_some_iff.mpr hmem⟩

/-- Two maps with the same entries hold the same. -/
theorem get?_congr {m' : LruMap κ β} (h : ∀ e, e ∈ m.entries ↔ e ∈ m'.entries) (k : κ) :
    m.get? k = m'.get? k := by
  refine Option.ext fun v => ?_
  rw [get?_eq_some_iff, get?_eq_some_iff, h]

@[simp] theorem get?_empty (k : κ) : (empty : LruMap κ β).get? k = none := rfl

@[simp] theorem get?_moveToEnd (k k' : κ) : (m.moveToEnd k).get? k' = m.get? k' := by
  refine get?_congr (fun e => ?_) k'
  simp only [moveToEnd, List.mem_append, List.mem_filter, decide_eq_true_eq, ne_eq]
  by_cases he : e.1 = k <;> simp [he]

theorem mem_insert {e : κ × β} :
    e ∈ (m.insert k v).entries ↔ e = (k, v) ∨ (e ∈ m.entries ∧ e.1 ≠ k) := by
  simp only [insert]
  split
  next hk =>
    obtain ⟨e₀, hmem, rfl⟩ := List.mem_map.mp hk
    rw [List.mem_map]
    constructor
    · rintro ⟨e₁, he₁, rfl⟩
      by_cases h : e₁.1 = e₀.1
      · simp [h]
      · simp [h, he₁]
    · rintro (rfl | ⟨he, hne⟩)
      · exact ⟨e₀, hmem, by simp⟩
      · exact ⟨e, he, by simp [hne]⟩
  next hk =>
    rw [List.mem_append, List.mem_singleton, or_comm]
    refine or_congr_right ⟨fun he => ⟨he, ?_⟩, And.left⟩
    rintro rfl
    exact hk (List.mem_map_of_mem he)

/-- **A key that is set holds its new value**, and the others what they held. -/
theorem get?_insert (k : κ) (v : β) (k' : κ) :
    (m.insert k v).get? k' = if k' = k then some v else m.get? k' := by
  refine Option.ext fun v' => ?_
  rw [get?_eq_some_iff, mem_insert]
  by_cases h : k' = k
  · simp [h, eq_comm]
  · simp [h, get?_eq_some_iff]

/-- Eviction drops keys, and changes none. -/
theorem get?_evict_of_mem (h : k ∈ (m.evict n).keys) : (m.evict n).get? k = m.get? k := by
  obtain ⟨⟨k₁, v⟩, hmem, rfl⟩ := List.mem_map.mp h
  rw [get?_eq_some_iff.mpr hmem, eq_comm, get?_eq_some_iff]
  have hdrop : (m.evict n).entries = m.entries.drop (m.entries.length - n) :=
    evictFrom_eq_drop n m.entries
  rw [hdrop] at hmem
  exact List.mem_of_mem_drop hmem

/-! ## The keys used last -/

/-- **The keys of `T` are the last ones.** -/
def Recent (m : LruMap κ β) (T : Finset κ) : Prop :=
  ∃ old new, m.entries = old ++ new ∧ ∀ k, k ∈ new.map Prod.fst ↔ k ∈ T

variable {T : Finset κ}

omit [DecidableEq κ] in
theorem recent_empty (m : LruMap κ β) : m.Recent ∅ := ⟨m.entries, [], by simp, by simp⟩

omit [DecidableEq κ] in
theorem Recent.subset (h : m.Recent T) : ∀ k ∈ T, k ∈ m.keys := by
  obtain ⟨old, new, hsplit, hnew⟩ := h
  intro k hk
  rw [keys, hsplit, List.map_append]
  exact List.mem_append_right _ ((hnew k).mpr hk)

theorem Recent.moveToEnd (h : m.Recent T) (hk : k ∈ m.keys) :
    (m.moveToEnd k).Recent (Insert.insert k T) := by
  obtain ⟨old, new, hsplit, hnew⟩ := h
  refine ⟨old.filter (fun e => e.1 ≠ k), new.filter (fun e => e.1 ≠ k) ++
    m.entries.filter (fun e => e.1 = k), ?_, fun k' => ?_⟩
  · show m.entries.filter (fun e => e.1 ≠ k) ++ _ = _
    rw [← List.append_assoc, ← List.filter_append, ← hsplit]
  · rw [Finset.mem_insert, ← hnew k']
    obtain ⟨e₀, hmem, rfl⟩ := List.mem_map.mp hk
    simp only [List.map_append, List.mem_append, List.mem_map, List.mem_filter, ne_eq,
      decide_eq_true_eq]
    constructor
    · rintro (⟨e, ⟨he, -⟩, rfl⟩ | ⟨e, ⟨-, he⟩, rfl⟩)
      · exact Or.inr ⟨e, he, rfl⟩
      · exact Or.inl he
    · rintro (rfl | ⟨e, he, rfl⟩)
      · exact Or.inr ⟨e₀, ⟨hmem, rfl⟩, rfl⟩
      · by_cases heq : e.1 = e₀.1
        · exact Or.inr ⟨e₀, ⟨hmem, rfl⟩, heq.symm⟩
        · exact Or.inl ⟨e, ⟨he, heq⟩, rfl⟩

/-- Setting a key that is new, or among the last ones. -/
theorem Recent.insert (h : m.Recent T) (v : β) (hk : k ∈ m.keys → k ∈ T) :
    (m.insert k v).Recent (Insert.insert k T) := by
  obtain ⟨old, new, hsplit, hnew⟩ := h
  by_cases hmem : k ∈ m.keys
  · refine ⟨old.map (fun e => if e.1 = k then (k, v) else e),
      new.map (fun e => if e.1 = k then (k, v) else e), ?_, fun k' => ?_⟩
    · simp [LruMap.insert, hmem, hsplit]
    · have hkeys : (Prod.fst ∘ fun e : κ × β => if e.1 = k then (k, v) else e) = Prod.fst := by
        funext e
        by_cases he : e.1 = k <;> simp [he]
      rw [List.map_map, hkeys, hnew, Finset.insert_eq_of_mem (hk hmem)]
  · refine ⟨old, new ++ [(k, v)], ?_, fun k' => ?_⟩
    · simp [LruMap.insert, hmem, hsplit]
    · rw [List.map_append, List.mem_append, hnew, Finset.mem_insert, or_comm]
      simp

/-- **A batch outlives the eviction exactly when it fits.** -/
theorem Recent.evict_iff (h : m.Recent T) : (∀ k ∈ T, k ∈ (m.evict n).keys) ↔ T.card ≤ n := by
  obtain ⟨old, new, hsplit, hnew⟩ := h
  have hlen : T.card = new.length := by
    have hnodup : (new.map Prod.fst).Nodup :=
      m.nodup.sublist ((hsplit ▸ List.sublist_append_right old new).map Prod.fst)
    have hT : T = (new.map Prod.fst).toFinset := Finset.ext fun k => by simpa using (hnew k).symm
    rw [hT, List.toFinset_card_of_nodup hnodup, List.length_map]
  have hdrop : (m.evict n).entries = (old ++ new).drop ((old ++ new).length - n) := by
    rw [← hsplit]
    exact evictFrom_eq_drop n m.entries
  rw [hlen]
  constructor
  · -- what is left has at most `n` keys, and all of `T` is in it
    intro hkept
    have hsub : T ⊆ (m.evict n).keys.toFinset := fun k hk => List.mem_toFinset.mpr (hkept k hk)
    have hcard := (Finset.card_le_card hsub).trans (List.toFinset_card_le _)
    rw [keys, List.length_map, hdrop, List.length_drop] at hcard
    omega
  · intro hfits k hk
    rw [keys, hdrop, List.length_append, List.drop_append_of_le_length (by omega), List.map_append]
    exact List.mem_append_right _ ((hnew k).mpr hk)

/-! ## The order of the keys -/

theorem keys_moveToEnd (hk : k ∈ m.keys) :
    (m.moveToEnd k).keys = m.keys.filter (fun k' => k' ≠ k) ++ [k] := by
  have hone : (m.entries.filter (fun e => e.1 = k)).map Prod.fst = [k] := by
    have hcount : m.keys.filter (fun k' => k' = k) = [k] := by
      rw [List.filter_eq, List.count_eq_one_of_mem (a := k) (l := m.keys) m.nodup hk,
        List.replicate_one]
    rw [← hcount, keys, List.filter_map]
    rfl
  change (_ ++ _ : List (κ × β)).map Prod.fst = _
  rw [List.map_append, hone, keys, List.filter_map]
  rfl

theorem keys_insert (k : κ) (v : β) :
    (m.insert k v).keys = if k ∈ m.keys then m.keys else m.keys ++ [k] := by
  unfold LruMap.insert
  split
  · have hkeys : (Prod.fst ∘ fun e : κ × β => if e.1 = k then (k, v) else e) = Prod.fst := by
      funext e
      by_cases he : e.1 = k <;> simp [he]
    rw [keys, List.map_map, hkeys]
    rfl
  · rw [keys, List.map_append]
    rfl

omit [DecidableEq κ] in
theorem keys_evict (m : LruMap κ β) (n : Nat) : (m.evict n).keys = m.keys.rtake n := by
  change (evictFrom n m.entries).map Prod.fst = _
  rw [evictFrom_eq_drop, List.rtake, keys, List.map_drop, List.length_map]

/-- The elements of a list, each at its first place. -/
def firsts {α : Type*} [DecidableEq α] (l : List α) : List α := l.reverse.dedup.reverse

section Batch
variable {α : Type*} [DecidableEq α] {l : List α}

@[simp] theorem mem_firsts {a : α} : a ∈ firsts l ↔ a ∈ l := by simp [firsts]

theorem nodup_firsts (l : List α) : (firsts l).Nodup :=
  List.nodup_reverse.mpr (List.nodup_dedup _)

theorem firsts_concat (l : List α) (a : α) :
    firsts (l ++ [a]) = if a ∈ l then firsts l else firsts l ++ [a] := by
  unfold firsts
  rw [List.reverse_append, List.reverse_singleton, List.singleton_append, List.dedup_cons]
  simp only [List.mem_reverse]
  split
  · rfl
  · rw [List.reverse_cons]

/-- **A batch of new keys** goes to the end, each key once and at its first place. -/
theorem keys_foldl_insert {key : α → κ} (val : α → β) (hinj : Set.InjOn key { a | a ∈ l })
    (hnew : ∀ a ∈ l, key a ∉ m.keys) :
    (l.foldl (fun m a => m.insert (key a) (val a)) m).keys = m.keys ++ (firsts l).map key := by
  induction l using List.reverseRecOn with
  | nil => exact (List.append_nil _).symm
  | append_singleton l a ih =>
    have hsub : { b | b ∈ l } ⊆ { b | b ∈ l ++ [a] } := fun b hb => List.mem_append_left _ hb
    have ha : a ∈ l ++ [a] := List.mem_append_right _ (List.mem_singleton_self a)
    have hkeys := ih (hinj.mono hsub) fun b hb => hnew b (hsub hb)
    have hmem : key a ∈ m.keys ++ (firsts l).map key ↔ a ∈ l := by
      rw [List.mem_append, List.mem_map]
      constructor
      · rintro (hold | ⟨b, hb, heq⟩)
        · exact absurd hold (hnew a ha)
        · have hb : b ∈ l := mem_firsts.mp hb
          exact hinj (hsub hb) ha heq ▸ hb
      · exact fun hal => Or.inr ⟨a, mem_firsts.mpr hal, rfl⟩
    rw [List.foldl_append, List.foldl_cons, List.foldl_nil, keys_insert, hkeys, firsts_concat]
    simp only [hmem]
    split
    · rfl
    · rw [List.map_append, List.append_assoc]
      rfl

end Batch

/-! ## The last of a history of keys -/

/-- The `n` keys of a history that were used last, each at its last place. -/
def usedLast (n : Nat) (uses : List κ) : List κ := uses.dedup.rtake n

variable {uses batch : List κ}

theorem mem_of_mem_usedLast (h : k ∈ usedLast n uses) : k ∈ uses :=
  List.mem_dedup.mp (List.mem_of_mem_drop h)

theorem nodup_usedLast (n : Nat) (uses : List κ) : (usedLast n uses).Nodup :=
  (List.nodup_dedup uses).sublist (List.drop_sublist _ _)

omit [DecidableEq κ] in
/-- What is not among the last `n` comes before `n` others. -/
theorem exists_rtake (n : Nat) (l : List κ) :
    ∃ old, l = old ++ l.rtake n ∧ (old = [] ∨ (l.rtake n).length = n) := by
  refine ⟨l.take (l.length - n), (List.take_append_drop _ l).symm, ?_⟩
  rcases Nat.le_total l.length n with hle | hle
  · left
    rw [Nat.sub_eq_zero_of_le hle, List.take_zero]
  · right
    rw [List.rtake, List.length_drop]
    omega

omit [DecidableEq κ] in
theorem rtake_append_of_le {old new : List κ} (h : n ≤ new.length) :
    (old ++ new).rtake n = new.rtake n := by
  have hdrop : (old ++ new).length - n = old.length + (new.length - n) := by
    rw [List.length_append]
    omega
  rw [List.rtake, List.rtake, hdrop, List.drop_append, List.drop_eq_nil_of_le (by omega)]
  simp

theorem dedup_append_batch (uses : List κ) (hbatch : batch.Nodup) :
    (uses ++ batch).dedup = uses.dedup.filter (fun k => k ∉ batch) ++ batch := by
  induction uses with
  | nil => exact hbatch.dedup
  | cons k uses ih =>
    rw [List.cons_append, List.dedup_cons, List.dedup_cons, ih]
    by_cases hk : k ∈ uses
    · rw [if_pos hk, if_pos (List.mem_append_left _ hk)]
    · by_cases hb : k ∈ batch
      · rw [if_neg hk, if_pos (List.mem_append_right _ hb)]
        simp [hb]
      · rw [if_neg hk, if_neg (by simp [hk, hb])]
        simp [hb]

/-- **A hit** moves to the end of the keys used last. -/
theorem usedLast_hit (hk : k ∈ usedLast n uses) :
    usedLast n (uses ++ [k]) = (usedLast n uses).filter (fun k' => k' ≠ k) ++ [k] := by
  have hnodup := List.nodup_dedup uses
  obtain ⟨old, hsplit, hfull⟩ := exists_rtake n uses.dedup
  have hfilter : uses.dedup.filter (fun k' => k' ≠ k) =
      old ++ (usedLast n uses).filter (fun k' => k' ≠ k) := by
    -- a key that is used last has no earlier place
    have hkept : old.filter (fun k' => k' ≠ k) = old := by
      rw [hsplit] at hnodup
      refine List.filter_eq_self.mpr fun k' hk' => decide_eq_true ?_
      rintro rfl
      exact (List.nodup_append.mp hnodup).2.2 k' hk' k' hk rfl
    conv_lhs => rw [hsplit]
    rw [List.filter_append, hkept]
    rfl
  have hlength : ((usedLast n uses).filter (fun k' => k' ≠ k) ++ [k]).length =
      (usedLast n uses).length := by
    have herase : (usedLast n uses).filter (fun k' => k' ≠ k) = (usedLast n uses).erase k := by
      rw [(nodup_usedLast n uses).erase_eq_filter]
      refine List.filter_congr fun k' _ => ?_
      rw [decide_not, bne, Bool.beq_eq_decide_eq]
    have hpos := List.length_pos_of_mem hk
    rw [herase, List.length_append, List.length_erase_of_mem hk, List.length_singleton]
    omega
  have hle : (usedLast n uses).length ≤ n := by
    rw [usedLast, List.rtake, List.length_drop]
    omega
  rw [usedLast, dedup_append_batch uses (List.nodup_singleton k)]
  simp only [List.mem_singleton]
  rw [hfilter, List.append_assoc]
  rcases hfull with rfl | hfull
  · rw [List.nil_append, List.rtake, Nat.sub_eq_zero_of_le (hlength.le.trans hle), List.drop_zero]
  · have hn : ((usedLast n uses).filter (fun k' => k' ≠ k) ++ [k]).length = n := hlength.trans hfull
    rw [rtake_append_of_le hn.ge, List.rtake, hn, Nat.sub_self, List.drop_zero]

/-- **A batch of new keys** goes to the end of the keys used last, and the oldest are dropped. -/
theorem usedLast_batch (hbatch : batch.Nodup) (hnew : ∀ k ∈ batch, k ∉ usedLast n uses) :
    usedLast n (uses ++ batch) = (usedLast n uses ++ batch).rtake n := by
  obtain ⟨old, hsplit, hfull⟩ := exists_rtake n uses.dedup
  have hfilter : uses.dedup.filter (fun k => k ∉ batch) =
      old.filter (fun k => k ∉ batch) ++ usedLast n uses := by
    have hkept : (usedLast n uses).filter (fun k => k ∉ batch) = usedLast n uses :=
      List.filter_eq_self.mpr fun k hk => decide_eq_true fun hb => hnew k hb hk
    conv_lhs => rw [hsplit]
    rw [List.filter_append]
    exact congrArg _ hkept
  rw [usedLast, dedup_append_batch uses hbatch, hfilter, List.append_assoc]
  rcases hfull with rfl | hfull
  · rfl
  · have hfull : (usedLast n uses).length = n := hfull
    exact rtake_append_of_le (by rw [List.length_append]; omega)

end LruMap
