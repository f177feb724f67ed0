import Mathlib.Data.List.Nodup
import Mathlib.Data.List.Dedup
import Mathlib.Tactic.Common

/-! # Foreign keys

Rows stand under keys and refer to other rows by their keys.  A reference says what happens to it
when the row it leads to is deleted: the row it is in goes too (`cascade`), it becomes `NULL`
(`setNull`), or nothing may be deleted (`restrict`).

`delete` follows the cascades, and `mem_dead` says how far they go: to the rows `Under` the ones
that are deleted.  Every operation keeps the references intact: `Intact.insert`, `Intact.update`
and `Intact.delete`.  `delete_eq_filter` is the way to say what a deletion does: where the rows
that go are known, and none that stays has a reference to them, the rows that stay are as they
were.
-/
namespace ForeignKeys

/-- `ON DELETE`. -/
inductive OnDelete
  | cascade | setNull | restrict
  deriving DecidableEq, Repr

/-- What a row refers to, and the row with the references to dead rows set to `NULL`. -/
structure RowSchema (Key Row : Type) where
  refs : Row → List (Key × OnDelete)
  clear : (Key → Bool) → Row → Row
  refs_clear : ∀ dead row, refs (clear dead row) =
    (refs row).filter fun r => !(r.2 = .setNull && dead r.1)
  clear_eq_self : ∀ dead row, (∀ r ∈ refs row, r.2 = .setNull → dead r.1 = false) →
    clear dead row = row

variable {Key Row : Type} [DecidableEq Key] (S : RowSchema Key Row)

/-- The keys that are there. -/
def keys (rows : List (Key × Row)) : List Key := rows.map Prod.fst

/-- Add a row under a new key, if what it refers to is there. -/
def insert (k : Key) (row : Row) (rows : List (Key × Row)) : Option (List (Key × Row)) :=
  if k ∉ keys rows ∧ ∀ r ∈ S.refs row, r.1 = k ∨ r.1 ∈ keys rows then some (rows ++ [(k, row)])
  else none

/-- Change rows, each where it stands, if what they then refer to is there. -/
def update (f : Key → Row → Row) (rows : List (Key × Row)) : Option (List (Key × Row)) :=
  let rows' := rows.map fun e => (e.1, f e.1 e.2)
  if ∀ e ∈ rows', ∀ r ∈ S.refs e.2, r.1 ∈ keys rows then some rows' else none

/-- A row refers to one of some keys, and goes with it. -/
def follows (ks : List Key) (row : Row) : Bool :=
  (S.refs row).any fun r => r.2 = .cascade && r.1 ∈ ks

/-- The rows that go with some keys, `n` cascades deep. -/
def spread (rows : List (Key × Row)) : Nat → List Key → List Key
  | 0, ks => ks
  | n + 1, ks => spread rows n (ks ++ keys (rows.filter fun e => e.1 ∉ ks && follows S ks e.2))

/-- The rows that go with some keys.  A cascade visits a row once. -/
def dead (rows : List (Key × Row)) (roots : List Key) : List Key := spread S rows rows.length roots

/-- Delete the rows of some keys, if no reference restricts it. -/
def delete (roots : List Key) (rows : List (Key × Row)) : Option (List (Key × Row)) :=
  let gone := dead S rows roots
  let kept := rows.filter fun e => e.1 ∉ gone
  if ∀ e ∈ kept, ∀ r ∈ S.refs e.2, r.2 = .restrict → r.1 ∉ gone then
    some (kept.map fun e => (e.1, S.clear (· ∈ gone) e.2))
  else none

/-- **The references are intact**: a key has one row, and what a row refers to is there. -/
structure Intact (rows : List (Key × Row)) : Prop where
  nodup : (keys rows).Nodup
  resolves : ∀ e ∈ rows, ∀ r ∈ S.refs e.2, r.1 ∈ keys rows

/-- The rows under some keys: these, and the rows that refer to one of them by a cascade. -/
inductive Under (rows : List (Key × Row)) (roots : List Key) : Key → Prop
  | root {k : Key} : k ∈ roots → Under rows roots k
  | child {k p : Key} {row : Row} : (k, row) ∈ rows → (p, .cascade) ∈ S.refs row →
      Under rows roots p → Under rows roots k

variable {S} {rows rows' : List (Key × Row)} {roots ks : List Key} {k : Key} {row : Row}

omit [DecidableEq Key] in
theorem mem_keys : k ∈ keys rows ↔ ∃ row, (k, row) ∈ rows := by
  simp [keys]

theorem follows_iff : follows S ks row = true ↔ ∃ p, (p, .cascade) ∈ S.refs row ∧ p ∈ ks := by
  simp [follows]

omit [DecidableEq Key] in
/-- The row of a key. -/
theorem Intact.unique (h : Intact S rows) {row' : Row} (hrow : (k, row) ∈ rows)
    (hrow' : (k, row') ∈ rows) : row = row' := by
  have heq := List.inj_on_of_nodup_map h.nodup hrow hrow' rfl
  exact congrArg Prod.snd heq

/-! ## How far a cascade goes -/

theorem spread_sound {n : Nat} (h : k ∈ spread S rows n ks)
    (hks : ∀ k ∈ ks, Under S rows roots k) : Under S rows roots k := by
  induction n generalizing ks with
  | zero => exact hks k h
  | succ n ih =>
    refine ih h fun k hk => ?_
    rcases List.mem_append.mp hk with hk | hk
    · exact hks k hk
    · obtain ⟨row, hrow⟩ := mem_keys.mp hk
      obtain ⟨hrow, hfollows⟩ := List.mem_filter.mp hrow
      obtain ⟨p, hp, hmem⟩ := follows_iff.mp (Bool.and_eq_true _ _ ▸ hfollows).2
      exact .child hrow hp (hks p hmem)

theorem subset_spread {n : Nat} (h : k ∈ ks) : k ∈ spread S rows n ks := by
  induction n generalizing ks with
  | zero => exact h
  | succ n ih => exact ih (List.mem_append_left _ h)

/-- Nothing follows some keys that is not among them. -/
def Closed (S : RowSchema Key Row) (rows : List (Key × Row)) (ks : List Key) : Prop :=
  ∀ e ∈ rows, follows S ks e.2 = true → e.1 ∈ ks

theorem spread_of_closed {n : Nat} (h : Closed S rows ks) : spread S rows n ks = ks := by
  induction n with
  | zero => rfl
  | succ n ih =>
    have hnone : rows.filter (fun e => e.1 ∉ ks && follows S ks e.2) = [] := by
      refine List.filter_eq_nil_iff.mpr fun e he hboth => ?_
      obtain ⟨hnew, hfollows⟩ := Bool.and_eq_true _ _ ▸ hboth
      exact of_decide_eq_true hnew (h e he hfollows)
    rw [spread, hnone]
    simpa [keys] using ih

/-- **As many rounds as there are rows are enough.**  A round that adds no row has reached the
end, and any other leaves fewer rows outside. -/
theorem closed_spread {n : Nat} (h : rows.countP (fun e => e.1 ∉ ks) ≤ n) :
    Closed S rows (spread S rows n ks) := by
  induction n generalizing ks with
  | zero =>
    intro e he _
    by_contra hnot
    have hnone := List.countP_eq_zero.mp (Nat.le_zero.mp h) e he
    exact hnone (decide_eq_true hnot)
  | succ n ih =>
    by_cases hclosed : Closed S rows ks
    · rw [spread_of_closed hclosed]
      exact hclosed
    · refine ih ?_
      obtain ⟨e, he, hfollows, hnot⟩ : ∃ e ∈ rows, follows S ks e.2 = true ∧ e.1 ∉ ks := by
        simpa [Closed] using hclosed
      have hnew : e.1 ∈ keys (rows.filter fun e => e.1 ∉ ks && follows S ks e.2) :=
        mem_keys.mpr ⟨e.2, List.mem_filter.mpr ⟨he, by simp [hnot, hfollows]⟩⟩
      generalize keys (rows.filter fun e => e.1 ∉ ks && follows S ks e.2) = new at hnew ⊢
      have hsplit : rows.countP (fun e => e.1 ∉ ks ++ new) =
          ((rows.filter fun e => e.1 ∉ ks).filter fun e => e.1 ∉ new).length := by
        rw [List.filter_filter, List.countP_eq_length_filter]
        refine congrArg List.length (List.filter_congr fun e _ => ?_)
        by_cases hks : e.1 ∈ ks <;> by_cases hn : e.1 ∈ new <;> simp [hks, hn]
      have hlt : ((rows.filter fun e => e.1 ∉ ks).filter fun e => e.1 ∉ new).length <
          (rows.filter fun e => e.1 ∉ ks).length :=
        List.length_filter_lt_length_iff_exists.mpr
          ⟨e, List.mem_filter.mpr ⟨he, decide_eq_true hnot⟩, by simp [hnew]⟩
      rw [List.countP_eq_length_filter] at h
      omega

/-- **The dead rows are the rows under the roots.** -/
theorem mem_dead : k ∈ dead S rows roots ↔ Under S rows roots k := by
  constructor
  · exact fun h => spread_sound h fun k hk => .root hk
  · intro h
    have hclosed : Closed S rows (dead S rows roots) := closed_spread List.countP_le_length
    induction h with
    | root hk => exact subset_spread hk
    | child hrow hp _ ih => exact hclosed _ hrow (follows_iff.mpr ⟨_, hp, ih⟩)

/-! ## What the operations keep -/

theorem Intact.insert (h : Intact S rows) (hins : insert S k row rows = some rows') :
    Intact S rows' := by
  unfold ForeignKeys.insert at hins
  split at hins
  next hok =>
    cases hins
    obtain ⟨hnew, hrefs⟩ := hok
    refine ⟨?_, fun e he r hr => ?_⟩
    · rw [keys, List.map_append, List.nodup_append]
      refine ⟨h.nodup, List.nodup_singleton k, fun a ha b hb => ?_⟩
      rw [List.mem_singleton.mp hb]
      rintro rfl
      exact hnew ha
    · rw [keys, List.map_append, List.mem_append]
      rcases List.mem_append.mp he with he | he
      · exact .inl (h.resolves e he r hr)
      · rw [List.mem_singleton.mp he] at hr
        rcases hrefs r hr with heq | hmem
        · exact .inr (by simp [heq])
        · exact .inl hmem
  · cases hins

omit [DecidableEq Key] in
theorem keys_map (f : Key → Row → Row) : keys (rows.map fun e => (e.1, f e.1 e.2)) = keys rows := by
  simp [keys, Function.comp_def]

theorem Intact.update (h : Intact S rows) {f : Key → Row → Row}
    (hupd : update S f rows = some rows') : Intact S rows' := by
  unfold ForeignKeys.update at hupd
  dsimp only at hupd
  split at hupd
  next hok =>
    cases hupd
    exact ⟨by rw [keys_map]; exact h.nodup, by rw [keys_map]; exact hok⟩
  · cases hupd

/-- A row after a deletion: one that is not under the roots, cleared. -/
theorem mem_delete (h : delete S roots rows = some rows') {e : Key × Row} :
    e ∈ rows' ↔ ∃ row, (e.1, row) ∈ rows ∧ ¬ Under S rows roots e.1 ∧
      e.2 = S.clear (· ∈ dead S rows roots) row := by
  unfold delete at h
  dsimp only at h
  split at h
  · cases h
    simp only [List.mem_map, List.mem_filter, decide_eq_true_eq, mem_dead]
    constructor
    · rintro ⟨e', ⟨he', hnot⟩, rfl⟩
      exact ⟨e'.2, he', hnot, rfl⟩
    · rintro ⟨row, hrow, hnot, heq⟩
      exact ⟨(e.1, row), ⟨hrow, hnot⟩, Prod.ext rfl heq.symm⟩
  · cases h

/-- A deletion that no reference restricts is done. -/
theorem exists_delete (h : ∀ e ∈ rows, ∀ r ∈ S.refs e.2, r.2 = .restrict → ¬ Under S rows roots r.1) :
    ∃ rows', ForeignKeys.delete S roots rows = some rows' := by
  unfold ForeignKeys.delete
  dsimp only
  rw [if_pos]
  · exact ⟨_, rfl⟩
  · exact fun e he r hr hres hd => h e (List.mem_filter.mp he).1 r hr hres (mem_dead.mp hd)

theorem Intact.delete (h : Intact S rows) (hdel : delete S roots rows = some rows') :
    Intact S rows' := by
  have hmem : ∀ e, e ∈ rows' ↔ _ := fun e => mem_delete hdel
  unfold ForeignKeys.delete at hdel
  dsimp only at hdel
  split at hdel
  next hrestrict =>
    cases hdel
    refine ⟨?_, fun e he r hr => ?_⟩
    · rw [keys_map fun _ row => S.clear _ row]
      exact h.nodup.sublist (List.filter_sublist.map _)
    · obtain ⟨row, hrow, hnot, heq⟩ := (hmem e).mp he
      rw [heq, S.refs_clear] at hr
      obtain ⟨hr, hkept⟩ := List.mem_filter.mp hr
      obtain ⟨target, htarget⟩ := mem_keys.mp (h.resolves _ hrow r hr)
      -- a reference to a dead row has killed its row, was cleared, or restricts
      have halive : ¬ Under S rows roots r.1 := by
        intro hunder
        obtain ⟨p, action⟩ := r
        cases action with
        | cascade => exact hnot (.child hrow hr hunder)
        | setNull => simp [mem_dead.mpr hunder] at hkept
        | restrict =>
          have hin : (e.1, row) ∈ rows.filter fun e => e.1 ∉ dead S rows roots :=
            List.mem_filter.mpr ⟨hrow, decide_eq_true fun hd => hnot (mem_dead.mp hd)⟩
          exact hrestrict _ hin _ hr rfl (mem_dead.mpr hunder)
      exact mem_keys.mpr ⟨_, (hmem (r.1, _)).mpr ⟨target, htarget, halive, rfl⟩⟩
  · cases hdel

/-- **What a deletion does** where the rows that go are known: they are under the roots, the rest
is closed, and no row of the rest has a reference that is cleared or restricts. -/
theorem delete_eq_filter {gone : Key × Row → Bool} (hroots : ∀ e ∈ rows, e.1 ∈ roots → gone e)
    (hunder : ∀ e ∈ rows, gone e → Under S rows roots e.1)
    (hrefs : ∀ e ∈ rows, ∀ e' ∈ rows, gone e' → ∀ action, (e'.1, action) ∈ S.refs e.2 → gone e)
    (h : Intact S rows) : delete S roots rows = some (rows.filter fun e => !gone e) := by
  have hgone : ∀ e ∈ rows, gone e ↔ e.1 ∈ dead S rows roots := by
    intro e he
    rw [mem_dead]
    refine ⟨hunder e he, fun hu => ?_⟩
    obtain ⟨k, row⟩ := e
    dsimp only at hu
    induction hu generalizing row with
    | root hk => exact hroots _ he hk
    | @child k p row' hrow hp _ ih =>
      obtain ⟨target, htarget⟩ := mem_keys.mp (h.resolves _ hrow _ hp)
      rw [h.unique he hrow]
      exact hrefs _ hrow _ htarget (ih _ htarget) _ hp
  have hdead : ∀ e ∈ rows, ∀ r ∈ S.refs e.2, r.1 ∈ dead S rows roots → gone e := by
    intro e he r hr hd
    obtain ⟨target, htarget⟩ := mem_keys.mp (h.resolves e he r hr)
    exact hrefs e he (r.1, target) htarget ((hgone _ htarget).mpr hd) r.2 hr
  have hfilter : rows.filter (fun e => e.1 ∉ dead S rows roots) = rows.filter fun e => !gone e := by
    refine List.filter_congr fun e he => ?_
    have hiff := hgone e he
    cases hg : gone e <;> simp_all
  unfold delete
  dsimp only
  rw [hfilter, if_pos]
  · refine congrArg some ((List.map_congr_left fun e he => ?_).trans (List.map_id _))
    obtain ⟨he, hnot⟩ := List.mem_filter.mp he
    refine Prod.ext rfl (S.clear_eq_self _ _ fun r hr _ => ?_)
    by_contra hd
    simp [hdead e he r hr (by simpa using hd)] at hnot
  · intro e he r hr _ hd
    obtain ⟨he, hnot⟩ := List.mem_filter.mp he
    simp [hdead e he r hr hd] at hnot

end ForeignKeys
