import PandaProbe.GuardedRun
import PandaProbe.RowTransactions
import PandaProbe.TraceStore

/-! # Concurrent metadata patches

`update_trace` and `update_span` load a row, merge the request's `metadata` into the loaded object
and assign the result; the flush writes the whole object, if it differs from the loaded one, and
the commit comes with the end of the request.  The model is the metadata column of one row and any
number of such transactions.  Whether two objects are equal is Python's `==` (`same`), which takes
`1` and `True` for the same value.

An object that is written over one that others have patched meanwhile takes their entries away.
`patches_kept` is the main result: patches with disjoint keys are lost only so, or where an entry
is taken for one that is there already.
-/
namespace PandaProbe
open GuardedRun RowTransactions

/-- The entries of a patch; a request without metadata, or with `null`, has none. -/
def Patch.entries (p : Patch JsonDict) : JsonDict := p.join.getD (fun _ => none)

theorem Patch.setMetadata_apply (p : Patch JsonDict) (old : JsonDict) (k : String) :
    p.setMetadata old k = (p.entries k <|> old k) := by
  rcases p with _ | _ | v <;> rfl

/-- What an update carries: whose it is, the metadata it has loaded, and whether it changes
another column too. -/
structure MetadataUpdate where
  txn : Nat
  loaded : JsonDict
  others : Bool

namespace MetadataUpdate
variable (same : JsonDict → JsonDict → Bool) (patch : Nat → Patch JsonDict) (l : MetadataUpdate)

/-- The object that is assigned. -/
def merged : JsonDict := (patch l.txn).setMetadata l.loaded

/-- The flush writes the metadata: a value was assigned, and it is not equal to the loaded one. -/
def writes : Bool := (patch l.txn).isSome && !same (l.merged patch) l.loaded

/-- `update_trace` or `update_span`, as far as the metadata goes. -/
def update : Update JsonDict Bool MetadataUpdate where
  load w others row := ⟨w, row, others⟩
  issues l := l.writes same patch || l.others
  write l row := some (if l.writes same patch then l.merged patch else row)

/-- The metadata has not been patched by others between the read and the statement that writes it;
where nothing is written, the entries are there already. -/
def Current (row : JsonDict) : Prop :=
  if l.writes same patch then ∀ k, (patch l.txn).entries k = none → row k = l.loaded k
  else ∀ k v, (patch l.txn).entries k = some v → l.loaded k = some v

end MetadataUpdate

/-- The patches of different updates have no key in common. -/
def DisjointKeys (patch : Nat → Patch JsonDict) : Prop :=
  ∀ v w, v ≠ w → ∀ k, (patch v).entries k = none ∨ (patch w).entries k = none

/-- Every entry of every committed patch is there, and every original entry that no committed
patch has replaced. -/
structure AllPatched (patch : Nat → Patch JsonDict) (original : JsonDict)
    (s : Cell JsonDict MetadataUpdate) : Prop where
  entries : ∀ w l, s.task w = .committed l → ∀ k v, (patch w).entries k = some v → s.row k = some v
  rest : ∀ k, (∀ w l, s.task w = .committed l → (patch w).entries k = none) →
    s.row k = original k

namespace MetadataUpdate
variable {same : JsonDict → JsonDict → Bool} {patch : Nat → Patch JsonDict}
  {l : MetadataUpdate} {row row' original : JsonDict} {k : String}

theorem merged_apply (k : String) :
    l.merged patch k = ((patch l.txn).entries k <|> l.loaded k) :=
  Patch.setMetadata_apply ..

/-- A statement in turn leaves the entries of the others alone. -/
theorem Current.off_patch (hok : l.Current same patch row)
    (hw : (update same patch).write l row = some row') (hk : (patch l.txn).entries k = none) :
    row' k = row k := by
  cases hw
  split
  next hwrites =>
    rw [Current, if_pos hwrites] at hok
    rw [merged_apply, hk, hok k hk]
    rfl
  · rfl

/-- What is known of an update: nobody else touches its keys, and once it commits its entries are
there. -/
theorem keeps_update (hdisj : DisjointKeys patch) : Cell.Keeps (update same patch)
    (Current same patch)
    (fun w l row => l.txn = w ∧ ∀ k, (patch w).entries k ≠ none → row k = l.loaded k)
    (fun w l row => (l.txn = w ∧ ∀ k, (patch w).entries k ≠ none → row k = l.loaded k) ∧
      (l.writes same patch = false → ∀ k v, (patch w).entries k = some v → l.loaded k = some v))
    (fun w _ row => ∀ k v, (patch w).entries k = some v → row k = some v) where
  load w _ row := ⟨rfl, fun _ _ => rfl⟩
  flush w l row h hok := by
    refine ⟨h, fun hskip => ?_⟩
    rw [Current, hskip, h.1] at hok
    exact hok
  commit w l row row' h hissues hok hw k v hv := by
    obtain ⟨⟨rfl, hown⟩, hskip⟩ := h
    cases hw
    split
    · rw [merged_apply, hv]
      rfl
    next hwrites =>
      rw [hown k (by simp [hv])]
      exact hskip (by simpa using hwrites) k v hv
  skip w l row h hissues k v hv := by
    have hwrites : l.writes same patch = false := (Bool.or_eq_false_iff.mp hissues).1
    rw [h.1.2 k (by simp [hv])]
    exact h.2 hwrites k v hv
  stable w v l m row row' hne h _ hok hw := by
    -- on the keys of another update the row is as it was
    have hrow : ∀ k, (patch v).entries k ≠ none → row' k = row k := by
      intro k hk
      refine hok.off_patch hw ?_
      rw [h.1.1]
      exact (hdisj v w hne k).resolve_left hk
    refine ⟨fun hv => ⟨hv.1, fun k hk => (hrow k hk).trans (hv.2 k hk)⟩, fun hv => ?_, ?_⟩
    · exact ⟨⟨hv.1.1, fun k hk => (hrow k hk).trans (hv.1.2 k hk)⟩, hv.2⟩
    · intro hv k e he
      rw [hrow k (by simp [he])]
      exact hv k e he

/-- **An update that runs alone** leaves what `{**existing, **value}` is, where Python's `==` is
equality. -/
theorem update_alone (hsame : ∀ a b, same a b = true → a = b) (w : Nat) (others : Bool)
    (row : JsonDict) :
    let l := (update same patch).load w others row
    (if (update same patch).issues l then (update same patch).write l row else some row) =
      some ((patch w).setMetadata row) := by
  intro l
  by_cases hwrites : l.writes same patch = true
  · have hissues : (update same patch).issues l = true := by simp [update, hwrites]
    rw [if_pos hissues]
    exact congrArg some (if_pos hwrites)
  · -- nothing is assigned, or what is assigned is what was there
    have hrow : (patch w).setMetadata row = row := by
      cases hp : patch w with
      | none => rfl
      | some v =>
        rw [← hp]
        refine hsame _ _ ?_
        simpa [writes, l, update, merged, hp] using hwrites
    rw [hrow]
    split
    · exact congrArg some (if_neg hwrites)
    · rfl

/-- The metadata of `update_trace`. -/
theorem patch_metadata_trace (row : TraceRow) (fields : TraceUpdate) :
    (row.patch fields).metadata = fields.metadata.setMetadata row.metadata := rfl

/-- The metadata of `update_span`. -/
theorem patch_metadata_span (row : SpanRow) (fields : SpanUpdate) :
    (row.patch fields).metadata = fields.metadata.setMetadata row.metadata := rfl

/-! ## The runs -/

variable {s s' : Cell JsonDict MetadataUpdate} {a : Act Bool}

/-- The invariant of the runs in turn. -/
structure Inv (same : JsonDict → JsonDict → Bool) (patch : Nat → Patch JsonDict)
    (original : JsonDict) (s : Cell JsonDict MetadataUpdate) : Prop where
  locked : s.Locked (update same patch) (Current same patch)
  known : ∀ w, Cell.Known
    (fun w l row => l.txn = w ∧ ∀ k, (patch w).entries k ≠ none → row k = l.loaded k)
    (fun w l row => (l.txn = w ∧ ∀ k, (patch w).entries k ≠ none → row k = l.loaded k) ∧
      (l.writes same patch = false → ∀ k v, (patch w).entries k = some v → l.loaded k = some v))
    (fun w _ row => ∀ k v, (patch w).entries k = some v → row k = some v) w s.row (s.task w)
  rest : ∀ k, (∀ w l, s.task w = .committed l → (patch w).entries k = none) →
    s.row k = original k

theorem inv_initial (original : JsonDict) :
    Inv same patch original (Cell.initial original : Cell JsonDict MetadataUpdate) where
  locked := Cell.locked_initial original
  known _ := trivial
  rest _ _ := rfl

theorem Inv.step (hdisj : DisjointKeys patch) (h : Inv same patch original s)
    (ha : s.InTurn (Current same patch) a) (hs : s.step (update same patch) a = some s') :
    Inv same patch original s' where
  locked := Cell.locked_step h.locked ha hs
  known := Cell.known_step (keeps_update hdisj) h.locked h.known ha hs
  rest k hk := by
    have hbefore : s.row k = original k :=
      h.rest k (fun w l hw => hk w l (Cell.committed_step hs hw))
    rcases Cell.step_row h.locked hs with hrow | ⟨w, l, rfl, htask, -, hwrite, hok⟩
    · rw [hrow]
      exact hbefore
    · -- the patch that commits does not have the key
      obtain ⟨l', -, hdone⟩ := Cell.task_of_commit hs
      have htxn : l.txn = w := by
        have := h.known w
        rw [htask] at this
        exact this.1.1
      rw [hok.off_patch hwrite (htxn ▸ hk w l' hdone)]
      exact hbefore

theorem Inv.patched (h : Inv same patch original s) : AllPatched patch original s where
  entries w l hw := by
    have := h.known w
    rw [hw] at this
    exact this
  rest := h.rest

/-- A key that is in no patch committed in between has the same value. -/
theorem AllPatched.apply_eq (h : AllPatched patch original s) (h' : AllPatched patch original s')
    (hsub : ∀ w l, s.task w = .committed l → s'.task w = .committed l)
    (hnew : ∀ w l, s'.task w = .committed l → s.task w = .committed l ∨ (patch w).entries k = none) :
    s'.row k = s.row k := by
  by_cases hk : ∀ w l, s.task w = .committed l → (patch w).entries k = none
  · rw [h.rest k hk]
    refine h'.rest k (fun w l hw => ?_)
    rcases hnew w l hw with hw | hw
    · exact hk w l hw
    · exact hw
  · simp only [not_forall] at hk
    obtain ⟨w, l, hw, hk⟩ := hk
    obtain ⟨v, hv⟩ := Option.ne_none_iff_exists'.mp hk
    rw [h.entries w l hw k v hv, h'.entries w l (hsub w l hw) k v hv]

/-- An update out of turn loses an entry once it commits. -/
theorem Inv.not_patched (h : Inv same patch original s) {w : Nat}
    {s₁ s₂ : Cell JsonDict MetadataUpdate}
    (ha : ¬ s.InTurn (X := Bool) (Current same patch) (.flush w))
    (h₁ : s.step (update same patch) (.flush w) = some s₁)
    (h₂ : s₁.step (update same patch) (.commit w) = some s₂) : ¬ AllPatched patch original s₂ := by
  simp only [Cell.InTurn, not_forall] at ha
  obtain ⟨l, hl, hstale⟩ := ha
  intro hp
  obtain ⟨htxn, hown⟩ : l.txn = w ∧ ∀ k, (patch w).entries k ≠ none → s.row k = l.loaded k := by
    have := h.known w
    rw [hl] at this
    exact this
  have hrow := Cell.row_of_flush_commit h.locked hl h₁ h₂
  by_cases hwrites : l.writes same patch = true
  · -- somebody else's entry, or an original one, is replaced by what was loaded
    rw [Current, if_pos hwrites, htxn] at hstale
    simp only [not_forall] at hstale
    obtain ⟨k, hk, hne⟩ := hstale
    have hissues : (update same patch).issues l = true := by simp [update, hwrites]
    rw [if_pos hissues] at hrow
    have hs₂ : s₂.row k = l.loaded k := by
      rw [← Option.some.inj hrow, if_pos hwrites, merged_apply, htxn, hk]
      rfl
    refine hne ((AllPatched.apply_eq h.patched hp ?_ ?_).symm.trans hs₂)
    · exact fun v m hv => Cell.committed_step h₂ (Cell.committed_step h₁ hv)
    · intro v m hv
      rcases Cell.committed_of_step h₂ hv with hv | hv
      · exact .inl ((Cell.committed_of_step h₁ hv).resolve_right (by simp))
      · cases hv
        exact .inr hk
  · rw [Current, if_neg hwrites, htxn] at hstale
    simp only [not_forall] at hstale
    obtain ⟨k, v, hv, hne⟩ := hstale
    have hs₂ : s₂.row = s.row := by
      split at hrow
      · rw [← Option.some.inj hrow, if_neg hwrites]
      · exact (Option.some.inj hrow).symm
    obtain ⟨l', -, hdone⟩ := Cell.task_of_commit h₂
    have := hp.entries w l' hdone k v hv
    rw [hs₂, hown k (by simp [hv])] at this
    exact hne this

/-- **Patches with disjoint keys are lost only by a statement out of turn.**  In every run in
which each update finds the metadata as it had loaded it, its own keys apart, or has nothing to
write because its entries are there, the row holds every entry of every committed patch and every
original entry that no committed patch replaces.  And an update out of turn that commits loses
one. -/
theorem patches_kept (hdisj : DisjointKeys patch)
    (h : Reach (Cell.step (update same patch)) (Cell.InTurn · (Current same patch))
      (Cell.initial original) s) :
    AllPatched patch original s ∧
      ∀ w s₁ s₂, ¬ s.InTurn (X := Bool) (Current same patch) (.flush w) →
        s.step (update same patch) (.flush w) = some s₁ →
        s₁.step (update same patch) (.commit w) = some s₂ → ¬ AllPatched patch original s₂ := by
  have hinv : Inv same patch original s :=
    h.invariant (inv_initial original) (fun _ _ _ hi ha hs => hi.step hdisj ha hs)
  exact ⟨hinv.patched, fun w s₁ s₂ => hinv.not_patched⟩

/-- An update that writes right after its read is in turn. -/
theorem inTurn_of_load {w : Nat} {others : Bool}
    (hs : s.step (update same patch) (.load w others) = some s')
    (hw : ((update same patch).load w others s.row).writes same patch = true) :
    s'.InTurn (X := Bool) (Current same patch) (.flush w) := by
  cases Cell.steps_of_step hs with
  | load htask =>
    intro l hl
    rw [Cell.goto_task_self] at hl
    cases hl
    rw [Current, if_pos hw]
    exact fun _ _ => rfl

/-- Python's `==` on objects with no key but `reviewer` and `grade` and with strings for values. -/
def sameReview (a b : JsonDict) : Bool :=
  ["reviewer", "grade"].all (fun k =>
    match a k, b k with
    | some (.str x), some (.str y) => x == y
    | none, none => true
    | _, _ => false)

/-- One request sets the reviewer and another the grade. -/
def reviewPatches : Nat → Patch JsonDict
  | 0 => some (some (fun k => if k = "reviewer" then some (.str "ada") else none))
  | 1 => some (some (fun k => if k = "grade" then some (.str "good") else none))
  | _ => none

theorem disjointKeys_reviewPatches : DisjointKeys reviewPatches := by
  intro v w hne k
  match v, w with
  | 0, 0 => exact absurd rfl hne
  | 1, 1 => exact absurd rfl hne
  | 0, 1 =>
    by_cases hk : k = "reviewer"
    · exact .inr (by simp [reviewPatches, Patch.entries, hk])
    · exact .inl (by simp [reviewPatches, Patch.entries, hk])
  | 1, 0 =>
    by_cases hk : k = "reviewer"
    · exact .inl (by simp [reviewPatches, Patch.entries, hk])
    · exact .inr (by simp [reviewPatches, Patch.entries, hk])
  | _ + 2, _ => exact .inl rfl
  | 0, _ + 2 => exact .inr rfl
  | 1, _ + 2 => exact .inr rfl

/-- A trace without metadata. -/
def noMetadata : Cell JsonDict MetadataUpdate := Cell.initial (fun _ => none)

/-- One of the entries, as a text. -/
def entryText (k : String) (s : Cell JsonDict MetadataUpdate) : Option String :=
  match s.row k with
  | some (.str x) => some x
  | _ => none

/-- The two updates, one after the other. -/
theorem patches_kept_reviewed :
    ∃ s, run (Cell.step (update sameReview reviewPatches)) noMetadata
        [.load 0 false, .flush 0, .commit 0, .load 1 false, .flush 1, .commit 1] = some s ∧
      entryText "reviewer" s = some "ada" ∧ AllPatched reviewPatches (fun _ => none) s := by
  obtain ⟨s, hs⟩ := Option.isSome_iff_exists.mp
    (show (run (Cell.step (update sameReview reviewPatches)) noMetadata
      [.load 0 false, .flush 0, .commit 0, .load 1 false, .flush 1, .commit 1]).isSome from by
        decide +kernel)
  have htext : (run (Cell.step (update sameReview reviewPatches)) noMetadata
      [.load 0 false, .flush 0, .commit 0, .load 1 false, .flush 1, .commit 1]).bind
        (entryText "reviewer") = some "ada" := by decide +kernel
  have hwrites : (run (Cell.step (update sameReview reviewPatches)) noMetadata
      [.load 0 false, .flush 0, .commit 0]).map (fun s => ((update sameReview reviewPatches).load
        1 false s.row).writes sameReview reviewPatches) = some true := by decide +kernel
  obtain ⟨s₁, h₁, hs₁⟩ := Option.bind_eq_some_iff.mp hs
  obtain ⟨s₂, h₂, hs₂⟩ := Option.bind_eq_some_iff.mp hs₁
  obtain ⟨s₃, h₃, hs₃⟩ := Option.bind_eq_some_iff.mp hs₂
  obtain ⟨s₄, h₄, hs₄⟩ := Option.bind_eq_some_iff.mp hs₃
  obtain ⟨s₅, h₅, hs₅⟩ := Option.bind_eq_some_iff.mp hs₄
  obtain ⟨s₆, h₆, hs₆⟩ := Option.bind_eq_some_iff.mp hs₅
  cases hs₆
  simp only [run, h₁, h₂, h₃, Option.bind_some, Option.map_some, Option.some.injEq] at hwrites
  have hreach : Reach (Cell.step (update sameReview reviewPatches))
      (Cell.InTurn · (Current sameReview reviewPatches)) (Cell.initial (fun _ => none)) s := by
    refine .step (.step (.step (.step (.step (.step .initial ?_ h₁) ?_ h₂) ?_ h₃) ?_ h₄) ?_ h₅) ?_ h₆
    · trivial
    · exact inTurn_of_load h₁ (by decide +kernel)
    · trivial
    · trivial
    · exact inTurn_of_load h₄ hwrites
    · trivial
  rw [hs] at htext
  exact ⟨s, hs, htext, (patches_kept disjointKeys_reviewPatches hreach).1⟩

/-- Both read the empty object; the second to write takes the first one's entry away. -/
theorem overlapping_patch_lost :
    ∃ s, Reach (Cell.step (update sameReview reviewPatches)) Always noMetadata s ∧
      DisjointKeys reviewPatches ∧ ¬ AllPatched reviewPatches (fun _ => none) s := by
  obtain ⟨s, hs⟩ := Option.isSome_iff_exists.mp
    (show (run (Cell.step (update sameReview reviewPatches)) noMetadata
      [.load 0 false, .load 1 false, .flush 0, .commit 0, .flush 1, .commit 1]).isSome from by
        decide +kernel)
  have hlost : (run (Cell.step (update sameReview reviewPatches)) noMetadata
      [.load 0 false, .load 1 false, .flush 0, .commit 0, .flush 1, .commit 1]).map
        (fun s => (entryText "reviewer" s, match s.task 0 with | .committed _ => true | _ => false)) =
      some (none, true) := by decide +kernel
  rw [hs, Option.map_some, Option.some.injEq, Prod.mk.injEq] at hlost
  refine ⟨s, reach_of_run hs, disjointKeys_reviewPatches, fun hp => ?_⟩
  split at hlost
  next l hl =>
    have := hp.entries 0 l hl "reviewer" (.str "ada") rfl
    simp [entryText, this] at hlost
  · simp at hlost

end MetadataUpdate
end PandaProbe
