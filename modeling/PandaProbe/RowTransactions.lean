import Mathlib.Logic.Function.Basic

/-! # Transactions that read a row and write it back

Any number of transactions on one row, at the isolation level READ COMMITTED.  A transaction
reads the committed row and carries something on from it, later issues a statement on the row,
and commits or rolls back.  The statement is a function of what the transaction carries and of
the row as it is committed when the statement runs; it waits while another transaction has
written the row and not finished.  Nothing is checked between the read and the statement, so
what is carried may be out of date.

What can be relied on is that the row stands still while it is locked: whatever a statement
finds is there until its transaction commits.  So a condition that every statement meets on the
row it finds is met on the row its commit replaces (`step_row`).
-/
namespace RowTransactions
variable {R X L : Type*}

/-- What the transactions do: what one carries on from its read, whether it issues a statement,
and the row the statement leaves, `none` if it fails. -/
structure Update (R X L : Type*) where
  load : Nat → X → R → L
  issues : L → Bool
  write : L → R → Option R

/-- Where a transaction is. -/
inductive Task (L : Type*)
  | idle
  | loaded (l : L)
  | flushed (l : L)
  | committed (l : L)
  | rolledBack

/-- The committed row, the transaction that has written it and not finished, with the row it
will commit, and where each transaction is. -/
structure Cell (R L : Type*) where
  row : R
  pending : Option (Nat × R)
  task : Nat → Task L

/-- What a transaction does next. -/
inductive Act (X : Type*)
  | load (w : Nat) (x : X)
  | flush (w : Nat)
  | commit (w : Nat)
  | rollback (w : Nat)

namespace Cell
variable (u : Update R X L) (s : Cell R L)

/-- The transaction moves on. -/
def goto (w : Nat) (t : Task L) : Cell R L := { s with task := Function.update s.task w t }

/-- The lock of a transaction that ends. -/
def released (w : Nat) : Option (Nat × R) := s.pending.filter (fun p => p.1 ≠ w)

/-- One statement, commit or rollback. -/
def step : Act X → Option (Cell R L)
  | .load w x =>
    match s.task w with
    | .idle => some (s.goto w (.loaded (u.load w x s.row)))
    | _ => none
  | .flush w =>
    match s.task w with
    | .loaded l =>
      if u.issues l then
        match s.pending with
        | some _ => none
        | none =>
          match u.write l s.row with
          | none => some (s.goto w .rolledBack)
          | some row => some ({ s with pending := some (w, row) }.goto w (.flushed l))
      else some (s.goto w (.flushed l))
    | _ => none
  | .commit w =>
    match s.task w with
    | .flushed l =>
      match s.pending with
      | some (holder, row) =>
        if holder = w then some ({ s with row := row, pending := none }.goto w (.committed l))
        else some (s.goto w (.committed l))
      | none => some (s.goto w (.committed l))
    | _ => none
  | .rollback w =>
    match s.task w with
    | .loaded _ => some (s.goto w .rolledBack)
    | .flushed _ => some ({ s with pending := s.released w }.goto w .rolledBack)
    | _ => none

/-- Every statement, or decision not to issue one, meets a condition on what is carried and the
row that is found. -/
def InTurn (ok : L → R → Prop) : Act X → Prop
  | .flush w => ∀ l, s.task w = .loaded l → ok l s.row
  | _ => True

/-- Nothing has happened to the row yet. -/
def initial (row : R) : Cell R L := ⟨row, none, fun _ => .idle⟩

/-- **The row stands still while it is locked**: what the holder will commit is its statement
applied to the committed row, and a statement that was issued holds the lock. -/
structure Locked (ok : L → R → Prop) : Prop where
  holder : ∀ w row, s.pending = some (w, row) →
    ∃ l, s.task w = .flushed l ∧ u.issues l = true ∧ u.write l s.row = some row ∧ ok l s.row
  held : ∀ w l, s.task w = .flushed l → u.issues l = true → ∃ row, s.pending = some (w, row)

variable {u s} {s' : Cell R L} {a : Act X} {ok : L → R → Prop}

@[simp] theorem goto_row (w : Nat) (t : Task L) : (s.goto w t).row = s.row := rfl

@[simp] theorem goto_pending (w : Nat) (t : Task L) : (s.goto w t).pending = s.pending := rfl

@[simp] theorem goto_task_self (w : Nat) (t : Task L) : (s.goto w t).task w = t :=
  Function.update_self ..

theorem goto_task_ne {w v : Nat} (h : v ≠ w) (t : Task L) : (s.goto w t).task v = s.task v :=
  Function.update_of_ne h ..

/-- Whoever is somewhere now was there before, or has just moved there. -/
theorem goto_task_cases {v w : Nat} {t t' : Task L} (h : (s.goto v t).task w = t') :
    s.task w = t' ∨ v = w ∧ t = t' := by
  by_cases hv : w = v
  · subst hv
    rw [goto_task_self] at h
    exact .inr ⟨rfl, h⟩
  · rw [goto_task_ne hv] at h
    exact .inl h

/-- **Everything a step can do.** -/
inductive Steps (u : Update R X L) (s : Cell R L) : Act X → Cell R L → Prop
  | load {w x} : s.task w = .idle → Steps u s (.load w x) (s.goto w (.loaded (u.load w x s.row)))
  | skip {w l} : s.task w = .loaded l → u.issues l = false →
      Steps u s (.flush w) (s.goto w (.flushed l))
  | fail {w l} : s.task w = .loaded l → u.issues l = true → s.pending = none →
      u.write l s.row = none → Steps u s (.flush w) (s.goto w .rolledBack)
  | write {w l row} : s.task w = .loaded l → u.issues l = true → s.pending = none →
      u.write l s.row = some row →
      Steps u s (.flush w) ({ s with pending := some (w, row) }.goto w (.flushed l))
  | commit {w l row} : s.task w = .flushed l → s.pending = some (w, row) →
      Steps u s (.commit w) ({ s with row := row, pending := none }.goto w (.committed l))
  | finish {w l} : s.task w = .flushed l → (∀ row, s.pending ≠ some (w, row)) →
      Steps u s (.commit w) (s.goto w (.committed l))
  | abandon {w l} : s.task w = .loaded l → Steps u s (.rollback w) (s.goto w .rolledBack)
  | undo {w l} : s.task w = .flushed l →
      Steps u s (.rollback w) ({ s with pending := s.released w }.goto w .rolledBack)

theorem steps_of_step (h : s.step u a = some s') : Steps u s a s' := by
  cases a with
  | load w x =>
    simp only [step] at h
    split at h
    next htask => cases h; exact .load htask
    · cases h
  | flush w =>
    simp only [step] at h
    split at h
    next l htask =>
      split at h
      next hissues =>
        split at h
        · cases h
        next hfree =>
          split at h
          next hfail => cases h; exact .fail htask hissues hfree hfail
          next row hrow => cases h; exact .write htask hissues hfree hrow
      next hissues => cases h; exact .skip htask (by simpa using hissues)
    · cases h
  | commit w =>
    simp only [step] at h
    split at h
    next l htask =>
      split at h
      next holder row hpending =>
        split at h
        next hw => cases h; subst hw; exact .commit htask hpending
        next hw =>
          cases h
          refine .finish htask (fun row' hp => hw ?_)
          rw [hpending] at hp
          exact congrArg Prod.fst (Option.some.inj hp)
      next hnone =>
        cases h
        exact .finish htask (fun row' hp => by rw [hnone] at hp; cases hp)
    · cases h
  | rollback w =>
    simp only [step] at h
    split at h
    next htask => cases h; exact .abandon htask
    next htask => cases h; exact .undo htask
    · cases h

theorem locked_initial (row : R) : Locked u (initial row : Cell R L) ok where
  holder _ _ h := by cases h
  held _ _ h := by cases h

/-- A transaction moves that holds no lock before or after. -/
theorem Locked.goto (h : Locked u s ok) {w : Nat} {t : Task L}
    (hold : ∀ row, s.pending ≠ some (w, row))
    (hnew : ∀ l, t = .flushed l → u.issues l = false) : Locked u (s.goto w t) ok where
  holder v row hv := by
    have hvw : v ≠ w := by
      rintro rfl
      exact hold row hv
    rw [goto_task_ne hvw]
    exact h.holder v row hv
  held v l hv hissues := by
    by_cases hvw : v = w
    · subst hvw
      rw [goto_task_self] at hv
      rw [hnew l hv] at hissues
      cases hissues
    · rw [goto_task_ne hvw] at hv
      exact h.held v l hv hissues

/-- A transaction that has not issued its statement holds no lock. -/
theorem Locked.not_holder (h : Locked u s ok) {w : Nat} (hw : ∀ l, s.task w ≠ .flushed l)
    (row : R) : s.pending ≠ some (w, row) := by
  intro hp
  obtain ⟨l, htask, -⟩ := h.holder w row hp
  exact hw l htask

theorem locked_step (h : Locked u s ok) (ha : s.InTurn ok a) (hs : s.step u a = some s') :
    Locked u s' ok := by
  cases steps_of_step hs with
  | load htask => exact h.goto (h.not_holder (by simp [htask])) (by simp)
  | skip htask hissues =>
    refine h.goto (h.not_holder (by simp [htask])) (fun l hl => ?_)
    cases hl
    exact hissues
  | fail htask _ _ _ => exact h.goto (h.not_holder (by simp [htask])) (by simp)
  | @write w l row htask hissues hfree hrow =>
    refine ⟨fun v row' hv => ?_, fun v l' hv hissues' => ?_⟩
    · cases hv
      exact ⟨l, goto_task_self .., hissues, hrow, ha l htask⟩
    · by_cases hvw : v = w
      · subst hvw
        exact ⟨row, rfl⟩
      · -- nobody else had issued a statement
        rw [goto_task_ne hvw] at hv
        obtain ⟨row', hp⟩ := h.held v l' hv hissues'
        rw [hfree] at hp
        cases hp
  | @commit w l row htask hpending =>
    refine ⟨fun v row' hv => (by cases hv), fun v l' hv hissues' => ?_⟩
    by_cases hvw : v = w
    · subst hvw
      rw [goto_task_self] at hv
      cases hv
    · rw [goto_task_ne hvw] at hv
      obtain ⟨row', hp⟩ := h.held v l' hv hissues'
      rw [hpending] at hp
      exact absurd (congrArg Prod.fst (Option.some.inj hp)).symm hvw
  | finish _ hnot => exact h.goto hnot (by simp)
  | abandon htask => exact h.goto (h.not_holder (by simp [htask])) (by simp)
  | @undo w l htask =>
    refine ⟨fun v row hv => ?_, fun v l' hv hissues' => ?_⟩
    · obtain ⟨hp, hvw⟩ := Option.filter_eq_some_iff.mp hv
      have hne : v ≠ w := by simpa using hvw
      obtain ⟨l', htask', hrest⟩ := h.holder v row hp
      exact ⟨l', (goto_task_ne hne _).trans htask', hrest⟩
    · by_cases hvw : v = w
      · subst hvw
        rw [goto_task_self] at hv
        cases hv
      · rw [goto_task_ne hvw] at hv
        obtain ⟨row, hp⟩ := h.held v l' hv hissues'
        exact ⟨row, Option.filter_eq_some_iff.mpr ⟨hp, by simpa using hvw⟩⟩

/-- **A row changes only by a commit**, and then as the statement found it: it was in turn on the
very row the commit replaces. -/
theorem step_row (h : Locked u s ok) (hs : s.step u a = some s') :
    s'.row = s.row ∨ ∃ w l, a = .commit w ∧ s.task w = .flushed l ∧ u.issues l = true ∧
      u.write l s.row = some s'.row ∧ ok l s.row := by
  cases steps_of_step hs with
  | @commit w l row htask hpending =>
    obtain ⟨l', htask', hissues, hrow, hok⟩ := h.holder w row hpending
    exact .inr ⟨w, l', rfl, htask', hissues, hrow, hok⟩
  | _ => exact .inl rfl

theorem task_of_commit {w : Nat} (hs : s.step u (.commit w) = some s') :
    ∃ l, s.task w = .flushed l ∧ s'.task w = .committed l := by
  cases steps_of_step hs with
  | @commit w l row htask hpending => exact ⟨l, htask, goto_task_self ..⟩
  | @finish w l htask hnot => exact ⟨l, htask, goto_task_self ..⟩

/-- What is committed stays committed. -/
theorem committed_step {w : Nat} {l : L} (hs : s.step u a = some s')
    (h : s.task w = .committed l) : s'.task w = .committed l := by
  -- whoever moves is not committed, so it is another one
  have key : ∀ v (t : Task L), s.task v ≠ .committed l → (s.goto v t).task w = .committed l := by
    intro v t hv
    have hne : w ≠ v := by
      rintro rfl
      exact hv h
    rw [goto_task_ne hne]
    exact h
  cases steps_of_step hs with
  | load htask => exact key _ _ (by simp [htask])
  | skip htask _ => exact key _ _ (by simp [htask])
  | fail htask _ _ _ => exact key _ _ (by simp [htask])
  | write htask _ _ _ => exact key _ _ (by simp [htask])
  | commit htask _ => exact key _ _ (by simp [htask])
  | finish htask _ => exact key _ _ (by simp [htask])
  | abandon htask => exact key _ _ (by simp [htask])
  | undo htask => exact key _ _ (by simp [htask])

/-- Only its own commit commits a transaction. -/
theorem committed_of_step {w : Nat} {l : L} (hs : s.step u a = some s')
    (h : s'.task w = .committed l) : s.task w = .committed l ∨ a = .commit w := by
  cases steps_of_step hs with
  | commit _ _ =>
    rcases goto_task_cases h with h | ⟨rfl, -⟩
    · exact .inl h
    · exact .inr rfl
  | finish _ _ =>
    rcases goto_task_cases h with h | ⟨rfl, -⟩
    · exact .inl h
    · exact .inr rfl
  | _ =>
    rcases goto_task_cases h with h | ⟨-, ht⟩
    · exact .inl h
    · cases ht

/-- A transaction that commits right after its flush leaves what its statement writes. -/
theorem row_of_flush_commit {w : Nat} {l : L} {s₁ s₂ : Cell R L} (hlock : Locked u s ok)
    (hl : s.task w = .loaded l) (h₁ : s.step u (.flush w) = some s₁)
    (h₂ : s₁.step u (.commit w) = some s₂) :
    (if u.issues l then u.write l s.row else some s.row) = some s₂.row := by
  cases steps_of_step h₁ with
  | skip htask hskip =>
    rw [hl] at htask
    cases htask
    rw [hskip]
    cases steps_of_step h₂ with
    | @commit w l' row _ hpending =>
      exact absurd hpending (hlock.not_holder (by simp [hl]) row)
    | finish _ _ => rfl
  | fail _ _ _ _ =>
    obtain ⟨m, htask, -⟩ := task_of_commit h₂
    rw [goto_task_self] at htask
    cases htask
  | @write w m row htask hissues _ hrow =>
    rw [hl] at htask
    cases htask
    rw [hissues]
    cases steps_of_step h₂ with
    | commit _ hpending =>
      cases hpending
      exact hrow
    | finish _ hnot => exact absurd rfl (hnot row)

/-- What a transaction under way carries is from its own read. -/
theorem carried_step {w : Nat} {l : L} (hs : s.step u a = some s')
    (h : s'.task w = .loaded l ∨ s'.task w = .flushed l) :
    (s.task w = .loaded l ∨ s.task w = .flushed l) ∨
      ∃ x, a = .load w x ∧ l = u.load w x s.row := by
  have key : ∀ v (t : Task L), ((s.goto v t).task w = .loaded l ∨ (s.goto v t).task w = .flushed l) →
      (s.task w = .loaded l ∨ s.task w = .flushed l) ∨ v = w ∧ (t = .loaded l ∨ t = .flushed l) := by
    rintro v t (h | h)
    · exact (goto_task_cases h).imp .inl (fun h => ⟨h.1, .inl h.2⟩)
    · exact (goto_task_cases h).imp .inr (fun h => ⟨h.1, .inr h.2⟩)
  cases steps_of_step hs with
  | @load v x htask =>
    rcases key v _ h with h | ⟨rfl, ht | ht⟩
    · exact .inl h
    · cases ht
      exact .inr ⟨x, rfl, rfl⟩
    · cases ht
  | @skip v m htask hissues =>
    rcases key v _ h with h | ⟨rfl, ht | ht⟩
    · exact .inl h
    · cases ht
    · cases ht
      exact .inl (.inl htask)
  | @write v m row htask hissues hfree hrow =>
    rcases key v _ h with h | ⟨rfl, ht | ht⟩
    · exact .inl h
    · cases ht
    · cases ht
      exact .inl (.inl htask)
  | _ =>
    rcases key _ _ h with h | ⟨-, ht | ht⟩
    · exact .inl h
    · cases ht
    · cases ht

/-- What is known of a transaction after its read, after its statement and after its commit, each
with the row as it is now, is kept up by the commits of the others. -/
structure Keeps (u : Update R X L) (ok : L → R → Prop) (read issued done : Nat → L → R → Prop) :
    Prop where
  load : ∀ w x row, read w (u.load w x row) row
  flush : ∀ w l row, read w l row → ok l row → issued w l row
  commit : ∀ w l row row', issued w l row → u.issues l = true → ok l row →
    u.write l row = some row' → done w l row'
  skip : ∀ w l row, issued w l row → u.issues l = false → done w l row
  stable : ∀ w v l m row row', v ≠ w → issued w l row → u.issues l = true → ok l row →
    u.write l row = some row' → (read v m row → read v m row') ∧
      (issued v m row → issued v m row') ∧ (done v m row → done v m row')

/-- What is known of a transaction, by where it is. -/
def Known (read issued done : Nat → L → R → Prop) (w : Nat) (row : R) : Task L → Prop
  | .loaded l => read w l row
  | .flushed l => issued w l row
  | .committed l => done w l row
  | _ => True

variable {read issued done : Nat → L → R → Prop}

theorem Keeps.stable_known (k : Keeps u ok read issued done) {w v : Nat} {l : L} {row row' : R}
    (hv : v ≠ w) (hissued : issued w l row) (hissues : u.issues l = true) (hok : ok l row)
    (hrow : u.write l row = some row') (t : Task L) (h : Known read issued done v row t) :
    Known read issued done v row' t := by
  have stable := fun m => k.stable w v l m row row' hv hissued hissues hok hrow
  cases t with
  | loaded m => exact (stable m).1 h
  | flushed m => exact (stable m).2.1 h
  | committed m => exact (stable m).2.2 h
  | _ => trivial

/-- One transaction moves and the row stays. -/
theorem known_goto (w : Nat) (t : Task L) (h : ∀ v, Known read issued done v s.row (s.task v))
    (hw : Known read issued done w s.row t) (v : Nat) :
    Known read issued done v s.row ((s.goto w t).task v) := by
  by_cases hv : v = w
  · subst hv
    rw [goto_task_self]
    exact hw
  · rw [goto_task_ne hv]
    exact h v

/-- **What is known of the transactions is known in every state**: the step. -/
theorem known_step (k : Keeps u ok read issued done) (hl : Locked u s ok)
    (h : ∀ v, Known read issued done v s.row (s.task v)) (ha : s.InTurn ok a)
    (hs : s.step u a = some s') (v : Nat) : Known read issued done v s'.row (s'.task v) := by
  have hknown : ∀ w t, s.task w = t → Known read issued done w s.row t := by
    rintro w t rfl
    exact h w
  cases steps_of_step hs with
  | @load w x htask => exact known_goto w (.loaded _) h (k.load w x s.row) v
  | @skip w l htask hissues =>
    exact known_goto w (.flushed l) h (k.flush w l s.row (hknown w _ htask) (ha l htask)) v
  | fail htask _ _ _ => exact known_goto _ .rolledBack h trivial v
  | @write w l row htask hissues hfree hrow =>
    exact known_goto w (.flushed l) h (k.flush w l s.row (hknown w _ htask) (ha l htask)) v
  | @commit w l row htask hpending =>
    obtain ⟨l', htask', hissues, hrow, hok⟩ := hl.holder w row hpending
    rw [htask] at htask'
    cases htask'
    have hissued : issued w l s.row := hknown w _ htask
    by_cases hv : v = w
    · subst hv
      rw [goto_task_self]
      exact k.commit v l s.row row hissued hissues hok hrow
    · -- another transaction is where it was, and the row has moved
      rw [goto_task_ne hv]
      exact k.stable_known hv hissued hissues hok hrow _ (h v)
  | @finish w l htask hnot =>
    have hissues : u.issues l = false := by
      by_contra hne
      obtain ⟨row, hp⟩ := hl.held w l htask (by simpa using hne)
      exact hnot row hp
    exact known_goto w (.committed l) h (k.skip w l s.row (hknown w _ htask) hissues) v
  | abandon _ => exact known_goto _ .rolledBack h trivial v
  | undo _ => exact known_goto _ .rolledBack h trivial v

end Cell
end RowTransactions
