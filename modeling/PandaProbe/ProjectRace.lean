import PandaProbe.GuardedRun
import PandaProbe.IdentityService

/-! # Racing for a project

`get_or_create_project`, statement by statement, in any number of transactions that ask for one
organization and name.  A call looks the project up and adds a row if there is none; the row is
inserted by a flush.

Two rules of the session decide what a collision does.  `begin_nested` first flushes whatever is
pending and only then opens its savepoint, and the row is added before it; so the INSERT runs
outside the savepoint.  And an INSERT that violates the unique constraint is undone by the
savepoint if one is open, while outside it aborts the whole transaction (`flush`), after which
every further statement raises.  An INSERT waits while another transaction has inserted the same
key and not finished.

`races_tolerated` is the main result: all is well in every run without a collision, and every
collision ends in a failed call.
-/
namespace PandaProbe

/-- Where a call is: about to look the project up; with its row added, at `begin_nested`; at the
flush inside the savepoint; in the `except` branch; and how it has ended. -/
inductive GetOrCreateStage
  | selecting
  | nesting
  | nested
  | recovering
  | returned (project : Project)
  | failed
  deriving DecidableEq

/-- A call in its transaction: what the transaction has written before, the row the call adds,
what is pending in the session, what it has inserted, whether a savepoint is open, and whether
the transaction is aborted. -/
structure ProjectCall (W : Type) where
  earlier : List W
  row : Project
  pending : Option Project
  inserted : Option Project
  savepoint : Bool
  aborted : Bool
  stage : GetOrCreateStage

/-- The committed projects, what committed transactions have written before their calls, the
transaction that has inserted the key and not finished, the calls, and the committed ones: what
they returned and what they had written. -/
structure ProjectRace (W : Type) where
  projects : List Project
  written : List W
  lock : Option Nat
  task : Nat → Option (ProjectCall W)
  done : List (Project × List W)

/-- What a transaction does next. -/
inductive ProjectAct (W : Type)
  | call (w : Nat) (earlier : List W) (id : UUID) (createdAt : DateTime)
  | select (w : Nat)
  | nest (w : Nat)
  | flush (w : Nat)
  | recover (w : Nat)
  | commit (w : Nat)
  | rollback (w : Nat)

/-- How a flush ends. -/
inductive Flushed (W : Type)
  | waits
  | raised (t : ProjectCall W)
  | sent (t : ProjectCall W)

namespace ProjectRace
variable {W : Type} (orgId : UUID) (name : String) (s : ProjectRace W)

/-- The rows of the organization with the name. -/
def named (projects : List Project) : List Project :=
  projects.filter (fun p => p.orgId = orgId ∧ p.name = name)

/-- The call moves on. -/
def goto (w : Nat) (t : ProjectCall W) : ProjectRace W :=
  { s with task := Function.update s.task w (some t) }

/-- The transaction ends, and its lock with it. -/
def leave (w : Nat) : ProjectRace W :=
  { s with lock := s.lock.filter (· ≠ w), task := Function.update s.task w none }

/-- `get_project_by_name`; `none` if it raises. -/
def lookup (t : ProjectCall W) : Option (Option Project) :=
  if t.aborted then none
  else
    match named orgId name (s.projects ++ t.inserted.toList) with
    | [] => some none
    | [p] => some (some p)
    | _ => none

/-- A flush sends the INSERT of a pending row. -/
def flush (w : Nat) (t : ProjectCall W) : Flushed W :=
  match t.pending with
  | none => .sent t
  | some row =>
    if s.lock.any (· ≠ w) then .waits
    else if (named orgId name s.projects).isEmpty then
      .sent { t with pending := none, inserted := some row }
    else .raised { t with pending := none, aborted := !t.savepoint }

/-- One statement, commit or rollback. -/
def step : ProjectAct W → Option (ProjectRace W)
  | .call w earlier id createdAt =>
    match s.task w with
    | some _ => none
    | none => some (s.goto w
        ⟨earlier, ⟨id, orgId, name, "", createdAt⟩, none, none, false, false, .selecting⟩)
  | .select w => (s.task w).bind fun t =>
      if t.stage ≠ .selecting then none
      else
        match s.lookup orgId name t with
        | none => some (s.goto w { t with stage := .failed })
        | some (some p) => some (s.goto w { t with stage := .returned p })
        | some none => some (s.goto w { t with pending := some t.row, stage := .nesting })
  | .nest w => (s.task w).bind fun t =>
      if t.stage ≠ .nesting then none
      else
        match s.flush orgId name w t with
        | .waits => none
        | .raised t' => some (s.goto w { t' with stage := .recovering })
        | .sent t' => some { s.goto w { t' with savepoint := true, stage := .nested } with
            lock := if t'.inserted.isSome then some w else s.lock }
  | .flush w => (s.task w).bind fun t =>
      if t.stage ≠ .nested then none
      else
        match s.flush orgId name w t with
        | .waits => none
        | .raised t' => some (s.goto w { t' with savepoint := false, stage := .recovering })
        | .sent t' => some { s.goto w { t' with savepoint := false, stage := .returned t.row } with
            lock := if t'.inserted.isSome then some w else s.lock }
  | .recover w => (s.task w).bind fun t =>
      if t.stage ≠ .recovering then none
      else
        match s.lookup orgId name t with
        | some (some p) => some (s.goto w { t with stage := .returned p })
        | _ => some (s.goto w { t with stage := .failed })
  | .commit w => (s.task w).bind fun t =>
      match t.stage with
      | .returned p =>
        -- the COMMIT of an aborted transaction is a ROLLBACK
        if t.aborted then some { s.leave w with done := s.done ++ [(p, t.earlier)] }
        else
          some { s.leave w with
            projects := s.projects ++ t.inserted.toList
            written := s.written ++ t.earlier
            done := s.done ++ [(p, t.earlier)] }
      | _ => none
  | .rollback w => (s.task w).bind fun t =>
      if t.stage = .failed then none else some (s.leave w)

/-- No call so far. -/
def initial (projects : List Project) : ProjectRace W :=
  ⟨projects, [], none, fun _ => none, []⟩

/-- **Races are tolerated**: no call has failed; every call that has returned, committed or not,
returned the one row there is for its transaction; and what a committed transaction had written
before is there. -/
structure Tolerant : Prop where
  none_failed : ∀ w t, s.task w = some t → t.stage ≠ .failed
  returned : ∀ w t p, s.task w = some t → t.stage = .returned p →
    named orgId name (s.projects ++ t.inserted.toList) = [p]
  committed : ∀ d ∈ s.done, named orgId name s.projects = [d.1] ∧ d.2 ⊆ s.written

/-- **The condition on a step**: when `begin_nested` flushes the row of a call, nobody has
committed a row of the organization with the name since the call looked. -/
def InTurn : ProjectAct W → Prop
  | .nest _ => named orgId name s.projects = []
  | _ => True

/-! ## What every run without a collision keeps -/

/-- A call on its way. -/
structure CallOk (w : Nat) (t : ProjectCall W) : Prop where
  live : t.aborted = false
  row : t.row.orgId = orgId ∧ t.row.name = name
  inserted : t.inserted = none ∨ t.inserted = some t.row ∧ s.lock = some w
  stage : match t.stage with
    | .selecting => t.inserted = none ∧ t.savepoint = false
    | .nesting => t.inserted = none ∧ t.pending = some t.row ∧ t.savepoint = false
    | .nested => t.inserted = some t.row ∧ t.pending = none
    | .returned p => t.inserted = some t.row ∧ p = t.row ∨
        t.inserted = none ∧ named orgId name s.projects = [p]
    | .recovering => False
    | .failed => False

/-- **What every run without a collision keeps**: the key is unique, and it is free while a
transaction has inserted it. -/
structure Sound : Prop where
  unique : (named orgId name s.projects).length ≤ 1
  holder : ∀ v, s.lock = some v → named orgId name s.projects = [] ∧
    ∃ t, s.task v = some t ∧ t.inserted = some t.row
  calls : ∀ w t, s.task w = some t → CallOk orgId name s w t
  committed : ∀ d ∈ s.done, named orgId name s.projects = [d.1] ∧ d.2 ⊆ s.written

variable {orgId name s} {s' : ProjectRace W} {w : Nat} {t : ProjectCall W} {a : ProjectAct W}

theorem named_append (l l' : List Project) :
    named orgId name (l ++ l') = named orgId name l ++ named orgId name l' :=
  List.filter_append ..

theorem CallOk.named_row (h : CallOk orgId name s w t) : named orgId name [t.row] = [t.row] := by
  simp [named, h.row]

/-! ### Flushing -/

theorem flush_nothing (h : t.pending = none) : s.flush orgId name w t = .sent t := by
  unfold flush
  rw [h]

/-- A free key is inserted, unless another transaction is at it. -/
theorem flush_free {row : Project} (h : t.pending = some row)
    (hfree : named orgId name s.projects = []) :
    s.flush orgId name w t = .waits ∨ (s.lock = none ∨ s.lock = some w) ∧
      s.flush orgId name w t = .sent { t with pending := none, inserted := some row } := by
  unfold flush
  rw [h, hfree]
  cases hlock : s.lock with
  | none => exact Or.inr ⟨Or.inl rfl, by simp⟩
  | some v =>
    by_cases hv : v = w
    · exact Or.inr ⟨Or.inr (congrArg some hv), by simp [hv]⟩
    · exact Or.inl (by simp [hv])

/-- A taken key aborts a transaction without a savepoint. -/
theorem flush_taken {row : Project} (h : t.pending = some row)
    (htaken : named orgId name s.projects ≠ []) :
    s.flush orgId name w t = .waits ∨
      s.flush orgId name w t = .raised { t with pending := none, aborted := !t.savepoint } := by
  unfold flush
  rw [h]
  have hne : (named orgId name s.projects).isEmpty = false := by simpa using htaken
  simp only [hne, Bool.false_eq_true, if_false]
  split
  · exact Or.inl rfl
  · exact Or.inr rfl

/-! ### Keeping it -/

/-- What a call sees is committed, or is its own row alone. -/
theorem Sound.tolerant (h : Sound orgId name s) : Tolerant orgId name s where
  none_failed := by
    intro w t ht hfailed
    have hstage := (h.calls w t ht).stage
    rw [hfailed] at hstage
    exact hstage
  returned := by
    intro w t p ht hreturned
    have hcall := h.calls w t ht
    have hstage := hcall.stage
    rw [hreturned] at hstage
    rcases hstage with ⟨hins, rfl⟩ | ⟨hins, hnamed⟩
    · have hlock : s.lock = some w := by
        rcases hcall.inserted with hnone | ⟨-, hlock⟩
        · rw [hins] at hnone
          cases hnone
        · exact hlock
      rw [named_append, (h.holder w hlock).1, hins, Option.toList_some, hcall.named_row]
      rfl
    · rw [hins, Option.toList_none, List.append_nil, hnamed]
  committed := h.committed

@[simp] theorem goto_task_self (w : Nat) (t : ProjectCall W) : (s.goto w t).task w = some t :=
  Function.update_self ..

theorem goto_task_ne {v : Nat} (h : v ≠ w) (t : ProjectCall W) : (s.goto w t).task v = s.task v :=
  Function.update_of_ne h ..

/-- A transaction that is still there after another one has ended. -/
theorem leave_task {v : Nat} {t' : ProjectCall W} (h : (s.leave w).task v = some t') :
    s.task v = some t' ∧ v ≠ w := by
  have hne : v ≠ w := by
    rintro rfl
    simp [leave] at h
  simp only [leave, Function.update_of_ne hne] at h
  exact ⟨h, hne⟩

/-- The lock that is left after a transaction has ended was another one's. -/
theorem leave_lock {v : Nat} : (s.leave w).lock = some v ↔ s.lock = some v ∧ v ≠ w := by
  simp [leave, Option.filter_eq_some_iff]

/-- A step of a call that commits nothing and takes no lock. -/
theorem Sound.goto (h : Sound orgId name s) (hcall : CallOk orgId name s w t)
    (hins : ∀ t₀, s.task w = some t₀ → t₀.inserted = some t₀.row → t.inserted = some t.row) :
    Sound orgId name (s.goto w t) where
  unique := h.unique
  holder := by
    intro v hv
    obtain ⟨hfree, t₀, ht₀, hrow⟩ := h.holder v hv
    refine ⟨hfree, ?_⟩
    by_cases hvw : v = w
    · subst hvw
      exact ⟨t, goto_task_self v t, hins t₀ ht₀ hrow⟩
    · exact ⟨t₀, (goto_task_ne hvw t).trans ht₀, hrow⟩
  calls := by
    intro v t' ht'
    by_cases hvw : v = w
    · subst hvw
      rw [goto_task_self] at ht'
      cases ht'
      exact ⟨hcall.live, hcall.row, hcall.inserted, hcall.stage⟩
    · rw [goto_task_ne hvw] at ht'
      have hold := h.calls v t' ht'
      exact ⟨hold.live, hold.row, hold.inserted, hold.stage⟩
  committed := h.committed

/-- The INSERT of a call takes the key. -/
theorem Sound.insert (h : Sound orgId name s) (hfree : named orgId name s.projects = [])
    (hlock : s.lock = none ∨ s.lock = some w) (hlive : t.aborted = false)
    (hrow : t.row.orgId = orgId ∧ t.row.name = name) (hins : t.inserted = some t.row)
    (hstage : t.stage = .nested ∧ t.pending = none ∨ t.stage = .returned t.row) :
    Sound orgId name { s.goto w t with lock := some w } where
  unique := h.unique
  holder := by
    rintro v hv
    obtain rfl : w = v := Option.some.inj hv
    exact ⟨hfree, t, goto_task_self w t, hins⟩
  calls := by
    intro v t' ht'
    by_cases hvw : v = w
    · subst hvw
      have heq : some t = some t' := (goto_task_self v t).symm.trans ht'
      cases heq
      refine ⟨hlive, hrow, Or.inr ⟨hins, rfl⟩, ?_⟩
      rcases hstage with ⟨hs, hp⟩ | hs
      · rw [hs]
        exact ⟨hins, hp⟩
      · rw [hs]
        exact Or.inl ⟨hins, rfl⟩
    · have hold := h.calls v t' ((goto_task_ne hvw t).symm.trans ht')
      refine ⟨hold.live, hold.row, ?_, hold.stage⟩
      -- nobody else has the key
      rcases hold.inserted with hnone | ⟨-, hv⟩
      · exact Or.inl hnone
      · rcases hlock with hl | hl
        · rw [hl] at hv
          cases hv
        · rw [hl] at hv
          exact absurd (Option.some.inj hv).symm hvw
  committed := h.committed

/-- What a call finds when it looks the project up. -/
theorem Sound.lookup (h : Sound orgId name s) (hcall : CallOk orgId name s w t)
    (hins : t.inserted = none) :
    (s.lookup orgId name t = some none ∧ named orgId name s.projects = []) ∨
    ∃ p, s.lookup orgId name t = some (some p) ∧ named orgId name s.projects = [p] := by
  have hlen := h.unique
  unfold ProjectRace.lookup
  rw [hcall.live, hins, Option.toList_none, List.append_nil]
  cases hrows : named orgId name s.projects with
  | nil => exact Or.inl ⟨rfl, rfl⟩
  | cons p rest =>
    rw [hrows, List.length_cons] at hlen
    obtain rfl : rest = [] := List.length_eq_zero_iff.mp (by omega)
    exact Or.inr ⟨p, rfl, rfl⟩

/-- The end of a transaction without a commit. -/
theorem Sound.leave (h : Sound orgId name s) : Sound orgId name (s.leave w) where
  unique := h.unique
  holder := by
    intro v hv
    obtain ⟨hold, hne⟩ := leave_lock.mp hv
    obtain ⟨hfree, t, ht, hrow⟩ := h.holder v hold
    exact ⟨hfree, t, (Function.update_of_ne hne ..).trans ht, hrow⟩
  calls := by
    intro v t ht
    obtain ⟨hold, hne⟩ := leave_task ht
    have hcall := h.calls v t hold
    exact ⟨hcall.live, hcall.row, hcall.inserted.imp_right fun ⟨hi, hl⟩ => ⟨hi, leave_lock.mpr ⟨hl, hne⟩⟩,
      hcall.stage⟩
  committed := h.committed

/-- **A commit** publishes the row of the transaction that holds the key, or no row. -/
theorem Sound.commit (h : Sound orgId name s) {p : Project} (ht : s.task w = some t)
    (hreturned : t.stage = .returned p) :
    Sound orgId name { s.leave w with
      projects := s.projects ++ t.inserted.toList
      written := s.written ++ t.earlier
      done := s.done ++ [(p, t.earlier)] } := by
  have hcall := h.calls w t ht
  have hview := h.tolerant.returned w t p ht hreturned
  have hstage := hcall.stage
  rw [hreturned] at hstage
  have hleft := h.leave (w := w)
  rcases hstage with ⟨hins, rfl⟩ | ⟨hins, hnamed⟩
  · -- the key was this transaction's, so nobody else has inserted or found anything
    have hlock : s.lock = some w := by
      rcases hcall.inserted with hnone | ⟨-, hlock⟩
      · rw [hins] at hnone
        cases hnone
      · exact hlock
    have hfree := (h.holder w hlock).1
    have hother : ∀ v t', s.task v = some t' → v ≠ w → t'.inserted = none := by
      intro v t' ht' hne
      rcases (h.calls v t' ht').inserted with hnone | ⟨-, hv⟩
      · exact hnone
      · exact absurd (Option.some.inj (hv.symm.trans hlock)) hne
    refine ⟨by rw [hview]; simp, ?_, ?_, ?_⟩
    · intro v hv
      obtain ⟨hv, hne⟩ := leave_lock.mp hv
      exact absurd (Option.some.inj (hv.symm.trans hlock)) hne
    · intro v t' ht'
      obtain ⟨hold, hne⟩ := leave_task ht'
      have hc := h.calls v t' hold
      refine ⟨hc.live, hc.row, Or.inl (hother v t' hold hne), ?_⟩
      have hs := hc.stage
      have hnone := hother v t' hold hne
      cases hstage : t'.stage with
      | returned q =>
        rw [hstage] at hs
        rcases hs with ⟨hi, -⟩ | ⟨-, hq⟩
        · rw [hnone] at hi
          cases hi
        · rw [hfree] at hq
          cases hq
      | selecting => rw [hstage] at hs; exact hs
      | nesting => rw [hstage] at hs; exact hs
      | nested => rw [hstage] at hs; exact hs
      | recovering => rw [hstage] at hs; exact hs
      | failed => rw [hstage] at hs; exact hs
    · intro d hd
      rcases List.mem_append.mp hd with hold | hnew
      · have := (h.committed d hold).1
        rw [hfree] at this
        cases this
      · rw [List.mem_singleton.mp hnew]
        exact ⟨hview, List.subset_append_right _ _⟩
  · have hprojects : s.projects ++ t.inserted.toList = s.projects := by simp [hins]
    rw [hprojects] at hview ⊢
    refine ⟨h.unique, hleft.holder, ?_, ?_⟩
    · intro v t' ht'
      have hc := hleft.calls v t' ht'
      exact ⟨hc.live, hc.row, hc.inserted, hc.stage⟩
    · intro d hd
      rcases List.mem_append.mp hd with hold | hnew
      · exact ⟨(h.committed d hold).1, fun x hx => List.mem_append_left _ ((h.committed d hold).2 hx)⟩
      · rw [List.mem_singleton.mp hnew]
        exact ⟨hview, List.subset_append_right _ _⟩

/-- **One step keeps a run without a collision in order.** -/
theorem Sound.step (h : Sound orgId name s) (ha : InTurn orgId name s a)
    (hs : s.step orgId name a = some s') : Sound orgId name s' := by
  cases a with
  | call w earlier id createdAt =>
    simp only [ProjectRace.step] at hs
    split at hs
    · cases hs
    next hnone =>
      cases hs
      refine h.goto ⟨rfl, ⟨rfl, rfl⟩, Or.inl rfl, rfl, rfl⟩ fun t₀ ht₀ => ?_
      rw [hnone] at ht₀
      cases ht₀
  | select w =>
    obtain ⟨t, ht, hs⟩ := Option.bind_eq_some_iff.mp hs
    split at hs
    · cases hs
    next hne =>
      have hcall := h.calls w t ht
      have hstage := hcall.stage
      rw [not_not.mp hne] at hstage
      obtain ⟨hins, hsave⟩ := hstage
      have hsame : ∀ t₀, s.task w = some t₀ → t₀.inserted = some t₀.row → t.inserted = some t.row := by
        intro t₀ ht₀ hrow
        rw [ht] at ht₀
        cases ht₀
        exact hrow
      rcases h.lookup hcall hins with ⟨hfind, -⟩ | ⟨p, hfind, hnamed⟩
      · rw [hfind] at hs
        cases hs
        exact h.goto ⟨hcall.live, hcall.row, Or.inl hins, hins, rfl, hsave⟩ hsame
      · rw [hfind] at hs
        cases hs
        exact h.goto ⟨hcall.live, hcall.row, Or.inl hins, Or.inr ⟨hins, hnamed⟩⟩ hsame
  | nest w =>
    obtain ⟨t, ht, hs⟩ := Option.bind_eq_some_iff.mp hs
    split at hs
    · cases hs
    next hne =>
      have hcall := h.calls w t ht
      have hstage := hcall.stage
      rw [not_not.mp hne] at hstage
      obtain ⟨hnone, hpending, -⟩ := hstage
      have hfree : named orgId name s.projects = [] := ha
      rcases flush_free (s := s) (w := w) hpending hfree with hwait | ⟨hlock, hsent⟩
      · rw [hwait] at hs
        cases hs
      · rw [hsent] at hs
        cases hs
        exact h.insert (t := { t with
          pending := none, inserted := some t.row, savepoint := true, stage := .nested }) hfree
          hlock hcall.live hcall.row rfl (Or.inl ⟨rfl, rfl⟩)
  | flush w =>
    obtain ⟨t, ht, hs⟩ := Option.bind_eq_some_iff.mp hs
    split at hs
    · cases hs
    next hne =>
      have hcall := h.calls w t ht
      have hstage := hcall.stage
      rw [not_not.mp hne] at hstage
      obtain ⟨hins, hpending⟩ := hstage
      have hlock : s.lock = some w := by
        rcases hcall.inserted with hnone | ⟨-, hlock⟩
        · rw [hins] at hnone
          cases hnone
        · exact hlock
      simp only [flush_nothing hpending, hins, Option.isSome_some, if_true] at hs
      cases hs
      exact h.insert (t := { t with
        inserted := some t.row, savepoint := false, stage := .returned t.row })
        (h.holder w hlock).1 (Or.inr hlock) hcall.live hcall.row rfl (Or.inr rfl)
  | recover w =>
    obtain ⟨t, ht, hs⟩ := Option.bind_eq_some_iff.mp hs
    split at hs
    · cases hs
    next hne =>
      have hstage := (h.calls w t ht).stage
      rw [not_not.mp hne] at hstage
      exact hstage.elim
  | commit w =>
    obtain ⟨t, ht, hs⟩ := Option.bind_eq_some_iff.mp hs
    split at hs
    next p hreturned =>
      rw [(h.calls w t ht).live] at hs
      cases hs
      exact h.commit ht hreturned
    · cases hs
  | rollback w =>
    obtain ⟨t, ht, hs⟩ := Option.bind_eq_some_iff.mp hs
    split at hs
    · cases hs
    · cases hs
      exact h.leave

theorem sound_initial {projects : List Project} (hunique : (named orgId name projects).length ≤ 1) :
    Sound orgId name (initial projects : ProjectRace W) where
  unique := hunique
  holder := fun _ hv => by cases hv
  calls := fun _ _ ht => by cases ht
  committed := fun _ hd => by cases hd

/-! ## A collision -/

/-- The lookup of the `except` branch raises in an aborted transaction. -/
theorem recover_aborted (ht : s.task w = some t) (hstage : t.stage = .recovering)
    (haborted : t.aborted = true) :
    s.step orgId name (.recover w) = some (s.goto w { t with stage := .failed }) := by
  simp [step, ht, hstage, lookup, haborted]

theorem not_tolerant_failed (s : ProjectRace W) (w : Nat) (t : ProjectCall W) :
    ¬ Tolerant orgId name (s.goto w { t with stage := .failed }) :=
  fun h => h.none_failed w _ (goto_task_self ..) rfl

/-- **A collision ends in a failed call**: the INSERT has aborted the transaction before there was
a savepoint, so the lookup of the `except` branch raises. -/
theorem fails_of_collision (ha : ¬ InTurn orgId name s a) (hsound : Sound orgId name s)
    (hs : s.step orgId name a = some s') :
    ∃ w s'', s'.step orgId name (.recover w) = some s'' ∧ ¬ Tolerant orgId name s'' := by
  cases a with
  | nest w =>
    obtain ⟨t, ht, hs⟩ := Option.bind_eq_some_iff.mp hs
    split at hs
    · cases hs
    next hne =>
      have hstage := (hsound.calls w t ht).stage
      rw [not_not.mp hne] at hstage
      obtain ⟨-, hpending, hsave⟩ := hstage
      rcases flush_taken (w := w) hpending ha with hwait | hraised
      · rw [hwait] at hs
        cases hs
      · rw [hraised, hsave] at hs
        cases hs
        exact ⟨w, _, recover_aborted (goto_task_self ..) rfl rfl, not_tolerant_failed _ _ _⟩
  | _ => exact absurd trivial ha

/-- **Races for a project are tolerated as long as no two INSERTs collide.**  Any number of
transactions, each after writes of its own, ask for one organization and name: in every run in
which `begin_nested` never flushes a row after another transaction has committed one, no call
fails, every call returns the one row there is, and what a transaction wrote before its call
survives its commit.  Every flush that does come too late leads to a failed call. -/
theorem races_tolerated {projects : List Project} (hunique : (named orgId name projects).length ≤ 1)
    (hreach : GuardedRun.Reach (fun s a => s.step orgId name a) (InTurn orgId name)
      (initial projects : ProjectRace W) s) :
    Tolerant orgId name s ∧ ∀ a s', ¬ InTurn orgId name s a → s.step orgId name a = some s' →
      ∃ w s'', s'.step orgId name (.recover w) = some s'' ∧ ¬ Tolerant orgId name s'' := by
  have hsound : Sound orgId name s :=
    hreach.invariant (I := Sound orgId name) (sound_initial hunique) fun s a s' h ha hs => h.step ha hs
  exact ⟨hsound.tolerant, fun a s' ha hs => fails_of_collision ha hsound hs⟩

/-- Two transactions that have touched their keys look for the project before either inserts it;
the second waits for the first, which rolls back. -/
def collisionAvoided : List (ProjectAct String) :=
  [.call 0 ["key0"] "p0" 1, .call 1 ["key1"] "p1" 1, .select 0, .select 1, .nest 0, .flush 0,
    .rollback 0, .nest 1, .flush 1, .commit 1]

/-- A test of the condition. -/
def inTurn (orgId : UUID) (name : String) (s : ProjectRace W) : ProjectAct W → Bool
  | .nest _ => (named orgId name s.projects).isEmpty
  | _ => true

theorem inTurn_of_test (s : ProjectRace W) (a : ProjectAct W) (h : inTurn orgId name s a = true) :
    InTurn orgId name s a := by
  cases a with
  | nest w => exact List.isEmpty_iff.mp h
  | _ => trivial

/-- The second transaction's row is there, and so is its write. -/
theorem races_tolerated_rollback : ∃ s : ProjectRace String, Tolerant "org" "demo" s ∧
    s.projects.map (·.id) = ["p1"] ∧ s.written = ["key1"] := by
  have hview : (GuardedRun.run (GuardedRun.checked (fun s a => s.step "org" "demo" a)
      (inTurn "org" "demo")) (initial []) collisionAvoided).map
      (fun s => (s.projects.map (·.id), s.written)) = some (["p1"], ["key1"]) := by decide +kernel
  obtain ⟨s, hs, hv⟩ := Option.map_eq_some_iff.mp hview
  obtain ⟨hprojects, hwritten⟩ := Prod.mk.inj hv
  exact ⟨s, (races_tolerated (by decide) (.run_checked .initial inTurn_of_test hs)).1, hprojects,
    hwritten⟩

/-- The first transaction commits instead. -/
def collision : List (ProjectAct String) :=
  [.call 0 ["key0"] "p0" 1, .call 1 ["key1"] "p1" 1, .select 0, .select 1, .nest 0, .flush 0,
    .commit 0, .nest 1, .recover 1]

/-- **The second call fails**, and with it what its transaction wrote before. -/
theorem collision_fails : ∃ s : ProjectRace String,
    GuardedRun.Reach (fun s a => s.step "org" "demo" a) GuardedRun.Always (initial []) s ∧
      s.written = ["key0"] ∧ ¬ Tolerant "org" "demo" s := by
  have hview : (GuardedRun.run (fun s a => s.step "org" "demo" a) (initial []) collision).map
      (fun s => (s.written, (s.task 1).map (·.stage))) = some (["key0"], some .failed) := by
    decide +kernel
  obtain ⟨s, hs, hv⟩ := Option.map_eq_some_iff.mp hview
  obtain ⟨hwritten, hstage⟩ := Prod.mk.inj hv
  obtain ⟨t, ht, hfailed⟩ := Option.map_eq_some_iff.mp hstage
  exact ⟨s, GuardedRun.reach_of_run hs, hwritten, fun h => h.none_failed 1 t ht hfailed⟩

end ProjectRace
end PandaProbe
