import PandaProbe.IdentityService
import PandaProbe.GuardedRun

/-! # Role changes and removals that overtake each other

Any number of `update_member_role` and `remove_member` calls on one organization, with every
read and every write a step of its own.  A call judges the role it reads of its target, and
its write comes later: `update_membership_role` selects the row once more and updates it
without looking at the role, `delete_membership` deletes whatever row is there.

A promotion of the target in between leaves a call with a write that its own check would have
refused (`Threatens`).  While no promotion lands on such a call, every write is one that the
checks allow at that moment; and each one that does can be followed by a write that is not.
-/
namespace PandaProbe

/-- Where a call is, with what it has read. -/
inductive MemberTask
  | idle
  | changing (targetId : UUID) (role : MembershipRole)
  | granting (targetId : UUID) (role : MembershipRole)
  | flushing (targetId : UUID) (role : MembershipRole)
  | removing (actor : MembershipRole) (targetId : UUID)
  | deleting (actor : MembershipRole) (targetId : UUID)
  deriving DecidableEq

/-- The memberships of the organization, and the calls. -/
structure MemberRun where
  members : UUID → Option MembershipRole
  task : Nat → MemberTask

/-- What can happen next. -/
inductive MemberAct
  | changeRole (w : Nat) (actorId targetId : UUID) (role : MembershipRole)
  | readTarget (w : Nat)
  | selectRow (w : Nat)
  | flush (w : Nat)
  | remove (w : Nat) (actorId targetId : UUID)
  | readRemoved (w : Nat)
  | delete (w : Nat)
  | fail (w : Nat)
  deriving DecidableEq

namespace MemberRun
open IdentityService

section Steps
variable (s : MemberRun)

/-- The call moves on. -/
def goto (w : Nat) (p : MemberTask) : MemberRun := { s with task := Function.update s.task w p }

/-- A write to one membership. -/
def write (userId : UUID) (role : Option MembershipRole) : MemberRun :=
  { s with members := Function.update s.members userId role }

/-- The caller's membership read of `update_member_role`, and the checks on it. -/
def changeRole (w : Nat) (actorId targetId : UUID) (role : MembershipRole) : Option MemberRun :=
  match s.task w with
  | .idle =>
    match checkRoleActor actorId targetId (s.members actorId) with
    | .error _ => some s
    | .ok () => some (s.goto w (.changing targetId role))
  | _ => none

/-- Its read of the target's membership, and the checks on it. -/
def readTarget (w : Nat) : Option MemberRun :=
  match s.task w with
  | .changing targetId role =>
    match checkRoleTarget (s.members targetId) with
    | .error _ => some (s.goto w .idle)
    | .ok () => some (s.goto w (.granting targetId role))
  | _ => none

/-- The select of `update_membership_role`; a row that has the role already is not updated. -/
def selectRow (w : Nat) : Option MemberRun :=
  match s.task w with
  | .granting targetId role =>
    match s.members targetId with
    | none => some (s.goto w .idle)
    | some old => some (s.goto w (if old = role then .idle else .flushing targetId role))
  | _ => none

/-- Its update; one that finds no row any more fails. -/
def flush (w : Nat) : Option MemberRun :=
  match s.task w with
  | .flushing targetId role =>
    match s.members targetId with
    | none => some (s.goto w .idle)
    | some _ => some ((s.write targetId (some role)).goto w .idle)
  | _ => none

/-- The caller's membership read of `remove_member`. -/
def remove (w : Nat) (actorId targetId : UUID) : Option MemberRun :=
  match s.task w with
  | .idle =>
    match requireMembership (s.members actorId) with
    | .error _ => some s
    | .ok actor => some (s.goto w (.removing actor targetId))
  | _ => none

/-- Its read of the target's membership, and the checks. -/
def readRemoved (w : Nat) : Option MemberRun :=
  match s.task w with
  | .removing actor targetId =>
    match checkRemove actor (s.members targetId) with
    | .error _ => some (s.goto w .idle)
    | .ok () => some (s.goto w (.deleting actor targetId))
  | _ => none

/-- `delete_membership`. -/
def delete (w : Nat) : Option MemberRun :=
  match s.task w with
  | .deleting _ targetId => some ((s.write targetId none).goto w .idle)
  | _ => none

/-- One step. -/
def step : MemberAct → Option MemberRun
  | .changeRole w actorId targetId role => s.changeRole w actorId targetId role
  | .readTarget w => s.readTarget w
  | .selectRow w => s.selectRow w
  | .flush w => s.flush w
  | .remove w actorId targetId => s.remove w actorId targetId
  | .readRemoved w => s.readRemoved w
  | .delete w => s.delete w
  | .fail w => some (s.goto w .idle)

end Steps

/-- Any memberships, and no call under way. -/
def initial (members : UUID → Option MembershipRole) : MemberRun := ⟨members, fun _ => .idle⟩

/-! ## The property and the condition -/

/-- **The privileges at the moment of the write.**  An OWNER before the step is an OWNER after
it, and a removal started by an ADMIN finds a MEMBER, if anyone. -/
def Lawful (s : MemberRun) (a : MemberAct) (s' : MemberRun) : Prop :=
  (∀ u, s.members u = some .owner → s'.members u = some .owner) ∧
  ∀ w u role, a = .delete w → s.task w = .deleting .admin u → s.members u = some role →
    role = .member

/-- The call has judged this user, and its write still to come would not be allowed on one of
this role. -/
def Threatens (u : UUID) (role : MembershipRole) : MemberTask → Prop
  | .granting targetId new => targetId = u ∧ role = .owner ∧ new ≠ .owner
  | .flushing targetId new => targetId = u ∧ role = .owner ∧ new ≠ .owner
  | .deleting actor targetId =>
    targetId = u ∧ (role = .owner ∨ actor = .admin ∧ role ≠ .member)
  | _ => False

/-- No role update gives a user a role that a write another call is about to make on that user
would not be allowed on. -/
def InTurn (s : MemberRun) : MemberAct → Prop
  | .flush w => ∀ u role, s.task w = .flushing u role → (s.members u).isSome →
      ∀ w', w' ≠ w → ¬ Threatens u role (s.task w')
  | _ => True

/-! ## What one step does -/

variable {s s' : MemberRun} {w : Nat} {a : MemberAct}

@[simp] theorem goto_members (p : MemberTask) : (s.goto w p).members = s.members := rfl

@[simp] theorem goto_task_self (p : MemberTask) : (s.goto w p).task w = p :=
  Function.update_self ..

theorem goto_task_ne {w' : Nat} (h : w' ≠ w) (p : MemberTask) :
    (s.goto w p).task w' = s.task w' :=
  Function.update_of_ne h ..

/-- **What a step can do**: a call moves on, with no threat but one it posed before; a role is
written; or a membership is deleted. -/
theorem step_cases (hs : s.step a = some s') :
    (s' = s ∨ ∃ w p, s' = s.goto w p ∧ ∀ u role, s.members u = some role →
      Threatens u role p → Threatens u role (s.task w)) ∨
    (∃ w u role old, a = .flush w ∧ s.task w = .flushing u role ∧ s.members u = some old ∧
      s' = (s.write u (some role)).goto w .idle) ∨
    (∃ w actor u, a = .delete w ∧ s.task w = .deleting actor u ∧
      s' = (s.write u none).goto w .idle) := by
  cases a with
  | changeRole w actorId targetId role =>
    simp only [step, changeRole] at hs
    split at hs
    · split at hs
      · cases hs
        exact .inl (.inl rfl)
      · cases hs
        exact .inl (.inr ⟨w, _, rfl, fun _ _ _ h => h.elim⟩)
    · cases hs
  | readTarget w =>
    simp only [step, readTarget] at hs
    split at hs
    next targetId role hw =>
      split at hs
      · cases hs
        exact .inl (.inr ⟨w, _, rfl, fun _ _ _ h => h.elim⟩)
      next hok =>
        cases hs
        refine .inl (.inr ⟨w, _, rfl, ?_⟩)
        rintro u r hu ⟨rfl, rfl, -⟩
        -- the target just judged is no OWNER
        obtain ⟨r, hr, hne⟩ := checkRoleTarget_ok hok
        exact absurd (Option.some.inj (hr.symm.trans hu)) hne
    · cases hs
  | selectRow w =>
    simp only [step, selectRow] at hs
    split at hs
    next targetId role hw =>
      split at hs
      · cases hs
        exact .inl (.inr ⟨w, _, rfl, fun _ _ _ h => h.elim⟩)
      next old hold =>
        cases hs
        refine .inl (.inr ⟨w, _, rfl, fun u r hu h => ?_⟩)
        split at h
        · exact h.elim
        · rw [hw]
          exact h
    · cases hs
  | flush w =>
    simp only [step, flush] at hs
    split at hs
    next u role hw =>
      split at hs
      · cases hs
        exact .inl (.inr ⟨w, _, rfl, fun _ _ _ h => h.elim⟩)
      next old hold =>
        cases hs
        exact .inr (.inl ⟨w, u, role, old, rfl, hw, hold, rfl⟩)
    · cases hs
  | remove w actorId targetId =>
    simp only [step, remove] at hs
    split at hs
    · split at hs
      · cases hs
        exact .inl (.inl rfl)
      · cases hs
        exact .inl (.inr ⟨w, _, rfl, fun _ _ _ h => h.elim⟩)
    · cases hs
  | readRemoved w =>
    simp only [step, readRemoved] at hs
    split at hs
    next actor targetId hw =>
      split at hs
      · cases hs
        exact .inl (.inr ⟨w, _, rfl, fun _ _ _ h => h.elim⟩)
      next hok =>
        cases hs
        refine .inl (.inr ⟨w, _, rfl, ?_⟩)
        rintro u r hu ⟨rfl, hthreat⟩
        obtain ⟨r', hr', hne⟩ := checkRemove_ok hok
        obtain rfl := Option.some.inj (hr'.symm.trans hu)
        rcases hthreat with howner | ⟨rfl, hmember⟩
        · exact absurd howner hne
        · exact absurd (Option.some.inj (hu.symm.trans (checkRemove_admin hok))) hmember
    · cases hs
  | delete w =>
    simp only [step, delete] at hs
    split at hs
    next actor u hw =>
      cases hs
      exact .inr (.inr ⟨w, actor, u, rfl, hw, rfl⟩)
    · cases hs
  | fail w =>
    cases hs
    exact .inl (.inr ⟨w, _, rfl, fun _ _ _ h => h.elim⟩)

/-- No call threatens a user in the role the user has. -/
def Safe (s : MemberRun) : Prop :=
  ∀ w u role, s.members u = some role → ¬ Threatens u role (s.task w)

theorem safe_initial (members : UUID → Option MembershipRole) : Safe (initial members) :=
  fun _ _ _ _ h => h

theorem safe_step (h : Safe s) (ha : s.InTurn a) (hs : s.step a = some s') : Safe s' := by
  obtain (rfl | ⟨w, p, rfl, hp⟩) | ⟨w, u, role, old, rfl, hw, hold, rfl⟩ |
    ⟨w, actor, u, rfl, hw, rfl⟩ := step_cases hs
  · exact h
  · intro w' u r hu hthreat
    by_cases hw' : w' = w
    · subst hw'
      rw [goto_task_self] at hthreat
      exact h w' u r hu (hp u r hu hthreat)
    · rw [goto_task_ne hw'] at hthreat
      exact h w' u r hu hthreat
  · intro w' u' r hu' hthreat
    by_cases hw' : w' = w
    · subst hw'
      rw [goto_task_self] at hthreat
      exact hthreat
    · rw [goto_task_ne hw'] at hthreat
      by_cases huu : u' = u
      · -- the role just written: here the condition on the step is used
        subst huu
        obtain rfl : role = r := by simpa [write] using hu'
        exact ha u' role hw (by simp [hold]) w' hw' hthreat
      · have hkept : s.members u' = some r := by simpa [write, huu] using hu'
        exact h w' u' r hkept hthreat
  · intro w' u' r hu' hthreat
    by_cases hw' : w' = w
    · subst hw'
      rw [goto_task_self] at hthreat
      exact hthreat
    · rw [goto_task_ne hw'] at hthreat
      have huu : u' ≠ u := by
        rintro rfl
        simp [write] at hu'
      have hkept : s.members u' = some r := by simpa [write, huu] using hu'
      exact h w' u' r hkept hthreat

/-- **Where no user is threatened, a write is lawful.** -/
theorem lawful_of_safe (h : Safe s) (hs : s.step a = some s') : Lawful s a s' := by
  constructor
  · intro v hv
    obtain (rfl | ⟨w, p, rfl, -⟩) | ⟨w, u, role, old, -, hw, -, rfl⟩ |
      ⟨w, actor, u, -, hw, rfl⟩ := step_cases hs
    · exact hv
    · exact hv
    · by_cases hvu : v = u
      · subst hvu
        have hsafe := h w v .owner hv
        rw [hw] at hsafe
        have hrole : role = .owner := by
          by_contra hne
          exact hsafe ⟨rfl, rfl, hne⟩
        simp [write, hrole]
      · simpa [write, hvu] using hv
    · have hvu : v ≠ u := by
        rintro rfl
        have hsafe := h w v .owner hv
        rw [hw] at hsafe
        exact hsafe ⟨rfl, .inl rfl⟩
      simpa [write, hvu] using hv
  · rintro w u role rfl hw hu
    have hsafe := h w u role hu
    rw [hw] at hsafe
    by_contra hne
    exact hsafe ⟨rfl, .inr ⟨rfl, hne⟩⟩

/-! ## A threatened user -/

/-- The row is there: a role update writes it. -/
theorem step_flush {u : UUID} {role old : MembershipRole} (hw : s.task w = .flushing u role)
    (hu : s.members u = some old) :
    s.step (.flush w) = some ((s.write u (some role)).goto w .idle) := by
  simp only [step, flush, hw, hu]

theorem step_delete {actor : MembershipRole} {u : UUID} (hw : s.task w = .deleting actor u) :
    s.step (.delete w) = some ((s.write u none).goto w .idle) := by
  simp only [step, delete, hw]

/-- A call that threatens a user in the role the user has goes on to a write that is not
lawful. -/
theorem unlawful_of_threat {u : UUID} {role : MembershipRole} (hu : s.members u = some role)
    (hthreat : Threatens u role (s.task w)) :
    ∃ t b t', GuardedRun.Reach step GuardedRun.Always s t ∧ t.step b = some t' ∧
      ¬ Lawful t b t' := by
  -- an update of an OWNER to another role
  have hdemote : ∀ t : MemberRun, ∀ new, t.task w = .flushing u new → t.members u = some .owner →
      new ≠ .owner → ∃ t', t.step (.flush w) = some t' ∧ ¬ Lawful t (.flush w) t' := by
    intro t new hw ht hne
    refine ⟨_, step_flush hw ht, fun hlawful => ?_⟩
    have howner := hlawful.1 u ht
    simp only [goto_members, write, Function.update_self, Option.some.injEq] at howner
    exact hne howner
  cases hw : s.task w with
  | idle =>
    rw [hw] at hthreat
    exact hthreat.elim
  | changing v new =>
    rw [hw] at hthreat
    exact hthreat.elim
  | removing actor v =>
    rw [hw] at hthreat
    exact hthreat.elim
  | granting v new =>
    rw [hw] at hthreat
    obtain ⟨rfl, rfl, hne⟩ := hthreat
    have hselect : s.step (.selectRow w) = some (s.goto w (.flushing v new)) := by
      simp only [step, selectRow, hw, hu, if_neg (Ne.symm hne)]
    obtain ⟨t', ht', hbad⟩ := hdemote _ new (goto_task_self ..) hu hne
    exact ⟨_, _, t', .step .initial trivial hselect, ht', hbad⟩
  | flushing v new =>
    rw [hw] at hthreat
    obtain ⟨rfl, rfl, hne⟩ := hthreat
    obtain ⟨t', ht', hbad⟩ := hdemote s new hw hu hne
    exact ⟨s, _, t', .initial, ht', hbad⟩
  | deleting actor v =>
    rw [hw] at hthreat
    obtain ⟨rfl, hrole⟩ := hthreat
    refine ⟨s, _, _, .initial, step_delete hw, fun hlawful => ?_⟩
    rcases hrole with rfl | ⟨rfl, hne⟩
    · have howner := hlawful.1 v hu
      simp [write] at howner
    · exact hne (hlawful.2 w v role rfl hw hu)

/-- **The privileges hold at every write exactly while no promotion lands on a waiting call.**
In every run whose role updates are all in turn, every step is lawful; and after a role update
that is not in turn, in whatever state, the run can go on to a step that is not lawful. -/
theorem privileges_hold {members : UUID → Option MembershipRole} :
    (∀ s, GuardedRun.Reach step InTurn (initial members) s →
      ∀ a s', s.step a = some s' → Lawful s a s') ∧
    (∀ (s : MemberRun) a s', s.step a = some s' → ¬ s.InTurn a →
      ∃ t b t', GuardedRun.Reach step GuardedRun.Always s' t ∧ t.step b = some t' ∧
        ¬ Lawful t b t') := by
  constructor
  · intro s hreach a s' hs
    have hsafe : Safe s :=
      hreach.invariant (safe_initial members) fun _ _ _ h ha hs => safe_step h ha hs
    exact lawful_of_safe hsafe hs
  · intro s a s' hs hturn
    cases a with
    | flush w =>
      simp only [InTurn, not_forall, not_not] at hturn
      obtain ⟨u, role, hw, hsome, w', hww, hthreat⟩ := hturn
      obtain ⟨old, hold⟩ := Option.isSome_iff_exists.mp hsome
      rw [step_flush hw hold] at hs
      cases hs
      refine unlawful_of_threat (w := w') (u := u) (?_ : _ = some role) ?_
      · simp [write]
      · rw [goto_task_ne hww]
        exact hthreat
    | changeRole w actorId targetId role => exact absurd trivial hturn
    | readTarget w => exact absurd trivial hturn
    | selectRow w => exact absurd trivial hturn
    | remove w actorId targetId => exact absurd trivial hturn
    | readRemoved w => exact absurd trivial hturn
    | delete w => exact absurd trivial hturn
    | fail w => exact absurd trivial hturn

/-- Two owners and a member. -/
def threeMembers : UUID → Option MembershipRole := fun u =>
  if u = "a" ∨ u = "b" then some .owner else if u = "c" then some .member else none

/-- One owner is about to remove the member when the other one makes them an owner. -/
def overtaken : List MemberAct :=
  [.remove 0 "a" "c", .readRemoved 0, .changeRole 1 "b" "c" .owner, .readTarget 1, .selectRow 1,
    .flush 1]

/-- One owner is about to remove the member, and the other one to make them an admin. -/
def promoted : List MemberAct :=
  [.remove 0 "a" "c", .readRemoved 0, .changeRole 1 "b" "c" .admin, .readTarget 1, .selectRow 1]

/-- An owner may remove an admin, too: the promotion lands in turn, and the removal is lawful. -/
theorem privileges_hold_alone : ∃ s s' s'',
    GuardedRun.run step (initial threeMembers) promoted = some s ∧
    s.step (.flush 1) = some s' ∧ s'.members "c" = some .admin ∧
    s'.step (.delete 0) = some s'' ∧ s''.members "c" = none ∧ Lawful s' (.delete 0) s'' := by
  obtain ⟨s, hs⟩ := Option.isSome_iff_exists.mp (show (GuardedRun.run step (initial threeMembers)
    promoted).isSome from by decide)
  have hreach : GuardedRun.Reach step InTurn (initial threeMembers) s :=
    GuardedRun.Reach.run_from .initial (by simp [promoted, InTurn]) hs
  have hturn : s.InTurn (.flush 1) := by
    cases hs
    rintro u role htask - w hw hthreat
    cases htask
    rcases w with _ | _ | w
    · exact absurd hthreat.2 (by decide)
    · exact hw rfl
    · exact hthreat
  obtain ⟨s', hs', hadmin⟩ : ∃ s', s.step (.flush 1) = some s' ∧ s'.members "c" = some .admin := by
    cases hs
    exact ⟨_, rfl, rfl⟩
  have hlawful := privileges_hold.1 s' (.step hreach hturn hs') (.delete 0)
  cases hs
  cases hs'
  exact ⟨_, _, _, rfl, rfl, hadmin, rfl, rfl, hlawful _ rfl⟩

/-- The removal takes an owner away. -/
theorem owner_removed : ¬ ∀ members s, GuardedRun.Reach step GuardedRun.Always (initial members) s →
    ∀ a s', s.step a = some s' → Lawful s a s' := by
  intro h
  obtain ⟨s, hs⟩ := Option.isSome_iff_exists.mp
    (show (GuardedRun.run step (initial threeMembers) overtaken).isSome from by decide)
  have hlawful := h threeMembers s (GuardedRun.reach_of_run hs) (.delete 0)
  cases hs
  exact absurd ((hlawful _ rfl).1 "c" (by decide)) (by decide)

end MemberRun
end PandaProbe
