import PandaProbe.IdentityService
import PandaProbe.GuardedRun

/-! # Concurrent answers to one invitation

Accepting, declining and revoking each read the invitation, check that it is PENDING, and
later update its status in the same transaction; an acceptance inserts the membership in
between.  The update is by id and does not look at the status again.  The periodic expiry is
one guarded `UPDATE`, which does.

The machine has one invitation and any number of transactions on it.  Writes are seen by
others when their transaction commits; until then an updated row is locked against other
updates, and an inserted membership against another insert of the same user.  A transaction
may fail at any point, which undoes what it wrote.  An acceptance or refusal that comes too
late writes EXPIRED and raises, so that write is always undone.

The outcomes are exclusive in every run in which a transaction updates the row while it is
still PENDING, as it was read (`InTurn`).  `outcomes_clash` has a run that is not like that.
-/
namespace PandaProbe

/-- What a transaction does to the invitation. -/
inductive InvitationOp
  | accept (userId : UUID)
  | decline (userId : UUID)
  | revoke (actorId orgId : UUID)

/-- Where a transaction is: the row read; the checks passed; for an acceptance, no
membership found, and the membership inserted; the status updated, with the membership it
commits, if any; EXPIRED written by an answer that is going to raise; the row expired by
the bulk update. -/
inductive InvitationTask
  | idle
  | read (op : InvitationOp) (inv : Invitation)
  | passed (op : InvitationOp)
  | late
  | joining (userId : UUID)
  | inserted (userId : UUID)
  | updated (status : InvitationStatus) (joined : Option UUID)
  | raising
  | expiring

/-- The invitation as committed, the members of its organization, the users whose membership
was created from it, the transaction that holds the row, and the uncommitted inserts. -/
structure InvitationRun where
  invitation : Invitation
  members : UUID → Option MembershipRole
  created : List UUID
  lock : Option Nat
  inserts : List (UUID × Nat)
  task : Nat → InvitationTask

/-- What can happen next.  The user a transaction reads, and the clock, come with the
action; `membership` is any other change of the organization's members. -/
inductive InvitationAct
  | read (w : Nat) (op : InvitationOp)
  | check (w : Nat) (user : Option User) (now : DateTime)
  | findMember (w : Nat)
  | insert (w : Nat)
  | update (w : Nat)
  | expire (w : Nat) (now : DateTime)
  | commit (w : Nat)
  | fail (w : Nat)
  | membership (userId : UUID) (role : Option MembershipRole)

namespace InvitationRun
open IdentityService
variable (lower : String → String) (s : InvitationRun)

/-- The transaction moves on. -/
def goto (w : Nat) (p : InvitationTask) : InvitationRun :=
  { s with task := Function.update s.task w p }

/-- The transaction ends, and with it its locks. -/
def finish (w : Nat) : InvitationRun :=
  { s with
    lock := if s.lock = some w then none else s.lock
    inserts := s.inserts.filter (fun x => x.2 ≠ w)
    task := Function.update s.task w .idle }

/-- The checks of a transaction on the row it read. -/
def check (w : Nat) (user : Option User) (now : DateTime) : Option InvitationRun :=
  match s.task w with
  | .read op inv =>
    match op with
    | .accept _ | .decline _ =>
      match checkAnswer lower (some inv) user with
      | .error _ => some (s.finish w)
      | .ok inv => some (s.goto w (if isExpired inv now then .late else .passed op))
    | .revoke actorId orgId =>
      match checkRevoke (some inv) orgId (s.members actorId) with
      | .error _ => some (s.finish w)
      | .ok _ => some (s.goto w (.passed op))
  | _ => none

/-- The membership read of `accept_invitation`. -/
def findMember (w : Nat) : Option InvitationRun :=
  match s.task w with
  | .passed (.accept userId) =>
    match checkNotMember (s.members userId) with
    | .error _ => some (s.finish w)
    | .ok () => some (s.goto w (.joining userId))
  | _ => none

/-- Its membership insert: it waits for another insert of the user, and the unique
constraint rejects a second membership. -/
def insert (w : Nat) : Option InvitationRun :=
  match s.task w with
  | .joining userId =>
    if s.inserts.any (fun x => x.1 = userId) then none
    else if (s.members userId).isSome then some (s.finish w)
    else some { s.goto w (.inserted userId) with inserts := s.inserts ++ [(userId, w)] }
  | _ => none

/-- The transaction holds the row. -/
def hold (w : Nat) (p : InvitationTask) : Option InvitationRun :=
  match s.lock with
  | some _ => none
  | none => some { s.goto w p with lock := some w }

/-- `update_status`: an update by id, which waits for the row. -/
def update (w : Nat) : Option InvitationRun :=
  match s.task w with
  | .inserted userId => s.hold w (.updated .accepted (some userId))
  | .passed (.decline _) => s.hold w (.updated .declined none)
  | .passed (.revoke _ _) => s.hold w (.updated .revoked none)
  | .late => s.hold w .raising
  | _ => none

/-- `expire_stale_invitations` on the row, which waits for it and then looks at it. -/
def expire (w : Nat) (now : DateTime) : Option InvitationRun :=
  match s.task w, s.lock with
  | .idle, none =>
    if s.invitation.status = .pending ∧ s.invitation.expiresAt ≤ now then s.hold w .expiring
    else some s
  | _, _ => none

/-- The row with a new status. -/
def setStatus (status : InvitationStatus) : InvitationRun :=
  { s with invitation := { s.invitation with status := status } }

/-- The memberships a commit publishes. -/
def join : Option UUID → InvitationRun
  | none => s
  | some userId =>
    { s with
      members := Function.update s.members userId (some s.invitation.role)
      created := s.created ++ [userId] }

/-- A transaction commits what it wrote. -/
def commit (w : Nat) : Option InvitationRun :=
  match s.task w with
  | .updated status joined => some (((s.join joined).setStatus status).finish w)
  | .expiring => some ((s.setStatus .expired).finish w)
  | _ => none

/-- One step. -/
def step : InvitationAct → Option InvitationRun
  | .read w op =>
    match s.task w with
    | .idle => some (s.goto w (.read op s.invitation))
    | _ => none
  | .check w user now => s.check lower w user now
  | .findMember w => s.findMember w
  | .insert w => s.insert w
  | .update w => s.update w
  | .expire w now => s.expire w now
  | .commit w => s.commit w
  | .fail w => some (s.finish w)
  | .membership userId role =>
    if s.inserts.any (fun x => x.1 = userId) then none
    else some { s with members := Function.update s.members userId role }

/-- A pending invitation with no transaction on it. -/
def initial (inv : Invitation) (members : UUID → Option MembershipRole) : InvitationRun :=
  ⟨{ inv with status := .pending }, members, [], none, [], fun _ => .idle⟩

/-! ## The property and the condition -/

/-- **Outcomes are exclusive.**  A membership was created from the invitation if and only if
it is ACCEPTED. -/
def Exclusive : Prop := s.created ≠ [] ↔ s.invitation.status = .accepted

/-- A terminal status stays. -/
def TerminalKept (s' : InvitationRun) : Prop :=
  s.invitation.status ≠ .pending → s'.invitation.status = s.invitation.status

/-- **The condition on a step.**  A transaction updates the row while it is PENDING. -/
def InTurn : InvitationAct → Prop
  | .update w => s.task w ≠ .late → s.invitation.status = .pending
  | _ => True

/-- A task that has updated the row holds its lock; one that is going to commit finds the
row PENDING, and commits a membership together with ACCEPTED and with nothing else. -/
def TaskFits (lock : Option Nat) (status : InvitationStatus) (w : Nat) : InvitationTask → Prop
  | .updated new joined => lock = some w ∧ status = .pending ∧ new ≠ .pending ∧
      (new = .accepted ↔ joined.isSome)
  | .raising => lock = some w
  | .expiring => lock = some w ∧ status = .pending
  | _ => True

/-- **What a run in turn keeps.** -/
structure Sound (s : InvitationRun) : Prop where
  exclusive : s.Exclusive
  tasks : ∀ w, TaskFits s.lock s.invitation.status w (s.task w)

variable {lower s} {s' : InvitationRun} {w : Nat} {p : InvitationTask}

theorem sound_initial (inv : Invitation) (members : UUID → Option MembershipRole) :
    Sound (initial inv members) :=
  ⟨by simp [Exclusive, initial], fun _ => trivial⟩

/-- Nothing is created from an invitation that is PENDING. -/
theorem Sound.created_nil (h : Sound s) (hpending : s.invitation.status = .pending) :
    s.created = [] := by
  by_contra hne
  have haccepted := h.exclusive.mp hne
  rw [hpending] at haccepted
  cases haccepted

/-- A task that does not hold the row fits whoever holds it. -/
theorem TaskFits.other {lock lock' : Option Nat} {status status' : InvitationStatus}
    (h : TaskFits lock status w p) (hlock : lock ≠ some w) : TaskFits lock' status' w p := by
  cases p with
  | updated new joined => exact absurd h.1 hlock
  | raising => exact absurd h hlock
  | expiring => exact absurd h.1 hlock
  | _ => trivial

/-- The task moves on, the lock stays. -/
theorem Sound.goto (h : Sound s) (hp : TaskFits s.lock s.invitation.status w p) :
    Sound (s.goto w p) := by
  refine ⟨h.exclusive, ?_⟩
  exact (Function.forall_update_iff s.task
    (fun v t => TaskFits s.lock s.invitation.status v t)).mpr ⟨hp, fun v _ => h.tasks v⟩

/-- A transaction that ends releases only what it holds. -/
theorem Sound.finish (h : Sound s) : Sound (s.finish w) := by
  refine ⟨h.exclusive, ?_⟩
  refine (Function.forall_update_iff s.task
    (fun v t => TaskFits (s.finish w).lock s.invitation.status v t)).mpr
    ⟨trivial, fun v hv => ?_⟩
  by_cases hlock : s.lock = some v
  · have hne : s.lock ≠ some w := fun h => hv (Option.some.inj (hlock.symm.trans h))
    have hsame : (s.finish w).lock = s.lock := if_neg hne
    rw [hsame]
    exact h.tasks v
  · exact (h.tasks v).other hlock

/-- A task that finds the row free takes it. -/
theorem Sound.hold (h : Sound s) (hs : s.hold w p = some s')
    (hp : TaskFits (some w) s.invitation.status w p) : Sound s' := by
  unfold InvitationRun.hold at hs
  split at hs
  · cases hs
  next hfree =>
    cases hs
    refine ⟨h.exclusive, ?_⟩
    refine (Function.forall_update_iff s.task
      (fun v t => TaskFits (some w) s.invitation.status v t)).mpr ⟨hp, fun v _ => ?_⟩
    exact (h.tasks v).other (hfree ▸ (Option.some_ne_none v).symm)

theorem hold_invitation (hs : s.hold w p = some s') : s'.invitation = s.invitation := by
  unfold InvitationRun.hold at hs
  split at hs
  · cases hs
  · cases hs
    rfl

/-! ## The steps -/

theorem sound_check {user : Option User} {now : DateTime} (h : Sound s)
    (hs : s.check lower w user now = some s') : Sound s' := by
  unfold check at hs
  split at hs
  next op inv _ =>
    cases op with
    | accept userId =>
      simp only at hs
      split at hs
      · cases hs
        exact h.finish
      · cases hs
        split
        · exact h.goto trivial
        · exact h.goto trivial
    | decline userId =>
      simp only at hs
      split at hs
      · cases hs
        exact h.finish
      · cases hs
        split
        · exact h.goto trivial
        · exact h.goto trivial
    -- a revocation does not look at the expiry
    | revoke actorId orgId =>
      simp only at hs
      split at hs
      · cases hs
        exact h.finish
      · cases hs
        exact h.goto trivial
  · cases hs

theorem sound_findMember (h : Sound s) (hs : s.findMember w = some s') : Sound s' := by
  unfold findMember at hs
  split at hs
  · split at hs
    · cases hs
      exact h.finish
    · cases hs
      exact h.goto trivial
  · cases hs

theorem sound_insert (h : Sound s) (hs : s.insert w = some s') : Sound s' := by
  unfold insert at hs
  split at hs
  · split at hs
    · cases hs
    · split at hs
      · cases hs
        exact h.finish
      next userId _ _ _ =>
        cases hs
        have hgo : Sound (s.goto w (.inserted userId)) := h.goto trivial
        exact ⟨hgo.exclusive, hgo.tasks⟩
  · cases hs

theorem sound_update (h : Sound s) (hturn : s.InTurn (.update w)) (hs : s.update w = some s') :
    Sound s' := by
  unfold update at hs
  split at hs
  next userId hw =>
    have hpending := hturn (by rw [hw]; exact nofun)
    exact h.hold hs ⟨rfl, hpending, nofun, by simp⟩
  next userId hw =>
    have hpending := hturn (by rw [hw]; exact nofun)
    exact h.hold hs ⟨rfl, hpending, nofun, by simp⟩
  next actorId orgId hw =>
    have hpending := hturn (by rw [hw]; exact nofun)
    exact h.hold hs ⟨rfl, hpending, nofun, by simp⟩
  · exact h.hold hs rfl
  · cases hs

theorem sound_expire {now : DateTime} (h : Sound s) (hs : s.expire w now = some s') :
    Sound s' := by
  unfold expire at hs
  split at hs
  · split at hs
    next hdue => exact h.hold hs ⟨rfl, hdue.1⟩
    · cases hs
      exact h
  · cases hs

/-- The end of the transaction that holds the row, with a new status. -/
theorem sound_publish (h : Sound s) (hlock : s.lock = some w) {status : InvitationStatus}
    {joined : Option UUID}
    (hexclusive : ((s.join joined).setStatus status).Exclusive) :
    Sound (((s.join joined).setStatus status).finish w) := by
  have hjoin : (s.join joined).lock = s.lock ∧ (s.join joined).task = s.task := by
    cases joined <;> exact ⟨rfl, rfl⟩
  refine ⟨hexclusive, ?_⟩
  refine (Function.forall_update_iff _ (fun v t =>
    TaskFits (((s.join joined).setStatus status).finish w).lock status v t)).mpr
    ⟨trivial, fun v hv => ?_⟩
  have hne : s.lock ≠ some v := fun h => hv (Option.some.inj (h.symm.trans hlock))
  have htask : ((s.join joined).setStatus status).task v = s.task v := congrFun hjoin.2 v
  rw [htask]
  exact (h.tasks v).other hne

theorem sound_commit (h : Sound s) (hs : s.commit w = some s') : Sound s' := by
  unfold commit at hs
  split at hs
  next status joined hw =>
    obtain ⟨hlock, hpending, -, hiff⟩ : TaskFits s.lock s.invitation.status w
        (.updated status joined) := hw ▸ h.tasks w
    have hnone := h.created_nil hpending
    cases hs
    refine sound_publish h hlock ?_
    cases joined with
    | none => simpa [Exclusive, join, setStatus, hnone] using hiff
    | some userId => simpa [Exclusive, join, setStatus, hnone] using hiff
  next hw =>
    obtain ⟨hlock, hpending⟩ : TaskFits s.lock s.invitation.status w .expiring := hw ▸ h.tasks w
    have hnone := h.created_nil hpending
    cases hs
    refine @sound_publish _ _ h hlock _ none ?_
    simp [Exclusive, join, setStatus, hnone]
  · cases hs

/-- One step in turn keeps the outcomes exclusive. -/
theorem sound_step {a : InvitationAct} (h : Sound s) (hturn : s.InTurn a)
    (hs : s.step lower a = some s') : Sound s' := by
  cases a with
  | read w op =>
    simp only [step] at hs
    split at hs
    · cases hs
      exact h.goto trivial
    · cases hs
  | check w user now => exact sound_check h hs
  | findMember w => exact sound_findMember h hs
  | insert w => exact sound_insert h hs
  | update w => exact sound_update h hturn hs
  | expire w now => exact sound_expire h hs
  | commit w => exact sound_commit h hs
  | fail w =>
    cases hs
    exact h.finish
  | membership userId role =>
    simp only [step] at hs
    split at hs
    · cases hs
    · cases hs
      exact ⟨h.exclusive, h.tasks⟩

/-- Only a commit changes the row. -/
theorem step_invitation {a : InvitationAct} (ha : ∀ w, a ≠ .commit w)
    (hs : s.step lower a = some s') : s'.invitation = s.invitation := by
  cases a with
  | read w op =>
    simp only [step] at hs
    split at hs <;> cases hs
    rfl
  | check w user now =>
    simp only [step, check] at hs
    split at hs
    · split at hs <;> split at hs <;> cases hs <;> rfl
    · cases hs
  | findMember w =>
    simp only [step, findMember] at hs
    split at hs
    · split at hs <;> cases hs <;> rfl
    · cases hs
  | insert w =>
    simp only [step, insert] at hs
    split at hs
    · split at hs
      · cases hs
      · split at hs <;> cases hs <;> rfl
    · cases hs
  | update w =>
    simp only [step, update] at hs
    split at hs
    · exact hold_invitation hs
    · exact hold_invitation hs
    · exact hold_invitation hs
    · exact hold_invitation hs
    · cases hs
  | expire w now =>
    simp only [step, expire] at hs
    split at hs
    · split at hs
      · exact hold_invitation hs
      · cases hs
        rfl
    · cases hs
  | commit w => exact absurd rfl (ha w)
  | fail w =>
    cases hs
    rfl
  | membership userId role =>
    simp only [step] at hs
    split at hs <;> cases hs
    rfl

/-- A transaction that commits found the row PENDING when it took it. -/
theorem terminalKept_step {a : InvitationAct} (h : Sound s) (hs : s.step lower a = some s') :
    s.TerminalKept s' := by
  intro hterminal
  cases a with
  | commit w =>
    simp only [step, commit] at hs
    have hfits := h.tasks w
    split at hs
    next status joined hw =>
      rw [hw] at hfits
      exact absurd hfits.2.1 hterminal
    next hw =>
      rw [hw] at hfits
      exact absurd hfits.2 hterminal
    · cases hs
  | _ => exact congrArg Invitation.status (step_invitation (fun _ h => by cases h) hs)

/-- **Outcomes in turn are exclusive.**  In every run from a pending invitation whose steps
are in turn, a membership was created from the invitation if and only if it is ACCEPTED, and
no step in turn overwrites a terminal status. -/
theorem outcomes_exclusive {lower : String → String} {inv : Invitation}
    {members : UUID → Option MembershipRole}
    (hreach : GuardedRun.Reach (fun s a => s.step lower a) InTurn (initial inv members) s) :
    s.Exclusive ∧ ∀ a s', s.InTurn a → s.step lower a = some s' → s.TerminalKept s' := by
  have hsound : Sound s :=
    hreach.invariant (sound_initial inv members) fun _ _ _ h hturn hs => sound_step h hturn hs
  exact ⟨hsound.exclusive, fun a s' _ hs => terminalKept_step hsound hs⟩

/-! ## Runs in and out of turn -/

/-- An invitation of an owner. -/
def sample : Invitation :=
  ⟨"inv", "org", "ann@example.com", .member, "owner", .pending, DateTime.days 7⟩

/-- The invitation is pending and only the owner is a member. -/
def invited : InvitationRun :=
  initial sample (fun u => if u = "owner" then some .owner else none)

/-- The condition as a test. -/
def turnTest (s : InvitationRun) : InvitationAct → Bool
  | .update _ => s.invitation.status = .pending
  | _ => true

theorem inTurn_of_test {s : InvitationRun} {a : InvitationAct} (h : turnTest s a = true) :
    s.InTurn a := by
  cases a with
  | update w => exact fun _ => of_decide_eq_true h
  | _ => trivial

/-- Ann accepts twice, and somebody else declines meanwhile.  The second acceptance waits for the
first and fails at its insert, and the owner revokes what is accepted by then. -/
def contested : List InvitationAct :=
  [.read 0 (.accept "ann"), .read 1 (.accept "ann"), .read 2 (.decline "bob"),
    .check 0 (some ⟨"ann", "ann@example.com"⟩) 0, .check 1 (some ⟨"ann", "ann@example.com"⟩) 0,
    .check 2 (some ⟨"bob", "bob@example.com"⟩) 0, .findMember 0, .findMember 1, .insert 0,
    .update 0, .commit 0, .insert 1, .read 2 (.revoke "owner" "org"), .check 2 none 0]

/-- The call is over. -/
def ended (s : InvitationRun) (w : Nat) : Bool :=
  match s.task w with
  | .idle => true
  | _ => false

/-- One acceptance counts, and the other three calls are refused. -/
theorem outcomes_exclusive_accepted : ∃ s,
    GuardedRun.run (GuardedRun.checked (fun s a => s.step id a) turnTest) invited contested =
      some s ∧
    s.Exclusive ∧ s.created = ["ann"] ∧ s.invitation.status = .accepted ∧
    [0, 1, 2].all s.ended = true := by
  have hview : (GuardedRun.run (GuardedRun.checked (fun s a => s.step id a) turnTest) invited
      contested).map (fun s => (s.created, s.invitation.status, [0, 1, 2].all s.ended)) =
      some (["ann"], .accepted, true) := by decide +kernel
  obtain ⟨s, hs, heq⟩ := Option.map_eq_some_iff.mp hview
  simp only [Prod.mk.injEq] at heq
  have hreach : GuardedRun.Reach (fun s a => s.step id a) InTurn invited s :=
    GuardedRun.Reach.run_checked .initial (fun _ _ => inTurn_of_test) hs
  exact ⟨s, hs, (outcomes_exclusive hreach).1, heq⟩

/-- **An acceptance and a revocation clash.**  Both read the invitation while it is PENDING;
the acceptance commits, and then the revocation overwrites ACCEPTED. -/
theorem outcomes_clash : ∃ s s', GuardedRun.run (fun s a => s.step id a) invited
      [.read 0 (.accept "ann"), .read 1 (.revoke "owner" "org"),
        .check 0 (some ⟨"ann", "ann@example.com"⟩) 0, .check 1 none 0, .findMember 0,
        .insert 0, .update 0, .commit 0, .update 1] = some s ∧
    s.step id (.commit 1) = some s' ∧
    GuardedRun.Reach (fun s a => s.step id a) GuardedRun.Always invited s' ∧
    ¬ s'.Exclusive ∧ ¬ s.TerminalKept s' := by
  have hview : (GuardedRun.run (fun s a => s.step id a) invited
      [.read 0 (.accept "ann"), .read 1 (.revoke "owner" "org"),
        .check 0 (some ⟨"ann", "ann@example.com"⟩) 0, .check 1 none 0, .findMember 0,
        .insert 0, .update 0, .commit 0, .update 1]).bind (fun s =>
          (s.step id (.commit 1)).map fun s' =>
            (s.invitation.status, s'.invitation.status, s'.created)) =
      some (.accepted, .revoked, ["ann"]) := by decide +kernel
  obtain ⟨s, hrun, hs⟩ := Option.bind_eq_some_iff.mp hview
  obtain ⟨s', hs', heq⟩ := Option.map_eq_some_iff.mp hs
  simp only [Prod.mk.injEq] at heq
  obtain ⟨hbefore, hafter, hcreated⟩ := heq
  refine ⟨s, s', hrun, hs', .step (GuardedRun.reach_of_run hrun) trivial hs', fun h => ?_,
    fun h => ?_⟩
  · have haccepted := h.mp (hcreated ▸ List.cons_ne_nil _ _)
    rw [hafter] at haccepted
    cases haccepted
  · have hkept := h (hbefore ▸ nofun)
    rw [hbefore, hafter] at hkept
    cases hkept

end InvitationRun
end PandaProbe
