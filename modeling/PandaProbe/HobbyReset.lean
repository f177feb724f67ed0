import PandaProbe.BillingHandlers
import PandaProbe.GuardedRun

/-! # Hobby resets that come late or twice

The dispatcher of the hobby resets queries which organizations are on HOBBY with an ended
period, and puts one message for each on the queue.  The task that executes a message reads
the subscription again but checks nothing: it advances whatever period it finds and deletes
that period's counters.

The machine has one organization, its checkouts and deletions, and any number of workers.
A message is never used up, so every execution may be delayed, repeated or retried, and a
task stops between its read, its commit and its two Redis writes.

A reset touches only what is due in every run in which nothing is committed for the
organization between the dispatcher's query and the last write of the execution
(`InTurn`).  `reset_not_due` has two runs that are not like that: a message executed
twice, and a checkout before the execution.
-/
namespace PandaProbe

/-- A message on the queue, with the row the dispatcher saw when it put it there. -/
structure ResetMessage where
  row : Subscription

/-- Where a worker is: idle; with a message; with the row it read; committed, with the
counters still to delete; with the cached row still to delete. -/
inductive ResetTask
  | idle
  | started (m : ResetMessage)
  | read (m : ResetMessage) (sub : Subscription)
  | committed (m : ResetMessage) (sub : Subscription)
  | cleared

/-- The organization, the clock, the messages, the workers, and the starts of the paid periods
there have been. -/
structure ResetRun where
  st : UsageState
  now : DateTime
  messages : List ResetMessage
  task : Nat → ResetTask
  paid : Set DateTime

/-- What can happen next. -/
inductive ResetAct
  | tick (d : Nat)
  | dispatch
  | start (w i : Nat)
  | read (w : Nat)
  | commit (w : Nat)
  | clear (w : Nat)
  | invalidate (w : Nat)
  | fail (w : Nat)
  | checkout (obj : CheckoutEvent) (ctx : HandlerCtx)
  | deleted (subscriptionId : String) (ctx : HandlerCtx)
  | traffic (redis : UsageStore) (cache : Option Subscription)

namespace ResetRun
variable (orgId : UUID) (s : ResetRun)

/-- The current period, if the plan is a paid one. -/
def paidStarts (st : UsageState) : Set DateTime :=
  { t | ∃ sub, st.db.subscription = some sub ∧ sub.plan ≠ .hobby ∧ sub.currentPeriodStart = t }

/-- A commit. -/
def store (st : UsageState) : ResetRun := { s with st := st, paid := s.paid ∪ paidStarts st }

/-- The worker moves on. -/
def goto (w : Nat) (p : ResetTask) : ResetRun := { s with task := Function.update s.task w p }

/-- `list_hobby_org_ids_due_for_reset` selects the organization. -/
def isDue (sub : Subscription) (now : DateTime) : Bool :=
  sub.plan = .hobby && sub.status = .active && sub.currentPeriodEnd ≤ now

/-- `_dispatch_hobby_reset`. -/
def dispatch : ResetRun :=
  match s.st.db.subscription with
  | none => s
  | some sub => if isDue sub s.now then { s with messages := s.messages ++ [⟨sub⟩] } else s

/-- `_reset_single_hobby_org` up to its read. -/
def read (w : Nat) : Option ResetRun :=
  match s.task w with
  | .started m =>
    match s.st.db.subscription with
    | none => some (s.goto w .idle)
    | some sub => some (s.goto w (.read m sub))
  | _ => none

/-- Its commit; a violated unique constraint raises. -/
def commit (w : Nat) : Option ResetRun :=
  match s.task w with
  | .read m sub =>
    match s.st.commitReset orgId sub with
    | .error _ => some (s.goto w .idle)
    | .ok st => some ((s.store st).goto w (.committed m sub))
  | _ => none

/-- Its deletion of the old counters. -/
def clear (w : Nat) : Option ResetRun :=
  match s.task w with
  | .committed _ sub =>
    some ((s.store (s.st.deleteUsageKey orgId sub.currentPeriodStart)).goto w .cleared)
  | _ => none

/-- Its deletion of the cached row. -/
def invalidate (w : Nat) : Option ResetRun :=
  match s.task w with
  | .cleared => some ((s.store s.st.invalidateSubscriptionCache).goto w .idle)
  | _ => none

/-- One step. -/
def step : ResetAct → Option ResetRun
  | .tick d => some { s with now := s.now + d }
  | .dispatch => some s.dispatch
  | .start w i =>
    match s.task w, s.messages[i]? with
    | .idle, some m => some (s.goto w (.started m))
    | _, _ => none
  | .read w => s.read w
  | .commit w => s.commit orgId w
  | .clear w => s.clear orgId w
  | .invalidate w => s.invalidate w
  | .fail w => some (s.goto w .idle)
  | .checkout obj ctx => some (s.store (s.st.handleCheckoutCompleted orgId obj ctx))
  | .deleted sid ctx => some (s.store (s.st.handleSubscriptionDeleted orgId sid ctx).1)
  | .traffic redis cache => some (s.store { s.st with redis := redis, cache := cache })

/-- An organization at a time, with no reset under way. -/
def initial (st : UsageState) (now : DateTime) : ResetRun :=
  ⟨st, now, [], fun _ => .idle, paidStarts st⟩

/-! ## The property and the condition -/

/-- The plan is HOBBY and the current period has ended. -/
def DueHobby : Prop :=
  ∃ sub, s.st.db.subscription = some sub ∧ sub.plan = .hobby ∧ sub.currentPeriodEnd ≤ s.now

/-- The row a reset of `sub` leaves. -/
def advanced (sub : Subscription) : Subscription :=
  BillingDb.Subscription.advance sub.currentPeriodEnd (UsageState.resetEnd sub) sub

/-- **A reset touches only what is due.**  A commit that changes the row or the usage records
finds the organization due, and moves the period no further than now.  A deletion of
counters finds it as the execution's own commit left it, from a due HOBBY row, and
deletes no counters of a paid period. -/
def ResetOk (s' : ResetRun) : ResetAct → Prop
  | .commit _ =>
    (s'.st.db.subscription ≠ s.st.db.subscription ∨ s'.st.db.usage ≠ s.st.db.usage) →
      s.DueHobby ∧ (s'.st.db.subscription = s.st.db.subscription ∨
        ∃ row, s'.st.db.subscription = some row ∧ row.currentPeriodStart ≤ s.now)
  | .clear w =>
    s'.st.redis ≠ s.st.redis → ∃ m sub, s.task w = .committed m sub ∧ sub.plan = .hobby ∧
      sub.currentPeriodEnd ≤ s.now ∧ s.st.db.subscription = some (advanced sub) ∧
      ∀ p ∈ s.paid, usageKey orgId p ≠ usageKey orgId sub.currentPeriodStart
  | _ => True

/-- **The condition on a step.**  An execution reads the row its dispatcher saw, commits on
the row it read, and deletes the counters while the row is the one it committed; and the
period it resets does not start on the day of a paid one. -/
def InTurn : ResetAct → Prop
  | .read w => ∀ m, s.task w = .started m → s.st.db.subscription = some m.row
  | .commit w => ∀ m sub, s.task w = .read m sub → s.st.db.subscription = some sub
  | .clear w => ∀ m sub, s.task w = .committed m sub →
      s.st.db.subscription = some (advanced sub) ∧
        ∀ p ∈ s.paid, DateTime.isoDate p ≠ DateTime.isoDate sub.currentPeriodStart
  | _ => True

/-- A row on HOBBY whose period has ended. -/
def Ended (now : DateTime) (sub : Subscription) : Prop :=
  sub.plan = .hobby ∧ sub.currentPeriodEnd ≤ now

/-- What a worker holds is about an ended HOBBY period. -/
def TaskOk (now : DateTime) : ResetTask → Prop
  | .started m => Ended now m.row
  | .read m sub => Ended now m.row ∧ sub = m.row
  | .committed m sub => Ended now m.row ∧ sub = m.row
  | _ => True

/-- **What a run in turn keeps.** -/
structure Due (s : ResetRun) : Prop where
  messages : ∀ m ∈ s.messages, Ended s.now m.row
  tasks : ∀ w, TaskOk s.now (s.task w)

variable {orgId s} {s' : ResetRun} {w : Nat} {p : ResetTask}

theorem due_initial (st : UsageState) (now : DateTime) : Due (initial st now) :=
  ⟨fun _ hm => absurd hm List.not_mem_nil, fun _ => trivial⟩

theorem Ended.mono {now now' : DateTime} {sub : Subscription} (h : Ended now sub)
    (hle : now ≤ now') : Ended now' sub := ⟨h.1, le_trans h.2 hle⟩

theorem TaskOk.mono {now now' : DateTime} (h : TaskOk now p) (hle : now ≤ now') :
    TaskOk now' p := by
  cases p with
  | idle => trivial
  | started m => exact h.mono hle
  | read m sub => exact ⟨h.1.mono hle, h.2⟩
  | committed m sub => exact ⟨h.1.mono hle, h.2⟩
  | cleared => trivial

theorem Due.goto (h : Due s) (hp : TaskOk s.now p) : Due (s.goto w p) := by
  refine ⟨h.messages, ?_⟩
  exact (Function.forall_update_iff s.task (fun _ t => TaskOk s.now t)).mpr
    ⟨hp, fun v _ => h.tasks v⟩

theorem Due.store (h : Due s) (st : UsageState) : Due (s.store st) := ⟨h.messages, h.tasks⟩

theorem due_dispatch (h : Due s) : Due s.dispatch := by
  unfold dispatch
  split
  · exact h
  next sub _ =>
    split
    next hdue =>
      refine ⟨fun m hm => ?_, h.tasks⟩
      rcases List.mem_append.mp hm with hm | hm
      · exact h.messages m hm
      · obtain rfl := List.mem_singleton.mp hm
        simp only [isDue, Bool.and_eq_true, decide_eq_true_eq] at hdue
        exact ⟨hdue.1.1, hdue.2⟩
    · exact h

/-- One step in turn keeps what the workers hold. -/
theorem due_step {a : ResetAct} (h : Due s) (hturn : InTurn s a) (hs : s.step orgId a = some s') :
    Due s' := by
  cases a with
  | tick d =>
    cases hs
    -- an ended period stays ended
    have hle : s.now ≤ s.now + d := le_add_of_nonneg_right (Int.natCast_nonneg d)
    exact ⟨fun m hm => (h.messages m hm).mono hle, fun w => (h.tasks w).mono hle⟩
  | dispatch =>
    cases hs
    exact due_dispatch h
  | start w i =>
    simp only [step] at hs
    split at hs
    next m _ hm =>
      cases hs
      exact h.goto (h.messages m (List.mem_of_getElem? hm))
    · cases hs
  | read w =>
    simp only [step, read] at hs
    split at hs
    next m hm =>
      have hended : TaskOk s.now (.started m) := hm ▸ h.tasks w
      -- in turn, the row read is the one the dispatcher saw
      have hrow : s.st.db.subscription = some m.row := hturn m hm
      split at hs
      · cases hs
        exact h.goto trivial
      next sub hsub =>
        cases hs
        exact h.goto ⟨hended, Option.some.inj (hsub.symm.trans hrow)⟩
    · cases hs
  | commit w =>
    simp only [step, commit] at hs
    split at hs
    next m sub hm =>
      have hended : TaskOk s.now (.read m sub) := hm ▸ h.tasks w
      split at hs
      · cases hs
        exact h.goto trivial
      · cases hs
        exact (h.store _).goto hended
    · cases hs
  | clear w =>
    simp only [step, clear] at hs
    split at hs
    · cases hs
      exact (h.store _).goto trivial
    · cases hs
  | invalidate w =>
    simp only [step, invalidate] at hs
    split at hs
    · cases hs
      exact (h.store _).goto trivial
    · cases hs
  | fail w =>
    cases hs
    exact h.goto trivial
  | checkout obj ctx =>
    cases hs
    exact h.store _
  | deleted sid ctx =>
    cases hs
    exact h.store _
  | traffic redis cache =>
    cases hs
    exact h.store _

/-! ## What a reset touches -/

/-- The subscription row after the transaction of a reset. -/
theorem commitReset_subscription {st st' : UsageState} {sub : Subscription}
    (hok : st.commitReset orgId sub = .ok st') (hrow : st.db.subscription = some sub) :
    st'.db.subscription = some (advanced sub) := by
  obtain ⟨db, hdb, rfl⟩ := UsageState.commitReset_ok hok
  obtain ⟨-, rfl⟩ := BillingDb.createUsageRecord_ok hdb
  simp [hrow, advanced]

theorem advanced_start_le {sub : Subscription} {now : DateTime} (h : Ended now sub) :
    advanced sub = sub ∨ (advanced sub).currentPeriodStart ≤ now := by
  unfold advanced BillingDb.Subscription.advance
  split
  · exact Or.inr h.2
  · exact Or.inl rfl

theorem resetOk_commit (h : Due s) (hturn : InTurn s (.commit w))
    (hs : s.step orgId (.commit w) = some s') : ResetOk orgId s s' (.commit w) := by
  intro _
  simp only [step, commit] at hs
  split at hs
  next m sub hm =>
    obtain ⟨hended, rfl⟩ : TaskOk s.now (.read m sub) := hm ▸ h.tasks w
    have hrow := hturn m m.row hm
    refine ⟨⟨m.row, hrow, hended.1, hended.2⟩, ?_⟩
    split at hs
    · cases hs
      exact Or.inl rfl
    next st hst =>
      cases hs
      have hnew := commitReset_subscription hst hrow
      rcases advanced_start_le hended with hsame | hle
      · exact Or.inl (hnew.trans (by rw [hsame, hrow]))
      · exact Or.inr ⟨advanced m.row, hnew, hle⟩
  · cases hs

theorem resetOk_clear (h : Due s) (hturn : InTurn s (.clear w))
    (hs : s.step orgId (.clear w) = some s') : ResetOk orgId s s' (.clear w) := by
  intro _
  simp only [step, clear] at hs
  split at hs
  next m sub hm =>
    obtain ⟨hended, rfl⟩ : TaskOk s.now (.committed m sub) := hm ▸ h.tasks w
    obtain ⟨hrow, hdays⟩ := hturn m m.row hm
    refine ⟨m, m.row, hm, hended.1, hended.2, hrow, fun p hp hkey => ?_⟩
    exact hdays p hp (usageKey_eq_iff.mp hkey)
  · cases hs

/-- **Resets in turn touch only due HOBBY organizations.**  In every run from any state of an
organization whose steps are all in turn, each step of a reset that changes the row, the
usage records or the usage hashes is a `ResetOk`. -/
theorem resets_only_due {st : UsageState} {now : DateTime} {a : ResetAct}
    (hreach : GuardedRun.Reach (fun s a => s.step orgId a) InTurn (initial st now) s)
    (hturn : InTurn s a) (hs : s.step orgId a = some s') : ResetOk orgId s s' a := by
  have hdue : Due s := hreach.invariant (due_initial st now) fun _ _ _ h ht hs => due_step h ht hs
  cases a with
  | commit w => exact resetOk_commit hdue hturn hs
  | clear w => exact resetOk_clear hdue hturn hs
  | _ => trivial

/-! ## Runs in and out of turn -/

/-- An organization on HOBBY from the epoch on. -/
def hobbyRow : Subscription :=
  ⟨"org", .hobby, .active, none, none, 0, DateTime.days 30, none⟩

/-- Its state, with seven traces counted under every key. -/
def hobbyState : UsageState where
  db := (BillingDb.empty.putSubscription hobbyRow).getOrCreateUsageRecord "org" 0 (DateTime.days 30)
  redis := ⟨fun _ c => if c = .traces then some 7 else none, fun _ => none⟩
  cache := none

/-- The message the dispatcher sends when the first period has just ended. -/
def dispatched : ResetRun :=
  { initial hobbyState (DateTime.days 30) with messages := [⟨hobbyRow⟩] }

/-- A worker has read the row. -/
def readHobby : ResetRun :=
  (dispatched.goto 0 (.started ⟨hobbyRow⟩)).goto 0 (.read ⟨hobbyRow⟩ hobbyRow)

/-- A run in turn up to the commit of the reset. -/
theorem reach_readHobby :
    GuardedRun.Reach (fun s a => s.step "org" a) InTurn (initial hobbyState (DateTime.days 30))
      readHobby := by
  have h₁ : GuardedRun.Reach (fun s a => s.step "org" a) InTurn
      (initial hobbyState (DateTime.days 30)) dispatched :=
    .step (a := .dispatch) .initial trivial rfl
  have h₂ : GuardedRun.Reach (fun s a => s.step "org" a) InTurn
      (initial hobbyState (DateTime.days 30)) (dispatched.goto 0 (.started ⟨hobbyRow⟩)) :=
    .step (a := .start 0 0) h₁ trivial rfl
  refine .step (a := .read 0) h₂ (fun m hm => ?_) rfl
  have htask : (dispatched.goto 0 (.started ⟨hobbyRow⟩)).task 0 = .started ⟨hobbyRow⟩ := rfl
  rw [htask] at hm
  cases hm
  rfl

theorem inTurn_readHobby : InTurn readHobby (.commit 0) := by
  intro m sub hm
  have htask : readHobby.task 0 = .read ⟨hobbyRow⟩ hobbyRow := rfl
  rw [htask] at hm
  cases hm
  rfl

/-- The stored period and the clock. -/
def periodView (s : ResetRun) : Option (SubscriptionPlan × DateTime × DateTime × DateTime) :=
  s.st.db.subscription.map fun sub =>
    (sub.plan, sub.currentPeriodStart, sub.currentPeriodEnd, s.now)

/-- The reset of the ended period is in turn, and it moves the row to the period that starts
now. -/
theorem resets_only_due_hobby : ∃ s', readHobby.step "org" (.commit 0) = some s' ∧
    ResetOk "org" readHobby s' (.commit 0) ∧
    periodView s' = some (.hobby, DateTime.days 30, DateTime.days 60, DateTime.days 30) := by
  have hview : (readHobby.step "org" (.commit 0)).bind periodView =
      some (.hobby, DateTime.days 30, DateTime.days 60, DateTime.days 30) := by decide +kernel
  obtain ⟨s', hs, hs'⟩ := Option.bind_eq_some_iff.mp hview
  exact ⟨s', hs, resets_only_due reach_readHobby inTurn_readHobby hs, hs'⟩

/-- A commit that moves a period that is not due, or not on HOBBY, is not a `ResetOk`. -/
theorem not_resetOk_of_view {plan plan' : SubscriptionPlan} {start stop start' stop' now : DateTime}
    (hview : periodView s = some (plan, start, stop, now))
    (hview' : periodView s' = some (plan', start', stop', now))
    (hmoved : start ≠ start') (hlate : now < stop) : ¬ ResetOk orgId s s' (.commit w) := by
  intro h
  obtain ⟨sub, hsub, heq⟩ := Option.map_eq_some_iff.mp hview
  obtain ⟨sub', hsub', heq'⟩ := Option.map_eq_some_iff.mp hview'
  simp only [Prod.mk.injEq] at heq heq'
  obtain ⟨-, hstart, hstop, hnow⟩ := heq
  obtain ⟨-, hstart', -, -⟩ := heq'
  have hne : s'.st.db.subscription ≠ s.st.db.subscription := by
    rw [hsub, hsub']
    intro hsame
    obtain rfl := Option.some.inj hsame
    exact hmoved (hstart.symm.trans hstart')
  obtain ⟨⟨row, hrow, -, hend⟩, -⟩ := h (Or.inl hne)
  obtain rfl := Option.some.inj (hrow.symm.trans hsub)
  rw [hstop, hnow] at hend
  exact absurd hend (not_le.mpr hlate)

/-- One execution of the first message by worker `w`. -/
def execution (w : Nat) : List ResetAct :=
  [.start w 0, .read w, .commit w, .clear w, .invalidate w]

/-- A checkout of Pro on the day after the dispatch. -/
def proUpgrade : List ResetAct :=
  [.tick 86400000000, .checkout ⟨.pro, some "cus", "sub", 2678400, 5270400⟩ ⟨true, true, 0, "rep", []⟩]

/-- A list of actions, then a commit that is not a `ResetOk`. -/
theorem not_resetOk_of_run {s₀ : ResetRun} {as : List ResetAct}
    {plan plan' : SubscriptionPlan} {start stop start' stop' now : DateTime}
    (hview : (GuardedRun.run (fun s a => s.step orgId a) s₀ as).bind (fun s =>
      (s.step orgId (.commit w)).bind fun s' =>
        (periodView s).bind fun x => (periodView s').map fun y => (x, y)) =
      some ((plan, start, stop, now), (plan', start', stop', now)))
    (hmoved : start ≠ start') (hlate : now < stop) :
    ∃ s s', GuardedRun.Reach (fun s a => s.step orgId a) GuardedRun.Always s₀ s ∧
      s.step orgId (.commit w) = some s' ∧
      periodView s' = some (plan', start', stop', now) ∧ ¬ ResetOk orgId s s' (.commit w) := by
  obtain ⟨s, hrun, hs⟩ := Option.bind_eq_some_iff.mp hview
  obtain ⟨s', hs', hviews⟩ := Option.bind_eq_some_iff.mp hs
  obtain ⟨x, hx, hxy⟩ := Option.bind_eq_some_iff.mp hviews
  obtain ⟨y, hy, heq⟩ := Option.map_eq_some_iff.mp hxy
  obtain ⟨rfl, rfl⟩ := Prod.mk.inj heq
  exact ⟨s, s', GuardedRun.reach_of_run hrun, hs', hy, not_resetOk_of_view hx hy hmoved hlate⟩

/-- **Two runs that reset what is not due.**  A message executed a second time advances the
period just opened, whose start then lies thirty days ahead; and a message executed after
a checkout advances the paid period and deletes its counters. -/
theorem reset_not_due :
    (∃ s s', GuardedRun.Reach (fun s a => s.step "org" a) GuardedRun.Always
        (initial hobbyState (DateTime.days 30)) s ∧
      s.step "org" (.commit 1) = some s' ∧
      periodView s' = some (.hobby, DateTime.days 60, DateTime.days 90, DateTime.days 30) ∧
      ¬ ResetOk "org" s s' (.commit 1)) ∧
    (∃ s s', GuardedRun.Reach (fun s a => s.step "org" a) GuardedRun.Always
        (initial hobbyState (DateTime.days 30)) s ∧
      s.step "org" (.commit 0) = some s' ∧
      periodView s' = some (.pro, DateTime.days 61, DateTime.days 91, DateTime.days 31) ∧
      ¬ ResetOk "org" s s' (.commit 0)) ∧
    (GuardedRun.run (fun s a => s.step "org" a) (initial hobbyState (DateTime.days 30))
      (.dispatch :: proUpgrade ++ execution 0)).map (fun s =>
        s.st.redis.hash (usageKey "org" (DateTime.days 31)) .traces) = some none := by
  refine ⟨?_, ?_, by decide +kernel⟩
  · have hview : (GuardedRun.run (fun s a => s.step "org" a)
        (initial hobbyState (DateTime.days 30))
        (.dispatch :: execution 0 ++ [.start 1 0, .read 1])).bind (fun s =>
          (s.step "org" (.commit 1)).bind fun s' =>
            (periodView s).bind fun x => (periodView s').map fun y => (x, y)) =
        some ((.hobby, DateTime.days 30, DateTime.days 60, DateTime.days 30),
          (.hobby, DateTime.days 60, DateTime.days 90, DateTime.days 30)) := by
      decide +kernel
    exact not_resetOk_of_run hview (by decide) (by decide)
  · have hview : (GuardedRun.run (fun s a => s.step "org" a)
        (initial hobbyState (DateTime.days 30))
        (.dispatch :: proUpgrade ++ [.start 0 0, .read 0])).bind (fun s =>
          (s.step "org" (.commit 0)).bind fun s' =>
            (periodView s).bind fun x => (periodView s').map fun y => (x, y)) =
        some ((.pro, DateTime.days 31, DateTime.days 61, DateTime.days 31),
          (.pro, DateTime.days 61, DateTime.days 91, DateTime.days 31)) := by
      decide +kernel
    exact not_resetOk_of_run hview (by decide) (by decide)

end ResetRun
end PandaProbe
