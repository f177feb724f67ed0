import PandaProbe.UsageService

/-! # Creating, charging and enqueueing an eval run

Every operation that creates an eval run adds its row to an open transaction, counts the
billable units in Redis, commits, and hands the run to the broker.  The routes do the last two
in a `try` that rolls the units back (`EvalRoute.run`); the monitor task enqueues after its
`try`, and is itself retried by Celery (`processSingleMonitor`).

Each call can fail in two ways: without an effect, or after it took effect, when only its reply
is lost.  What an operation leaves behind is its `Footprint`: the rows it committed, the
messages it enqueued, and what its own calls added to the usage counters.  `Atomic` says that
an operation that created a run has exactly that footprint, and that any other has left no row
and no units.  It holds exactly when the calls meet `Safe`.
-/
namespace PandaProbe

/-- What an eval run evaluates. -/
inductive TargetType
  | trace | session
  deriving DecidableEq, Repr

/-- An eval run that has been validated and added to the DB session but not yet committed. -/
structure PreparedRun where
  runId : UUID
  targetType : TargetType
  totalTargets : Nat
  metricNames : List String
  traceMetricMap : Option (List (UUID × List String))
  deriving DecidableEq, Repr

/-- How a call ends: `lost` is a failure reported although the call took effect. -/
inductive Call
  | done | failed | lost
  deriving DecidableEq, Repr

/-- Whether a call took effect. -/
def Call.applied (c : Call) : Bool := c != .failed

/-- How an operation ends. -/
inductive Ending
  | created (run : PreparedRun) (usage : UsageState)
  | refused
  | idle
  | timedOut
  | raised

/-- What an operation leaves: committed rows, enqueued runs, and units added to counters. -/
@[ext]
structure Footprint where
  runs : List UUID
  queue : List UUID
  charge : String → UsageCategory → Int

namespace Footprint

/-- Nothing. -/
def empty : Footprint := ⟨[], [], fun _ _ => 0⟩

/-- What two operations leave together. -/
def add (p q : Footprint) : Footprint :=
  ⟨p.runs ++ q.runs, p.queue ++ q.queue, fun k f => p.charge k f + q.charge k f⟩

theorem empty_add (p : Footprint) : empty.add p = p := by
  simp [empty, add]

end Footprint

/-- The calls an operation makes: how each ends, the usage the quota check finds, and the usage
its rollback finds. -/
structure DispatchCalls where
  usage : UsageState
  id : UUID
  fresh : usage.Fresh id
  increment : Call
  commit : Call
  enqueue : Call
  later : UsageState
  rollbackId : UUID
  fresh_rollback : later.Fresh rollbackId
  rollback : Call

namespace DispatchCalls
variable (orgId : UUID) (category : UsageCategory) (count : Int) (calls : DispatchCalls)

/-- What `check_and_increment` adds to the counters. -/
def counted (k : String) (f : UsageCategory) : Int :=
  if calls.increment.applied then
    (calls.usage.checkAndIncrement orgId category count calls.id).1.redis.value k f -
      calls.usage.redis.value k f
  else 0

/-- What `rollback_increment`, whose failures are swallowed, adds to the counters. -/
def undone (k : String) (f : UsageCategory) : Int :=
  if calls.rollback.applied then
    (calls.later.rollbackIncrement orgId category count calls.rollbackId).redis.value k f -
      calls.later.redis.value k f
  else 0

/-- Whether the quota check returns, or what it raises. -/
def checkAndIncrement : Except Ending Unit :=
  match calls.increment with
  | .done =>
    match (calls.usage.checkAndIncrement orgId category count calls.id).2 with
    | .ok _ => .ok ()
    | .error _ => .error .refused
  | _ => .error .raised

/-- Commit the prepared run to the database and enqueue the Celery task: whether it returns,
the committed rows and the enqueued runs. -/
def dispatchRun (run : PreparedRun) : Bool × List UUID × List UUID :=
  match calls.commit with
  | .failed => (false, [], [])
  | .lost => (false, [run.runId], [])
  | .done =>
    match calls.enqueue with
    | .done => (true, [run.runId], [run.runId])
    | .failed => (false, [run.runId], [])
    | .lost => (false, [run.runId], [run.runId])

end DispatchCalls

/-! ## The routes -/

/-- The routes that create an eval run. -/
inductive EvalRoute
  | createEvalRun
  | createBatchEvalRun
  | retryFailedEvalRun
  | createSessionEvalRun
  | createBatchSessionEvalRun
  | retryFailedSessionEvalRun
  | triggerMonitor
  deriving DecidableEq, Repr

/-- The category of a run's units. -/
def TargetType.category : TargetType → UsageCategory
  | .trace => .traceEvals
  | .session => .sessionEvals

/-- `run.total_targets * len(run.metric_names)`. -/
def PreparedRun.units (run : PreparedRun) : Nat := run.totalTargets * run.metricNames.length

namespace EvalRoute

/-- The category a route charges. -/
def category : EvalRoute → PreparedRun → UsageCategory
  | .createEvalRun, _ | .createBatchEvalRun, _ | .retryFailedEvalRun, _ => .traceEvals
  | .createSessionEvalRun, _ | .createBatchSessionEvalRun, _ | .retryFailedSessionEvalRun, _ =>
    .sessionEvals
  | .triggerMonitor, run => run.targetType.category

/-- The units a route charges.  A retry of a run of traces runs, and charges, only the metrics
that failed. -/
def billable : EvalRoute → PreparedRun → Nat
  | .retryFailedEvalRun, run =>
    match run.traceMetricMap with
    | none | some [] => run.units
    | some map => (map.map (fun m => m.2.length)).sum
  | _, run => run.units

/-- A route, once its run is prepared (`none`: the preparation raised). -/
def run (route : EvalRoute) (orgId : UUID) (prepared : Option PreparedRun)
    (calls : DispatchCalls) : Ending × Footprint :=
  match prepared with
  -- the transaction with the prepared row is rolled back
  | none => (.raised, .empty)
  | some run =>
    let counted := calls.counted orgId (route.category run) (route.billable run)
    match calls.checkAndIncrement orgId (route.category run) (route.billable run) with
    | .error e => (e, ⟨[], [], counted⟩)
    | .ok _ =>
      let d := calls.dispatchRun run
      if d.1 then (.created run calls.usage, ⟨d.2.1, d.2.2, counted⟩)
      else
        -- the units are taken back, but a committed row stays
        let undone := calls.undone orgId (route.category run) (route.billable run)
        (.raised, ⟨d.2.1, d.2.2, fun k f => counted k f + undone k f⟩)

end EvalRoute

/-! ## The monitor task -/

/-- What the task finds before it charges: no monitor, nothing new, no project, a failure, or a
run added to the transaction. -/
inductive MonitorStart
  | notFound
  | skipped
  | projectMissing
  | raised
  | spawned (run : PreparedRun)

/-- The calls of an attempt at the monitor task: also whether `advance_monitor` and the closing
of the Redis client succeed, and whether what is raised is the time limit. -/
structure MonitorCalls extends DispatchCalls where
  advance : Bool
  close : Bool
  timeLimit : Bool

/-- An attempt at the monitor task. -/
structure MonitorAttempt where
  start : MonitorStart
  calls : MonitorCalls

namespace MonitorAttempt

/-- `advance_monitor` and the commit, in one `try`. -/
def saved (a : MonitorAttempt) : Call := if a.calls.advance then a.calls.commit else .failed

/-- How an attempt ends that raises: Celery retries all but the time limit. -/
def failure (a : MonitorAttempt) : Ending := if a.calls.timeLimit then .timedOut else .raised

/-- `_process_single_monitor`.  The Redis client is closed in a `finally`, before the run is
enqueued; an exception there replaces the one on its way. -/
def run (orgId : UUID) (a : MonitorAttempt) : Ending × Footprint :=
  match a.start with
  | .notFound | .skipped | .projectMissing => (.idle, .empty)
  | .raised => (a.failure, .empty)
  | .spawned run =>
    let counted := a.calls.counted orgId run.targetType.category run.units
    let undone := a.calls.undone orgId run.targetType.category run.units
    match a.calls.checkAndIncrement orgId run.targetType.category run.units with
    | .error .refused => (if a.calls.close then .refused else a.failure, ⟨[], [], counted⟩)
    | .error _ => (a.failure, ⟨[], [], counted⟩)
    | .ok _ =>
      match a.saved with
      | .failed => (a.failure, ⟨[], [], fun k f => counted k f + undone k f⟩)
      | .lost => (a.failure, ⟨[run.runId], [], fun k f => counted k f + undone k f⟩)
      | .done =>
        -- past the `try`: nothing is taken back from here on
        if a.calls.close then
          match a.calls.enqueue with
          | .done => (.created run a.calls.usage, ⟨[run.runId], [run.runId], counted⟩)
          | .failed => (a.failure, ⟨[run.runId], [], counted⟩)
          | .lost => (a.failure, ⟨[run.runId], [run.runId], counted⟩)
        else (a.failure, ⟨[run.runId], [], counted⟩)

end MonitorAttempt

/-- `process_single_monitor`, with the number of retries left.  Each attempt finds its own
state; a retry that is never delivered ends the task. -/
def processSingleMonitor (orgId : UUID) : Nat → List MonitorAttempt → Ending × Footprint
  | _, [] => (.raised, .empty)
  | retries, a :: rest =>
    match (a.run orgId).1, retries with
    | .raised, retries + 1 =>
      let r := processSingleMonitor orgId retries rest
      (r.1, (a.run orgId).2.add r.2)
    | _, _ => a.run orgId

/-- `max_retries` of the monitor task. -/
def monitorMaxRetries : Nat := 2

/-- The attempts that are made. -/
def attemptsMade (orgId : UUID) : Nat → List MonitorAttempt → List MonitorAttempt
  | _, [] => []
  | retries, a :: rest =>
    match (a.run orgId).1, retries with
    | .raised, retries + 1 => a :: attemptsMade orgId retries rest
    | _, _ => [a]

/-- **All or nothing.**  An operation that created a run has committed its row, enqueued it
and charged its units, each once; any other has left no row and no units. -/
def Atomic (orgId : UUID) (category : PreparedRun → UsageCategory) (billable : PreparedRun → Nat) :
    Ending × Footprint → Prop
  | (.created run usage, p) => p = ⟨[run.runId], [run.runId],
      UsageState.unitsAt orgId usage.visible (category run) (billable run)⟩
  | (_, p) => p.runs = [] ∧ p.charge = fun _ _ => 0

/-! ## When the calls are safe -/

namespace UsageState
variable (orgId : UUID) (category : UsageCategory) (count : Int) (st : UsageState)

/-- The quota check lets the units through. -/
def admits : Bool :=
  match st.visible with
  | none => false
  | some sub =>
    (sub.status = .active || sub.status = .pastDue) &&
      !(hardLimit sub.plan category ≥ 0 &&
        st.redis.value (usageKey orgId sub.currentPeriodStart) category + count >
          hardLimit sub.plan category)

/-- The units bring the counter, which is below zero, to the script's `-1`. -/
def sentinel : Bool :=
  match st.visible with
  | none => false
  | some sub => st.redis.value (usageKey orgId sub.currentPeriodStart) category + count = -1

variable {orgId category count st}

/-- **What a first `check_and_increment` does**, by whether the units are admitted. -/
theorem checkAndIncrement_admits {id : UUID} (hid : st.Fresh id) :
    (∀ k f, (st.checkAndIncrement orgId category count id).1.redis.value k f -
        st.redis.value k f =
      if st.admits orgId category count then unitsAt orgId st.visible category count k f else 0) ∧
    ((∃ v, (st.checkAndIncrement orgId category count id).2 = .ok v) ↔
      st.admits orgId category count ∧ ¬ st.sentinel orgId category count) := by
  have hfst : st.getSubscriptionCached = (st.getSubscriptionCached.1, st.visible) :=
    Prod.ext rfl st.getSubscriptionCached_snd
  unfold checkAndIncrement
  rw [hfst]
  cases hv : st.visible with
  | none => simp [admits, hv]
  | some sub =>
    simp only [getSubscriptionCached_redis]
    split
    next hstatus =>
      have hno : st.admits orgId category count = false := by simp [admits, hv, hstatus]
      simp [hno]
    next hstatus =>
      have hactive : sub.status = .active ∨ sub.status = .pastDue := by tauto
      rw [checkAndIncrementLua_fresh (hid _).1]
      by_cases hlim : hardLimit sub.plan category ≥ 0 ∧
          st.redis.value (usageKey orgId sub.currentPeriodStart) category + count >
            hardLimit sub.plan category
      · have hno : st.admits orgId category count = false := by
          simp only [admits, hv]
          simp [hlim.1, hlim.2]
        -- a call over the limit still writes the field, with the count it had
        have hsame := @value_hset_add orgId category st.redis sub 0
        simp only [add_zero] at hsame
        simp [hno, hlim, hsame]
      · have hyes : st.admits orgId category count = true := by
          simp only [admits, hv]
          simp only [not_and_or, not_le, not_lt, gt_iff_lt, ge_iff_le] at hlim
          rcases hactive with h | h <;> rcases hlim with h' | h' <;> simp [h, h']
        simp only [if_neg hlim, hyes, if_true]
        refine ⟨fun k f => ?_, ?_⟩
        · have hadd := @value_hset_add orgId category st.redis sub count k f
          split <;> simp [hadd]
        · simp only [sentinel, hv]
          split <;> simp_all

end UsageState

namespace DispatchCalls
variable (orgId : UUID) (category : UsageCategory) (count : Nat) (calls : DispatchCalls)

/-- The rollback sees a period that starts on the day of the one that was charged. -/
def SamePeriod : Prop :=
  ∃ sub, calls.usage.visible = some sub ∧ ∃ sub', calls.later.visible = some sub' ∧
    DateTime.isoDate sub'.currentPeriodStart = DateTime.isoDate sub.currentPeriodStart

/-- A rollback takes the units back: there are none, or it takes effect in the charged
period. -/
def Undoable : Prop := count = 0 ∨ calls.rollback.applied ∧ calls.SamePeriod

/-- The calls up to the end of the transaction `saved` and the `rest` of the operation leave
all or nothing.  Units that are not admitted are never counted. -/
def Safe (saved : Call) (rest : Prop) : Prop :=
  calls.usage.admits orgId category count →
    match calls.increment with
    | .failed => True
    | .lost => count = 0
    | .done =>
      if calls.usage.sentinel orgId category count then count = 0
      else
        match saved with
        | .failed => calls.Undoable count
        | .lost => False
        | .done => rest

variable {orgId category count calls}

theorem counted_eq (k : String) (f : UsageCategory) : calls.counted orgId category count k f =
    if calls.increment.applied ∧ calls.usage.admits orgId category count then
      UsageState.unitsAt orgId calls.usage.visible category count k f else 0 := by
  rw [counted, (UsageState.checkAndIncrement_admits calls.fresh).1]
  split <;> simp_all

theorem undone_eq (k : String) (f : UsageCategory) : calls.undone orgId category count k f =
    if calls.rollback.applied then
      - UsageState.unitsAt orgId calls.later.visible category count k f else 0 := by
  rw [undone, UsageState.rollbackIncrement_value calls.fresh_rollback]
  split <;> omega

/-- The quota check has returned: the units were admitted and counted. -/
structure Charged (orgId : UUID) (category : UsageCategory) (count : Nat)
    (calls : DispatchCalls) : Prop where
  increment : calls.increment = .done
  admits : calls.usage.admits orgId category count
  not_sentinel : ¬ calls.usage.sentinel orgId category count

/-- **Everything the quota check can do.**  It returns and has counted the units; or it raises,
and has counted them if its reply was lost or the new value is the script's `-1`. -/
theorem checkAndIncrement_cases :
    (calls.checkAndIncrement orgId category count = .ok () ∧ Charged orgId category count calls) ∨
    (∃ e, calls.checkAndIncrement orgId category count = .error e ∧
      (e = .refused ∨ e = .raised) ∧
      (calls.increment = .done → calls.usage.admits orgId category count →
        calls.usage.sentinel orgId category count)) := by
  have hspec := (@UsageState.checkAndIncrement_admits orgId category count _ _ calls.fresh).2
  rw [checkAndIncrement]
  cases hinc : calls.increment with
  | failed => exact Or.inr ⟨_, rfl, Or.inr rfl, nofun⟩
  | lost => exact Or.inr ⟨_, rfl, Or.inr rfl, nofun⟩
  | done =>
    dsimp only
    cases hres : (calls.usage.checkAndIncrement orgId category count calls.id).2 with
    | ok v =>
      obtain ⟨hadmits, hsentinel⟩ := hspec.mp ⟨v, hres⟩
      exact Or.inl ⟨rfl, hinc, hadmits, hsentinel⟩
    | error e =>
      -- a refused call whose units were admitted has met the sentinel
      refine Or.inr ⟨_, rfl, Or.inl rfl, fun _ hadmits => ?_⟩
      by_contra hsentinel
      obtain ⟨v, hok⟩ := hspec.mpr ⟨hadmits, hsentinel⟩
      rw [hres] at hok
      cases hok

/-- Units at a counter are none exactly when there are none. -/
theorem unitsAt_eq_zero {sub : Subscription} :
    UsageState.unitsAt orgId (some sub) category count = (fun _ _ => 0) ↔ count = 0 := by
  constructor
  · intro h
    have hkey := congrFun (congrFun h (usageKey orgId sub.currentPeriodStart)) category
    simpa using hkey
  · rintro rfl
    funext k f
    simp

/-- An admitted call sees a subscription. -/
theorem visible_of_admits (h : calls.usage.admits orgId category count) :
    ∃ sub, calls.usage.visible = some sub := by
  cases hv : calls.usage.visible with
  | none => simp [UsageState.admits, hv] at h
  | some sub => exact ⟨sub, rfl⟩

/-- **A quota check that raises has counted nothing exactly when its calls are safe.** -/
theorem counted_eq_zero_iff {e : Ending} {saved : Call} {rest : Prop}
    (h : calls.checkAndIncrement orgId category count = .error e) :
    calls.counted orgId category count = (fun _ _ => 0) ↔
      calls.Safe orgId category count saved rest := by
  have hcounted : calls.counted orgId category count = fun k f =>
      if calls.increment.applied ∧ calls.usage.admits orgId category count then
        UsageState.unitsAt orgId calls.usage.visible category count k f else 0 := by
    funext k f
    exact counted_eq k f
  rw [hcounted]
  unfold Safe
  by_cases hadmits : calls.usage.admits orgId category count
  · obtain ⟨sub, hsub⟩ := visible_of_admits hadmits
    have hunits : (UsageState.unitsAt orgId calls.usage.visible category count = fun _ _ => 0) ↔
        count = 0 := by
      rw [hsub]
      exact unitsAt_eq_zero
    -- admitted and still raised: the call or its reply was lost, or the new count is -1
    rcases @checkAndIncrement_cases orgId category count calls with ⟨hok, -⟩ | ⟨-, -, -, hsentinel⟩
    · rw [h] at hok
      cases hok
    cases hinc : calls.increment with
    | failed => simp [Call.applied]
    | lost => simpa [Call.applied, hadmits] using hunits
    | done => simpa [Call.applied, hadmits, hsentinel hinc hadmits] using hunits
  · simp [hadmits]

/-- Units at one period's counter, less those at another's, are none exactly when there are none
or the two periods start on the same day. -/
theorem unitsAt_sub_eq_zero {sub sub' : Subscription} :
    (∀ k f, UsageState.unitsAt orgId (some sub) category count k f -
        UsageState.unitsAt orgId (some sub') category count k f = 0) ↔
      count = 0 ∨
        DateTime.isoDate sub'.currentPeriodStart = DateTime.isoDate sub.currentPeriodStart := by
  rw [← @usageKey_eq_iff orgId]
  constructor
  · intro h
    by_contra hne
    obtain ⟨hcount, hkey⟩ := not_or.mp hne
    -- at the charged counter nothing is taken back
    have hat := h (usageKey orgId sub.currentPeriodStart) category
    simp only [UsageState.unitsAt_some, and_self, if_true, Ne.symm hkey, false_and, if_false] at hat
    omega
  · rintro (rfl | hkey) k f
    · simp
    · simp [hkey]

/-- **A rollback undoes the counted units exactly when it can.** -/
theorem undone_iff (h : Charged orgId category count calls) :
    (fun k f => calls.counted orgId category count k f + calls.undone orgId category count k f) =
      (fun _ _ => 0) ↔ calls.Undoable count := by
  obtain ⟨sub, hsub⟩ := visible_of_admits h.admits
  have happlied : calls.increment.applied = true := by rw [h.increment]; rfl
  simp only [funext_iff, counted_eq, undone_eq, happlied, h.admits, hsub, and_self, if_true,
    Undoable, SamePeriod, Option.some.injEq, exists_eq_left']
  cases calls.rollback.applied with
  | false =>
    simp only [Bool.false_eq_true, if_false, add_zero, false_and, or_false, ← funext_iff]
    exact unitsAt_eq_zero
  | true =>
    simp only [if_true, true_and]
    cases hlater : calls.later.visible with
    | none =>
      simp only [UsageState.unitsAt_none, neg_zero, add_zero, reduceCtorEq, false_and, exists_false,
        or_false, ← funext_iff]
      exact unitsAt_eq_zero
    | some sub' =>
      simpa [sub_eq_add_neg] using @unitsAt_sub_eq_zero orgId category count sub sub'

/-- The units of calls whose quota check returned. -/
theorem Charged.counted (h : Charged orgId category count calls) :
    calls.counted orgId category count =
      UsageState.unitsAt orgId calls.usage.visible category count := by
  funext k f
  rw [counted_eq, h.increment, if_pos ⟨rfl, h.admits⟩]

/-- Once the quota check has returned, the calls are safe by what follows it. -/
theorem Charged.safe_iff {saved : Call} {rest : Prop} (h : Charged orgId category count calls) :
    calls.Safe orgId category count saved rest ↔
      match saved with
      | .failed => calls.Undoable count
      | .lost => False
      | .done => rest := by
  simp only [Safe, h.admits, h.increment, if_neg h.not_sentinel, forall_const]

end DispatchCalls

/-- **A route is atomic exactly when its calls are safe.** -/
theorem EvalRoute.atomic_run_iff (route : EvalRoute) (orgId : UUID) (prepared : Option PreparedRun)
    (calls : DispatchCalls) :
    Atomic orgId route.category route.billable (route.run orgId prepared calls) ↔
      ∀ run ∈ prepared, calls.Safe orgId (route.category run) (route.billable run) calls.commit
        (calls.enqueue = .done) := by
  rcases prepared with _ | r
  · simp [run, Atomic, Footprint.empty]
  simp only [Option.mem_def, Option.some.injEq, forall_eq', run]
  rcases @DispatchCalls.checkAndIncrement_cases orgId (route.category r) (route.billable r) calls
    with ⟨hok, hcharged⟩ | ⟨e, herr, he, -⟩
  · rw [hcharged.safe_iff, hok]
    cases hcommit : calls.commit with
    | failed =>
      simpa [DispatchCalls.dispatchRun, hcommit, Atomic] using DispatchCalls.undone_iff hcharged
    | lost => simp [DispatchCalls.dispatchRun, hcommit, Atomic]
    | done =>
      cases henqueue : calls.enqueue with
      | done =>
        simpa [DispatchCalls.dispatchRun, hcommit, henqueue, Atomic] using hcharged.counted
      | failed => simp [DispatchCalls.dispatchRun, hcommit, henqueue, Atomic]
      | lost => simp [DispatchCalls.dispatchRun, hcommit, henqueue, Atomic]
  · rw [← DispatchCalls.counted_eq_zero_iff herr, herr]
    rcases he with rfl | rfl
    · simp [Atomic]
    · simp [Atomic]

/-- **A route that creates a run** has committed, enqueued and charged it. -/
theorem EvalRoute.run_created {route : EvalRoute} {orgId : UUID} {prepared r : PreparedRun}
    {calls : DispatchCalls} {usage : UsageState} {p : Footprint}
    (h : route.run orgId (some prepared) calls = (.created r usage, p)) :
    r = prepared ∧ DispatchCalls.Charged orgId (route.category prepared) (route.billable prepared)
      calls ∧ usage = calls.usage ∧ p = ⟨[prepared.runId], [prepared.runId],
        UsageState.unitsAt orgId usage.visible (route.category prepared)
          (route.billable prepared)⟩ := by
  simp only [run] at h
  rcases @DispatchCalls.checkAndIncrement_cases orgId (route.category prepared)
      (route.billable prepared) calls with ⟨hok, hcharged⟩ | ⟨e, herr, rfl | rfl, -⟩
  · rw [hok, hcharged.counted] at h
    cases hcommit : calls.commit with
    | failed => simp [DispatchCalls.dispatchRun, hcommit] at h
    | lost => simp [DispatchCalls.dispatchRun, hcommit] at h
    | done =>
      cases henqueue : calls.enqueue with
      | done =>
        simp only [DispatchCalls.dispatchRun, hcommit, henqueue, if_true, Prod.mk.injEq,
          Ending.created.injEq] at h
        obtain ⟨⟨rfl, rfl⟩, rfl⟩ := h
        exact ⟨rfl, hcharged, rfl, rfl⟩
      | failed => simp [DispatchCalls.dispatchRun, hcommit, henqueue] at h
      | lost => simp [DispatchCalls.dispatchRun, hcommit, henqueue] at h
  · simp [herr] at h
  · simp [herr] at h

namespace MonitorAttempt
variable (orgId : UUID) (a : MonitorAttempt)

/-- The calls of an attempt leave all or nothing. -/
def Safe : Prop :=
  match a.start with
  | .spawned run => a.calls.Safe orgId run.targetType.category run.units a.saved
      (a.calls.close ∧ a.calls.enqueue = .done)
  | _ => True

/-- The atomicity of the monitor task. -/
def atomic : Ending × Footprint → Prop :=
  Atomic orgId (fun run => run.targetType.category) PreparedRun.units

/-- An ending that is not that of a created run. -/
def Uncreated (e : Ending) : Prop := ∀ run usage, e ≠ .created run usage

variable {a} in
theorem uncreated_failure : Uncreated a.failure := by
  intro run usage
  unfold failure
  split <;> exact Ending.noConfusion

variable {orgId} in
theorem atomic_of_uncreated {e : Ending} (he : Uncreated e) (p : Footprint) :
    atomic orgId (e, p) ↔ p.runs = [] ∧ p.charge = fun _ _ => 0 := by
  cases e with
  | created run usage => exact absurd rfl (he run usage)
  | _ => rfl

/-- The quota check of the attempt's run has returned. -/
def Charged (r : PreparedRun) : Prop :=
  a.start = .spawned r ∧
    DispatchCalls.Charged orgId r.targetType.category r.units a.calls.toDispatchCalls

/-- **What an attempt can do**: it stops before it has a run; its quota check raises; the
transaction fails and the units are rolled back; its committed run is not enqueued, or is and
the broker's reply is lost; or the run is created. -/
inductive Runs : Ending × Footprint → Prop
  | stopped {e : Ending} (hstart : ∀ r, a.start ≠ .spawned r) (he : Uncreated e) :
      Runs (e, .empty)
  | denied {r : PreparedRun} {x e : Ending} (hstart : a.start = .spawned r)
      (hx : a.calls.checkAndIncrement orgId r.targetType.category r.units = .error x)
      (he : Uncreated e) :
      Runs (e, ⟨[], [], a.calls.counted orgId r.targetType.category r.units⟩)
  | rolledBack {r : PreparedRun} {rows : List UUID} (h : Charged orgId a r)
      (hsaved : a.saved = .failed ∧ rows = [] ∨ a.saved = .lost ∧ rows = [r.runId]) :
      Runs (a.failure, ⟨rows, [], fun k f =>
        a.calls.counted orgId r.targetType.category r.units k f +
          a.calls.undone orgId r.targetType.category r.units k f⟩)
  | stranded {r : PreparedRun} {queue : List UUID} (h : Charged orgId a r)
      (hsaved : a.saved = .done) (hrest : ¬ (a.calls.close ∧ a.calls.enqueue = .done)) :
      Runs (a.failure, ⟨[r.runId], queue, UsageState.unitsAt orgId a.calls.usage.visible
        r.targetType.category r.units⟩)
  | created {r : PreparedRun} (h : Charged orgId a r) (hsaved : a.saved = .done)
      (hrest : a.calls.close ∧ a.calls.enqueue = .done) :
      Runs (.created r a.calls.usage, ⟨[r.runId], [r.runId], UsageState.unitsAt orgId
        a.calls.usage.visible r.targetType.category r.units⟩)

theorem runs_run : Runs orgId a (a.run orgId) := by
  unfold run
  cases hstart : a.start with
  | notFound => exact .stopped (by simp [hstart]) fun _ _ => Ending.noConfusion
  | skipped => exact .stopped (by simp [hstart]) fun _ _ => Ending.noConfusion
  | projectMissing => exact .stopped (by simp [hstart]) fun _ _ => Ending.noConfusion
  | raised => exact .stopped (by simp [hstart]) uncreated_failure
  | spawned r =>
    dsimp only
    rcases @DispatchCalls.checkAndIncrement_cases orgId r.targetType.category r.units
        a.calls.toDispatchCalls with ⟨hok, hcharged⟩ | ⟨x, hx, he, -⟩
    · rw [hok, hcharged.counted]
      have h : Charged orgId a r := ⟨hstart, hcharged⟩
      cases hsaved : a.saved with
      | failed => exact hcharged.counted ▸ .rolledBack h (Or.inl ⟨hsaved, rfl⟩)
      -- the reply to the commit is lost: the row is there, and its units are taken back
      | lost => exact hcharged.counted ▸ .rolledBack h (Or.inr ⟨hsaved, rfl⟩)
      | done =>
        cases hclose : a.calls.close with
        | false => exact .stranded h hsaved (by simp [hclose])
        | true =>
          cases henqueue : a.calls.enqueue with
          | done => exact .created h hsaved ⟨hclose, henqueue⟩
          | failed => exact .stranded h hsaved (by simp [henqueue])
          | lost => exact .stranded h hsaved (by simp [henqueue])
    · rw [hx]
      rcases he with rfl | rfl
      · refine .denied hstart hx ?_
        split
        · exact fun _ _ => Ending.noConfusion
        · exact uncreated_failure
      · exact .denied hstart hx uncreated_failure

/-- **An attempt is atomic exactly when its calls are safe.** -/
theorem atomic_run_iff : atomic orgId (a.run orgId) ↔ a.Safe orgId := by
  have hruns := runs_run orgId a
  generalize a.run orgId = result at hruns
  cases hruns with
  | stopped hstart he =>
    have hsafe : a.Safe orgId := by
      unfold Safe
      split
      next r hr => exact absurd hr (hstart r)
      · trivial
    simp [atomic_of_uncreated he, Footprint.empty, hsafe]
  | denied hstart hx he =>
    rw [atomic_of_uncreated he, Safe, hstart]
    simpa using DispatchCalls.counted_eq_zero_iff hx
  | rolledBack h hsaved =>
    obtain ⟨hstart, hcharged⟩ := h
    rw [atomic_of_uncreated uncreated_failure, Safe, hstart]
    dsimp only
    rw [hcharged.safe_iff]
    rcases hsaved with ⟨hsaved, rfl⟩ | ⟨hsaved, rfl⟩
    · simpa [hsaved] using DispatchCalls.undone_iff hcharged
    · simp [hsaved]
  -- the row is committed and the message is not sent, or may have been sent
  | stranded h hsaved hrest =>
    obtain ⟨hstart, hcharged⟩ := h
    rw [atomic_of_uncreated uncreated_failure, Safe, hstart]
    dsimp only
    rw [hcharged.safe_iff, hsaved]
    simpa using hrest
  | created h hsaved hrest =>
    obtain ⟨hstart, hcharged⟩ := h
    rw [Safe, hstart]
    dsimp only
    rw [hcharged.safe_iff, hsaved]
    exact iff_of_true rfl hrest

end MonitorAttempt

end PandaProbe
