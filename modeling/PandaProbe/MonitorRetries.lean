import PandaProbe.EvalDispatch
import PandaProbe.UsageRollback

/-! # The monitor task and its retries

Celery runs the monitor task again when an attempt raises, up to its retry limit; each attempt
prepares, charges and commits a run of its own, and nothing of an earlier attempt is taken back.
So the task as a whole is all or nothing if every attempt it makes is.  The converse holds where
no rollback saw another period than the charged one: otherwise the units that two attempts
misplace could cancel out.
-/
namespace PandaProbe

/-- If the rollback sees a period, it is the charged one. -/
def DispatchCalls.Aligned (calls : DispatchCalls) : Prop :=
  ∀ sub sub', calls.usage.visible = some sub → calls.later.visible = some sub' →
    DateTime.isoDate sub'.currentPeriodStart = DateTime.isoDate sub.currentPeriodStart

namespace DispatchCalls
variable {orgId : UUID} {category : UsageCategory} {count : Nat} {calls : DispatchCalls}

theorem unitsAt_nonneg (sub : Option Subscription) (k : String) (f : UsageCategory) :
    0 ≤ UsageState.unitsAt orgId sub category count k f := by
  rcases sub with _ | sub
  · simp
  · rw [UsageState.unitsAt_some]
    split <;> omega

theorem counted_nonneg (k : String) (f : UsageCategory) :
    0 ≤ calls.counted orgId category count k f := by
  rw [counted_eq]
  split
  · exact unitsAt_nonneg _ k f
  · exact le_refl 0

theorem Charged.counted_add_undone_nonneg (h : Charged orgId category count calls)
    (haligned : calls.Aligned) (k : String) (f : UsageCategory) :
    0 ≤ calls.counted orgId category count k f + calls.undone orgId category count k f := by
  obtain ⟨sub, hsub⟩ := visible_of_admits h.admits
  rw [h.counted, undone_eq, hsub]
  split
  · rcases hlater : calls.later.visible with _ | sub'
    · simpa using unitsAt_nonneg (some sub) k f
    · have hkey := (@usageKey_eq_iff orgId).mpr (haligned sub sub' hsub hlater)
      simp [hkey]
  · simpa using unitsAt_nonneg (some sub) k f

end DispatchCalls

namespace MonitorAttempt
variable {orgId : UUID} {a : MonitorAttempt}

/-- An attempt creates its run, with the exact footprint; or it ends otherwise, with no message
without a row. -/
theorem run_cases (orgId : UUID) (a : MonitorAttempt) :
    (∃ run, (a.run orgId).1 = .created run a.calls.usage ∧ (a.run orgId).2 =
      ⟨[run.runId], [run.runId], UsageState.unitsAt orgId a.calls.usage.visible
        run.targetType.category run.units⟩) ∨
    (Uncreated (a.run orgId).1 ∧
      ((a.run orgId).2.runs = [] → (a.run orgId).2.queue = []) ∧
      (a.calls.Aligned → ∀ k f, 0 ≤ (a.run orgId).2.charge k f)) := by
  have hruns := runs_run orgId a
  generalize a.run orgId = result at hruns
  cases hruns with
  | stopped hstart he => exact Or.inr ⟨he, fun _ => rfl, fun _ _ _ => le_refl 0⟩
  | denied hstart hx he => exact Or.inr ⟨he, fun _ => rfl, fun _ => DispatchCalls.counted_nonneg⟩
  | rolledBack h hsaved =>
    exact Or.inr ⟨uncreated_failure, fun _ => rfl, h.2.counted_add_undone_nonneg⟩
  | stranded h hsaved hrest =>
    exact Or.inr ⟨uncreated_failure, fun hrows => absurd hrows (List.cons_ne_nil _ _),
      fun _ => DispatchCalls.unitsAt_nonneg _⟩
  | created h hsaved hrest => exact Or.inl ⟨_, rfl, rfl⟩

/-- An attempt that raises has taken no units from any counter. -/
theorem charge_nonneg (hraised : (a.run orgId).1 = .raised) (haligned : a.calls.Aligned)
    (k : String) (f : UsageCategory) : 0 ≤ (a.run orgId).2.charge k f := by
  rcases run_cases orgId a with ⟨run, hcreated, -⟩ | ⟨-, -, hcharge⟩
  · rw [hcreated] at hraised
    cases hraised
  · exact hcharge haligned k f

/-- A safe attempt that raises has left nothing. -/
theorem run_empty (hraised : (a.run orgId).1 = .raised) (hsafe : a.Safe orgId) :
    (a.run orgId).2 = .empty := by
  have hatomic := (atomic_run_iff orgId a).mpr hsafe
  rcases run_cases orgId a with ⟨run, hcreated, -⟩ | ⟨-, hqueue, -⟩
  · rw [hcreated] at hraised
    cases hraised
  rw [← Prod.mk.eta (p := a.run orgId), hraised] at hatomic
  obtain ⟨hruns, hcharge⟩ := hatomic
  exact Footprint.ext hruns (hqueue hruns) hcharge

end MonitorAttempt

section Retries
open MonitorAttempt
variable {orgId : UUID} {a : MonitorAttempt} {attempts : List MonitorAttempt}

theorem processSingleMonitor_retry (h : (a.run orgId).1 = .raised) (retries : Nat)
    (rest : List MonitorAttempt) :
    processSingleMonitor orgId (retries + 1) (a :: rest) =
        ((processSingleMonitor orgId retries rest).1,
          (a.run orgId).2.add (processSingleMonitor orgId retries rest).2) ∧
      attemptsMade orgId (retries + 1) (a :: rest) = a :: attemptsMade orgId retries rest := by
  simp [processSingleMonitor, attemptsMade, h]

theorem processSingleMonitor_last {retries : Nat} (h : (a.run orgId).1 = .raised → retries = 0)
    (rest : List MonitorAttempt) :
    processSingleMonitor orgId retries (a :: rest) = a.run orgId ∧
      attemptsMade orgId retries (a :: rest) = [a] := by
  have hno : ∀ n : Nat, (a.run orgId).1 = .raised → retries = n.succ → False :=
    fun n hraised hn => Nat.succ_ne_zero n (hn.symm.trans (h hraised))
  constructor
  · rw [processSingleMonitor]
    exact hno
  · rw [attemptsMade]
    exact hno

/-- The two ways on from an attempt: it is the last, or it raised and is retried. -/
theorem retried_or_last (orgId : UUID) (a : MonitorAttempt) (retries : Nat) :
    ((a.run orgId).1 = .raised → retries = 0) ∨
      (a.run orgId).1 = .raised ∧ ∃ n, retries = n + 1 := by
  by_cases h : (a.run orgId).1 = .raised
  · rcases retries with _ | n
    · exact Or.inl fun _ => rfl
    · exact Or.inr ⟨h, n, rfl⟩
  · exact Or.inl fun hr => absurd hr h

/-- **Safe attempts make an atomic task.** -/
theorem atomic_of_safe {retries : Nat}
    (h : ∀ a ∈ attemptsMade orgId retries attempts, a.Safe orgId) :
    atomic orgId (processSingleMonitor orgId retries attempts) := by
  induction attempts generalizing retries with
  | nil =>
    rw [processSingleMonitor]
    exact ⟨rfl, rfl⟩
  | cons a rest ih =>
    rcases retried_or_last orgId a retries with hlast | ⟨hraised, n, rfl⟩
    · obtain ⟨hrun, hmade⟩ := processSingleMonitor_last hlast rest
      rw [hrun, atomic_run_iff]
      exact h a (by rw [hmade]; exact List.mem_singleton_self a)
    · obtain ⟨hrun, hmade⟩ := processSingleMonitor_retry hraised n rest
      rw [hmade] at h
      obtain ⟨hsafe, hrest⟩ := List.forall_mem_cons.mp h
      rw [hrun, run_empty hraised hsafe, Footprint.empty_add]
      exact ih hrest

/-- What the task leaves: where it created a run, that run's footprint comes last; and no
counter is below its start. -/
theorem processSingleMonitor_footprint {retries : Nat}
    (h : ∀ a ∈ attemptsMade orgId retries attempts, a.calls.Aligned) :
    (∀ k f, 0 ≤ (processSingleMonitor orgId retries attempts).2.charge k f) ∧
    ∀ run usage, (processSingleMonitor orgId retries attempts).1 = .created run usage →
      ∃ p : Footprint, (∀ k f, 0 ≤ p.charge k f) ∧
        (processSingleMonitor orgId retries attempts).2 = p.add ⟨[run.runId], [run.runId],
          UsageState.unitsAt orgId usage.visible run.targetType.category run.units⟩ := by
  induction attempts generalizing retries with
  | nil =>
    rw [processSingleMonitor]
    exact ⟨fun _ _ => le_refl 0, fun _ _ => Ending.noConfusion⟩
  | cons a rest ih =>
    rcases retried_or_last orgId a retries with hlast | ⟨hraised, n, rfl⟩
    -- an attempt that is not retried is the whole of what follows
    · obtain ⟨hrun, hmade⟩ := processSingleMonitor_last hlast rest
      rw [hmade] at h
      rw [hrun]
      rcases run_cases orgId a with ⟨run, hcreated, hleft⟩ | ⟨hnone, -, hcharge⟩
      · refine ⟨fun k f => ?_, fun run' usage hcreated' => ?_⟩
        · rw [hleft]
          exact DispatchCalls.unitsAt_nonneg _ k f
        · rw [hcreated] at hcreated'
          obtain ⟨rfl, rfl⟩ := Ending.created.inj hcreated'
          exact ⟨.empty, fun _ _ => le_refl 0, by rw [hleft, Footprint.empty_add]⟩
      · exact ⟨hcharge (h a (List.mem_singleton_self a)),
          fun run usage hcreated => absurd hcreated (hnone run usage)⟩
    · obtain ⟨hrun, hmade⟩ := processSingleMonitor_retry hraised n rest
      rw [hmade] at h
      obtain ⟨haligned, hrest⟩ := List.forall_mem_cons.mp h
      obtain ⟨hnonneg, hcreated⟩ := ih hrest
      have hthis := charge_nonneg hraised haligned
      rw [hrun]
      refine ⟨fun k f => add_nonneg (hthis k f) (hnonneg k f), fun run usage hend => ?_⟩
      obtain ⟨p, hp, hleft⟩ := hcreated run usage hend
      refine ⟨(a.run orgId).2.add p, fun k f => add_nonneg (hthis k f) (hp k f), ?_⟩
      rw [hleft]
      simp [Footprint.add, add_assoc]

/-- Where neither part takes units back, what two parts leave is atomic only if the first left
no row and no units, and the second is atomic. -/
theorem atomic_add {p : Footprint} {r : Ending × Footprint} (hp : ∀ k f, 0 ≤ p.charge k f)
    (hr : ∀ k f, 0 ≤ r.2.charge k f)
    (hcreated : ∀ run usage, r.1 = .created run usage →
      ∃ q : Footprint, (∀ k f, 0 ≤ q.charge k f) ∧ r.2 = q.add ⟨[run.runId], [run.runId],
        UsageState.unitsAt orgId usage.visible run.targetType.category run.units⟩)
    (h : atomic orgId (r.1, p.add r.2)) :
    (p.runs = [] ∧ p.charge = fun _ _ => 0) ∧ atomic orgId r := by
  obtain ⟨e, q⟩ := r
  have hother (h : (p.add q).runs = [] ∧ (p.add q).charge = fun _ _ => 0) :
      (p.runs = [] ∧ p.charge = fun _ _ => 0) ∧ q.runs = [] ∧ q.charge = fun _ _ => 0 := by
    obtain ⟨hruns, hcharge⟩ := h
    obtain ⟨hpr, hqr⟩ := List.append_eq_nil_iff.mp hruns
    have hzero : ∀ k f, p.charge k f = 0 ∧ q.charge k f = 0 := by
      intro k f
      have hsum : p.charge k f + q.charge k f = 0 := congrFun (congrFun hcharge k) f
      have hpk := hp k f
      have hqk := hr k f
      dsimp only at hqk
      omega
    exact ⟨⟨hpr, by funext k f; exact (hzero k f).1⟩, hqr, by funext k f; exact (hzero k f).2⟩
  cases e with
  | created run usage =>
    obtain ⟨q₀, hq₀, rfl⟩ := hcreated run usage rfl
    -- the created run's own row, message and units are all there is
    have hruns := congrArg Footprint.runs h
    have hqueue := congrArg Footprint.queue h
    have hsum := congrArg Footprint.charge h
    simp only [Footprint.add, ← List.append_assoc, List.append_left_eq_self,
      List.append_eq_nil_iff] at hruns hqueue
    have hzero : ∀ k f, p.charge k f = 0 ∧ q₀.charge k f = 0 := by
      intro k f
      have hsum := congrFun (congrFun hsum k) f
      have hpk := hp k f
      have hqk := hq₀ k f
      simp only [Footprint.add] at hsum
      omega
    refine ⟨⟨hruns.1, by funext k f; exact (hzero k f).1⟩, ?_⟩
    have hq : q₀ = .empty := Footprint.ext hruns.2 hqueue.2 (by funext k f; exact (hzero k f).2)
    rw [hq, Footprint.empty_add]
    rfl
  | refused => exact hother h
  | idle => exact hother h
  | timedOut => exact hother h
  | raised => exact hother h

/-- **An atomic task made safe attempts**, if its rollbacks saw the charged periods. -/
theorem safe_of_atomic {retries : Nat}
    (haligned : ∀ a ∈ attemptsMade orgId retries attempts, a.calls.Aligned)
    (h : atomic orgId (processSingleMonitor orgId retries attempts)) :
    ∀ a ∈ attemptsMade orgId retries attempts, a.Safe orgId := by
  induction attempts generalizing retries with
  | nil => simp [attemptsMade]
  | cons a rest ih =>
    rcases retried_or_last orgId a retries with hlast | ⟨hraised, n, rfl⟩
    · obtain ⟨hrun, hmade⟩ := processSingleMonitor_last hlast rest
      rw [hrun, atomic_run_iff] at h
      rw [hmade]
      exact List.forall_mem_singleton.mpr h
    · obtain ⟨hrun, hmade⟩ := processSingleMonitor_retry hraised n rest
      rw [hmade] at haligned ⊢
      obtain ⟨hthis, hrest⟩ := List.forall_mem_cons.mp haligned
      obtain ⟨hnonneg, hcreated⟩ := processSingleMonitor_footprint hrest
      rw [hrun] at h
      -- the raised attempt left nothing, and the rest is atomic on its own
      obtain ⟨hempty, hatomic⟩ := atomic_add (charge_nonneg hraised hthis) hnonneg hcreated h
      refine List.forall_mem_cons.mpr ⟨(atomic_run_iff orgId a).mp ?_, ih hrest hatomic⟩
      rw [← Prod.mk.eta (p := a.run orgId), hraised]
      exact hempty

end Retries

/-- **When creating an eval run is all or nothing.**  A route, for every outcome of its
preparation and of each of its calls, exactly when its calls are safe; the monitor task, with
its retries, whenever all the attempts it makes are safe, and only then where no rollback saw
another period than the charged one. -/
theorem EvalRoute.all_or_nothing_iff (orgId : UUID) :
    (∀ (route : EvalRoute) (prepared : Option PreparedRun) (calls : DispatchCalls),
      Atomic orgId route.category route.billable (route.run orgId prepared calls) ↔
        ∀ run ∈ prepared, calls.Safe orgId (route.category run) (route.billable run) calls.commit
          (calls.enqueue = .done)) ∧
    ∀ attempts : List MonitorAttempt,
      let task := processSingleMonitor orgId monitorMaxRetries attempts
      let made := attemptsMade orgId monitorMaxRetries attempts
      ((∀ a ∈ made, a.Safe orgId) →
        Atomic orgId (fun run => run.targetType.category) PreparedRun.units task) ∧
      ((∀ a ∈ made, a.calls.Aligned) →
        Atomic orgId (fun run => run.targetType.category) PreparedRun.units task →
          ∀ a ∈ made, a.Safe orgId) := by
  refine ⟨fun route prepared calls => route.atomic_run_iff orgId prepared calls, ?_⟩
  intro attempts task made
  exact ⟨atomic_of_safe, safe_of_atomic⟩

/-! ## A broker that is down -/

/-- Two traces and one metric. -/
def preparedSample (id : UUID) : PreparedRun := ⟨id, .trace, 2, ["coherence"], none⟩

/-- The calls of an operation that differ in how the commit and the enqueueing end. -/
def sampleCalls (commit enqueue : Call) : DispatchCalls where
  usage := proState 0
  id := "i"
  fresh := fun _ => ⟨rfl, rfl⟩
  increment := .done
  commit := commit
  enqueue := enqueue
  later := ((proState 0).checkAndIncrement "org" .traceEvals 2 "i").1
  rollbackId := "j"
  fresh_rollback := by
    intro key
    have hdedup : ∀ x, x.toList.getLast? = some 'j' →
        ((proState 0).checkAndIncrement "org" .traceEvals 2 "i").1.redis.dedup x = none := by
      intro x hx
      refine Function.update_of_ne ?_ _ _
      rintro rfl
      simp [retryKey] at hx
    exact ⟨hdedup _ (by simp [retryKey]), hdedup _ (by simp [rollbackRetryKey])⟩
  rollback := .done

/-- An attempt at the monitor task with these calls. -/
def sampleAttempt (id : UUID) (commit enqueue : Call) : MonitorAttempt :=
  ⟨.spawned (preparedSample id), ⟨sampleCalls commit enqueue, true, true, false⟩⟩

theorem sampleCalls_charged (commit enqueue : Call) :
    DispatchCalls.Charged "org" .traceEvals 2 (sampleCalls commit enqueue) where
  increment := rfl
  admits := by
    show (proState 0).admits "org" .traceEvals 2 = true
    decide +kernel
  not_sentinel := by
    show ¬ (proState 0).sentinel "org" .traceEvals 2 = true
    decide +kernel

theorem attemptsMade_subset (orgId : UUID) (retries : Nat) (attempts : List MonitorAttempt) :
    attemptsMade orgId retries attempts ⊆ attempts := by
  induction attempts generalizing retries with
  | nil => simp [attemptsMade]
  | cons a rest ih =>
    rcases retried_or_last orgId a retries with hlast | ⟨hraised, n, rfl⟩
    · rw [(processSingleMonitor_last hlast rest).2]
      simp
    · rw [(processSingleMonitor_retry hraised n rest).2]
      exact List.cons_subset_cons a (ih n)

theorem sampleCalls_later (commit enqueue : Call) :
    (sampleCalls commit enqueue).later.visible = some (proSubscription 0) := rfl

/-- With a failed commit that is rolled back, the route leaves nothing; and a monitor task whose
first attempt ends so creates its run in the second. -/
theorem EvalRoute.all_or_nothing_iff_commit_failed :
    Atomic "org" createEvalRun.category createEvalRun.billable
      (createEvalRun.run "org" (some (preparedSample "r")) (sampleCalls .failed .done)) ∧
    Atomic "org" (fun run => run.targetType.category) PreparedRun.units
      (processSingleMonitor "org" monitorMaxRetries
        [sampleAttempt "first" .failed .done, sampleAttempt "second" .done .done]) ∧
    ∀ a ∈ attemptsMade "org" monitorMaxRetries
      [sampleAttempt "first" .failed .done, sampleAttempt "second" .done .done],
      a.Safe "org" := by
  have hundo : (sampleCalls .failed .done).Undoable 2 :=
    Or.inr ⟨rfl, proSubscription 0, rfl, proSubscription 0, sampleCalls_later _ _, rfl⟩
  have hfailed : ∀ rest, (sampleCalls .failed .done).Safe "org" .traceEvals 2 .failed rest :=
    fun rest => (sampleCalls_charged .failed .done).safe_iff.mpr hundo
  have hsafe : ∀ a ∈ [sampleAttempt "first" .failed .done, sampleAttempt "second" .done .done],
      a.Safe "org" ∧ a.calls.Aligned := by
    refine List.forall_mem_cons.mpr
      ⟨⟨hfailed (true ∧ Call.done = .done), ?_⟩, List.forall_mem_singleton.mpr ⟨?_, ?_⟩⟩
    · rintro _ _ ⟨⟩ ⟨⟩
      rfl
    · show (sampleCalls .done .done).Safe "org" .traceEvals 2 .done (true ∧ Call.done = .done)
      rw [(sampleCalls_charged .done .done).safe_iff]
      exact ⟨rfl, rfl⟩
    · rintro _ _ ⟨⟩ ⟨⟩
      rfl
  obtain ⟨hroute, htask⟩ := EvalRoute.all_or_nothing_iff "org"
  obtain ⟨hsuffices, hneeded⟩ :=
    htask [sampleAttempt "first" .failed .done, sampleAttempt "second" .done .done]
  have hatomic := hsuffices fun a ha => (hsafe a (attemptsMade_subset _ _ _ ha)).1
  refine ⟨(hroute _ _ _).mpr ?_, hatomic, hneeded (fun a ha => ?_) hatomic⟩
  · rintro _ ⟨⟩
    exact hfailed _
  · exact (hsafe a (attemptsMade_subset _ _ _ ha)).2

/-- **The broker is down.**  A created run's row stays, uncharged and never executed, although
the request failed; and a monitor's retry creates and charges a second run. -/
theorem EvalRoute.broker_down :
    (let r := createEvalRun.run "org" (some (preparedSample "r")) (sampleCalls .done .failed)
     r.1 = .raised ∧ r.2.runs = ["r"] ∧ r.2.queue = [] ∧
       ¬ Atomic "org" createEvalRun.category createEvalRun.billable r) ∧
    (let r := processSingleMonitor "org" monitorMaxRetries
       [sampleAttempt "first" .done .failed, sampleAttempt "second" .done .done]
     r.1 = .created (preparedSample "second") (proState 0) ∧ r.2.runs = ["first", "second"] ∧
       r.2.queue = ["second"] ∧ r.2.charge (usageKey "org" 0) .traceEvals = 4 ∧
       ¬ Atomic "org" (fun run => run.targetType.category) PreparedRun.units r) := by
  refine ⟨⟨rfl, rfl, rfl, ?_⟩, rfl, rfl, rfl, by decide +kernel, ?_⟩
  · rintro ⟨hruns, -⟩
    cases hruns
  · intro h
    have hlength : 2 = 1 := congrArg (fun p => p.runs.length) h
    cases hlength

end PandaProbe
