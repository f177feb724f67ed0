import PandaProbe.GuardedRun
import PandaProbe.MonitorTargets

/-! # Skipping a monitor

A monitor with `only_if_changed` is skipped if no trace in the scope of its filters has started
since its last run.  What a run is resolved to depends on more: on traces that arrive late, on
updates of older traces and on deletions, and on what is written between the resolution of the
targets and the stamp of the run.

The state has the traces, the runs of the monitor that are being spawned, each with the table its
targets were resolved from, and that table of the last run.  `skip_sound` is the main result: a
skip misses nothing in the runs in which every target that a write touches is left as the last run
found it, admitted or not, or with a trace that is counted.
-/
namespace PandaProbe

/-- A monitor, the traces, and its runs. -/
structure SkipRun (F : Type) where
  monitor : EvalMonitor F
  table : TraceTable
  resolved : Nat → Option TraceTable
  last : Option TraceTable

/-- What can happen next.  `process` is the task of a tick up to the resolution of the targets,
`trigger` the call of a user, and `advance` the commit of either. -/
inductive SkipAct
  | write (projectId : UUID) (op : TraceOp)
  | process (w : Nat)
  | trigger (w : Nat)
  | advance (w : Nat) (runId : UUID) (now : DateTime)
  | fail (w : Nat)

/-- The monitor after a run. -/
def EvalMonitor.advanced {F : Type} (m : EvalMonitor F) (runId : UUID) (now : DateTime) :
    EvalMonitor F :=
  { m with lastRunAt := some now, lastRunId := some runId, updatedAt := now }

namespace SkipRun
variable {F : Type} (env : FilterEnv) (s : SkipRun F)

/-- Resolving the targets: an error, or none at all, and there is no run. -/
def spawn (w : Nat) : Option (SkipRun F) :=
  match s.resolved w, targets env s.monitor s.table with
  | some _, _ => none
  | none, some (_ :: _) => some { s with resolved := Function.update s.resolved w (some s.table) }
  | none, _ => some s

/-- One step. -/
def step : SkipAct → Option (SkipRun F)
  | .write projectId op => some { s with table := s.table.write projectId op }
  | .process w =>
    match shouldSkipMonitor env s.monitor s.table with
    | some false => s.spawn env w
    | _ => some s
  | .trigger w => s.spawn env w
  | .advance w runId now =>
    match s.resolved w with
    | none => none
    | some found => some
        { s with
          monitor := s.monitor.advanced runId now
          resolved := Function.update s.resolved w none
          last := some found }
  | .fail w => some { s with resolved := Function.update s.resolved w none }

/-- No run so far. -/
def initial (m : EvalMonitor F) (t : TraceTable) : SkipRun F := ⟨m, t, fun _ => none, none⟩

/-! ## The property and the condition -/

/-- **A skip misses nothing**: the targets are those the last run was resolved to. -/
def SkipSound : Prop :=
  ∀ found, s.last = some found → shouldSkipMonitor env s.monitor s.table = some true →
    ∃ before now, targets env s.monitor found = some before ∧
      targets env s.monitor s.table = some now ∧ ∀ x, x ∈ now ↔ x ∈ before

/-- The target is as the table of a run has it, or has a trace that is counted after the run. -/
def Kept (m : EvalMonitor F) (lastRunAt : DateTime) (found t : TraceTable) (x : String) : Prop :=
  admits env m (members m t x) = admits env m (members m found x) ∨
    (scopeOf env m.filters).any fun c => (members m t x).any (counts m c lastRunAt)

/-- A write after a run keeps the targets it touches; and when a run is stamped, all targets have
been kept since it resolved them. -/
def InTurn : SkipAct → Prop
  | .write projectId op => ∀ found lastRunAt, s.last = some found →
      s.monitor.lastRunAt = some lastRunAt →
      ∀ x, Touches s.monitor s.table (s.table.write projectId op) x →
        Kept env s.monitor lastRunAt found (s.table.write projectId op) x
  | .advance w _ now => ∀ found, s.resolved w = some found →
      ∀ x, Kept env s.monitor now found s.table x
  | _ => True

/-! ## Steps -/

variable {env} {s} {s' : SkipRun F} {a : SkipAct} {m : EvalMonitor F} {t t' found : TraceTable}

/-- **A target that is not touched is kept.** -/
theorem Kept.of_not_touches {lastRunAt : DateTime} {x : String}
    (h : Kept env m lastRunAt found t x) (hx : ¬ Touches m t t' x) :
    Kept env m lastRunAt found t' x := by
  have hperm := members_perm hx
  rcases h with h | h
  · exact .inl ((admits_perm hperm).symm.trans h)
  · right
    simpa only [hperm.any_eq] using h

/-- If no trace is counted, every target that is kept is as it was. -/
theorem Kept.of_skip {x : String} {lastRunAt : DateTime} (hlast : m.lastRunAt = some lastRunAt)
    (hskip : shouldSkipMonitor env m t = some true) (h : Kept env m lastRunAt found t x) :
    admits env m (members m t x) = admits env m (members m found x) := by
  rcases h with h | h
  · exact h
  · exfalso
    unfold shouldSkipMonitor at hskip
    split at hskip
    · cases hskip
    · rw [hlast] at hskip
      obtain ⟨c, hc, hcount⟩ := Option.map_eq_some_iff.mp hskip
      simp only [hc, Option.any_some, List.any_eq_true, members, List.mem_map, List.mem_filter] at h
      obtain ⟨row, ⟨r, ⟨hr, -⟩, rfl⟩, hrow⟩ := h
      rw [beq_iff_eq, List.countP_eq_zero] at hcount
      exact hcount r hr hrow

/-- What is kept in every run: the last run could be resolved, as can those under way, and every
target is kept since. -/
structure Sound (env : FilterEnv) (s : SkipRun F) : Prop where
  resolved : ∀ w found, s.resolved w = some found → (targets env s.monitor found).isSome
  last : ∀ found, s.last = some found → (targets env s.monitor found).isSome ∧
    ∃ lastRunAt, s.monitor.lastRunAt = some lastRunAt ∧
      ∀ x, Kept env s.monitor lastRunAt found s.table x

theorem sound_initial : Sound env (initial m t) where
  resolved _ _ h := by cases h
  last _ h := by cases h

theorem resolved_update (h : Sound env s) {w : Nat} {r : Option TraceTable}
    (hr : ∀ found, r = some found → (targets env s.monitor found).isSome) (w' : Nat)
    (found : TraceTable) (hfound : Function.update s.resolved w r w' = some found) :
    (targets env s.monitor found).isSome := by
  by_cases hw : w' = w
  · subst hw
    rw [Function.update_self] at hfound
    exact hr found hfound
  · rw [Function.update_of_ne hw] at hfound
    exact h.resolved w' found hfound

theorem sound_spawn {w : Nat} (h : Sound env s) (hs : s.spawn env w = some s') :
    Sound env s' := by
  unfold spawn at hs
  split at hs
  · cases hs
  next x rest hnone htargets =>
    cases hs
    refine ⟨resolved_update h fun found hfound => ?_, h.last⟩
    cases hfound
    rw [htargets]
    rfl
  · cases hs
    exact h

theorem sound_step (h : Sound env s) (ha : InTurn env s a) (hs : s.step env a = some s') :
    Sound env s' := by
  cases a with
  | write projectId op =>
    cases hs
    refine ⟨h.resolved, fun found hfound => ?_⟩
    obtain ⟨hsome, lastRunAt, hlast, hkept⟩ := h.last found hfound
    refine ⟨hsome, lastRunAt, hlast, fun x => ?_⟩
    by_cases hx : Touches s.monitor s.table (s.table.write projectId op) x
    · exact ha found lastRunAt hfound hlast x hx
    · exact (hkept x).of_not_touches hx
  | process w =>
    simp only [step] at hs
    split at hs
    · exact sound_spawn h hs
    · cases hs
      exact h
  | trigger w => exact sound_spawn h hs
  | advance w runId now =>
    simp only [step] at hs
    split at hs
    · cases hs
    next found hfound =>
      cases hs
      refine ⟨resolved_update h (fun _ hr => by cases hr), fun found' hfound' => ?_⟩
      cases hfound'
      exact ⟨h.resolved w found hfound, now, rfl, ha found hfound⟩
  | fail w =>
    cases hs
    exact ⟨resolved_update h (fun _ hr => by cases hr), h.last⟩

theorem skipSound_of_sound (h : Sound env s) : SkipSound env s := by
  intro found hfound hskip
  obtain ⟨hsome, lastRunAt, hlast, hkept⟩ := h.last found hfound
  obtain ⟨before, hbefore⟩ := Option.isSome_iff_exists.mp hsome
  obtain ⟨now, hnow⟩ := Option.isSome_iff_exists.mp (targets_isSome found s.table hsome)
  refine ⟨before, now, hbefore, hnow, fun x => ?_⟩
  rw [mem_targets hnow, mem_targets hbefore, (hkept x).of_skip hlast hskip]

/-- A target that is not kept since the last run is missed by a skip. -/
theorem not_skipSound (lastRunAt : DateTime) {x : String} (hlast : s.last = some found)
    (hskip : shouldSkipMonitor env s.monitor s.table = some true)
    (h : ¬ Kept env s.monitor lastRunAt found s.table x) : ¬ SkipSound env s := by
  intro hsound
  obtain ⟨before, now, hbefore, hnow, hsame⟩ := hsound found hlast hskip
  refine h (.inl (Bool.eq_iff_iff.mpr ?_))
  rw [← mem_targets hnow, ← mem_targets hbefore]
  exact hsame x

theorem not_skipSound_step (hs : s.step env a = some s') (ha : ¬ InTurn env s a)
    (hskip : shouldSkipMonitor env s'.monitor s'.table = some true) : ¬ SkipSound env s' := by
  cases a with
  | write projectId op =>
    cases hs
    simp only [InTurn, not_forall] at ha
    obtain ⟨found, lastRunAt, hfound, -, x, -, hx⟩ := ha
    exact not_skipSound lastRunAt hfound hskip hx
  | advance w runId now =>
    simp only [InTurn, not_forall] at ha
    obtain ⟨found, hfound, x, hx⟩ := ha
    simp only [step, hfound] at hs
    cases hs
    exact not_skipSound now rfl hskip hx
  | _ => exact absurd trivial ha

/-- No filter needs either. -/
def sampleFilters : FilterEnv where
  parseDt _ := none
  contains column text := column.toLower.toList.tails.any (text.toLower.toList.isPrefixOf ·)

/-- A monitor of all traces of project `A`. -/
def sampleMonitor : EvalMonitor ℚ where
  id := "m"
  projectId := "A"
  name := "nightly"
  targetType := .trace
  metricNames := ["coherence"]
  samplingRate := 1
  model := none
  cadence := "daily"
  onlyIfChanged := true
  status := .active
  lastRunAt := none
  lastRunId := none
  nextRunAt := none
  createdAt := 0
  updatedAt := 0
  filters := .empty

/-- A trace is ingested. -/
def ingest (id : UUID) (startedAt : DateTime) : SkipAct :=
  .write "A" (.upsertTrace 0 { TraceDb.namedTrace id "agent" [] with startedAt := startedAt })

/-- A trace is evaluated by a run at time 10. -/
def firstRun : List SkipAct := [ingest "t" 1, .process 0, .advance 0 "run" 10]

/-- The trace is renamed. -/
def rename (name : String) : SkipAct :=
  .write "A" (.updateTrace "t" ⟨some (some name), none, none, none, none, none, none, none, none,
    none, none⟩)

end SkipRun
end PandaProbe
