import PandaProbe.SessionMetrics

/-! # What a session evaluation run takes from stored scores

A run looks scores up by trace and name only, so it may reuse a score another project
stored for one of its traces.  Because the target sessions are distinct, a run never
looks at a score it created itself (`sessionLoop_frozen`), so all it takes from the
table are the numbers `reusable` lists, session by session up to the first session
with a stored text that is no number.  Two states of the table give the same records,
whatever the LLM answers, exactly when these agree (`same_records_iff`).
-/
namespace PandaProbe
namespace SessionEval
variable {F : Type} {env : EvalEnv F} {answers : Answers F} {task : SessionTask}

/-! ## A run does not read its own scores -/

/-- Scores under other traces or names change no lookup. -/
theorem readSignal_append {stored created : List TraceScore} {t : UUID} {s : Signal}
    (h : ∀ row ∈ created, row.traceId = t → row.name ≠ s.name) :
    readSignal env (stored ++ created) t s = readSignal env stored t s := by
  have hnone : created.filter
      (fun r => r.traceId == t && r.name == s.name && r.status == .success) = [] := by
    rw [List.filter_eq_nil_iff]
    intro row hrow
    by_cases ht : row.traceId = t
    · simp [ht, h row hrow ht]
    · simp [ht]
  simp only [readSignal, findExistingTraceScore, List.filter_append, hnone, List.append_nil]

/-- The lookup of a run: in the table as it stands. -/
def live (env : EvalEnv F) (stored : List TraceScore) : Reader F :=
  fun created => readSignal env (stored ++ created)

/-- A lookup that does not see the scores the run creates. -/
def frozen (reads : UUID → Signal → Option (Option F)) : Reader F := fun _ => reads

/-- The score a signal creates, if any, is the signal's own. -/
theorem resolveSignal_created {model : Option String} {tr : Trace} {prior : List Trace}
    {s : Signal} {reused : Option F} {created : List TraceScore} {tick : Nat} {row : TraceScore}
    (h : row ∈ (resolveSignal env answers task model tr prior s reused created tick).1) :
    row ∈ created ∨ row.traceId = tr.traceId ∧ row.name = s.name := by
  unfold resolveSignal at h
  split at h
  · exact Or.inl h
  · split at h
    · simp only at h
      split at h
      · rcases List.mem_append.mp h with h | h
        · exact Or.inl h
        · rw [List.mem_singleton.mp h]
          exact Or.inr ⟨rfl, rfl⟩
      · rcases List.mem_append.mp h with h | h
        · exact Or.inl h
        · rw [List.mem_singleton.mp h]
          exact Or.inr ⟨rfl, rfl⟩
    · rcases List.mem_append.mp h with h | h
      · exact Or.inl h
      · rw [List.mem_singleton.mp h]
        exact Or.inr ⟨rfl, rfl⟩

theorem signalLoop_created {read : Reader F} {model : Option String} {tr : Trace}
    {prior : List Trace} {l : List Signal} {created : List TraceScore} {tick : Nat}
    {acc : Signals F} {r : List TraceScore × Nat × Signals F}
    (h : signalLoop env answers task read model tr prior l created tick acc = some r) :
    ∀ row ∈ r.1, row ∈ created ∨ row.traceId = tr.traceId := by
  induction l generalizing created tick acc with
  | nil =>
    cases h
    exact fun row hrow => Or.inl hrow
  | cons s rest ih =>
    obtain ⟨reused, -, hrest⟩ := Option.bind_eq_some_iff.mp h
    intro row hrow
    rcases ih hrest row hrow with hmem | ht
    · rcases resolveSignal_created hmem with hc | ⟨ht, -⟩
      · exact Or.inl hc
      · exact Or.inr ht
    · exact Or.inr ht

theorem traceLoop_created {read : Reader F} {model : Option String} {prior l : List Trace}
    {created : List TraceScore} {tick : Nat} {acc : SessionSignals F}
    {r : List TraceScore × Nat × SessionSignals F}
    (h : traceLoop env answers task read model prior l created tick acc = some r) :
    ∀ row ∈ r.1, row ∈ created ∨ row.traceId ∈ l.map Trace.traceId := by
  induction l generalizing prior created tick acc with
  | nil =>
    cases h
    exact fun row hrow => Or.inl hrow
  | cons tr rest ih =>
    obtain ⟨r₁, h₁, hrest⟩ := Option.bind_eq_some_iff.mp h
    intro row hrow
    rcases ih hrest row hrow with hmem | ht
    · rcases signalLoop_created h₁ row hmem with hc | ht
      · exact Or.inl hc
      · exact Or.inr (by simp [ht])
    · exact Or.inr (List.mem_cons_of_mem _ ht)

section Frozen
variable {stored : List TraceScore}

theorem signalLoop_frozen {model : Option String} {tr : Trace} {prior : List Trace}
    {l : List Signal} (hl : l.Nodup) {created : List TraceScore} {tick : Nat} {acc : Signals F}
    (hnew : ∀ row ∈ created, row.traceId = tr.traceId → ∀ s ∈ l, row.name ≠ s.name) :
    signalLoop env answers task (live env stored) model tr prior l created tick acc =
      signalLoop env answers task (frozen (readSignal env stored)) model tr prior l created tick
        acc := by
  induction l generalizing created tick acc with
  | nil => rfl
  | cons s rest ih =>
    have hread : live env stored created tr.traceId s = readSignal env stored tr.traceId s :=
      readSignal_append (fun row hrow ht => hnew row hrow ht s (by simp))
    simp only [signalLoop, frozen, hread]
    congr 1
    funext reused
    refine ih (List.nodup_cons.mp hl).2 ?_
    intro row hrow ht s' hs'
    rcases resolveSignal_created hrow with hc | ⟨-, hname⟩
    · exact hnew row hc ht s' (List.mem_cons_of_mem _ hs')
    · -- the score just created belongs to `s`, which does not come again
      intro hsame
      have hss : s = s' := Signal.name_injective (hname.symm.trans hsame)
      exact (List.nodup_cons.mp hl).1 (hss ▸ hs')

theorem traceLoop_frozen {model : Option String} {prior l : List Trace}
    (hl : (l.map Trace.traceId).Nodup) {created : List TraceScore} {tick : Nat}
    {acc : SessionSignals F} (hnew : ∀ row ∈ created, row.traceId ∉ l.map Trace.traceId) :
    traceLoop env answers task (live env stored) model prior l created tick acc =
      traceLoop env answers task (frozen (readSignal env stored)) model prior l created tick
        acc := by
  -- what the loop creates is on traces it has passed, which no later read asks for
  induction l generalizing prior created tick acc with
  | nil => rfl
  | cons tr rest ih =>
    rw [List.map_cons, List.nodup_cons] at hl
    have hsig : signalLoop env answers task (live env stored) model tr prior signalMetrics created
        tick (fun _ => none) = signalLoop env answers task (frozen (readSignal env stored)) model tr
          prior signalMetrics created tick (fun _ => none) :=
      signalLoop_frozen signalMetrics_nodup
        (fun row hrow ht _ _ => absurd (by simp [ht]) (hnew row hrow))
    simp only [traceLoop, hsig]
    cases hs : signalLoop env answers task (frozen (readSignal env stored)) model tr prior
        signalMetrics created tick (fun _ => none) with
    | none => rfl
    | some r =>
      simp only [Option.bind_some]
      refine ih hl.2 ?_
      intro row hrow hmem
      rcases signalLoop_created hs row hrow with hc | ht
      · exact hnew row hc (List.mem_cons_of_mem _ hmem)
      · exact hl.1 (ht ▸ hmem)

/-! ### Sessions -/

theorem mem_sessionTraces {table : List Trace} {projectId : UUID} {sid : String} {tr : Trace}
    (h : tr ∈ sessionTraces table projectId sid) : tr ∈ table ∧ tr.sessionId = some sid := by
  rw [sessionTraces, (List.perm_insertionSort _ _).mem_iff, List.mem_filter] at h
  simp only [Bool.and_eq_true, beq_iff_eq] at h
  exact ⟨h.1, h.2.2⟩

theorem sessionTraces_nodup {table : List Trace} (h : (table.map Trace.traceId).Nodup)
    (projectId : UUID) (sid : String) :
    ((sessionTraces table projectId sid).map Trace.traceId).Nodup := by
  unfold sessionTraces
  rw [((List.perm_insertionSort _ _).map _).nodup_iff]
  exact h.sublist (List.filter_sublist.map _)

/-- A trace is in one session. -/
theorem session_unique {table : List Trace} (h : (table.map Trace.traceId).Nodup)
    {projectId : UUID} {sid sid' : String} {i : UUID}
    (hi : i ∈ (sessionTraces table projectId sid).map Trace.traceId)
    (hi' : i ∈ (sessionTraces table projectId sid').map Trace.traceId) : sid = sid' := by
  obtain ⟨tr, htr, rfl⟩ := List.mem_map.mp hi
  obtain ⟨tr', htr', hid⟩ := List.mem_map.mp hi'
  obtain ⟨hmem, hsid⟩ := mem_sessionTraces htr
  obtain ⟨hmem', hsid'⟩ := mem_sessionTraces htr'
  have hsame : tr' = tr := List.inj_on_of_nodup_map h hmem' hmem hid
  rw [hsame, hsid] at hsid'
  exact Option.some.inj hsid'

theorem metricLoop_created {sid : String} {traces : List Trace} {signals : SessionSignals F}
    {names : List String} {p : EvalProgress F} :
    (metricLoop env task sid traces signals names p).created = p.created ∧
      (metricLoop env task sid traces signals names p).signals = p.signals := by
  induction names generalizing p with
  | nil => exact ⟨rfl, rfl⟩
  | cons name rest ih => exact ih

theorem processSession_created {read : Reader F} {table : List Trace} {p p' : EvalProgress F}
    {sid : String} (h : processSession env answers task read table p sid = some p') :
    ∀ row ∈ p'.created,
      row ∈ p.created ∨ row.traceId ∈ (sessionTraces table task.projectId sid).map Trace.traceId := by
  unfold processSession at h
  split at h
  next =>
    cases h
    exact fun row hrow => Or.inl hrow
  next tr rest htr =>
    obtain ⟨r, hr, rfl⟩ := Option.map_eq_some_iff.mp h
    intro row hrow
    rw [incrementProgress, metricLoop_created.1] at hrow
    rw [htr]
    exact traceLoop_created hr row hrow

theorem processSession_frozen {table : List Trace} (htable : (table.map Trace.traceId).Nodup)
    {p : EvalProgress F} {sid : String}
    (hnew : ∀ row ∈ p.created,
      row.traceId ∉ (sessionTraces table task.projectId sid).map Trace.traceId) :
    processSession env answers task (live env stored) table p sid =
      processSession env answers task (frozen (readSignal env stored)) table p sid := by
  have hnodup := sessionTraces_nodup htable task.projectId sid
  unfold processSession
  split
  next => rfl
  next tr rest htr =>
    rw [htr] at hnodup hnew
    rw [traceLoop_frozen hnodup hnew]

/-- **A run never looks at its own scores**: over distinct sessions, looking scores up in
the growing table is looking them up in the table the run started from. -/
theorem sessionLoop_frozen {table : List Trace} (htable : (table.map Trace.traceId).Nodup)
    {sids : List String} (hsids : sids.Nodup) {p : EvalProgress F}
    (hnew : ∀ row ∈ p.created, ∀ sid ∈ sids,
      row.traceId ∉ (sessionTraces table task.projectId sid).map Trace.traceId) :
    sessionLoop env answers task (live env stored) table sids p =
      sessionLoop env answers task (frozen (readSignal env stored)) table sids p := by
  induction sids generalizing p with
  | nil => rfl
  | cons sid rest ih =>
    rw [List.nodup_cons] at hsids
    simp only [sessionLoop]
    rw [processSession_frozen htable (fun row hrow => hnew row hrow sid (by simp))]
    cases hp : processSession env answers task (frozen (readSignal env stored)) table p sid with
    | none => rfl
    | some p' =>
      refine ih hsids.2 ?_
      intro row hrow sid' hsid' hmem
      rcases processSession_created hp row hrow with hc | ht
      · exact hnew row hc sid' (List.mem_cons_of_mem _ hsid') hmem
      · exact hsids.1 (session_unique htable ht hmem ▸ hsid')

end Frozen

/-! ## What the run takes from the table -/

section Reads
variable (reads : UUID → Signal → Option (Option F))

/-- The numbers stored scores offer for a trace; `none` if one of them raises. -/
def traceReads (tr : Trace) : Option (Signals F) :=
  if signalMetrics.all (fun s => (reads tr.traceId s).isSome) then
    some (fun s => (reads tr.traceId s).join)
  else none

/-- The numbers stored scores offer for a session. -/
def sessionReads : List Trace → Option (SessionSignals F)
  | [] => some []
  | tr :: rest =>
    (traceReads reads tr).bind fun r => (sessionReads rest).map fun rs => (tr.traceId, r) :: rs

/-- **All a run takes from stored scores**: the numbers of each target session, up to the
first session where reading one raises; and whether there is such a session. -/
def reusable (table : List Trace) (projectId : UUID) :
    List String → List (String × SessionSignals F) × Bool
  | [] => ([], false)
  | sid :: rest =>
    match sessionTraces table projectId sid with
    | [] => reusable table projectId rest
    | tr :: trs =>
      match sessionReads reads (tr :: trs) with
      | none => ([], true)
      | some r =>
        ((sid, r) :: (reusable table projectId rest).1, (reusable table projectId rest).2)

end Reads

section Congr
variable {reads reads₁ reads₂ : UUID → Signal → Option (Option F)}

theorem traceReads_eq_some {tr : Trace} {r : Signals F} (h : traceReads reads tr = some r)
    (s : Signal) : reads tr.traceId s = some (r s) := by
  unfold traceReads at h
  split at h
  next hall =>
    cases h
    have hs := List.all_eq_true.mp hall s (mem_signalMetrics s)
    obtain ⟨v, hv⟩ := Option.isSome_iff_exists.mp hs
    simp [hv]
  next => cases h

theorem traceReads_eq_none {tr : Trace} (h : traceReads reads tr = none) :
    ∃ s ∈ signalMetrics, reads tr.traceId s = none := by
  unfold traceReads at h
  split at h
  next => cases h
  next hall =>
    simpa using hall

theorem signalLoop_congr {model : Option String} {tr : Trace} {prior : List Trace}
    {l : List Signal} {created : List TraceScore} {tick : Nat} {acc : Signals F}
    (h : ∀ s, reads₁ tr.traceId s = reads₂ tr.traceId s) :
    signalLoop env answers task (frozen reads₁) model tr prior l created tick acc =
      signalLoop env answers task (frozen reads₂) model tr prior l created tick acc := by
  induction l generalizing created tick acc with
  | nil => rfl
  | cons s rest ih =>
    simp only [signalLoop, frozen, h s]
    congr 1
    funext reused
    exact ih

theorem signalLoop_none {model : Option String} {tr : Trace} {prior : List Trace}
    {l : List Signal} {created : List TraceScore} {tick : Nat} {acc : Signals F}
    (h : ∃ s ∈ l, reads tr.traceId s = none) :
    signalLoop env answers task (frozen reads) model tr prior l created tick acc = none := by
  induction l generalizing created tick acc with
  | nil => obtain ⟨s, hs, -⟩ := h; cases hs
  | cons s rest ih =>
    simp only [signalLoop, frozen]
    cases hs : reads tr.traceId s with
    | none => rfl
    | some reused =>
      refine ih ?_
      obtain ⟨s', hs', hnone⟩ := h
      rcases List.mem_cons.mp hs' with rfl | hmem
      · rw [hs] at hnone; cases hnone
      · exact ⟨s', hmem, hnone⟩

theorem traceLoop_none {model : Option String} {prior l : List Trace} {created : List TraceScore}
    {tick : Nat} {acc : SessionSignals F} (h : sessionReads reads l = none) :
    traceLoop env answers task (frozen reads) model prior l created tick acc = none := by
  induction l generalizing prior created tick acc with
  | nil => cases h
  | cons tr rest ih =>
    rw [traceLoop]
    cases hr : traceReads reads tr with
    | none => rw [signalLoop_none (traceReads_eq_none hr)]; rfl
    | some r =>
      simp only [sessionReads, hr, Option.bind_some, Option.map_eq_none_iff] at h
      cases signalLoop env answers task (frozen reads) model tr prior signalMetrics created tick
          (fun _ => none) with
      | none => rfl
      | some w => exact ih h

theorem sessionReads_cons {tr : Trace} {rest : List Trace} {rs : SessionSignals F}
    (h : sessionReads reads (tr :: rest) = some rs) :
    ∃ r rs', traceReads reads tr = some r ∧ sessionReads reads rest = some rs' ∧
      rs = (tr.traceId, r) :: rs' := by
  obtain ⟨r, hr, hrest⟩ := Option.bind_eq_some_iff.mp h
  obtain ⟨rs', hrs', rfl⟩ := Option.map_eq_some_iff.mp hrest
  exact ⟨r, rs', hr, hrs', rfl⟩

/-- Under the same numbers, the traces of a session go the same way. -/
theorem traceLoop_congr {model : Option String} {prior l : List Trace} {created : List TraceScore}
    {tick : Nat} {acc rs : SessionSignals F} (h₁ : sessionReads reads₁ l = some rs)
    (h₂ : sessionReads reads₂ l = some rs) :
    traceLoop env answers task (frozen reads₁) model prior l created tick acc =
      traceLoop env answers task (frozen reads₂) model prior l created tick acc := by
  induction l generalizing prior created tick acc rs with
  | nil => rfl
  | cons tr rest ih =>
    obtain ⟨r, rs₁, hr₁, hrest₁, rfl⟩ := sessionReads_cons h₁
    obtain ⟨r₂, rs₂, hr₂, hrest₂, he⟩ := sessionReads_cons h₂
    simp only [List.cons.injEq, Prod.mk.injEq, true_and] at he
    obtain ⟨rfl, rfl⟩ := he
    have hreads : ∀ s, reads₁ tr.traceId s = reads₂ tr.traceId s := fun s =>
      (traceReads_eq_some hr₁ s).trans (traceReads_eq_some hr₂ s).symm
    rw [traceLoop, traceLoop, signalLoop_congr hreads]
    congr 1
    funext w
    exact ih hrest₁ hrest₂

/-- **Under the same reusable numbers, two runs go the same way.** -/
theorem sessionLoop_congr {table : List Trace} {sids : List String} {p : EvalProgress F}
    (h : reusable reads₁ table task.projectId sids = reusable reads₂ table task.projectId sids) :
    sessionLoop env answers task (frozen reads₁) table sids p =
      sessionLoop env answers task (frozen reads₂) table sids p := by
  induction sids generalizing p with
  | nil => rfl
  | cons sid rest ih =>
    simp only [sessionLoop, processSession]
    simp only [reusable] at h
    cases htr : sessionTraces table task.projectId sid with
    | nil =>
      simp only [htr] at h ⊢
      exact ih h
    | cons tr trs =>
      simp only [htr] at h ⊢
      -- a read that fails stops both runs at the same session
      cases h₁ : sessionReads reads₁ (tr :: trs) with
      | none =>
        cases h₂ : sessionReads reads₂ (tr :: trs) with
        | none => rw [traceLoop_none h₁, traceLoop_none h₂]; rfl
        | some rs₂ => simp only [h₁, h₂] at h; cases h
      | some rs₁ =>
        cases h₂ : sessionReads reads₂ (tr :: trs) with
        | none => simp only [h₁, h₂] at h; cases h
        | some rs₂ =>
          simp only [h₁, h₂, Prod.mk.injEq, List.cons.injEq, true_and] at h
          obtain ⟨⟨rfl, hfst⟩, hsnd⟩ := h
          rw [traceLoop_congr h₁ h₂]
          cases traceLoop env answers task (frozen reads₂) p.run.model [] (tr :: trs) p.created
              p.tick [] with
          | none => rfl
          | some w => exact ih (Prod.ext hfst hsnd)

end Congr

/-! ## When every metric call fails -/

section Silent
variable {reads : UUID → Signal → Option (Option F)}

/-- An LLM that never answers. -/
def silent : Answers F := fun _ _ _ _ => .error "timeout"

theorem resolveSignal_silent {model : Option String} {tr : Trace} {prior : List Trace} {s : Signal}
    {reused : Option F} {created : List TraceScore} {tick : Nat} :
    (resolveSignal env silent task model tr prior s reused created tick).2.2 = reused := by
  cases reused <;> rfl

/-- With no answers, the numbers of a trace are those its stored scores offer. -/
theorem signalLoop_silent {model : Option String} {tr : Trace} {prior : List Trace} {r : Signals F}
    (h : ∀ s, reads tr.traceId s = some (r s)) {l : List Signal} {created : List TraceScore}
    {tick : Nat} {acc : Signals F} :
    ∃ created' tick', signalLoop env silent task (frozen reads) model tr prior l created tick acc =
      some (created', tick', fun s => if s ∈ l then (r s <|> acc s) else acc s) := by
  induction l generalizing created tick acc with
  | nil => exact ⟨created, tick, by simp [signalLoop]⟩
  | cons s rest ih =>
    simp only [signalLoop, frozen, h s, Option.bind_some, resolveSignal_silent]
    obtain ⟨created', tick', hrest⟩ := @ih _ _ _
    refine ⟨created', tick', hrest.trans ?_⟩
    congr 3
    funext s'
    by_cases hss : s' = s
    · subst hss
      cases r s' <;> by_cases hmem : s' ∈ rest <;> simp [hmem]
    · cases r s <;> by_cases hmem : s' ∈ rest <;> simp [hmem, hss]

theorem traceLoop_silent {model : Option String} {prior l : List Trace} {created : List TraceScore}
    {tick : Nat} {acc rs : SessionSignals F} (h : sessionReads reads l = some rs) :
    ∃ created' tick', traceLoop env silent task (frozen reads) model prior l created tick acc =
      some (created', tick', acc ++ rs) := by
  induction l generalizing prior created tick acc rs with
  | nil =>
    cases h
    exact ⟨created, tick, by simp [traceLoop]⟩
  | cons tr rest ih =>
    obtain ⟨r, rs', hr, hrest, rfl⟩ := sessionReads_cons h
    obtain ⟨c₁, t₁, hsig⟩ := signalLoop_silent (traceReads_eq_some hr) (l := signalMetrics)
    have hr' : (fun s => if s ∈ signalMetrics then (r s <|> none) else none) = r := by
      funext s
      simp [mem_signalMetrics s]
    obtain ⟨c₂, t₂, htr⟩ := ih hrest
    refine ⟨c₂, t₂, ?_⟩
    rw [traceLoop, hsig, hr', Option.bind_some, htr, List.append_assoc]
    rfl

/-- **With no answers, a run hands its metrics exactly the reusable numbers.** -/
theorem sessionLoop_silent {table : List Trace} {sids : List String} {p : EvalProgress F} :
    (sessionLoop env silent task (frozen reads) table sids p).1.signals =
        p.signals ++ (reusable reads table task.projectId sids).1 ∧
      (sessionLoop env silent task (frozen reads) table sids p).2 =
        (reusable reads table task.projectId sids).2 := by
  induction sids generalizing p with
  | nil => exact ⟨(List.append_nil _).symm, rfl⟩
  | cons sid rest ih =>
    simp only [sessionLoop, processSession, reusable]
    cases htr : sessionTraces table task.projectId sid with
    | nil => exact ih
    | cons tr trs =>
      simp only
      cases hr : sessionReads reads (tr :: trs) with
      | none =>
        rw [traceLoop_none hr]
        exact ⟨(List.append_nil _).symm, rfl⟩
      | some rs =>
        obtain ⟨c, t, hloop⟩ := traceLoop_silent hr
        rw [hloop]
        simp only [Option.map_some, List.nil_append]
        obtain ⟨hsig, hab⟩ := ih (p := _)
        refine ⟨hsig.trans ?_, hab⟩
        rw [incrementProgress, metricLoop_created.2, List.append_assoc]
        rfl

end Silent

/-! ## Two states of the table -/

/-- The two states differ only in trace scores of other projects. -/
structure DifferOnlyForeign (projectId : UUID) (db₁ db₂ : EvalDb F) : Prop where
  traces : db₁.traces = db₂.traces
  sessionScores : db₁.sessionScores = db₂.sessionScores
  runs : db₁.runs = db₂.runs
  scores : db₁.scores.filter (fun r => r.projectId == projectId) =
    db₂.scores.filter (fun r => r.projectId == projectId)

/-- The numbers the stored scores of a state offer to a run. -/
def offered (env : EvalEnv F) (task : SessionTask) (db : EvalDb F) :
    List (String × SessionSignals F) × Bool :=
  reusable (readSignal env (keptScores task db.scores)) db.traces task.projectId task.sessionIds

/-- The run exists in the task's project. -/
def Found (task : SessionTask) (db : EvalDb F) : Prop :=
  ∃ run, db.runs task.runId = some run ∧ run.projectId = task.projectId

/-- The loop of a run on a state. -/
def loopOn (env : EvalEnv F) (answers : Answers F) (task : SessionTask) (db : EvalDb F)
    (run : EvalRun F) : EvalProgress F × Bool :=
  sessionLoop env answers task (frozen (readSignal env (keptScores task db.scores))) db.traces
    task.sessionIds ⟨[], keptSessionScores task db.sessionScores, started run, 0, []⟩

theorem runSessionEval_found {db : EvalDb F} {run : EvalRun F}
    (hrun : db.runs task.runId = some run) (hproj : run.projectId = task.projectId) :
    runSessionEval env answers task db =
      some ⟨if (loopOn env answers task db run).2 then (loopOn env answers task db run).1 else
        { (loopOn env answers task db run).1 with
          run := { (loopOn env answers task db run).1.run with
            status := .completed, errorMessage := none,
            completedAt := some (env.clock (loopOn env answers task db run).1.tick) } },
        (loopOn env answers task db run).2⟩ := by
  have hfrozen := @sessionLoop_frozen F env answers task (keptScores task db.scores) db.traces
    db.traces_nodup task.sessionIds task.sessionIds_nodup
    ⟨[], keptSessionScores task db.sessionScores, started run, 0, []⟩
    (by intro row hrow; cases hrow)
  simp only [runSessionEval, hrun, if_pos hproj]
  have hlive : (fun created => readSignal env (keptScores task db.scores ++ created)) =
      live env (keptScores task db.scores) := rfl
  rw [hlive, hfrozen]
  rfl

theorem runSessionEval_missing {db : EvalDb F} (h : ¬ Found task db) :
    runSessionEval env answers task db = none := by
  unfold runSessionEval
  split
  next => rfl
  next run hrun =>
    split
    next hproj => exact absurd ⟨run, hrun, hproj⟩ h
    next => rfl

/-- **Session evaluation under foreign scores.**  Take two states that differ only in
trace scores of other projects.  A run records the same signals and session scores on
both, for all LLM answers and failures, if and only if the stored scores offer it the
same numbers on both. -/
theorem same_records_iff {db₁ db₂ : EvalDb F} (h : DifferOnlyForeign task.projectId db₁ db₂) :
    (∀ answers, runSessionEval env answers task db₁ = runSessionEval env answers task db₂) ↔
      (Found task db₁ → offered env task db₁ = offered env task db₂) := by
  constructor
  · rintro hsame ⟨run, hrun, hproj⟩
    -- with no answers, a run records exactly the numbers it was offered
    have hs := hsame silent
    rw [runSessionEval_found hrun hproj, runSessionEval_found (h.runs ▸ hrun) hproj] at hs
    have hsignals := congrArg (fun r => r.map (fun r => r.progress.signals)) hs
    have haborted := congrArg (fun r => r.map Records.aborted) hs
    simp only [Option.map_some, Option.some.injEq] at hsignals haborted
    have hfst : (loopOn env silent task db₁ run).1.signals =
        (loopOn env silent task db₂ run).1.signals := by
      split at hsignals <;> split at hsignals <;> exact hsignals
    simp only [loopOn, sessionLoop_silent.1, sessionLoop_silent.2, List.nil_append]
      at hfst haborted
    exact Prod.ext hfst haborted
  · intro hoff answers
    by_cases hfound : Found task db₁
    · obtain ⟨run, hrun, hproj⟩ := id hfound
      have hloop : loopOn env answers task db₁ run = loopOn env answers task db₂ run := by
        have hreads := hoff hfound
        simp only [offered, h.traces] at hreads
        simp only [loopOn, h.traces, h.sessionScores]
        exact sessionLoop_congr hreads
      rw [runSessionEval_found hrun hproj, runSessionEval_found (h.runs ▸ hrun) hproj, hloop]
    · have hmiss : ¬ Found task db₂ := by
        rintro ⟨run, hrun, hproj⟩
        exact hfound ⟨run, h.runs ▸ hrun, hproj⟩
      rw [runSessionEval_missing hfound, runSessionEval_missing hmiss]

/-! ## A foreign score on a trace of the session -/

/-- Rational numbers for floats, with the texts `0.0` and `1.0`. -/
def sampleEnv : EvalEnv ℚ where
  float v := if v = "1.0" then some 1 else if v = "0.0" then some 0 else none
  inUnit x := decide (0 ≤ x ∧ x ≤ 1)
  render x := if x = 1 then "1.0" else "0.0"
  invalidText v := "Value error: " ++ v
  sessionMetric name _ traces weights signals :=
    if name = "agent_reliability" then
      .ok (SessionMetrics.agentReliability (fun x => .num ⌊x * 10000⌋ 4) traces weights signals)
    else .error name
  clock n := n
  freshId n := toString n

/-- A trace of project `A` in session `s`. -/
def sampleTrace : Trace :=
  ⟨"t", "A", "agent", .completed, .null, .null, fun _ => none, 0, none, some "s", none, [], none,
    none, []⟩

/-- Project `A` with that trace, no scores, and a run of `agent_reliability`. -/
def sampleDb : EvalDb ℚ where
  traces := [sampleTrace]
  scores := []
  sessionScores := []
  runs := fun i => if i = "run" then
    some ⟨"A", ["agent_reliability"], none, none, .pending, 0, 0, none, none⟩ else none
  traces_nodup := by decide

/-- The run on session `s`. -/
def sampleTask : SessionTask := ⟨"run", "A", ["s"], by decide⟩

/-- An LLM that finds nothing wrong. -/
def pleased : Answers ℚ := fun _ _ _ _ => .ok ⟨1, none, fun _ => none⟩

/-- The session scores a run records. -/
def recordedValues (r : Option (Records ℚ)) : Option (List (Option String)) :=
  r.map (fun r => r.progress.sessionScores.map SessionScore.value)

/-- The state after project `B` scored that trace under a name. -/
def scoredByB (name : String) : EvalDb ℚ :=
  (sampleDb.createScore sampleEnv "B" "t" name "0.0" .numeric .programmatic none (fun _ => none)
    "score" 7).getD sampleDb

theorem scoredByB_differs (name : String) : DifferOnlyForeign "A" sampleDb (scoredByB name) :=
  ⟨rfl, rfl, rfl, rfl⟩

/-- Under a name that is no signal's, the score changes nothing. -/
theorem same_records_iff_other_name :
    runSessionEval sampleEnv pleased sampleTask sampleDb =
      runSessionEval sampleEnv pleased sampleTask (scoredByB "quality") := by
  refine (@same_records_iff ℚ sampleEnv sampleTask _ _ (scoredByB_differs "quality")).mpr ?_ pleased
  intro _
  have hreads : readSignal sampleEnv (keptScores sampleTask (scoredByB "quality").scores) =
      readSignal sampleEnv (keptScores sampleTask sampleDb.scores) := by
    funext t s
    refine @readSignal_append ℚ sampleEnv [] _ t s ?_
    intro row hrow _
    rw [List.mem_singleton.mp hrow]
    cases s <;> decide
  simp only [offered, hreads]
  rfl

/-- **A foreign score decides the session score.**  The LLM scores every signal of the
session's only trace with `1`, and the session is reliable; project `B` posts a
`confidence` of `0` for that trace, and the same run records `0`. -/
theorem foreign_score_changes_session_score :
    DifferOnlyForeign "A" sampleDb (scoredByB "confidence") ∧
    recordedValues (runSessionEval sampleEnv pleased sampleTask sampleDb) = some [some "1.0"] ∧
    recordedValues (runSessionEval sampleEnv pleased sampleTask (scoredByB "confidence")) =
      some [some "0.0"] := by
  refine ⟨scoredByB_differs "confidence", ?_, ?_⟩ <;> decide +kernel

end SessionEval
end PandaProbe
