import Mathlib.Analysis.Real.Sqrt
import Mathlib.Data.Option.Basic
import PandaProbe.SessionMetrics
import PandaProbe.TopK

/-! # Session metrics as aggregates

A session metric takes a number from the signals of each trace and pools the numbers
(`pooled`).  What is asked of it is that its score is in the unit interval, does not depend on
the order of the traces, and does not fall when a signal is raised (`WellBehaved`).

It is enough that the number of a trace does not rise with its signals and that the pool forgets
the order and does not rise with the numbers (`Pooled.wellBehaved`).  Both metrics are of this
kind for weights that are not negative: the one pools by the worst few, the other by the root
mean square (`session_metrics_well_behaved`).
-/
namespace PandaProbe
namespace SessionMetrics
variable {K : Type}

/-- One signal of one trace gets another value. -/
def setSignal (signals : SessionSignals K) (traceId : UUID) (s : Signal) (v : K) :
    SessionSignals K :=
  signals.map fun x => if x.1 = traceId then (x.1, Function.update x.2 s (some v)) else x

theorem lookup_setSignal (signals : SessionSignals K) (traceId i : UUID) (s : Signal) (v : K) :
    (setSignal signals traceId s v).lookup i = (signals.lookup i).map fun own =>
      if i = traceId then Function.update own s (some v) else own := by
  induction signals with
  | nil => rfl
  | cons x signals ih =>
    obtain ⟨j, own⟩ := x
    unfold setSignal at ih ⊢
    rw [List.map_cons]
    by_cases hi : i = j
    · subst hi
      by_cases hx : i = traceId
      · rw [if_pos hx, List.lookup_cons_self, List.lookup_cons_self, Option.map_some, if_pos hx]
      · rw [if_neg hx, List.lookup_cons_self, List.lookup_cons_self, Option.map_some, if_neg hx]
    · have hne : (i == j) = false := by simpa using hi
      by_cases hx : j = traceId
      · rw [if_pos hx, List.lookup_cons, List.lookup_cons, hne, ih]
      · rw [if_neg hx, List.lookup_cons, List.lookup_cons, hne, ih]

/-- The numbers of the evaluated traces. -/
theorem map_evaluated (value : Signals K → Option K) (traces : List Trace)
    (signals : SessionSignals K) :
    (evaluated value traces signals).map (fun x => x.2.2) =
      traces.filterMap fun tr => (signals.lookup tr.traceId).bind value := by
  rw [evaluated, List.map_filterMap]
  refine List.filterMap_congr fun tr _ => ?_
  cases signals.lookup tr.traceId with
  | none => rfl
  | some own =>
    simp only [Option.bind_some, Option.map_map]
    exact Option.map_id'

theorem filterMap_rel {α β : Type} {r : β → β → Prop} {f g : α → Option β} {l : List α}
    (h : ∀ a ∈ l, Option.Rel r (f a) (g a)) : List.Forall₂ r (l.filterMap f) (l.filterMap g) := by
  induction l with
  | nil => exact .nil
  | cons a l ih =>
    have hl := ih fun b hb => h b (List.mem_cons_of_mem a hb)
    have ha := h a List.mem_cons_self
    rw [List.filterMap_cons, List.filterMap_cons]
    revert ha
    generalize f a = x, g a = y
    rintro (hxy | _)
    · exact .cons hxy hl
    · exact hl

theorem exists_of_mem_left {r : K → K → Prop} {l l' : List K} (h : List.Forall₂ r l l') {a : K}
    (ha : a ∈ l) : ∃ b ∈ l', r a b := by
  induction h with
  | nil => cases ha
  | cons hab _ ih =>
    rcases List.mem_cons.mp ha with rfl | ha
    · exact ⟨_, List.mem_cons_self, hab⟩
    · obtain ⟨b, hb, hab⟩ := ih ha
      exact ⟨b, List.mem_cons_of_mem _ hb, hab⟩

variable [Field K] [LinearOrder K]

/-! ## What is asked of a metric -/

/-- Every signal that is there is in the unit interval. -/
def InUnit (signals : SessionSignals K) : Prop :=
  ∀ x ∈ signals, ∀ s v, x.2 s = some v → 0 ≤ v ∧ v ≤ 1

/-- **A well-behaved score**: in the unit interval, the same for any order of the traces, and no
lower when a signal that is there is raised. -/
structure WellBehaved (score : List Trace → SessionSignals K → K) : Prop where
  unit : ∀ traces signals, InUnit signals → 0 ≤ score traces signals ∧ score traces signals ≤ 1
  perm : ∀ traces traces' signals, traces.Perm traces' →
    score traces signals = score traces' signals
  raised : ∀ traces signals traceId s v v', InUnit signals →
    ((signals.lookup traceId).bind fun own => own s) = some v → v ≤ v' → v' ≤ 1 →
    score traces signals ≤ score traces (setSignal signals traceId s v')

/-! ## Pools -/

/-- Signals at least as good, the same ones there. -/
def Better (own own' : Signals K) : Prop :=
  ∀ s, Option.Rel (fun v v' => 0 ≤ v ∧ v ≤ v' ∧ v' ≤ 1) (own s) (own' s)

/-- The order of the numbers that are pooled. -/
def Lower (a b : K) : Prop := 0 ≤ a ∧ a ≤ b

/-- A score that pools a number of each trace. -/
def pooled (value : Signals K → Option K) (pool : List K → K) (traces : List Trace)
    (signals : SessionSignals K) : K :=
  if signals = [] ∨ traces = [] then 1
  else pool (traces.filterMap fun tr => (signals.lookup tr.traceId).bind value)

/-- What is asked of the number and of the pool. -/
structure Pooled (value : Signals K → Option K) (pool : List K → K) : Prop where
  value : ∀ own own', Better own own' → Option.Rel Lower (value own') (value own)
  unit : ∀ l, 0 ≤ pool l ∧ pool l ≤ 1
  perm : ∀ l l', l.Perm l' → pool l = pool l'
  anti : ∀ l l', List.Forall₂ Lower l l' → pool l' ≤ pool l

theorem better_refl {own : Signals K} (h : ∀ s v, own s = some v → 0 ≤ v ∧ v ≤ 1) :
    Better own own := by
  intro s
  cases hs : own s with
  | none => exact .none
  | some v => exact .some ⟨(h s v hs).1, le_refl v, (h s v hs).2⟩

/-- A raised signal makes its trace better. -/
theorem better_update {own : Signals K} (h : ∀ s v, own s = some v → 0 ≤ v ∧ v ≤ 1) {s : Signal}
    {v v' : K} (hs : own s = some v) (hle : v ≤ v') (hv' : v' ≤ 1) :
    Better own (Function.update own s (some v')) := by
  intro t
  by_cases ht : t = s
  · subst ht
    rw [Function.update_self, hs]
    exact .some ⟨(h t v hs).1, hle, hv'⟩
  · rw [Function.update_of_ne ht]
    exact better_refl h t

theorem inUnit_lookup {signals : SessionSignals K} (h : InUnit signals) {i : UUID}
    {own : Signals K} (hown : signals.lookup i = some own) :
    ∀ s v, own s = some v → 0 ≤ v ∧ v ≤ 1 := by
  obtain ⟨l₁, l₂, rfl, -⟩ := List.lookup_eq_some_iff.mp hown
  exact h (i, own) (by simp)

theorem max?_rel {l l' : List K} (h : List.Forall₂ Lower l l') : Option.Rel Lower l.max? l'.max? := by
  cases hl : l.max? with
  | none =>
    obtain rfl := List.max?_eq_none_iff.mp hl
    obtain rfl := List.forall₂_nil_left_iff.mp h
    exact .none
  | some a =>
    obtain ⟨ha, -⟩ := List.max?_eq_some_iff.mp hl
    obtain ⟨b, hb, hab⟩ := exists_of_mem_left h ha
    cases hl' : l'.max? with
    | none =>
      obtain rfl := List.max?_eq_none_iff.mp hl'
      cases hb
    | some c =>
      exact .some ⟨hab.1, le_trans hab.2 ((List.max?_eq_some_iff.mp hl').2 b hb)⟩

variable [IsStrictOrderedRing K]

/-- **A pool of numbers that do not rise with the signals is well-behaved.** -/
theorem Pooled.wellBehaved {value : Signals K → Option K} {pool : List K → K}
    (h : Pooled value pool) : WellBehaved (pooled value pool) where
  unit traces signals _ := by
    unfold pooled
    split
    · exact ⟨zero_le_one, le_refl 1⟩
    · exact h.unit _
  perm traces traces' signals hperm := by
    have hnil : traces = [] ↔ traces' = [] := by
      rw [← List.length_eq_zero_iff, hperm.length_eq, List.length_eq_zero_iff]
    unfold pooled
    simp only [hnil, h.perm _ _ (hperm.filterMap _)]
  raised traces signals traceId s v v' hunit hv hle hv' := by
    have hnil : setSignal signals traceId s v' = [] ↔ signals = [] := List.map_eq_nil_iff
    unfold pooled
    simp only [hnil]
    split
    · exact le_refl 1
    · refine h.anti _ _ (filterMap_rel fun tr _ => ?_)
      rw [lookup_setSignal]
      cases hown : signals.lookup tr.traceId with
      | none => exact .none
      | some own =>
        have hin := inUnit_lookup hunit hown
        by_cases htr : tr.traceId = traceId
        · rw [← htr, hown] at hv
          simp only [Option.map_some, Option.bind_some, if_pos htr]
          exact h.value _ _ (better_update hin hv hle hv')
        · simp only [Option.map_some, Option.bind_some, if_neg htr]
          exact h.value _ _ (better_refl hin)

/-! ## Numbers of a trace -/

/-- A weighted risk falls when its signal rises. -/
theorem weighted_rel {w : Signal → K} (hw : ∀ s, 0 ≤ w s) {own own' : Signals K}
    (h : Better own own') (s : Signal) :
    Option.Rel Lower ((own' s).map fun v => w s * (1 - v)) ((own s).map fun v => w s * (1 - v)) := by
  have hs := h s
  revert hs
  generalize own s = x, own' s = y
  rintro (⟨hv, hle, hv'⟩ | _)
  · exact .some ⟨mul_nonneg (hw s) (by linarith), mul_le_mul_of_nonneg_left (by linarith) (hw s)⟩
  · exact .none

theorem sum_lower {l l' : List K} (h : List.Forall₂ Lower l l') : Lower l.sum l'.sum := by
  induction h with
  | nil => exact ⟨le_refl 0, le_refl 0⟩
  | cons hab _ ih =>
    rw [List.sum_cons, List.sum_cons]
    exact ⟨add_nonneg hab.1 ih.1, add_le_add hab.2 ih.2⟩

/-- The risk of a trace falls when a signal rises. -/
theorem stepRisk_rel {w : Signal → K} (hw : ∀ s, 0 ≤ w s) {own own' : Signals K}
    (h : Better own own') : Option.Rel Lower (stepRisk w own') (stepRisk w own) :=
  max?_rel (filterMap_rel fun x _ => weighted_rel hw h x.1)

theorem penalty_lower {w : Signal → K} (hw : ∀ s, 0 ≤ w s) {own own' : Signals K}
    (h : Better own own') : Lower (penalty w own') (penalty w own) :=
  sum_lower (filterMap_rel fun s _ => weighted_rel hw h s)

/-- The uncertainty of a trace falls when a signal rises. -/
theorem weightedUncertainty_rel {w : Signal → K} (hw : ∀ s, 0 ≤ w s) {own own' : Signals K}
    (h : Better own own') :
    Option.Rel Lower (weightedUncertainty w own') (weightedUncertainty w own) := by
  obtain ⟨hp, hpp⟩ := penalty_lower hw h
  have hconf := h .confidence
  have hw := hw .confidence
  unfold weightedUncertainty
  revert hconf
  generalize own .confidence = x, own' .confidence = y
  rintro (⟨hv, hle, hv'⟩ | _)
  · refine .some ⟨mul_nonneg (by linarith) (mul_nonneg hw (by linarith)), ?_⟩
    exact mul_le_mul (by linarith) (mul_le_mul_of_nonneg_left (by linarith) hw)
      (mul_nonneg hw (by linarith)) (by linarith)
  · exact .none

/-! ## The two pools -/

variable [FloorRing K]

/-- `round(max(0.0, min(1.0, 1.0 - raw)), 4)`. -/
def clampScore (raw : K) : K := round4 (max 0 (min 1 (1 - raw)))

theorem clampScore_unit (raw : K) : 0 ≤ clampScore raw ∧ clampScore raw ≤ 1 :=
  round4_unit (le_max_left _ _) (max_le zero_le_one (min_le_left _ _))

theorem clampScore_anti {raw raw' : K} (h : raw ≤ raw') : clampScore raw' ≤ clampScore raw :=
  round4_mono (max_le_max_left _ (min_le_min_left _ (by linarith)))

/-- The pool of `agent_reliability`. -/
def reliabilityOf (risks : List K) : K :=
  if risks = [] then 1 else clampScore (rawRisk (TopK.descending risks))

/-- The pool of `agent_consistency`. -/
def consistencyOf (sqrt : K → K) (uncertainties : List K) : K :=
  if uncertainties = [] then 1 else clampScore (rootMeanSquare sqrt uncertainties)

omit [IsStrictOrderedRing K] in
/-- **The score of `agent_reliability`** pools the traces' risks. -/
theorem score_agentReliability (num : K → Json) (traces : List Trace)
    (overrides : Option (List (String × K))) (signals : SessionSignals K) :
    (agentReliability num traces overrides signals).score =
      pooled (stepRisk (weight overrides)) reliabilityOf traces signals := by
  unfold agentReliability pooled reliabilityOf
  rw [← map_evaluated]
  split
  · rfl
  · simp only [List.map_eq_nil_iff]
    split
    · rfl
    · rfl

omit [IsStrictOrderedRing K] in
/-- **The score of `agent_consistency`** pools the traces' uncertainties. -/
theorem score_agentConsistency (num : K → Json) (sqrt : K → K) (traces : List Trace)
    (overrides : Option (List (String × K))) (signals : SessionSignals K) :
    (agentConsistency num sqrt traces overrides signals).score =
      pooled (weightedUncertainty (weight overrides)) (consistencyOf sqrt) traces signals := by
  unfold agentConsistency pooled consistencyOf
  rw [← map_evaluated]
  split
  · rfl
  · simp only [List.map_eq_nil_iff]
    split
    · rfl
    · rfl

/-- The mean of the worst few grows with the risks, and so does the worst. -/
theorem rawRisk_mono {l l' : List K} (h : List.Forall₂ (· ≤ ·) l l') (hl : l ≠ []) :
    rawRisk (TopK.descending l) ≤ rawRisk (TopK.descending l') := by
  have hmean : meanTopK (TopK.descending l) ≤ meanTopK (TopK.descending l') := by
    have hsum := TopK.sumTop_mono h (topK (K := K) l.length)
    simp only [meanTopK, TopK.length_descending, ← h.length_eq]
    exact div_le_div_of_nonneg_right hsum (Nat.cast_nonneg _)
  have hhead : (TopK.descending l).headD 0 ≤ (TopK.descending l').headD 0 := by
    obtain ⟨b, hb, hab⟩ := exists_of_mem_left h (TopK.headD_mem (d := 0) hl)
    exact le_trans hab (TopK.le_headD hb)
  unfold rawRisk
  linarith

/-- `agent_reliability` pools numbers that do not rise with the signals. -/
theorem pooled_reliability {w : Signal → K} (hw : ∀ s, 0 ≤ w s) :
    Pooled (stepRisk w) reliabilityOf where
  value _ _ h := stepRisk_rel hw h
  unit l := by
    unfold reliabilityOf
    split
    · exact ⟨zero_le_one, le_refl 1⟩
    · exact clampScore_unit _
  perm l l' h := by
    have hnil : l = [] ↔ l' = [] := by
      rw [← List.length_eq_zero_iff, h.length_eq, List.length_eq_zero_iff]
    unfold reliabilityOf
    simp only [hnil, TopK.descending_eq_of_perm h]
  anti l l' h := by
    have hle : List.Forall₂ (· ≤ ·) l l' := h.imp fun _ _ hab => hab.2
    have hnil : l = [] ↔ l' = [] := by
      rw [← List.length_eq_zero_iff, h.length_eq, List.length_eq_zero_iff]
    unfold reliabilityOf
    by_cases hl : l = []
    · rw [if_pos hl, if_pos (hnil.mp hl)]
    · rw [if_neg hl, if_neg fun hl' => hl (hnil.mpr hl')]
      exact clampScore_anti (rawRisk_mono hle hl)

/-- The root mean square grows with the numbers. -/
theorem rootMeanSquare_mono {l l' : List ℝ} (h : List.Forall₂ Lower l l') :
    rootMeanSquare Real.sqrt l ≤ rootMeanSquare Real.sqrt l' := by
  have hsquares : List.Forall₂ (· ≤ ·) (l.map (fun wu => wu ^ 2)) (l'.map (fun wu => wu ^ 2)) := by
    rw [List.forall₂_map_left_iff, List.forall₂_map_right_iff]
    exact h.imp fun _ _ hab => pow_le_pow_left₀ hab.1 hab.2 2
  unfold rootMeanSquare
  rw [h.length_eq]
  exact Real.sqrt_le_sqrt (div_le_div_of_nonneg_right (TopK.sum_le_sum hsquares) (Nat.cast_nonneg _))

/-- So does `agent_consistency`. -/
theorem pooled_consistency {w : Signal → ℝ} (hw : ∀ s, 0 ≤ w s) :
    Pooled (weightedUncertainty w) (consistencyOf Real.sqrt) where
  value _ _ h := weightedUncertainty_rel hw h
  unit l := by
    unfold consistencyOf
    split
    · exact ⟨zero_le_one, le_refl 1⟩
    · exact clampScore_unit _
  perm l l' h := by
    have hnil : l = [] ↔ l' = [] := by
      rw [← List.length_eq_zero_iff, h.length_eq, List.length_eq_zero_iff]
    unfold consistencyOf rootMeanSquare
    simp only [hnil, (h.map _).sum_eq, h.length_eq]
  anti l l' h := by
    have hnil : l = [] ↔ l' = [] := by
      rw [← List.length_eq_zero_iff, h.length_eq, List.length_eq_zero_iff]
    unfold consistencyOf
    by_cases hl : l = []
    · rw [if_pos hl, if_pos (hnil.mp hl)]
    · rw [if_neg hl, if_neg fun hl' => hl (hnil.mpr hl')]
      exact clampScore_anti (rootMeanSquare_mono h)

/-- **Session metrics are well-behaved aggregates**, in exact arithmetic and for weights that
are not negative: their scores are in the unit interval, the same for any order of the traces,
and no lower when one signal of one trace is raised. -/
theorem session_metrics_well_behaved (num : ℝ → Json) {overrides : Option (List (String × ℝ))}
    (hw : ∀ s, 0 ≤ weight overrides s) :
    WellBehaved (fun traces signals => (agentReliability num traces overrides signals).score) ∧
    WellBehaved
      (fun traces signals => (agentConsistency num Real.sqrt traces overrides signals).score) := by
  simp only [score_agentReliability, score_agentConsistency]
  exact ⟨(pooled_reliability hw).wellBehaved, (pooled_consistency hw).wellBehaved⟩

/-- With the default weights. -/
theorem session_metrics_well_behaved_default :
    WellBehaved (fun traces signals =>
      (agentReliability (fun x => .num ⌊x * 10000⌋ 4) traces (none : Option (List (String × ℝ)))
        signals).score) ∧
    WellBehaved (fun traces signals =>
      (agentConsistency (fun x => .num ⌊x * 10000⌋ 4) Real.sqrt traces none signals).score) := by
  refine session_metrics_well_behaved _ fun s => ?_
  cases s <;> norm_num [weight, defaultWeight]

end SessionMetrics
end PandaProbe
