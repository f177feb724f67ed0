import PandaProbe.SessionAggregates
import PandaProbe.SessionIsolation

/-! # One catastrophic trace in a session

With the default weights a trace whose confidence is 0 has step risk 1.  The score of
`agent_reliability` should then be below the metric's threshold.  The mean it is made of is taken
over `max(1, ceil(0.15 n))` traces, so in a long session the trace is diluted.

`catastrophe_sinks_iff`: the score is below the threshold if and only if some choice of that many
traces risks more than 0.4445 on the average.  With 13 traces or fewer the one trace is enough;
`fourteen_traces` has it among 14 whose others are fine.
-/
namespace PandaProbe
namespace SessionMetrics
variable {K : Type} [Field K] [LinearOrder K] [FloorRing K]

/-- The step risks of a session's evaluated traces, with the default weights. -/
def stepRisks (traces : List Trace) (signals : SessionSignals K) : List K :=
  traces.filterMap fun tr => (signals.lookup tr.traceId).bind (stepRisk (weight none))

variable [IsStrictOrderedRing K]

/-! ## Rounding at the threshold -/

theorem roundHalfEven_lt_iff {x : K} : roundHalfEven x < 5000 ↔ x < 9999 / 2 := by
  constructor
  · intro h
    by_contra hge
    have hfloor : ⌊(9999 / 2 : K)⌋ = 4999 := by
      rw [Int.floor_eq_iff]
      norm_num
    have hhalf : roundHalfEven (9999 / 2 : K) = 5000 := by
      simp only [roundHalfEven, hfloor]
      norm_num
    have hmono := roundHalfEven_mono (not_lt.mp hge)
    omega
  · intro h
    have hnear := (abs_le.mp (roundHalfEven_near x)).2
    have hlt : (roundHalfEven x : K) < ((5000 : ℤ) : K) := by
      push_cast
      linarith
    exact_mod_cast hlt

/-- **Below the threshold** once rounded. -/
theorem clampScore_lt_half_iff {raw : K} : clampScore raw < 1 / 2 ↔ 50005 / 100000 < raw := by
  have hround : ∀ x : K, round4 x < 1 / 2 ↔ x < 49995 / 100000 := by
    intro x
    have hscaled : round4 x < 1 / 2 ↔ (roundHalfEven (x * 10000) : K) < ((5000 : ℤ) : K) := by
      rw [round4, div_lt_iff₀ (by norm_num)]
      norm_num
    rw [hscaled, Int.cast_lt, roundHalfEven_lt_iff]
    constructor <;> intro h <;> linarith
  rw [clampScore, hround, max_lt_iff, min_lt_iff]
  constructor
  · rintro ⟨-, h | h⟩
    · norm_num at h
    · linarith
  · intro h
    exact ⟨by norm_num, Or.inr (by linarith)⟩

/-! ## Risks of a trace -/

theorem weight_none_unit (s : Signal) : 0 ≤ (weight none s : K) ∧ (weight none s : K) ≤ 1 := by
  cases s <;> norm_num [weight, defaultWeight]

/-- With the default weights a step risk is in the unit interval. -/
theorem stepRisk_unit {own : Signals K} (h : ∀ s v, own s = some v → 0 ≤ v ∧ v ≤ 1) {r : K}
    (hr : stepRisk (weight none) own = some r) : 0 ≤ r ∧ r ≤ 1 := by
  obtain ⟨hmem, -⟩ := List.max?_eq_some_iff.mp hr
  obtain ⟨x, -, hx⟩ := List.mem_filterMap.mp hmem
  obtain ⟨v, hv, rfl⟩ := Option.map_eq_some_iff.mp hx
  obtain ⟨hw, hw'⟩ := weight_none_unit (K := K) x.1
  obtain ⟨hlo, hhi⟩ := h x.1 v hv
  refine ⟨mul_nonneg hw (by linarith), ?_⟩
  calc weight none x.1 * (1 - v) ≤ 1 * 1 :=
        mul_le_mul hw' (by linarith) (by linarith) zero_le_one
    _ = 1 := one_mul 1

theorem unit_of_mem_stepRisks {traces : List Trace} {signals : SessionSignals K}
    (h : InUnit signals) {r : K} (hr : r ∈ stepRisks traces signals) : 0 ≤ r ∧ r ≤ 1 := by
  obtain ⟨tr, -, hr⟩ := List.mem_filterMap.mp hr
  obtain ⟨own, hown, hr⟩ := Option.bind_eq_some_iff.mp hr
  exact stepRisk_unit (inUnit_lookup h hown) hr

/-! ## The score of a session with a catastrophic trace -/

omit [IsStrictOrderedRing K] in
theorem one_le_topK (n : Nat) : 1 ≤ topK (K := K) n := Nat.le_max_left _ _

theorem topK_le {n : Nat} (hn : 0 < n) : topK (K := K) n ≤ n := by
  have hceil : ⌈(n : K) * (15 / 100)⌉ ≤ (n : ℤ) := by
    have hn' : (0 : K) ≤ n := Nat.cast_nonneg n
    rw [Int.ceil_le]
    push_cast
    linarith
  unfold topK
  omega

/-- Of up to 13 traces at most two are taken. -/
theorem topK_le_two {n : Nat} (hn : n ≤ 13) : topK (K := K) n ≤ 2 := by
  have hceil : ⌈(n : K) * (15 / 100)⌉ ≤ 2 := by
    have hn' : (n : K) ≤ 13 := by exact_mod_cast hn
    rw [Int.ceil_le]
    push_cast
    linarith
  unfold topK
  omega

/-- The score in terms of the sum of the worst few, where the worst is 1. -/
theorem reliabilityOf_lt_half_iff {risks : List K} (hle : ∀ r ∈ risks, r ≤ 1) (hone : 1 ∈ risks) :
    reliabilityOf risks < 1 / 2 ↔
      4445 / 10000 * (topK (K := K) risks.length : K) <
        TopK.sumTop (topK (K := K) risks.length) risks := by
  have hne : risks ≠ [] := List.ne_nil_of_mem hone
  have hhead : (TopK.descending risks).headD 0 = 1 :=
    le_antisymm (hle _ (TopK.headD_mem hne)) (TopK.le_headD hone)
  have hpos : (0 : K) < topK (K := K) risks.length := by
    exact_mod_cast one_le_topK (K := K) risks.length
  rw [reliabilityOf, if_neg hne, clampScore_lt_half_iff, rawRisk, hhead, meanTopK,
    TopK.length_descending, ← TopK.sumTop, ← lt_div_iff₀ hpos]
  constructor <;> intro h <;> linarith

/-- **Exactly when one catastrophic trace sinks reliability.**  In exact arithmetic, for signals
in the unit interval and the default weights: if a trace of the session has step risk 1, the
score is below the threshold if and only if some `max(1, ceil(0.15 n))` of the `n` evaluated
traces have step risks that add up to more than 0.4445 each.  Of at most 13 traces the
catastrophic one is enough. -/
theorem catastrophe_sinks_iff (num : K → Json) {traces : List Trace} {signals : SessionSignals K}
    (hunit : InUnit signals)
    (hone : ∃ tr ∈ traces, (signals.lookup tr.traceId).bind (stepRisk (weight none)) = some 1) :
    ((agentReliability num traces none signals).score < 1 / 2 ↔
      ∃ worst : List K, worst.Subperm (stepRisks traces signals) ∧
        worst.length = topK (K := K) (stepRisks traces signals).length ∧
        4445 / 10000 * (worst.length : K) < worst.sum) ∧
    ((stepRisks traces signals).length ≤ 13 →
      (agentReliability num traces none signals).score < 1 / 2) := by
  obtain ⟨tr, htr, hrisk⟩ := hone
  have hmem : (1 : K) ∈ stepRisks traces signals := List.mem_filterMap.mpr ⟨tr, htr, hrisk⟩
  have hscore : (agentReliability num traces none signals).score =
      reliabilityOf (stepRisks traces signals) := by
    have hsignals : ¬ (signals = [] ∨ traces = []) := by
      rintro (rfl | rfl)
      · cases hrisk
      · cases htr
    rw [score_agentReliability, pooled, if_neg hsignals]
    rfl
  have hunit' := fun r (hr : r ∈ stepRisks traces signals) => unit_of_mem_stepRisks hunit hr
  have hsum : (agentReliability num traces none signals).score < 1 / 2 ↔
      4445 / 10000 * (topK (K := K) (stepRisks traces signals).length : K) <
        TopK.sumTop (topK (K := K) (stepRisks traces signals).length) (stepRisks traces signals) := by
    rw [hscore, reliabilityOf_lt_half_iff (fun r hr => (hunit' r hr).2) hmem]
  refine ⟨hsum.trans ⟨fun h => ?_, ?_⟩, fun hn => hsum.mpr ?_⟩
  · obtain ⟨worst, hsub, hlength, hworst⟩ :=
      TopK.exists_selection (topK_le (K := K) (List.length_pos_of_mem hmem))
    exact ⟨worst, hsub, hlength, by rwa [hworst, hlength]⟩
  · rintro ⟨worst, hsub, hlength, hworst⟩
    have hle := TopK.sum_le_sumTop hsub
    rw [hlength] at hle hworst
    exact lt_of_lt_of_le hworst hle
  · -- the catastrophic trace alone is worth two of 0.4445
    have hone := TopK.le_sumTop (one_le_topK (K := K) (stepRisks traces signals).length)
      (fun r hr => (hunit' r hr).1) hmem
    have htwo : (topK (K := K) (stepRisks traces signals).length : K) ≤ 2 := by
      exact_mod_cast topK_le_two (K := K) hn
    linarith

/-! ## Fourteen traces -/

/-- `n` traces, the first without any confidence and the others fully confident. -/
def oneBad (n : Nat) : List Trace :=
  (List.range n).map fun i => { SessionEval.sampleTrace with traceId := toString i }

/-- Their signals. -/
def oneBadSignals (n : Nat) : SessionSignals ℚ :=
  (List.range n).map fun i =>
    (toString i, fun s => if s = .confidence then some (if i = 0 then 0 else 1) else none)

theorem inUnit_oneBad (n : Nat) : InUnit (oneBadSignals n) := by
  intro x hx s v hv
  obtain ⟨i, -, rfl⟩ := List.mem_map.mp hx
  by_cases hs : s = .confidence
  · by_cases hi : i = 0
    · have hzero : (0 : ℚ) = v := by simpa [hs, hi] using hv
      subst hzero
      norm_num
    · have hone : (1 : ℚ) = v := by simpa [hs, hi] using hv
      subst hone
      norm_num
  · simp [hs] at hv

/-- How the sample writes a number. -/
def writeRat (x : ℚ) : Json := .num ⌊x * 10000⌋ 4

/-- Of 13 traces the bad one is enough. -/
theorem catastrophe_sinks_thirteen :
    (agentReliability writeRat (oneBad 13) none (oneBadSignals 13)).score < 1 / 2 :=
  (catastrophe_sinks_iff writeRat (inUnit_oneBad 13)
    ⟨_, List.mem_cons_self, by decide +kernel⟩).2 (by decide +kernel)

/-- **Of 14 it is not**: the score is 0.6. -/
theorem fourteen_traces : ¬ ∀ (traces : List Trace) (signals : SessionSignals ℚ),
    InUnit signals →
    (∃ tr ∈ traces, (signals.lookup tr.traceId).bind (stepRisk (weight none)) = some 1) →
    (agentReliability writeRat traces none signals).score < 1 / 2 := by
  intro h
  have hscore := h (oneBad 14) (oneBadSignals 14) (inUnit_oneBad 14)
    ⟨_, List.mem_cons_self, by decide +kernel⟩
  revert hscore
  decide +kernel

end SessionMetrics
end PandaProbe
