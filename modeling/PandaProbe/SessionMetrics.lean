import Mathlib.Algebra.Order.Floor.Ring
import Mathlib.Data.Rat.Floor
import Mathlib.Tactic.Linarith
import Mathlib.Tactic.NormNum
import PandaProbe.SessionEval

/-! # The session metrics

`AgentReliabilityMetric.evaluate`: the per-trace risks of a session, composed by the
mean of the worst few and the worst one.  `AgentConsistencyMetric.evaluate`: the root mean
square of the traces' uncertainties, each amplified by the trace's other risks.  The arithmetic
is that of a linearly ordered field with a floor, exact where Python's floats round; `num`
writes a number as JSON and `sqrt` is the square root.
-/
namespace PandaProbe
namespace SessionMetrics
variable {K : Type} [Field K] [LinearOrder K] [FloorRing K]

/-- Python's `round` to an integer: halves go to the even neighbour. -/
def roundHalfEven (x : K) : ℤ :=
  let n := ⌊x⌋
  let frac := x - n
  if frac < 1 / 2 then n else if 1 / 2 < frac then n + 1 else if n % 2 = 0 then n else n + 1

/-- `round(x, 4)`. -/
def round4 (x : K) : K := (roundHalfEven (x * 10000) : K) / 10000

/-- `DEFAULT_SIGNAL_WEIGHTS`. -/
def defaultWeight : Signal → K
  | .confidence => 1
  | .loopDetection => 1
  | .toolCorrectness => 4 / 5
  | .coherence => 1

/-- The weight of a signal, with the run's overrides. -/
def weight (overrides : Option (List (String × K))) (s : Signal) : K :=
  ((overrides.getD []).lookup s.name).getD (defaultWeight s)

/-- The weights as reported: every signal's, and the overrides of other names. -/
def weightsJson (num : K → Json) (overrides : Option (List (String × K))) : Json :=
  .obj (signalMetrics.map (fun s => (s.name, num (weight overrides s))) ++
    ((overrides.getD []).filter (fun x => !(signalMetrics.map Signal.name).contains x.1)).map
      (fun x => (x.1, num x.2)))

/-- The order in which the metric looks at the signals of a trace, with the name each
risk is reported under. -/
def riskOrder : List (Signal × String) :=
  [(.confidence, "confidence_risk"), (.loopDetection, "loop_risk"),
    (.toolCorrectness, "tool_risk"), (.coherence, "coherence_risk")]

/-- The weighted risks of a trace's signals. -/
def riskComponents (w : Signal → K) (signals : Signals K) : List K :=
  riskOrder.filterMap (fun x => (signals x.1).map (fun v => w x.1 * (1 - v)))

/-- The risk of a trace: its largest weighted risk, if it has a signal. -/
def stepRisk (w : Signal → K) (signals : Signals K) : Option K := (riskComponents w signals).max?

/-- The reported details of a trace. -/
def riskDetail (num : K → Json) (signals : Signals K) (risk : K) : Json :=
  .obj (riskOrder.filterMap (fun x =>
    (signals x.1).map (fun v => (x.2, num (round4 (1 - v))))) ++ [("step_risk", num (round4 risk))])

/-- The traces that have a number, with it: a trace without signals of its own is skipped. -/
def evaluated (value : Signals K → Option K) (traces : List Trace) (signals : SessionSignals K) :
    List (UUID × Signals K × K) :=
  traces.filterMap fun tr => (signals.lookup tr.traceId).bind fun own =>
    (value own).map fun r => (tr.traceId, own, r)

/-- `k = max(1, ceil(n * TOP_K_PERCENTILE))`. -/
def topK (n : Nat) : Nat := max 1 (⌈(n : K) * (15 / 100)⌉.toNat)

/-- The mean of the worst few risks. -/
def meanTopK (sorted : List K) : K :=
  (sorted.take (topK (K := K) sorted.length)).sum / (topK (K := K) sorted.length : K)

/-- The composed risk of a session's risks, worst first. -/
def rawRisk (sorted : List K) : K :=
  (1 - 1 / 10) * meanTopK sorted + 1 / 10 * sorted.headD 0

/-- `AgentReliabilityMetric.evaluate`. -/
def agentReliability (num : K → Json) (traces : List Trace)
    (signalWeights : Option (List (String × K))) (signals : SessionSignals K) : MetricResult K :=
  if signals = [] ∨ traces = [] then
    ⟨1, some "No traces or signals to evaluate.", fun k =>
      if k = "note" then some (.str "empty_session") else none⟩
  else
    let w := weight signalWeights
    let rs := evaluated (stepRisk w) traces signals
    if rs = [] then ⟨1, some "No evaluable traces.", fun _ => none⟩
    else
      let sorted := (rs.map (fun x => x.2.2)).insertionSort (fun a b => b ≤ a)
      let raw := rawRisk sorted
      let flagged := rs.filter (fun x => 1 / 2 < x.2.2)
      let reason :=
        if flagged = [] then "No elevated risk across " ++ toString rs.length ++ " traces."
        else "Elevated risk in " ++ toString flagged.length ++ " of " ++ toString rs.length ++
          " traces."
      ⟨round4 (max 0 (min 1 (1 - raw))), some reason, fun k =>
        [("total_traces_in_session", Json.num traces.length 0),
          ("traces_evaluated", Json.num rs.length 0),
          ("raw_risk", num (round4 raw)),
          ("signal_weights", weightsJson num signalWeights),
          ("per_trace_signals", .obj (rs.map (fun x => (x.1, riskDetail num x.2.1 x.2.2)))),
          ("flagged_traces", .arr (flagged.map (fun x => .str x.1))),
          ("aggregation", .obj [("method", .str "max_compose_top_k"),
            ("top_k_percentile", num (15 / 100)), ("ensemble_weight", num (1 / 10)),
            ("mean_top_k_risk", num (round4 (meanTopK sorted))),
            ("max_risk", num (round4 (sorted.headD 0)))])].lookup k⟩

/-- The signals that amplify the uncertainty of a trace. -/
def penaltyOrder : List Signal := [.loopDetection, .toolCorrectness, .coherence]

/-- The sum of the other weighted risks of a trace. -/
def penalty (w : Signal → K) (signals : Signals K) : K :=
  (penaltyOrder.filterMap (fun s => (signals s).map (fun v => w s * (1 - v)))).sum

/-- The uncertainty of a trace, if it has a confidence. -/
def weightedUncertainty (w : Signal → K) (signals : Signals K) : Option K :=
  (signals .confidence).map fun v => (1 + penalty w signals) * (w .confidence * (1 - v))

/-- The reported details of a trace. -/
def uncertaintyDetail (num : K → Json) (w : Signal → K) (signals : Signals K) (wu : K) : Json :=
  .obj (riskOrder.filterMap (fun x =>
    (signals x.1).map (fun v => (x.2, num (round4 (1 - v))))) ++
      [("situational_penalty", num (round4 (penalty w signals))),
        ("weighted_uncertainty", num (round4 wu))])

/-- The root mean square. -/
def rootMeanSquare (sqrt : K → K) (l : List K) : K :=
  sqrt ((l.map (fun wu => wu ^ 2)).sum / (l.length : K))

/-- `AgentConsistencyMetric.evaluate`. -/
def agentConsistency (num : K → Json) (sqrt : K → K) (traces : List Trace)
    (signalWeights : Option (List (String × K))) (signals : SessionSignals K) : MetricResult K :=
  if signals = [] ∨ traces = [] then
    ⟨1, some "No traces or signals to evaluate.", fun k =>
      if k = "note" then some (.str "empty_session") else none⟩
  else
    let w := weight signalWeights
    let us := evaluated (weightedUncertainty w) traces signals
    if us = [] then ⟨1, some "No evaluable traces.", fun _ => none⟩
    else
      let rms := rootMeanSquare sqrt (us.map (fun x => x.2.2))
      let score := round4 (max 0 (min 1 (1 - rms)))
      let reason :=
        if 4 / 5 ≤ score then "Consistent performance across " ++ toString us.length ++ " traces."
        else if 1 / 2 ≤ score then
          "Moderate instability detected across " ++ toString us.length ++ " traces."
        else "High instability across " ++ toString us.length ++
          " traces; multiple signals compound."
      ⟨score, some reason, fun k =>
        [("total_traces_in_session", Json.num traces.length 0),
          ("traces_evaluated", Json.num us.length 0),
          ("raw_instability", num (round4 rms)),
          ("signal_weights", weightsJson num signalWeights),
          ("per_trace_signals",
            .obj (us.map (fun x => (x.1, uncertaintyDetail num w x.2.1 x.2.2)))),
          ("aggregation", .obj [("method", .str "weighted_rms"),
            ("rms_value", num (round4 rms))])].lookup k⟩

/-! ## Rounding -/

section Rounding
variable [IsStrictOrderedRing K]

theorem roundHalfEven_near (x : K) : |(roundHalfEven x : K) - x| ≤ 1 / 2 := by
  have hlo := Int.floor_le x
  have hhi := Int.lt_floor_add_one x
  simp only [roundHalfEven]
  rw [abs_le]
  split_ifs <;> push_cast <;> constructor <;> linarith

omit [IsStrictOrderedRing K] in
/-- It is the floor or the next integer. -/
theorem roundHalfEven_cases (x : K) : roundHalfEven x = ⌊x⌋ ∨ roundHalfEven x = ⌊x⌋ + 1 := by
  simp only [roundHalfEven]
  split_ifs <;> simp

theorem roundHalfEven_intCast (n : ℤ) : roundHalfEven (n : K) = n := by
  simp [roundHalfEven]

theorem roundHalfEven_mono {x y : K} (h : x ≤ y) : roundHalfEven x ≤ roundHalfEven y := by
  rcases (Int.floor_mono h).lt_or_eq with hlt | heq
  · rcases roundHalfEven_cases x with hx | hx <;> rcases roundHalfEven_cases y with hy | hy <;> omega
  · simp only [roundHalfEven, heq]
    have hfrac : x - (⌊y⌋ : K) ≤ y - (⌊y⌋ : K) := by linarith
    split_ifs <;> first | omega | linarith

theorem round4_mono {x y : K} (h : x ≤ y) : round4 x ≤ round4 y := by
  have hround := roundHalfEven_mono (show x * 10000 ≤ y * 10000 by linarith)
  exact div_le_div_of_nonneg_right (Int.cast_le.mpr hround) (by norm_num)

theorem round4_zero : round4 (0 : K) = 0 := by
  have h := roundHalfEven_intCast (K := K) 0
  rw [Int.cast_zero] at h
  rw [round4, zero_mul, h, Int.cast_zero, zero_div]

theorem round4_one : round4 (1 : K) = 1 := by
  have h := roundHalfEven_intCast (K := K) 10000
  rw [round4, one_mul, show (10000 : K) = ((10000 : ℤ) : K) by norm_num, h]
  norm_num

/-- A rounded number of the unit interval is in it. -/
theorem round4_unit {x : K} (h : 0 ≤ x) (h' : x ≤ 1) : 0 ≤ round4 x ∧ round4 x ≤ 1 := by
  have hlo := round4_mono h
  have hhi := round4_mono h'
  rw [round4_zero] at hlo
  rw [round4_one] at hhi
  exact ⟨hlo, hhi⟩

end Rounding

end SessionMetrics
end PandaProbe
